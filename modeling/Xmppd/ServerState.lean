import Mathlib.Data.Int.Notation
import Mathlib.Data.List.Nodup
import Xmppd.FileTree
import Xmppd.LibXml
import Xmppd.Util

/-!
# Sessions and the server state

The session record has the fields of the source, with two representations
chosen for the model. The node under construction is kept as the chain of open
elements from the current node up to the stanza root. The output buffer is kept
as the sequence of everything queued on it; draining it to the socket does not
change that sequence.

A session pointer is a number. The server hands out each number once, and the
table keeps the proof that no two of its sessions have the same one, so writing
through a pointer changes one table entry. The listener occupies index zero of
the source's table and has no session, so the list starts at index one.
-/
namespace Xmppd.ServerState
open CStrings FileTree LibXml Util

inductive State where
  | connected | streamOpened | authenticated | bound | sessionActive | disconnected
deriving DecidableEq, Repr

structure RosterItem where
  jid : Buf 512
  name : Buf 256
  subscription : Buf 16
  askSubscribe : Bool
deriving DecidableEq, Repr

def maxRosterItems : ℕ := 128

structure Roster where
  items : List RosterItem
  bound : items.length ≤ maxRosterItems
  loaded : Bool
deriving DecidableEq, Repr

def Roster.empty : Roster := ⟨[], by simp, false⟩

@[ext] theorem Roster.ext {a b : Roster} (hi : a.items = b.items) (hl : a.loaded = b.loaded) :
    a = b := by
  cases a
  cases b
  cases hi
  cases hl
  rfl

/-- One piece of queued output: literal text, or a tree the library serializes. -/
inductive Out where
  | raw (s : Str)
  | stanza (n : Node)
deriving DecidableEq, Repr

structure Session where
  id : ℕ
  state : State := .connected
  out : List Out := []
  jidLocal : Buf 256 := Buf.empty
  jidDomain : Buf 256 := Buf.empty
  jidResource : Buf 256 := Buf.empty
  building : List Node := []
  stanzaDepth : ℤ := 0
  authenticated : Bool := false
  parserResetPending : Bool := false
  teardownPending : Bool := false
  inXmlParse : Bool := false
  available : Bool := false
  initialPresenceSent : Bool := false
  presenceStanza : Option Node := none
  roster : Roster := Roster.empty
deriving DecidableEq, Repr

instance : Inhabited Session := ⟨{ id := 0 }⟩

namespace Session

def bareJid (s : Session) : Buf 512 := jidBare s.jidLocal s.jidDomain

def fullJid (s : Session) : Buf 768 := jidFull s.jidLocal s.jidDomain s.jidResource

/-- The states in which stanzas are routed. -/
def isActive (s : Session) : Bool := s.state = .sessionActive ∨ s.state = .bound

end Session

structure Config where
  domain : Buf 256
  datadir : Buf 1024
  cwd : Path := []
deriving DecidableEq, Repr

structure Server where
  cfg : Config
  sessions : List Session
  nextId : ℕ
  nodup : (sessions.map Session.id).Nodup
  fresh : ∀ s ∈ sessions, s.id < nextId
  files : FileTree.Tree Content
  crashed : Bool
deriving DecidableEq, Repr

/-- What one event draws from outside the program: generated identifiers, the
content of uninitialized address buffers at successive calls of the parser, the
clock, and which of the file operations of account creation fail. -/
structure Oracle where
  ident : ℕ → Str
  stack : ℕ → Jid
  stamp : Str
  failMkdir : Bool
  failConf : Bool
  failRoster : Bool
  failOffline : Bool

namespace Server

/-- The state left by `server_init`. -/
def init (cfg : Config) (files : FileTree.Tree Content) : Server :=
  ⟨cfg, [], 0, by simp, by simp, files, false⟩

def Live (srv : Server) (i : ℕ) : Prop := i ∈ srv.sessions.map Session.id

instance (srv : Server) (i : ℕ) : Decidable (srv.Live i) := inferInstanceAs (Decidable (_ ∈ _))

/-- The record behind a pointer. -/
def sess (srv : Server) (i : ℕ) : Session :=
  (srv.sessions.find? fun s => s.id = i).getD default

/-- Writing through a pointer. -/
def modify (srv : Server) (i : ℕ) (f : Session → Session) : Server :=
  { srv with
    sessions := srv.sessions.map fun s => if s.id = i then { f s with id := s.id } else s
    nodup := by
      have h := srv.nodup
      rw [List.map_map]
      convert h using 2
      funext s
      simp only [Function.comp]
      split_ifs <;> rfl
    fresh := by
      intro s hs
      obtain ⟨t, ht, rfl⟩ := List.mem_map.mp hs
      have hf := srv.fresh t ht
      split_ifs <;> exact hf }

section
variable (srv : Server) (i j : ℕ) (f : Session → Session)

@[simp] theorem modify_cfg : (srv.modify i f).cfg = srv.cfg := rfl
@[simp] theorem modify_files : (srv.modify i f).files = srv.files := rfl
@[simp] theorem modify_nextId : (srv.modify i f).nextId = srv.nextId := rfl
@[simp] theorem modify_crashed : (srv.modify i f).crashed = srv.crashed := rfl

@[simp] theorem modify_ids : (srv.modify i f).sessions.map Session.id = srv.sessions.map Session.id := by
  simp only [modify, List.map_map]
  congr 1
  funext s
  simp only [Function.comp]
  split_ifs <;> rfl

@[simp] theorem modify_live : (srv.modify i f).Live j ↔ srv.Live j := by
  unfold Live
  rw [modify_ids]

theorem mem_modify {t : Session} : t ∈ (srv.modify i f).sessions ↔
    ∃ s ∈ srv.sessions, (if s.id = i then { f s with id := s.id } else s) = t := by
  simp only [modify, List.mem_map]

theorem sess_modify_of_ne (h : j ≠ i) : (srv.modify i f).sess j = srv.sess j := by
  have hp : ∀ s : Session, ((if s.id = i then { f s with id := s.id } else s).id = j) = (s.id = j) := by
    intro s
    split_ifs <;> rfl
  simp only [sess, modify, List.find?_map, Function.comp_def, hp]
  cases hf : srv.sessions.find? fun s => s.id = j with
  | none => rfl
  | some s =>
      have hs : s.id = j := by simpa using List.find?_some hf
      simp [hs, h]

end

theorem sess_mem {srv : Server} {i : ℕ} (h : srv.Live i) :
    srv.sess i ∈ srv.sessions ∧ (srv.sess i).id = i := by
  obtain ⟨s, hs, hi⟩ := List.mem_map.mp h
  cases hf : srv.sessions.find? fun s => s.id = i with
  | none => exact absurd hi (by simpa using List.find?_eq_none.mp hf s hs)
  | some t =>
      have ht : srv.sess i = t := by simp [sess, hf]
      rw [ht]
      exact ⟨List.mem_of_find?_eq_some hf, by simpa using List.find?_some hf⟩

theorem live_of_mem {srv : Server} {s : Session} (h : s ∈ srv.sessions) : srv.Live s.id :=
  List.mem_map.mpr ⟨s, h, rfl⟩

/-- Distinct pointers lead to distinct entries, so an entry is the one behind
its own number. -/
theorem sess_of_mem {srv : Server} {s : Session} (h : s ∈ srv.sessions) : srv.sess s.id = s := by
  have hm := sess_mem (live_of_mem h)
  exact List.inj_on_of_nodup_map srv.nodup hm.1 h hm.2

theorem sess_of_not_live {srv : Server} {i : ℕ} (h : ¬srv.Live i) : srv.sess i = default := by
  cases hf : srv.sessions.find? fun s => s.id = i with
  | none => simp [sess, hf]
  | some t =>
      have ht : t.id = i := by simpa using List.find?_some hf
      exact absurd (ht ▸ live_of_mem (List.mem_of_find?_eq_some hf)) h

/-- No session counts as a bound one. -/
theorem live_of_isActive {srv : Server} {i : ℕ} (h : (srv.sess i).isActive = true) : srv.Live i := by
  by_contra hl
  rw [sess_of_not_live hl] at h
  cases h

theorem sess_modify_self {srv : Server} {i : ℕ} (h : srv.Live i) (f : Session → Session) :
    (srv.modify i f).sess i = { f (srv.sess i) with id := i } := by
  obtain ⟨hm, hi⟩ := sess_mem h
  have hn : { f (srv.sess i) with id := i } ∈ (srv.modify i f).sessions :=
    (mem_modify srv i f).mpr ⟨srv.sess i, hm, by rw [if_pos hi, hi]⟩
  exact sess_of_mem hn

/-- What a write through any pointer keeps of a record is kept of every record. -/
theorem sess_modify_congr {α : Type} (g : Session → α) (srv : Server) (i j : ℕ)
    (f : Session → Session) (hg : ∀ s, g { f s with id := s.id } = g s) :
    g ((srv.modify i f).sess j) = g (srv.sess j) := by
  by_cases hj : j = i
  · subst hj
    by_cases hl : srv.Live j
    · have hs := hg (srv.sess j)
      rw [(sess_mem hl).2] at hs
      rw [sess_modify_self hl]
      exact hs
    · rw [sess_of_not_live hl, sess_of_not_live (by simpa using hl)]
  · rw [sess_modify_of_ne _ _ _ _ hj]

/-- A null pointer is read and the process ends. -/
def crash (srv : Server) : Server := { srv with crashed := true }

/-- `session_write`. -/
def sessionWrite (srv : Server) (i : ℕ) (o : Out) : Server :=
  srv.modify i fun s => { s with out := s.out ++ [o] }

/-- `session_find_by_jid`: the first entry with a localpart and this bare address. -/
def sessionFindByJid (srv : Server) (bare : Str) : Option ℕ :=
  (srv.sessions.find? fun s => s.jidLocal.str ≠ [] ∧ s.bareJid.str = bare).map Session.id

theorem sessionFindByJid_some {srv : Server} {bare : Str} {i : ℕ} (h : srv.sessionFindByJid bare = some i) :
    ∃ s ∈ srv.sessions, s.id = i ∧ s.jidLocal.str ≠ [] ∧ s.bareJid.str = bare := by
  obtain ⟨s, hs, rfl⟩ := Option.map_eq_some_iff.mp h
  have hp := List.find?_some hs
  exact ⟨s, List.mem_of_find?_eq_some hs, rfl, of_decide_eq_true hp⟩

theorem sessionFindByJid_live {srv : Server} {bare : Str} {i : ℕ} (h : srv.sessionFindByJid bare = some i) :
    srv.Live i := by
  obtain ⟨s, hs, rfl, -⟩ := sessionFindByJid_some h
  exact live_of_mem hs

theorem bareJid_of_found {srv : Server} {bare : Str} {i : ℕ} (h : srv.sessionFindByJid bare = some i) :
    (srv.sess i).bareJid.str = bare := by
  obtain ⟨s, hs, rfl, -, hbare⟩ := sessionFindByJid_some h
  rw [sess_of_mem hs, hbare]

/-- The search looks at the addresses only. -/
theorem sessionFindByJid_modify (srv : Server) (i : ℕ) (f : Session → Session) (bare : Str)
    (hl : ∀ s, (f s).jidLocal = s.jidLocal) (hd : ∀ s, (f s).jidDomain = s.jidDomain) :
    (srv.modify i f).sessionFindByJid bare = srv.sessionFindByJid bare := by
  have hp : ∀ s : Session, (if s.id = i then { f s with id := s.id } else s).jidLocal = s.jidLocal ∧
      (if s.id = i then { f s with id := s.id } else s).bareJid = s.bareJid := by
    intro s
    split_ifs
    · exact ⟨hl s, by simp only [Session.bareJid, hl, hd]⟩
    · exact ⟨rfl, rfl⟩
  have hid : ∀ s : Session, (if s.id = i then { f s with id := s.id } else s).id = s.id := by
    intro s
    split_ifs <;> rfl
  simp only [sessionFindByJid, modify, List.find?_map, Option.map_map, Function.comp_def, hp, hid]

/-- `stanza_send`. -/
def stanzaSend (srv : Server) (i : ℕ) (n : Node) : Server := srv.sessionWrite i (.stanza n)

/-- `stanza_send_error`. -/
def stanzaSendError (srv : Server) (i : ℕ) (original : Node) (errorType condition : Str) : Server :=
  srv.stanzaSend i (elem original.name
    ([attr "type" "error"] ++ optAttr "id" (original.getProp "id") ++
      [attr "from" srv.cfg.domain.str, attr "to" (srv.sess i).fullJid.str])
    [elem "error" [attr "type" errorType]
      [.element condition "urn:ietf:params:xml:ns:xmpp-stanzas" [] []]])

def maxClients : ℕ := 16

/-- `server_accept` with `session_create`. -/
def serverAccept (srv : Server) : Server :=
  if maxClients ≤ srv.sessions.length + 1 then srv else
    { srv with
      sessions := srv.sessions ++ [{ id := srv.nextId }]
      nextId := srv.nextId + 1
      nodup := by
        rw [List.map_append, List.nodup_append]
        refine ⟨srv.nodup, by simp, ?_⟩
        intro a ha b hb
        obtain ⟨s, hs, rfl⟩ := List.mem_map.mp ha
        have hf := srv.fresh s hs
        simp only [List.map_cons, List.map_nil, List.mem_singleton] at hb
        omega
      fresh := by
        intro s hs
        rcases List.mem_append.mp hs with hs | hs
        · exact Nat.lt_succ_of_lt (srv.fresh s hs)
        · rw [List.mem_singleton.mp hs]
          exact Nat.lt_succ_self _ }

/-- The last entry takes the place of the removed one. -/
def swapRemove (i : ℕ) : List Session → List Session
  | [] => []
  | s :: ss =>
      if s.id = i then
        match ss.getLast? with
        | none => []
        | some last => last :: ss.dropLast
      else s :: swapRemove i ss

theorem swapRemove_perm (i : ℕ) (l : List Session) :
    (swapRemove i l).Perm (l.eraseP fun s => s.id = i) := by
  induction l with
  | nil => exact List.Perm.refl _
  | cons s ss ih =>
      by_cases hs : s.id = i
      · simp only [swapRemove, hs, if_true, List.eraseP_cons, decide_true, cond_true]
        cases hl : ss.getLast? with
        | none => rw [List.getLast?_eq_none_iff.mp hl]
        | some last =>
            have hne : ss ≠ [] := by rintro rfl; simp at hl
            have hd : ss = ss.dropLast ++ [last] := by
              rw [← List.dropLast_append_getLast? last hl]
              simp
            conv_rhs => rw [hd]
            exact (List.perm_append_singleton last ss.dropLast).symm
      · simp only [swapRemove, hs, if_false, List.eraseP_cons, decide_false, cond_false]
        exact ih.cons s

/-- `server_remove_session`. -/
def serverRemoveSession (srv : Server) (i : ℕ) : Server :=
  { srv with
    sessions := swapRemove i srv.sessions
    nodup := by
      have hs := (List.eraseP_sublist (p := fun s : Session => decide (s.id = i)) (l := srv.sessions)).map Session.id
      exact ((swapRemove_perm i srv.sessions).map Session.id).nodup_iff.mpr (srv.nodup.sublist hs)
    fresh := by
      intro s hs
      exact srv.fresh s (List.mem_of_mem_eraseP ((swapRemove_perm i srv.sessions).mem_iff.mp hs)) }

theorem eraseP_id {l : List Session} (h : (l.map Session.id).Nodup) (i : ℕ) :
    (l.eraseP fun s => s.id = i) = l.filter fun s => s.id ≠ i := by
  induction l with
  | nil => rfl
  | cons s ss ih =>
      rw [List.map_cons, List.nodup_cons] at h
      by_cases hs : s.id = i
      · have hf : ∀ t ∈ ss, t.id ≠ i := by
          intro t ht hi
          exact h.1 (List.mem_map.mpr ⟨t, ht, hi.trans hs.symm⟩)
        rw [List.eraseP_cons_of_pos (by simpa using hs), List.filter_cons_of_neg (by simpa using hs)]
        exact (List.filter_eq_self.mpr fun t ht => by simpa using hf t ht).symm
      · simpa [List.eraseP_cons, hs] using ih h.2

theorem mem_serverRemoveSession {srv : Server} {i : ℕ} {t : Session} :
    t ∈ (srv.serverRemoveSession i).sessions ↔ t ∈ srv.sessions ∧ t.id ≠ i := by
  change t ∈ swapRemove i srv.sessions ↔ _
  rw [(swapRemove_perm i srv.sessions).mem_iff, eraseP_id srv.nodup]
  simp

theorem live_serverRemoveSession {srv : Server} {i j : ℕ} :
    (srv.serverRemoveSession i).Live j ↔ srv.Live j ∧ j ≠ i := by
  constructor
  · intro h
    obtain ⟨t, ht, rfl⟩ := List.mem_map.mp h
    obtain ⟨hm, hi⟩ := mem_serverRemoveSession.mp ht
    exact ⟨live_of_mem hm, hi⟩
  · rintro ⟨h, hi⟩
    obtain ⟨t, ht, rfl⟩ := List.mem_map.mp h
    exact live_of_mem (mem_serverRemoveSession.mpr ⟨ht, hi⟩)

theorem sess_serverRemoveSession {srv : Server} {i j : ℕ} (h : j ≠ i) :
    (srv.serverRemoveSession i).sess j = srv.sess j := by
  by_cases hl : srv.Live j
  · obtain ⟨hm, hj⟩ := sess_mem hl
    have hr := mem_serverRemoveSession.mpr ⟨hm, hj.symm ▸ h⟩
    have hs := sess_of_mem hr
    rwa [hj] at hs
  · rw [sess_of_not_live hl, sess_of_not_live fun hn => hl (live_serverRemoveSession.mp hn).1]

theorem mem_serverAccept {srv : Server} {t : Session} (h : t ∈ srv.serverAccept.sessions) :
    t ∈ srv.sessions ∨ t = { id := srv.nextId } := by
  unfold serverAccept at h
  split_ifs at h
  · exact Or.inl h
  · simpa using h

end Server

end Xmppd.ServerState
