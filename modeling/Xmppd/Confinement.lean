import Xmppd.Accounts
import Xmppd.Installation

/-!
# Where files are written

A message that is stored and a roster that is saved go to a file whose path is
printed from the data directory and a name. The name is that of the session or
the localpart of an address that came with the stanza, and may hold slashes and
dots. A file lands in the directory of a user exactly if the name, walked from
the data directory, leads to one.
-/
namespace Xmppd.Confinement
open CStrings FileTree LibXml Util ServerState User Roster Message Presence Streams Stanza Frames RosterStore Offline
open RosterItems Coherence Accounts Installation EventLoop

/-- Where a name leads from the data directory. -/
def walk (srv : Server) (name : Str) : Option Path := (home srv).bind fun d => srv.files.namei d (name.splitOn '/')

/-- The directory of a user, or the one for the user's messages. -/
def Dwelling (srv : Server) (q : Path) : Prop :=
  ∃ d u, home srv = some d ∧ srv.files.present (d ++ [u, ("user.conf" : Str)]) = true ∧
    (q = d ++ [u] ∨ q = d ++ [u, ("offline" : Str)])

/-- Every file written since then stands directly in such a directory. -/
def Confined (srv srv' : Server) : Prop :=
  ∀ p ∈ srv'.files.written.drop srv.files.written.length, Dwelling srv p.dropLast

/-- The directory in which the roster of a name is saved. A name that fills the
path buffer is taken for the file itself. -/
def shelf (srv : Server) (name : Str) : Option Path :=
  (walk srv name).map fun q => if spare srv.cfg name = 0 then q.dropLast else q

/-- The directory in which messages for a name are stored. -/
def drawer (srv : Server) (name : Str) : Option Path :=
  (walk srv name).map fun q =>
    if spare srv.cfg name ≤ 1 then q else q ++ [("offline" : Str).take (spare srv.cfg name - 1)]

/-- A roster that can be saved under this name is saved in the directory of a user. -/
def Lodges (srv : Server) (name : Str) : Prop := Saves srv name → ∃ q, shelf srv name = some q ∧ Dwelling srv q

/-- The names in a directory that count for the number of the next message. -/
def visible (srv : Server) (q : Path) : List Name := (srv.files.readdir q).filter fun n => n.head? ≠ some '.'

/-- The name of the next message in a directory, as far as it fits the path buffer. -/
def letterName (srv : Server) (name : Str) (q : Path) : Name :=
  (nextSeq (visible srv q) ++ (".xml" : Str)).take (1534 - (offlineDir srv.cfg name).length)

/-- A message for this name can be stored: the directory is there or can be made,
and no directory has the name of the file. -/
def KeepsAt (srv : Server) (name : Str) (q : Path) : Prop :=
  offlinePath srv name = some q ∧
    (srv.files.isDir q = true ∨ srv.files.isDir q.dropLast = true ∧ srv.files.present q = false) ∧
    srv.files.isDir (q ++ [letterName srv name q]) = false

/-- A message that can be stored under this name is stored in the directory of a user. -/
def Shelters (srv : Server) (name : Str) : Prop :=
  (∃ q, KeepsAt srv name q) → ∃ q, drawer srv name = some q ∧ Dwelling srv q

/-! ## Paths -/

section
variable {srv : Server} {name file : Str} {p : Path}

theorem plain_take {k : ℕ} (hs : '/' ∉ file) (hne : file ≠ []) (hf : file.head? ≠ some '.') :
    Tree.Plain (file.take (k + 1)) := by
  obtain ⟨c, cs, rfl⟩ := List.exists_cons_of_ne_nil hne
  have hdot : c ≠ '.' := fun h => hf (by rw [h]; rfl)
  have hsk : '/' ∉ (c :: cs).take (k + 1) := fun hm => hs (List.mem_of_mem_take hm)
  rw [List.take_succ_cons] at hsk ⊢
  refine ⟨by simp, ?_, ?_, hsk⟩
  · exact fun he => hdot (List.cons.inj he).1
  · exact fun he => hdot (List.cons.inj he).1

/-- A file of a name stands where the name leads, unless the path is cut off there. -/
theorem locate_walk (hn : name.length < 256) (hs : '/' ∉ file) (hne : file ≠ []) (hf : file.head? ≠ some '.')
    (h : locate srv (userPath srv.cfg name file) = some p) :
    ∃ q, walk srv name = some q ∧ (spare srv.cfg name = 1 → srv.files.isDir q = true) ∧
      p = if spare srv.cfg name ≤ 1 then q else q ++ [file.take (spare srv.cfg name - 1)] := by
  rw [locate, userPath_short srv.cfg hn, Tree.resolve_below] at h
  obtain ⟨d, hd, hw⟩ := Option.bind_eq_some_iff.mp h
  have hhome : home srv = some d := hd
  cases hk : spare srv.cfg name with
  | zero =>
      rw [hk, List.take_zero, List.append_nil] at hw
      refine ⟨p, ?_, by simp, by simp⟩
      rw [walk, hhome]
      exact hw
  | succ k =>
      rw [hk, List.take_succ_cons, List.splitOn_append_cons_self, Tree.namei_append] at hw
      obtain ⟨q, hq, hlast⟩ := Option.bind_eq_some_iff.mp hw
      have hsk : '/' ∉ file.take k := fun hm => hs (List.mem_of_mem_take hm)
      rw [List.splitOn_eq_singleton hsk] at hlast
      have hwalk : walk srv name = some q := by
        rw [walk, hhome]
        exact hq
      cases k with
      | zero =>
          simp only [List.take_zero, Tree.namei_cons, Tree.namei_nil, true_or, if_true] at hlast
          split at hlast
          · next hdir => exact ⟨q, hwalk, fun _ => hdir, (Option.some.inj hlast).symm⟩
          · cases hlast
      | succ m =>
          refine ⟨q, hwalk, by simp, ?_⟩
          rw [if_neg (by omega)]
          exact Tree.namei_last (plain_take hs hne hf) hlast

theorem rosterFile_shelf (hn : name.length < 256) (h : rosterFile srv name = some p)
    (hw : srv.files.writable p = true) : shelf srv name = some p.dropLast := by
  obtain ⟨q, hq, hone, hp⟩ := locate_walk hn (by decide) (by decide) (by decide) h
  rw [shelf, hq, Option.map_some, Option.some.injEq]
  by_cases hzero : spare srv.cfg name = 0
  · rw [if_pos hzero, hp, if_pos (by omega)]
  · rw [if_neg hzero, hp]
    by_cases hle : spare srv.cfg name ≤ 1
    · rw [if_pos hle] at hp
      have hdir := hone (by omega)
      rw [← hp, Tree.writable_not_isDir hw] at hdir
      cases hdir
    · rw [if_neg hle, List.dropLast_concat]

theorem offlinePath_drawer (hn : name.length < 256) (h : offlinePath srv name = some p) :
    drawer srv name = some p := by
  obtain ⟨q, hq, _, hp⟩ := locate_walk hn (by decide) (by decide) (by decide) h
  rw [drawer, hq, Option.map_some, hp]

end

/-! ## Saving -/

/-- The file a save under this name writes, if it writes one. -/
def spots (srv : Server) (name : Str) : List Path := ((rosterFile srv name).filter fun p => srv.files.writable p).toList

theorem mem_spots {srv : Server} {name : Str} {p : Path} :
    p ∈ spots srv name ↔ rosterFile srv name = some p ∧ srv.files.writable p = true := by
  rw [spots, Option.mem_toList, Option.filter_eq_some_iff]

theorem spots_lodged {srv : Server} {name : Str} (hn : name.length < 256) :
    (∀ p ∈ spots srv name, Dwelling srv p.dropLast) ↔ Lodges srv name := by
  constructor
  · intro h hs
    obtain ⟨p, hp, hw⟩ := hs
    exact ⟨p.dropLast, rosterFile_shelf hn hp hw, h p (mem_spots.mpr ⟨hp, hw⟩)⟩
  · intro h p hp
    obtain ⟨hp, hw⟩ := mem_spots.mp hp
    obtain ⟨q, hq, hdwell⟩ := h ⟨p, hp, hw⟩
    rw [rosterFile_shelf hn hp hw] at hq
    rw [Option.some.inj hq]
    exact hdwell

/-- Standing and directories are kept, rosters are written to these files and no
other file changes. -/
structure Wrote (l : List Path) (a b : Server) : Prop extends SamePlaces a b where
  steady : Steady a b
  written : b.files.written = a.files.written ++ l
  content : ∀ q, q ∉ l ∧ b.files.content q = a.files.content q ∨ q ∈ l ∧ ∃ r, b.files.content q = some (saveContent r)

theorem SamePlaces.spots {a b : Server} (h : SamePlaces a b) (name : Str) : spots b name = spots a name := by
  unfold Confinement.spots
  rw [h.rosterFile]
  simp only [h.writable]

namespace Wrote
variable {a b c : Server} {l m : List Path}

theorem trans (hab : Wrote l a b) (hbc : Wrote m b c) : Wrote (l ++ m) a c := by
  refine ⟨hab.toSamePlaces.trans hbc.toSamePlaces, hab.steady.trans hbc.steady, ?_, ?_⟩
  · rw [hbc.written, hab.written, List.append_assoc]
  · intro q
    rcases hbc.content q with ⟨hm, hsame⟩ | ⟨hm, hsaved⟩
    · rw [hsame]
      rcases hab.content q with ⟨hl, hsame'⟩ | ⟨hl, hsaved⟩
      · exact Or.inl ⟨by simp [hl, hm], hsame'⟩
      · exact Or.inr ⟨List.mem_append_left m hl, hsaved⟩
    · exact Or.inr ⟨List.mem_append_right l hm, hsaved⟩

theorem of_files (hs : Steady a b) (hf : b.files = a.files) : Wrote [] a b := by
  refine ⟨⟨hs.cfg, fun _ => by rw [hf]⟩, hs, by rw [hf, List.append_nil], ?_⟩
  intro q
  rw [hf]
  exact Or.inl ⟨List.not_mem_nil, rfl⟩

theorem then_silent (hab : Wrote l a b) (hbc : Silent b c) : Wrote l a c := by
  have h := hab.trans (of_files hbc.steady hbc.files)
  rw [List.append_nil] at h
  exact h

/-- What is read under a name is as before unless its file is among these. -/
theorem stored (h : Wrote l a b) (name : Str) :
    rosterLoadForUser b name = rosterLoadForUser a name ∨ ∀ p ∈ spots a name, p ∈ l := by
  rw [rosterLoadForUser_eq, rosterLoadForUser_eq, h.rosterFile]
  cases hp : rosterFile a name with
  | none => exact Or.inl rfl
  | some p =>
      rcases h.content p with ⟨-, hsame⟩ | ⟨hin, -⟩
      · left
        rw [Option.bind_some, Option.bind_some, hsame]
      · right
        intro q hq
        rw [mem_spots, hp] at hq
        rwa [← Option.some.inj hq.1]

theorem jidLocal (h : Wrote l a b) (i : ℕ) : (b.sess i).jidLocal = (a.sess i).jidLocal :=
  h.steady.get Session.jidLocal (fun _ => rfl) i

theorem confined (h : Wrote l a b) : Confined a b ↔ ∀ p ∈ l, Dwelling a p.dropLast := by
  unfold Confined
  rw [h.written, List.drop_left]

end Wrote

theorem spots_of_not_saves {srv : Server} {name : Str} (h : ¬Saves srv name) : spots srv name = [] := by
  apply List.eq_nil_iff_forall_not_mem.mpr
  intro p hp
  exact h ⟨p, mem_spots.mp hp⟩

theorem spots_eq {srv : Server} {name : Str} {p : Path} (hp : rosterFile srv name = some p)
    (hw : srv.files.writable p = true) : spots srv name = [p] := by
  rw [spots, hp, Option.filter_some, if_pos hw]
  rfl

theorem wrote_rosterSaveForUser (srv : Server) (name : Str) (r : Roster) :
    Wrote (spots srv name) srv (rosterSaveForUser srv name r) := by
  refine ⟨samePlaces_rosterSaveForUser srv name r, .of_filesOnly (filesOnly_rosterSaveForUser srv name r), ?_, ?_⟩
  · rcases rosterSaveForUser_cases srv name r with ⟨hsame, hno⟩ | ⟨p, hp, hw, hsaved⟩
    · rw [hsame, spots_of_not_saves hno, List.append_nil]
    · rw [hsaved, spots_eq hp hw]
  · intro q
    rcases rosterSaveForUser_cases srv name r with ⟨hsame, hno⟩ | ⟨p, hp, hw, hsaved⟩
    · rw [hsame, spots_of_not_saves hno]
      exact Or.inl ⟨List.not_mem_nil, rfl⟩
    · rw [hsaved, spots_eq hp hw, List.mem_singleton]
      by_cases hq : q = p
      · rw [hq]
        exact Or.inr ⟨rfl, r, Tree.content_put_self srv.files p _⟩
      · exact Or.inl ⟨hq, Tree.content_put_of_ne srv.files _ hq⟩

theorem wrote_editSave (srv : Server) (i : ℕ) (f : Roster → Roster) :
    Wrote (spots srv (srv.sess i).jidLocal.str) srv (rosterSave (modifyRoster srv i f) i) := by
  have hedit : Wrote [] srv (modifyRoster srv i f) := .of_files (steady_modifyRoster srv i f) rfl
  have hsave := hedit.trans (wrote_rosterSaveForUser (modifyRoster srv i f) (srv.sess i).jidLocal.str
    ((modifyRoster srv i f).sess i).roster)
  rw [SamePlaces.spots hedit.toSamePlaces] at hsave
  unfold rosterSave
  rw [hedit.jidLocal]
  exact hsave

theorem wrote_ensureRoster (srv : Server) (i : ℕ) : Wrote [] srv (ensureRoster srv i) := by
  apply Wrote.of_files (steady_ensureRoster srv i)
  unfold ensureRoster
  split
  · rfl
  · rfl

/-- Rosters are saved under these names and nothing else is written. -/
def Saving (names : List Str) (a b : Server) : Prop :=
  ∃ l, Wrote l a b ∧ ∀ p, p ∈ l ↔ ∃ name ∈ names, p ∈ spots a name

theorem Saving.confined {names : List Str} {a b : Server} (h : Saving names a b) (hn : ∀ name ∈ names, name.length < 256) :
    Confined a b ↔ ∀ name ∈ names, Lodges a name := by
  obtain ⟨l, hwrote, hl⟩ := h
  rw [hwrote.confined]
  constructor
  · intro h name hname
    exact (spots_lodged (hn name hname)).mp fun p hp => h p ((hl p).mpr ⟨name, hname, hp⟩)
  · intro h p hp
    obtain ⟨name, hname, hspot⟩ := (hl p).mp hp
    exact (spots_lodged (hn name hname)).mpr (h name hname) p hspot

/-! ## Presence -/

/-- What is written where an item was found. -/
def whereFound {α : Type} (found : Bool) (l : List α) : List α := if found then l else []

theorem mem_whereFound {α : Type} {x : α} {found : Bool} {l : List α} : x ∈ whereFound found l ↔ found = true ∧ x ∈ l := by
  cases found with
  | true => simp [whereFound]
  | false => simp [whereFound]

theorem forall_whereFound {α : Type} {P : α → Prop} {found : Bool} {l : List α} :
    (∀ p ∈ whereFound found l, P p) ↔ (found = true → ∀ p ∈ l, P p) := by
  simp only [mem_whereFound, and_imp]
  exact ⟨fun h hf p => h p hf, fun h p hf => h hf p⟩

/-- The roster of a session as the handlers find it. -/
def ownRoster (srv : Server) (i : ℕ) : Roster :=
  if (srv.sess i).roster.loaded then (srv.sess i).roster else rosterLoadForUser srv (srv.sess i).jidLocal.str

/-- The session whose roster is changed on the other side, if that is not a file. -/
def host (srv : Server) (i : ℕ) (jid : Jid) : Option ℕ :=
  (srv.sessionFindByJid jid.bare.str).filter fun t => t = i ∨ (srv.sess t).roster.loaded

theorem host_eq_some_iff {srv : Server} {i t : ℕ} {jid : Jid} : host srv i jid = some t ↔
    srv.sessionFindByJid jid.bare.str = some t ∧ (t = i ∨ (srv.sess t).roster.loaded = true) := by
  rw [host, Option.filter_eq_some_iff, decide_eq_true_eq]

/-- The name under which the other side's roster is saved. -/
def hostName (srv : Server) (i : ℕ) (jid : Jid) : Str :=
  match host srv i jid with
  | some t => (srv.sess t).jidLocal.str
  | none => jid.localpart.str

def hostRoster (srv : Server) (i : ℕ) (jid : Jid) : Roster :=
  match host srv i jid with
  | some t => if t = i then ownRoster srv i else (srv.sess t).roster
  | none => rosterLoadForUser srv jid.localpart.str

theorem hostName_length (srv : Server) (i : ℕ) (jid : Jid) : (hostName srv i jid).length < 256 := by
  unfold hostName
  split
  · exact Buf.fits _
  · exact Buf.fits _

/-- What a handler of session `i` has done so far: it has written these files and
has this roster in its cache. -/
structure Own (srv : Server) (i : ℕ) (l : List Path) (r : Roster) (a : Server) : Prop extends Wrote l srv a where
  roster : (a.sess i).roster = r
  others : ∀ t, t ≠ i → (a.sess t).roster = (srv.sess t).roster

namespace Own
variable {srv a b : Server} {i : ℕ} {l : List Path} {r : Roster}

theorem ensure (hl : srv.Live i) : Own srv i [] (ownRoster srv i) (ensureRoster srv i) := by
  refine ⟨wrote_ensureRoster srv i, ?_, ?_⟩
  · unfold ensureRoster ownRoster
    split
    · rfl
    · unfold rosterLoad
      rw [Server.sess_modify_self hl]
  · intro t ht
    unfold ensureRoster
    split
    · rfl
    · unfold rosterLoad
      rw [Server.sess_modify_of_ne _ _ _ _ ht]

theorem silent (h : Own srv i l r a) (hs : Silent a b) : Own srv i l r b := by
  have hroster : ∀ t, (b.sess t).roster = (a.sess t).roster := hs.get Session.roster fun _ => rfl
  refine ⟨h.toWrote.then_silent hs, ?_, ?_⟩
  · rw [hroster]
    exact h.roster
  · intro t ht
    rw [hroster]
    exact h.others t ht

theorem edit (hl : srv.Live i) (h : Own srv i l r a) (f : Roster → Roster) :
    Own srv i (l ++ spots srv (srv.sess i).jidLocal.str) (f r) (rosterSave (modifyRoster a i f) i) := by
  have hsave := wrote_editSave a i f
  rw [h.jidLocal, SamePlaces.spots h.toSamePlaces] at hsave
  have hsess : ∀ t, (rosterSave (modifyRoster a i f) i).sess t = (modifyRoster a i f).sess t := by
    intro t
    rw [Server.sess, rosterSave, rosterSaveForUser_sessions]
    rfl
  refine ⟨h.toWrote.trans hsave, ?_, ?_⟩
  · rw [hsess, modifyRoster_roster ((h.steady.live i).mpr hl), h.roster]
  · intro t ht
    rw [hsess, modifyRoster, Server.sess_modify_of_ne _ _ _ _ ht]
    exact h.others t ht

theorem host (h : Own srv i l r a) (hr : r.loaded = true) (jid : Jid) :
    loadedSession a (a.sessionFindByJid jid.bare.str) = host srv i jid := by
  rw [h.steady.sessionFindByJid, loadedSession, Confinement.host]
  congr 1
  funext t
  by_cases ht : t = i
  · rw [ht, h.roster, hr]
    simp
  · rw [h.others t ht]
    simp [ht]

end Own

theorem ownRoster_loaded (srv : Server) (i : ℕ) : (ownRoster srv i).loaded = true := by
  unfold ownRoster
  split
  · assumption
  · rfl

section
variable {srv a : Server} {i : ℕ} {l : List Path} {r : Roster} {o : Oracle}

theorem subscribe_saving (hl : srv.Live i) (dest : Str) :
    Saving [(srv.sess i).jidLocal.str] srv (presenceHandleSubscribe srv i o dest) := by
  have hown := (Own.ensure hl).edit hl (requestItem (jidParse (o.stack 0) dest).jid.bare.str)
  refine ⟨spots srv (srv.sess i).jidLocal.str, ?_, by simp⟩
  unfold presenceHandleSubscribe
  dsimp only
  split
  · exact hown.toWrote.then_silent (.crash _)
  · split
    · exact (hown.toWrote.then_silent (silent_rosterPush _ i _ _)).then_silent (.stanzaSend _ _ _)
    · exact hown.toWrote.then_silent (silent_rosterPush _ i _ _)

theorem grantTarget_wrote (h : Own srv i l r a) (hr : r.loaded = true) (jid : Jid) (bare : Str) :
    Wrote (l ++ spots srv (hostName srv i jid)) srv
      (grantTarget a o (a.sessionFindByJid jid.bare.str) jid.localpart.str bare) := by
  unfold grantTarget hostName
  rw [h.host hr]
  cases host srv i jid with
  | some t =>
      have hsave := wrote_editSave a t fun r => rosterEdit r bare (setAsk false ∘ grantTo)
      rw [h.jidLocal, SamePlaces.spots h.toSamePlaces] at hsave
      dsimp only
      split
      · exact (h.toWrote.trans hsave).then_silent (silent_rosterPush _ t _ _)
      · exact h.toWrote.trans hsave
  | none =>
      have hsave := wrote_rosterSaveForUser a jid.localpart.str
        (rosterEdit (rosterLoadForUser a jid.localpart.str) bare (setAsk false ∘ grantTo))
      rw [SamePlaces.spots h.toSamePlaces] at hsave
      exact h.toWrote.trans hsave

theorem subscribed_saving (hl : srv.Live i) {dest : Str} {jid : Jid} (hjid : (jidParse (o.stack 0) dest).jid = jid) :
    Saving ((srv.sess i).jidLocal.str ::
        whereFound (rosterFindItem (approveItem jid.bare.str (ownRoster srv i)) jid.bare.str).isSome [hostName srv i jid])
      srv (presenceHandleSubscribed srv i o dest) := by
  have hown := (Own.ensure hl).edit hl (approveItem jid.bare.str)
  have hloaded : (approveItem jid.bare.str (ownRoster srv i)).loaded = true := by
    rw [approveItem_loaded]
    exact ownRoster_loaded srv i
  unfold presenceHandleSubscribed
  dsimp only
  rw [hjid, hown.roster]
  cases hfind : rosterFindItem (approveItem jid.bare.str (ownRoster srv i)) jid.bare.str with
  | none => exact ⟨_, hown.toWrote.then_silent (.crash _), by simp [whereFound]⟩
  | some item =>
      have hgrant := @grantTarget_wrote _ _ _ _ _ o (hown.silent (silent_rosterPush _ i (o.ident 0) item)) hloaded jid
        (srv.sess i).bareJid.str
      exact ⟨_, hgrant.then_silent (silent_notifySubscribed _ i _ _ _), by simp [whereFound]⟩

theorem withdrawAt_own (hl : srv.Live i) (h : Own srv i l r a) (id bare : Str) (f : RosterItem → RosterItem) :
    Own srv i (l ++ whereFound (rosterFindItem r bare).isSome (spots srv (srv.sess i).jidLocal.str))
      (rosterEdit r bare f) (withdrawAt a i id bare f) := by
  unfold withdrawAt
  rw [h.roster]
  cases hfind : rosterFindItem r bare with
  | some item =>
      have hedit := h.edit hl fun r => rosterEdit r bare f
      exact hedit.silent (silent_rosterPush _ i _ _)
  | none =>
      rw [rosterEdit_of_find_none _ hfind]
      simpa [whereFound] using h

theorem withdrawAt_wrote (h : Wrote l srv a) (t : ℕ) (id bare : Str) (f : RosterItem → RosterItem) :
    Wrote (l ++ whereFound (rosterFindItem (a.sess t).roster bare).isSome (spots srv (srv.sess t).jidLocal.str)) srv
      (withdrawAt a t id bare f) := by
  unfold withdrawAt
  cases rosterFindItem (a.sess t).roster bare with
  | some item =>
      have hsave := wrote_editSave a t fun r => rosterEdit r bare f
      rw [h.jidLocal, SamePlaces.spots h.toSamePlaces] at hsave
      exact (h.trans hsave).then_silent (silent_rosterPush _ t _ _)
  | none => simpa [whereFound] using h

/-- What is found under an address does not depend on changes to items. -/
theorem find_isSome_rosterEdit {f : RosterItem → RosterItem} (hf : KeepsJid f) (r : Roster) (bare other : Str) :
    (rosterFindItem (rosterEdit r bare f) other).isSome = (rosterFindItem r other).isSome := by
  by_cases hne : other = bare
  · rw [hne, find_rosterEdit_self r hf, Option.isSome_map]
  · rw [find_rosterEdit_of_ne r hf hne]

/-- The other side of a withdrawal writes its roster where that has an item for the
sender. Where the own side has just written the same file, that file is counted
already. -/
theorem withdrawTarget_wrote (h : Own srv i l r a) (hr : r.loaded = true)
    (hfound : ∀ other, (rosterFindItem r other).isSome = (rosterFindItem (ownRoster srv i) other).isSome)
    (type : Str) (theirs : RosterItem → RosterItem) (jid : Jid) :
    ∃ m, Wrote (l ++ m) srv (withdrawTarget type theirs a i o jid) ∧ ∀ p, p ∈ l ++ m ↔ p ∈ l ∨
      (rosterFindItem (hostRoster srv i jid) (srv.sess i).bareJid.str).isSome = true ∧ p ∈ spots srv (hostName srv i jid) := by
  have hbare : (a.sess i).bareJid = (srv.sess i).bareJid := h.steady.get Session.bareJid (fun _ => rfl) i
  unfold withdrawTarget hostName hostRoster
  rw [h.host hr, hbare]
  cases host srv i jid with
  | some t =>
      have hroster : (rosterFindItem (a.sess t).roster (srv.sess i).bareJid.str).isSome =
          (rosterFindItem (if t = i then ownRoster srv i else (srv.sess t).roster) (srv.sess i).bareJid.str).isSome := by
        by_cases ht : t = i
        · rw [if_pos ht, ht, h.roster]
          exact hfound _
        · rw [if_neg ht, h.others t ht]
      have hat := withdrawAt_wrote h.toWrote t (o.ident 1) (srv.sess i).bareJid.str theirs
      refine ⟨whereFound (rosterFindItem (a.sess t).roster (srv.sess i).bareJid.str).isSome
        (spots srv (srv.sess t).jidLocal.str), ?_, ?_⟩
      · dsimp only
        split
        · exact (hat.then_silent (.stanzaSend _ _ _)).then_silent (.stanzaSend _ _ _)
        · exact hat.then_silent (.stanzaSend _ _ _)
      · intro p
        rw [List.mem_append, mem_whereFound, hroster]
  | none =>
      have hsave := wrote_rosterSaveForUser a jid.localpart.str
        (rosterEdit (rosterLoadForUser a jid.localpart.str) (srv.sess i).bareJid.str theirs)
      rw [SamePlaces.spots h.toSamePlaces] at hsave
      refine ⟨whereFound (rosterFindItem (rosterLoadForUser a jid.localpart.str) (srv.sess i).bareJid.str).isSome
        (spots srv jid.localpart.str), ?_, ?_⟩
      · dsimp only
        cases rosterFindItem (rosterLoadForUser a jid.localpart.str) (srv.sess i).bareJid.str with
        | some item => exact h.toWrote.trans hsave
        | none => simpa [whereFound] using h.toWrote
      · intro p
        rw [List.mem_append, mem_whereFound]
        rcases h.stored jid.localpart.str with hsame | hin
        · rw [hsame]
        · constructor
          · rintro (hp | hp)
            · exact Or.inl hp
            · exact Or.inl (hin p hp.2)
          · rintro (hp | hp)
            · exact Or.inl hp
            · exact Or.inl (hin p hp.2)

theorem withdraw_saving (hl : srv.Live i) {dest : Str} {jid : Jid} (hjid : (jidParse (o.stack 0) dest).jid = jid)
    (type : Str) {own : RosterItem → RosterItem} (hk : KeepsJid own) (theirs : RosterItem → RosterItem) :
    Saving (whereFound (rosterFindItem (ownRoster srv i) jid.bare.str).isSome [(srv.sess i).jidLocal.str] ++
        whereFound (rosterFindItem (hostRoster srv i jid) (srv.sess i).bareJid.str).isSome [hostName srv i jid])
      srv (withdraw type own theirs srv i o dest) := by
  have hown := withdrawAt_own hl (Own.ensure hl) (o.ident 0) jid.bare.str own
  unfold withdraw
  rw [hjid]
  obtain ⟨m, hwrote, hiff⟩ := @withdrawTarget_wrote _ _ _ _ _ o hown (ownRoster_loaded srv i)
    (find_isSome_rosterEdit hk (ownRoster srv i) jid.bare.str) type theirs jid
  refine ⟨_, hwrote, ?_⟩
  intro p
  rw [hiff]
  simp only [List.nil_append, List.mem_append, mem_whereFound, List.mem_singleton, or_and_right, exists_or, and_assoc,
    exists_eq_left, exists_and_left]

end

/-- The names under which a presence stanza saves rosters. -/
def saved (srv : Server) (i : ℕ) (o : Oracle) (stanza : Node) : List Str :=
  let jid := (jidParse (o.stack 0) (stanza.prop "to")).jid
  let own := (srv.sess i).jidLocal.str
  if stanza.prop "type" = "subscribe" then [own]
  else if stanza.prop "type" = "subscribed" then
    own :: whereFound (rosterFindItem (approveItem jid.bare.str (ownRoster srv i)) jid.bare.str).isSome [hostName srv i jid]
  else if stanza.prop "type" = "unsubscribe" ∨ stanza.prop "type" = "unsubscribed" then
    whereFound (rosterFindItem (ownRoster srv i) jid.bare.str).isSome [own] ++
      whereFound (rosterFindItem (hostRoster srv i jid) (srv.sess i).bareJid.str).isSome [hostName srv i jid]
  else []

section
variable (srv : Server) (i : ℕ) (o : Oracle) (stanza : Node)

theorem saved_length : ∀ name ∈ saved srv i o stanza, name.length < 256 := by
  have hown : (srv.sess i).jidLocal.str.length < 256 := Buf.fits _
  have hhost := hostName_length srv i (jidParse (o.stack 0) (stanza.prop "to")).jid
  unfold saved
  dsimp only
  split
  · simpa using hown
  split
  · simp only [List.forall_mem_cons, forall_whereFound, List.not_mem_nil, false_implies, implies_true, and_true]
    exact ⟨hown, fun _ => hhost⟩
  split
  · simp only [List.forall_mem_append, forall_whereFound, List.forall_mem_singleton]
    exact ⟨fun _ => hown, fun _ => hhost⟩
  · simp

theorem wrote_presenceHandleUnavailable : Wrote [] srv (presenceHandleUnavailable srv i o) := by
  change Wrote [] srv ((presenceBroadcastUnavailable srv i o).modify i _)
  rcases presenceBroadcastUnavailable_silent srv i o with hsame | hsilent
  · rw [hsame]
    exact .of_files (.modify srv i fun _ => rfl) rfl
  · exact ((wrote_ensureRoster srv i).then_silent hsilent).trans (.of_files (.modify _ i fun _ => rfl) rfl)

variable {srv i o stanza}

theorem handlePresence_saving (hl : srv.Live i) (h : stanza.prop "type" ≠ []) :
    Saving (saved srv i o stanza) srv (handlePresence srv i o stanza) := by
  unfold handlePresence saved
  dsimp only
  rw [if_neg h]
  generalize stanza.prop "type" = type
  by_cases hunavailable : type = "unavailable"
  · subst hunavailable
    rw [if_pos rfl, if_neg (by decide), if_neg (by decide), if_neg (by decide)]
    exact ⟨[], wrote_presenceHandleUnavailable srv i o, by simp⟩
  rw [if_neg hunavailable]
  split
  · exact subscribe_saving hl _
  split
  · exact subscribed_saving hl rfl
  split
  · next hwithdraw =>
    split
    · exact withdraw_saving hl rfl _ ((keepsJid_setAsk false).comp (keepsJid_moveSub _ _ _ _)) _
    · next hun =>
      rw [if_pos (hwithdraw.resolve_left hun)]
      exact withdraw_saving hl rfl _ (keepsJid_moveSub _ _ _ _) _
  · next hother =>
    rw [not_or] at hother
    rw [if_neg hother.1, if_neg hother.2]
    exact ⟨[], .of_files (.refl srv) rfl, by simp⟩

end

/-! ## Deliveries -/

theorem written_unlink (srv : Server) (path : Str) : (unlink srv path).files.written = srv.files.written := by
  unfold unlink
  split
  · unfold Tree.unlink
    split
    · rfl
    · rfl
  · rfl

theorem written_messageDeliverOffline (srv : Server) (i : ℕ) :
    (messageDeliverOffline srv i).files.written = srv.files.written := by
  have key : ∀ (dir : Str) (names : List Str) (srv : Server),
      (names.foldl (deliverOne i dir) srv).files.written = srv.files.written := by
    intro dir names
    induction names with
    | nil => exact fun _ => rfl
    | cons n ns ih =>
        intro srv
        rw [List.foldl_cons, ih]
        unfold deliverOne
        dsimp only
        split
        · rw [written_unlink, (Silent.stanzaSend srv i _).files]
        · exact written_unlink srv _
  exact key _ _ srv

theorem written_presenceHandleAvailable (srv : Server) (i : ℕ) (o : Oracle) (stanza : Node) :
    (presenceHandleAvailable srv i o stanza).files.written = srv.files.written := by
  unfold presenceHandleAvailable
  dsimp only
  generalize stanza.setProp "from" (srv.sess i).fullJid.str = pres
  have hexchange : (exchangePresence (ensureRoster (srv.modify i fun s =>
      { s with available := true, presenceStanza := some pres }) i) i o pres).files.written = srv.files.written := by
    rw [(silent_exchangePresence _ i o pres).files, (wrote_ensureRoster _ i).written, List.append_nil]
    rfl
  split
  · unfold deliverInitial
    dsimp only
    rw [← hexchange]
    have hsilent := Silent.foldl (silent_redeliverPending i) (messageDeliverOffline ((exchangePresence (ensureRoster
      (srv.modify i fun s => { s with available := true, presenceStanza := some pres }) i) i o pres).modify i
        fun s => { s with initialPresenceSent := true }) i).sessions
    unfold presenceRedeliverPendingSubscribes
    rw [(hsilent _).files, written_messageDeliverOffline]
    rfl
  · exact hexchange

theorem written_presenceHandleUnavailable (srv : Server) (i : ℕ) (o : Oracle) :
    (presenceHandleUnavailable srv i o).files.written = srv.files.written := by
  change (presenceBroadcastUnavailable srv i o).files.written = _
  rcases presenceBroadcastUnavailable_silent srv i o with hsame | hsilent
  · rw [hsame]
  · rw [hsilent.files, (wrote_ensureRoster srv i).written, List.append_nil]

theorem confined_of_written {srv srv' : Server} (h : srv'.files.written = srv.files.written) : Confined srv srv' := by
  unfold Confined
  rw [h, List.drop_length]
  simp

/-! ## Messages that are stored -/

theorem readdir_put_dir (t : FileTree.Tree Content) {q : Path} (hq : q ≠ []) : (t.put q .dir).readdir q = t.readdir q := by
  have hself : ¬(q ≠ [] ∧ q.dropLast = q) := by
    intro h
    have hlen := congrArg List.length h.2
    rw [List.length_dropLast] at hlen
    have hpos := List.length_pos_iff.mpr hq
    omega
  unfold Tree.readdir Tree.put
  dsimp only
  rw [List.filterMap_cons_none (by rw [if_neg hself]), List.filterMap_filter]
  congr 2
  funext e
  by_cases he : e.1 = q
  · rw [he, if_neg hself]
    simp
  · simp [he]

section
variable {srv : Server} {name : Str}

theorem listDir_visible {path : Str} {q : Path} (hq : locate srv path = some q) (hd : srv.files.isDir q = true) :
    listDir srv path = visible srv q := by
  rw [listDir, hq]
  dsimp only
  rw [if_pos hd]
  rfl

theorem fileIn_offlineDir (cfg : Config) (name file : Str) :
    fileIn (offlineDir cfg name) file = offlineDir cfg name ++ '/' :: file.take (1534 - (offlineDir cfg name).length) := by
  have hlen : (offlineDir cfg name).length ≤ 1279 := userPath_length cfg name "offline"
  obtain ⟨k, hk⟩ : ∃ k, 1535 - (offlineDir cfg name).length = k + 1 := ⟨1534 - (offlineDir cfg name).length, by omega⟩
  unfold fileIn
  rw [snprintf_str, List.take_append, List.take_of_length_le (by omega), show 1536 - 1 - (offlineDir cfg name).length = k + 1 from hk,
    List.take_succ_cons, show 1534 - (offlineDir cfg name).length = k by omega]

theorem pad4_digits {n : ℕ} {c : Char} (h : c ∈ pad4 n) : c.isDigit = true := by
  rcases List.mem_append.mp h with hzero | hdigit
  · rw [List.eq_of_mem_replicate hzero]
    decide
  · exact Nat.isDigit_of_mem_toDigits (by decide) (by decide) hdigit

theorem pad4_ne_nil (n : ℕ) : pad4 n ≠ [] := fun h => Nat.toDigits_ne_nil (List.append_eq_nil_iff.mp h).2

theorem nextSeq_chars {names : List Str} {c : Char} (h : c ∈ nextSeq names) : c.isDigit = true ∨ c = '-' := by
  unfold nextSeq at h
  split at h
  · exact Or.inl (pad4_digits h)
  · have hall : ("-2147483648" : Str).all (fun c => c.isDigit || c == '-') = true := by decide
    simpa only [Bool.or_eq_true, beq_iff_eq] using List.all_eq_true.mp hall c h

theorem nextSeq_ne_nil (names : List Str) : nextSeq names ≠ [] := by
  unfold nextSeq
  split
  · exact pad4_ne_nil _
  · decide

theorem letterName_plain (srv : Server) (name : Str) (q : Path) : Tree.Plain (letterName srv name q) := by
  have hlen : (offlineDir srv.cfg name).length ≤ 1279 := userPath_length srv.cfg name "offline"
  have hslash : '/' ∉ nextSeq (visible srv q) ++ (".xml" : Str) := by
    intro h
    rcases List.mem_append.mp h with hdigit | hxml
    · have hno := nextSeq_chars hdigit
      revert hno
      decide
    · revert hxml
      decide
  have hhead : (nextSeq (visible srv q) ++ (".xml" : Str)).head? ≠ some '.' := by
    obtain ⟨c, cs, hcons⟩ := List.exists_cons_of_ne_nil (nextSeq_ne_nil (visible srv q))
    rw [hcons, List.cons_append, List.head?_cons]
    intro h
    have hdigit : c ∈ nextSeq (visible srv q) := by
      rw [hcons]
      exact List.mem_cons_self
    have hno := nextSeq_chars hdigit
    rw [Option.some.inj h] at hno
    revert hno
    decide
  unfold letterName
  rw [show 1534 - (offlineDir srv.cfg name).length = (1533 - (offlineDir srv.cfg name).length) + 1 by omega]
  exact plain_take hslash (by simp) hhead

/-- Writing the next message into a directory that is there. -/
theorem written_letter {a : Server} {q : Path} (hq : locate a (offlineDir srv.cfg name) = some q)
    (hd : a.files.isDir q = true) (hvisible : visible a q = visible srv q) (c : Content) :
    ((writeFile a (fileIn (offlineDir srv.cfg name)
      (nextSeq (listDir a (offlineDir srv.cfg name)) ++ (".xml" : Str))) c).getD a).files.written =
        a.files.written ++ if a.files.isDir (q ++ [letterName srv name q]) then [] else [q ++ [letterName srv name q]] := by
  have hplain := letterName_plain srv name q
  have hpath : fileIn (offlineDir srv.cfg name) (nextSeq (listDir a (offlineDir srv.cfg name)) ++ (".xml" : Str)) =
      offlineDir srv.cfg name ++ '/' :: letterName srv name q := by
    rw [fileIn_offlineDir, listDir_visible hq hd, hvisible]
    rfl
  have hdir : offlineDir srv.cfg name ≠ [] := userPath_ne_nil srv.cfg name "offline"
  have hfile : locate a (offlineDir srv.cfg name ++ '/' :: letterName srv name q) = some (q ++ [letterName srv name q]) := by
    rw [locate, Tree.resolve_append _ _ hdir]
    change (locate a (offlineDir srv.cfg name)).bind _ = _
    rw [hq, Option.bind_some, List.splitOn_eq_singleton hplain.2.2.2, Tree.namei_plain _ hplain _ _ hd]
    rfl
  rw [hpath, writeFile, hfile, Option.bind_some, Tree.write, Tree.writable, List.dropLast_concat, hd, Bool.true_and]
  cases a.files.isDir (q ++ [letterName srv name q]) with
  | true => simp
  | false => simp

theorem locate_letter_none (h : ∀ q, offlinePath srv name = some q → srv.files.isDir q = false) (file : Str) :
    locate srv (fileIn (offlineDir srv.cfg name) file) = none := by
  have hdir : offlineDir srv.cfg name ≠ [] := userPath_ne_nil srv.cfg name "offline"
  rw [fileIn_offlineDir, locate, Tree.resolve_append _ _ hdir]
  change (offlinePath srv name).bind _ = none
  cases hq : offlinePath srv name with
  | none => rfl
  | some q =>
      obtain ⟨n, ns, hsplit⟩ := List.exists_cons_of_ne_nil
        (List.splitOn_ne_nil '/' (file.take (1534 - (offlineDir srv.cfg name).length)))
      rw [Option.bind_some, hsplit, Tree.namei_cons, h q hq]
      rfl

/-- The directory of the messages is made where it is missing. -/
theorem mkdir_offlineDir {q : Path} (hq : offlinePath srv name = some q) :
    mkdir srv (offlineDir srv.cfg name) =
      if srv.files.isDir q.dropLast = true ∧ srv.files.present q = false then
        some { srv with files := srv.files.put q .dir } else none := by
  have hq' : locate srv (offlineDir srv.cfg name) = some q := hq
  rw [mkdir, hq', Option.bind_some, Tree.mkdir]
  by_cases h : srv.files.isDir q.dropLast = true ∧ srv.files.present q = false
  · rw [if_pos h, if_pos (by simp [h])]
    rfl
  · rw [if_neg h, if_neg (by simpa using h)]
    rfl

theorem present_of_isDir {q : Path} (h : srv.files.isDir q = true) : srv.files.present q = true := by
  rw [Tree.present, h, Bool.true_or]

/-- Where the directory is there or can be made, the next message is written unless
a directory has its name. -/
theorem written_placed {q : Path} (hq : offlinePath srv name = some q)
    (hplace : srv.files.isDir q = true ∨ srv.files.isDir q.dropLast = true ∧ srv.files.present q = false)
    (o : Oracle) (stanza : Node) :
    (messageStoreOffline srv o name stanza).files.written = srv.files.written ++
      if srv.files.isDir (q ++ [letterName srv name q]) then [] else [q ++ [letterName srv name q]] := by
  unfold messageStoreOffline
  dsimp only
  rw [mkdir_offlineDir hq]
  by_cases hd : srv.files.isDir q = true
  · rw [if_neg (by rw [present_of_isDir hd]; simp), Option.getD_none, written_letter hq hd rfl]
  · have hno := Bool.eq_false_iff.mpr hd
    have hne : q ≠ [] := by
      intro he
      rw [he] at hd
      exact hd (Tree.isDir_root _)
    have hmade : locate { srv with files := srv.files.put q .dir } (offlineDir srv.cfg name) = some q := by
      have hgrow : ∀ r, srv.files.isDir r = true → (srv.files.put q .dir).isDir r = true :=
        fun r hr => (Tree.isDir_put_dir srv.files hno r).mpr (Or.inl hr)
      exact Tree.namei_mono hgrow hq
    have hvisible : visible { srv with files := srv.files.put q .dir } q = visible srv q := by
      unfold visible
      rw [readdir_put_dir srv.files hne]
    have hsame : (srv.files.put q .dir).isDir (q ++ [letterName srv name q]) =
        srv.files.isDir (q ++ [letterName srv name q]) := by
      rw [Bool.eq_iff_iff, Tree.isDir_put_dir srv.files hno]
      simp
    rw [if_pos (hplace.resolve_left hd), Option.getD_some, ← hsame]
    exact written_letter hmade ((Tree.isDir_put_dir srv.files hno q).mpr (Or.inr rfl)) hvisible _

theorem written_kept {q : Path} (h : KeepsAt srv name q) (o : Oracle) (stanza : Node) :
    (messageStoreOffline srv o name stanza).files.written = srv.files.written ++ [q ++ [letterName srv name q]] := by
  obtain ⟨hq, hplace, hfree⟩ := h
  rw [written_placed hq hplace, hfree]
  rfl

theorem written_not_kept (h : ¬∃ q, KeepsAt srv name q) (o : Oracle) (stanza : Node) :
    (messageStoreOffline srv o name stanza).files.written = srv.files.written := by
  by_cases hplace : ∃ q, offlinePath srv name = some q ∧
      (srv.files.isDir q = true ∨ srv.files.isDir q.dropLast = true ∧ srv.files.present q = false)
  · obtain ⟨q, hq, hplace⟩ := hplace
    have htaken : srv.files.isDir (q ++ [letterName srv name q]) = true := by
      by_contra hfree
      exact h ⟨q, hq, hplace, Bool.eq_false_iff.mpr hfree⟩
    rw [written_placed hq hplace, htaken, if_pos rfl, List.append_nil]
  · have hno : ∀ q, offlinePath srv name = some q → srv.files.isDir q = false := by
      intro q hq
      rw [Bool.eq_false_iff]
      intro hd
      exact hplace ⟨q, hq, Or.inl hd⟩
    have hmkdir : (mkdir srv (offlineDir srv.cfg name)).getD srv = srv := by
      cases hq : offlinePath srv name with
      | none =>
          have hq' : locate srv (offlineDir srv.cfg name) = none := hq
          rw [mkdir, hq']
          rfl
      | some q =>
          rw [mkdir_offlineDir hq, if_neg fun hmake => hplace ⟨q, hq, Or.inr hmake⟩]
          rfl
    unfold messageStoreOffline
    dsimp only
    rw [hmkdir, writeFile, locate_letter_none hno]
    rfl

theorem messageStoreOffline_confined (hn : name.length < 256) (o : Oracle) (stanza : Node) :
    Confined srv (messageStoreOffline srv o name stanza) ↔ Shelters srv name := by
  by_cases hkept : ∃ q, KeepsAt srv name q
  · obtain ⟨q, hq⟩ := hkept
    have hplace : drawer srv name = some q := offlinePath_drawer hn hq.1
    unfold Confined
    rw [written_kept hq o stanza, List.drop_left, List.forall_mem_singleton, List.dropLast_concat]
    constructor
    · intro h _
      exact ⟨q, hplace, h⟩
    · intro h
      obtain ⟨r, hr, hdwell⟩ := h ⟨q, hq⟩
      rw [hplace] at hr
      rw [Option.some.inj hr]
      exact hdwell
  · constructor
    · intro _ h
      exact absurd h hkept
    · intro _
      exact confined_of_written (written_not_kept hkept o stanza)

end

/-! ## Stanzas -/

/-- The checks after which a message is stored. -/
def Stores (srv : Server) (o : Oracle) (stanza : Node) : Prop :=
  let p := jidParse (o.stack 0) (stanza.prop "to")
  p.ok = true ∧ p.jid.localpart.str ≠ [] ∧ p.jid.domain = srv.cfg.domain ∧
    userExists srv p.jid.localpart.str = true ∧ srv.sessionFindByJid p.jid.bare.str = none ∧
    stanza.getProp "type" ≠ some "error"

/-- Every name under which the stanza makes the server write leads to a user. -/
def Lodged (srv : Server) (i : ℕ) (o : Oracle) (stanza : Node) : Prop :=
  let jid := (jidParse (o.stack 0) (stanza.prop "to")).jid
  let own := (srv.sess i).jidLocal.str
  if stanza.name = "message" then Stores srv o stanza → Shelters srv jid.localpart.str
  else if stanza.prop "type" = "subscribe" then Lodges srv own
  else if stanza.prop "type" = "subscribed" then
    Lodges srv own ∧
      ((rosterFindItem (approveItem jid.bare.str (ownRoster srv i)) jid.bare.str).isSome = true →
        Lodges srv (hostName srv i jid))
  else if stanza.prop "type" = "unsubscribe" ∨ stanza.prop "type" = "unsubscribed" then
    ((rosterFindItem (ownRoster srv i) jid.bare.str).isSome = true → Lodges srv own) ∧
      ((rosterFindItem (hostRoster srv i jid) (srv.sess i).bareJid.str).isSome = true →
        Lodges srv (hostName srv i jid))
  else True

section
variable {srv : Server} {i : ℕ} {o : Oracle} {stanza : Node}

theorem handleMessage_confined :
    Confined srv (handleMessage srv i o stanza) ↔
      (Stores srv o stanza → Shelters srv (jidParse (o.stack 0) (stanza.prop "to")).jid.localpart.str) := by
  have herr : ∀ type condition, Confined srv (srv.stanzaSendError i stanza type condition) := by
    intro type condition
    apply confined_of_written
    rw [(Silent.stanzaSendError srv i stanza type condition).files]
  have htype : (stanza.setProp "from" (srv.sess i).fullJid.str).getProp "type" = stanza.getProp "type" :=
    Node.getProp_setProp_of_ne stanza _ (by decide)
  unfold handleMessage Stores
  dsimp only
  rw [htype]
  generalize jidParse (o.stack 0) (stanza.prop "to") = p
  split
  · next hbad =>
    refine iff_of_true (herr _ _) ?_
    intro hstores
    rcases hbad with hok | hempty
    · rw [hstores.1] at hok
      cases hok
    · exact absurd hempty hstores.2.1
  · next hgood =>
    rw [not_or, Bool.not_eq_true', Bool.not_eq_false] at hgood
    split
    · next hdomain => exact iff_of_true (herr _ _) fun hstores => absurd hstores.2.2.1 hdomain
    · next hdomain =>
      split
      · next hmissing =>
        refine iff_of_true (herr _ _) ?_
        intro hstores
        rw [hstores.2.2.2.1] at hmissing
        cases hmissing
      · next hexists =>
        rw [Bool.not_eq_true', Bool.not_eq_false] at hexists
        split
        · next t ht =>
          refine iff_of_true ?_ ?_
          · apply confined_of_written
            rw [(Silent.stanzaSend srv t _).files]
          · intro hstores
            rw [ht] at hstores
            cases hstores.2.2.2.2.1
        · next hnone =>
          split
          · next herror =>
            exact iff_of_true (confined_of_written rfl) fun hstores => absurd herror hstores.2.2.2.2.2
          · next hkind =>
            rw [messageStoreOffline_confined (Buf.fits _)]
            constructor
            · exact fun h _ => h
            · intro h
              exact h ⟨hgood.1, hgood.2, not_not.mp hdomain, hexists, hnone, hkind⟩

theorem handlePresence_confined (hl : srv.Live i) (hname : stanza.name = "presence") :
    Confined srv (handlePresence srv i o stanza) ↔ Lodged srv i o stanza := by
  have hmessage : ¬stanza.name = "message" := by
    rw [hname]
    decide
  by_cases havailable : stanza.prop "type" = []
  · unfold handlePresence Lodged
    dsimp only
    rw [if_neg hmessage, havailable, if_pos rfl, if_neg (by decide), if_neg (by decide), if_neg (by decide)]
    exact iff_of_true (confined_of_written (written_presenceHandleAvailable srv i o stanza)) trivial
  · rw [(handlePresence_saving hl havailable).confined (saved_length srv i o stanza)]
    unfold saved Lodged
    dsimp only
    rw [if_neg hmessage]
    split
    · simp
    split
    · simp only [List.forall_mem_cons, forall_whereFound, List.not_mem_nil, false_implies, implies_true, and_true]
    split
    · simp only [List.forall_mem_append, forall_whereFound, List.forall_mem_singleton]
    · simp

end

/-- The files that a message or presence stanza of a bound session makes the server
write stand in directories of users exactly if every name they are written under
leads to one. -/
theorem stanza_confined_iff (srv : Server) (i : ℕ) (o : Oracle) (stanza : Node) (hl : srv.Live i)
    (hbound : (srv.sess i).isActive = true) (hname : stanza.name = "message" ∨ stanza.name = "presence") :
    Confined srv (stanzaRoute srv i o stanza) ↔ Lodged srv i o stanza := by
  rcases hname with hmessage | hpresence
  · rw [stanzaRoute_message hbound hmessage, handleMessage_confined, Lodged]
    rw [if_pos hmessage]
  · rw [stanzaRoute_presence hbound hpresence]
    exact handlePresence_confined hl hpresence

/-- Alice has bound a resource. -/
def aliceBound : Server := run exampleServer (.accept :: login 0 alicePlain)

def letterTo (dest : Str) : Node := elem "message" [attr "to" dest] []

def approvalOf (dest : Str) : Node := elem "presence" [attr "type" "subscribed", attr "to" dest] []

set_option maxRecDepth 20000 in
/-- A message to bob goes to bob's directory. -/
theorem letter_confined : Confined aliceBound (stanzaRoute aliceBound 0 exampleOracle (letterTo "bob@localhost")) := by
  rw [stanza_confined_iff aliceBound 0 exampleOracle (letterTo "bob@localhost") (by decide +kernel) (by decide +kernel)
    (Or.inl rfl)]
  intro _ _
  refine ⟨["data".toList, "bob".toList, "offline".toList], by decide +kernel, ["data".toList], "bob".toList, ?_, ?_, ?_⟩
  · decide +kernel
  · decide +kernel
  · exact Or.inr rfl

set_option maxRecDepth 20000 in
/-- The approval of an address with two dots before the sign is saved above the
data directory. -/
theorem approval_escapes :
    ¬∀ (srv : Server) (i : ℕ) (o : Oracle) (stanza : Node), srv.Live i → (srv.sess i).isActive = true →
      stanza.name = "message" ∨ stanza.name = "presence" → Confined srv (stanzaRoute srv i o stanza) := by
  intro h
  have hconfined := h aliceBound 0 exampleOracle (approvalOf "..@localhost") (by decide +kernel) (by decide +kernel)
    (Or.inr rfl)
  obtain ⟨d, u, _, _, hplace⟩ := hconfined ["roster.xml".toList] (by decide +kernel)
  rcases hplace with hplace | hplace
  · simp at hplace
  · simp at hplace

end Xmppd.Confinement
