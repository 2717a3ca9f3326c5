import Xmppd.LastWords
import Xmppd.Recipients

/-!
# What is said of availability

A presence stanza without a type or with the type `unavailable` says whether its
sender is available. Three fields of a record are what its session has last said
of itself. For every step of a run without messages and registrations the
announcements it writes, in their order and with the sessions they go to, are
computed from the state before it.
-/
namespace Xmppd.Announcements
open CStrings FileTree LibXml Util ServerState User Roster Message Presence Streams Auth Stanza EventLoop
open Frames Evolution Confinement Outputs Recipients

def isAvailability (n : Node) : Bool := n.name = "presence" ∧ (n.prop "type" = [] ∨ n.prop "type" = "unavailable")

def announces : Out → Bool
  | .raw _ => false
  | .stanza n => isAvailability n

/-- The announcements to one session among stanzas that are sent in turn. -/
def said (j : ℕ) (l : List (ℕ × Node)) : List Out :=
  (l.filter fun p => p.1 = j ∧ isAvailability p.2).map fun p => .stanza p.2

theorem said_append (j : ℕ) (l m : List (ℕ × Node)) : said j (l ++ m) = said j l ++ said j m := by
  unfold said
  rw [List.filter_append, List.map_append]

theorem mem_said {j : ℕ} {l : List (ℕ × Node)} {x : Out} :
    x ∈ said j l ↔ ∃ n, (j, n) ∈ l ∧ isAvailability n = true ∧ x = .stanza n := by
  simp only [said, List.mem_map, List.mem_filter, decide_eq_true_eq]
  constructor
  · rintro ⟨⟨k, n⟩, ⟨hm, rfl, hn⟩, rfl⟩
    exact ⟨n, hm, hn, rfl⟩
  · rintro ⟨n, hm, hn, rfl⟩
    exact ⟨(j, n), ⟨hm, rfl, hn⟩, rfl⟩

theorem said_singleton (j i : ℕ) {n : Node} (h : isAvailability n = false) : said j [(i, n)] = [] := by
  simp [said, h]

/-- What a session has said of itself. -/
def bearing (s : Session) : Bool × Option Node × Bool := (s.available, s.presenceStanza, s.initialPresenceSent)

theorem bearing_eq {s : Session} {availability : Bool × Option Node × Bool} : bearing s = availability ↔
    s.available = availability.1 ∧ s.presenceStanza = availability.2.1 ∧ s.initialPresenceSent = availability.2.2 := by
  obtain ⟨available, stored, sent⟩ := availability
  simp only [bearing, Prod.mk.injEq]

theorem bearing_iff {s s' : Session} : bearing s' = bearing s ↔ s'.available = s.available ∧
    s'.presenceStanza = s.presenceStanza ∧ s'.initialPresenceSent = s.initialPresenceSent :=
  bearing_eq

/-- No stored message is an announcement. -/
def Quiet (srv : Server) : Prop := ∀ q n, srv.files.content q = some (.xml n) → isAvailability n = false

/-- The announcements that have been added to the outputs are those among the given stanzas. -/
structure Says (l : List (ℕ × Node)) (a b : Server) : Prop where
  live : ∀ j, b.Live j → a.Live j
  names : ∀ j, b.Live j → (a.sess j).authenticated = true →
    (b.sess j).authenticated = true ∧ (b.sess j).jidLocal = (a.sess j).jidLocal
  spoken : ∀ j, b.Live j → (b.sess j).out.filter announces = (a.sess j).out.filter announces ++ said j l
  quiet : Quiet a → Quiet b

/-- Besides, the sessions are the same, and nothing they have said of themselves has changed. -/
structure Utters (l : List (ℕ × Node)) (a b : Server) : Prop extends Says l a b where
  stays : ∀ j, a.Live j → b.Live j
  bearing : ∀ j, bearing (b.sess j) = bearing (a.sess j)

section
variable {l m : List (ℕ × Node)} {a b c : Server}

theorem Says.trans (hab : Says l a b) (hbc : Says m b c) : Says (l ++ m) a c := by
  refine ⟨fun j hj => hab.live j (hbc.live j hj), ?_, ?_, hbc.quiet ∘ hab.quiet⟩
  · intro j hj ha
    obtain ⟨hau, hname⟩ := hab.names j (hbc.live j hj) ha
    obtain ⟨hau', hname'⟩ := hbc.names j hj hau
    exact ⟨hau', hname'.trans hname⟩
  · intro j hj
    rw [hbc.spoken j hj, hab.spoken j (hbc.live j hj), List.append_assoc, said_append]

theorem Says.then (hab : Says l a b) (hbc : Says [] b c) : Says l a c := by
  have h := hab.trans hbc
  rwa [List.append_nil] at h

theorem Utters.trans (hab : Utters l a b) (hbc : Utters m b c) : Utters (l ++ m) a c :=
  ⟨hab.toSays.trans hbc.toSays, fun j hj => hbc.stays j (hab.stays j hj), fun j => (hbc.bearing j).trans (hab.bearing j)⟩

theorem Utters.then (hab : Utters l a b) (hbc : Utters [] b c) : Utters l a c := by
  have h := hab.trans hbc
  rwa [List.append_nil] at h

end

/-! ## Single effects -/

/-- The part of a record that announcements depend on. -/
def manner (s : Session) : List Out × (Bool × Option Node × Bool) × Bool × Buf 256 :=
  (s.out, bearing s, s.authenticated, s.jidLocal)

section
variable {srv a b : Server} {i : ℕ}

theorem Says.modify (srv : Server) (i : ℕ) {f : Session → Session}
    (hf : ∀ s, ((f s).out, (f s).authenticated, (f s).jidLocal) = (s.out, s.authenticated, s.jidLocal)) :
    Says [] srv (srv.modify i f) := by
  have hsess := fun j => Server.sess_modify_congr (fun s => (s.out, s.authenticated, s.jidLocal)) srv i j f hf
  simp only [Prod.mk.injEq] at hsess
  refine ⟨fun j => (Server.modify_live srv i j f).mp, ?_, ?_, id⟩
  · intro j _ ha
    exact ⟨(hsess j).2.1.trans ha, (hsess j).2.2⟩
  · intro j _
    rw [(hsess j).1]
    exact (List.append_nil _).symm

namespace Utters

theorem modify (srv : Server) (i : ℕ) {f : Session → Session} (hf : ∀ s, manner (f s) = manner s) :
    Utters [] srv (srv.modify i f) := by
  simp only [manner, Prod.mk.injEq] at hf
  refine ⟨.modify srv i ?_, fun j => (Server.modify_live srv i j f).mpr, ?_⟩
  · exact fun s => by rw [(hf s).1, (hf s).2.2.1, (hf s).2.2.2]
  · exact fun j => Server.sess_modify_congr Announcements.bearing srv i j f fun s => (hf s).2.1

theorem refl (srv : Server) : Utters [] srv srv :=
  ⟨⟨fun _ => id, fun _ _ h => ⟨h, rfl⟩, fun _ _ => (List.append_nil _).symm, id⟩, fun _ => id, fun _ => rfl⟩

theorem crash (srv : Server) : Utters [] srv srv.crash :=
  ⟨⟨fun _ => id, fun _ _ h => ⟨h, rfl⟩, fun _ _ => (List.append_nil _).symm, id⟩, fun _ => id, fun _ => rfl⟩

theorem of_filesOnly (h : FilesOnly a b) (hq : Quiet a → Quiet b) : Utters [] a b := by
  obtain ⟨t, rfl⟩ := h
  exact ⟨⟨fun _ => id, fun _ _ h => ⟨h, rfl⟩, fun _ _ => (List.append_nil _).symm, hq⟩, fun _ => id, fun _ => rfl⟩

theorem foldl {α : Type} {f : Server → α → Server} (hf : ∀ srv x, Utters [] srv (f srv x)) (l : List α) :
    ∀ srv, Utters [] srv (l.foldl f srv) := by
  induction l with
  | nil => exact refl
  | cons x xs ih => exact fun srv => (hf srv x).then (ih _)

/-- An authentication. -/
theorem identify (hau : (srv.sess i).authenticated = false) {f : Session → Session}
    (hf : ∀ s, ((f s).out, Announcements.bearing (f s)) = (s.out, Announcements.bearing s)) : Utters [] srv (srv.modify i f) := by
  have hsess := fun j => Server.sess_modify_congr (fun s => (s.out, Announcements.bearing s)) srv i j f hf
  simp only [Prod.mk.injEq] at hsess
  refine ⟨⟨fun j => (Server.modify_live srv i j f).mp, ?_, ?_, id⟩, fun j => (Server.modify_live srv i j f).mpr, ?_⟩
  · intro j _ ha
    by_cases hji : j = i
    · rw [hji, hau] at ha
      cases ha
    · rw [Server.sess_modify_of_ne _ _ _ _ hji]
      exact ⟨ha, rfl⟩
  · intro j _
    rw [(hsess j).1]
    exact (List.append_nil _).symm
  · exact fun j => (hsess j).2

theorem stanzaSend (srv : Server) (i : ℕ) (n : Node) : Utters [(i, n)] srv (srv.stanzaSend i n) := by
  have hsess := fun j => Server.sess_modify_congr (fun s => (Announcements.bearing s, s.authenticated, s.jidLocal)) srv i j
    (fun s => { s with out := s.out ++ [.stanza n] }) fun _ => rfl
  simp only [Prod.mk.injEq] at hsess
  refine ⟨⟨fun j => (Server.modify_live srv i j _).mp, ?_, ?_, id⟩, fun j => (Server.modify_live srv i j _).mpr,
    fun j => (hsess j).1⟩
  · intro j _ ha
    exact ⟨(hsess j).2.1.trans ha, (hsess j).2.2⟩
  · intro j hj
    rw [Server.stanzaSend, Server.sessionWrite]
    by_cases hji : j = i
    · subst hji
      rw [Server.sess_modify_self ((Server.modify_live srv j j _).mp hj), List.filter_append]
      congr 1
      cases hn : isAvailability n with
      | false => simp [said, announces, hn]
      | true => simp [said, announces, hn]
    · rw [Server.sess_modify_of_ne _ _ _ _ hji]
      simp [said, Ne.symm hji]

/-- Other stanzas are no announcements. -/
theorem other {n : Node} (h : isAvailability n = false) (srv : Server) (i : ℕ) : Utters [] srv (srv.stanzaSend i n) := by
  have hs := stanzaSend srv i n
  refine ⟨⟨hs.live, hs.names, ?_, hs.quiet⟩, hs.stays, hs.bearing⟩
  intro j hj
  rw [hs.spoken j hj, said_singleton j i h]
  rfl

theorem raw (srv : Server) (i : ℕ) (s : Str) : Utters [] srv (srv.sessionWrite i (.raw s)) := by
  have hsess := fun j => Server.sess_modify_congr
    (fun s => (s.out.filter announces, Announcements.bearing s, s.authenticated, s.jidLocal)) srv i j
    (fun r => { r with out := r.out ++ [.raw s] }) fun r => by simp [announces, Announcements.bearing]
  simp only [Prod.mk.injEq] at hsess
  refine ⟨⟨fun j => (Server.modify_live srv i j _).mp, ?_, ?_, id⟩, fun j => (Server.modify_live srv i j _).mpr,
    fun j => (hsess j).2.1⟩
  · intro j _ ha
    exact ⟨(hsess j).2.2.1.trans ha, (hsess j).2.2.2⟩
  · intro j _
    rw [Server.sessionWrite, (hsess j).1]
    exact (List.append_nil _).symm

end Utters

/-! ## Files -/

theorem quiet_unlink {srv : Server} (h : Quiet srv) (path : Str) : Quiet (unlink srv path) := by
  unfold unlink
  split
  · intro q n hq
    dsimp only at hq
    rw [Tree.content_unlink] at hq
    split_ifs at hq
    exact h q n hq
  · exact h

theorem utters_unlink (srv : Server) (path : Str) : Utters [] srv (unlink srv path) :=
  .of_filesOnly (filesOnly_unlink srv path) fun h => quiet_unlink h path

theorem utters_rosterSaveForUser (srv : Server) (username : Str) (r : Roster) :
    Utters [] srv (rosterSaveForUser srv username r) := by
  refine .of_filesOnly (filesOnly_rosterSaveForUser srv username r) ?_
  intro h
  obtain ⟨he, -⟩ | ⟨p, -, -, he⟩ := RosterStore.rosterSaveForUser_cases srv username r
  · rwa [he]
  · rw [he]
    intro q n hq
    by_cases hqp : q = p
    · subst hqp
      have hn := (Tree.content_put_self srv.files q (saveContent r)).symm.trans hq
      cases hn
      rfl
    · exact h q n ((Tree.content_put_of_ne srv.files (.file (saveContent r)) hqp).symm.trans hq)

theorem utters_editSave (srv : Server) (i : ℕ) (f : Roster → Roster) : Utters [] srv (rosterSave (modifyRoster srv i f) i) := by
  have hmod : Utters [] srv (modifyRoster srv i f) := .modify srv i fun _ => rfl
  exact hmod.then (utters_rosterSaveForUser _ _ _)

theorem utters_ensureRoster (srv : Server) (i : ℕ) : Utters [] srv (ensureRoster srv i) := by
  unfold ensureRoster
  split
  · exact .refl srv
  · exact .modify srv i fun _ => rfl

end

/-! ## Errors and answers -/

theorem not_isAvailability {n : Node} (h : n.name ≠ "presence") : isAvailability n = false :=
  decide_eq_false fun hn => h hn.1

theorem not_isAvailability_of_type {n : Node} (type : Str) (h : n.prop "type" = type)
    (hne : type ≠ [] ∧ type ≠ "unavailable") : isAvailability n = false :=
  decide_eq_false fun hn => hn.2.elim (fun he => hne.1 (h.symm.trans he)) fun he => hne.2 (h.symm.trans he)

section
variable {srv : Server} {i : ℕ} {o : Oracle} {stanza : Node}

theorem utters_iq {n : Node} (h : n.name = "iq") (srv : Server) (i : ℕ) : Utters [] srv (srv.stanzaSend i n) :=
  .other (not_isAvailability (by rw [h]; decide)) srv i

theorem utters_stanzaSendError (srv : Server) (i : ℕ) (n : Node) (t c : Str) : Utters [] srv (srv.stanzaSendError i n t c) :=
  .other (not_isAvailability_of_type "error" rfl (by decide)) srv i

theorem utters_deferred (hx : (srv.sess i).inXmlParse = true) : Utters [] srv (teardownOrDefer srv i o) := by
  unfold teardownOrDefer
  rw [if_pos hx]
  exact .modify srv i fun _ => rfl

theorem utters_streamSendError (hx : (srv.sess i).inXmlParse = true) (condition : Str) :
    Utters [] srv (streamSendError srv i o condition) :=
  (Utters.raw srv i _).then (utters_deferred (inXmlParse_sessionWrite hx _))

theorem utters_streamHandleClose (hx : (srv.sess i).inXmlParse = true) : Utters [] srv (streamHandleClose srv i o) :=
  (Utters.raw srv i _).then (utters_deferred (inXmlParse_sessionWrite hx _))

theorem utters_streamHandleOpen (hx : (srv.sess i).inXmlParse = true) (dest : Str) : Utters [] srv (streamHandleOpen srv i o dest) := by
  unfold streamHandleOpen
  split
  · exact utters_streamSendError hx _
  · exact ((Utters.raw srv i _).then (.raw _ i _)).then (.modify _ i fun _ => rfl)

theorem utters_authHandleSasl (hau : (srv.sess i).authenticated = false) (stanza : Node) :
    Utters [] srv (authHandleSasl srv i stanza) := by
  unfold authHandleSasl
  split
  · exact .raw srv i _
  split
  · exact .raw srv i _
  · refine (Utters.then (.identify hau ?_) (.raw _ i _)).then (.modify _ i ?_)
    · exact fun _ => rfl
    · exact fun _ => rfl

theorem utters_rosterPush (srv : Server) (i : ℕ) (id : Str) (item : RosterItem) : Utters [] srv (rosterPush srv i id item) :=
  utters_iq rfl srv i

/-! ## Queries -/

theorem utters_rosterHandleIq (srv : Server) (i : ℕ) (o : Oracle) (stanza : Node) :
    Utters [] srv (rosterHandleIq srv i o stanza) := by
  have hset : ∀ (f : Roster → Roster) (a : Server), Utters [] a ((rosterSave (modifyRoster a i f) i).stanzaSend i
      (resultIq stanza [] [])) := fun f a => (utters_editSave a i f).then (utters_iq rfl _ i)
  unfold rosterHandleIq
  dsimp only
  refine (utters_ensureRoster srv i).then ?_
  split
  · exact utters_iq rfl _ i
  split
  · split
    · exact utters_stanzaSendError _ i _ _ _
    · split
      · exact utters_stanzaSendError _ i _ _ _
      · split
        · exact (hset _ _).then (utters_rosterPush _ i _ _)
        · split
          · exact (hset _ _).then (utters_rosterPush _ i _ _)
          · exact hset _ _
  · exact utters_stanzaSendError _ i _ _ _

theorem utters_sessionHandleSessionIq (srv : Server) (i : ℕ) (stanza : Node) :
    Utters [] srv (sessionHandleSessionIq srv i stanza) := by
  refine Utters.then (.modify srv i ?_) (utters_iq rfl _ i)
  exact fun _ => rfl

/-- A bind that ends no other session. -/
theorem utters_sessionHandleBind (hrival : rival srv i = none) (stanza : Node) :
    Utters [] srv (sessionHandleBind srv i o stanza) := by
  have hkick : kickConflict srv i o = srv := by
    rw [kickConflict_eq, hrival]
  unfold sessionHandleBind
  rw [hkick]
  split
  · exact utters_stanzaSendError _ i _ _ _
  · refine Utters.then (.modify srv i ?_) (utters_iq rfl _ i)
    exact fun _ => rfl

theorem utters_whenActive {srv' : Server} (h : Utters [] srv srv') (stanza : Node) :
    Utters [] srv (whenActive srv i stanza srv') := by
  unfold whenActive
  split
  · exact h
  · exact utters_stanzaSendError _ i _ _ _

section
variable (hiq : stanza.name = "iq")
include hiq

theorem utters_routeReply (srv : Server) (i : ℕ) (o : Oracle) : Utters [] srv (routeReply srv i o stanza) := by
  have hname : ∀ v, (stanza.setProp "from" v).name = "iq" := fun v => (stanza.name_setProp "from" v).trans hiq
  unfold routeReply
  dsimp only
  split
  · exact .refl srv
  · split
    · exact utters_iq (hname _) _ _
    · exact .refl srv

theorem utters_routeUnknown (srv : Server) (i : ℕ) (o : Oracle) : Utters [] srv (routeUnknown srv i o stanza) := by
  have hname : ∀ v, (stanza.setProp "from" v).name = "iq" := fun v => (stanza.name_setProp "from" v).trans hiq
  unfold routeUnknown
  dsimp only
  split
  · split
    · exact utters_iq (hname _) _ _
    · exact utters_stanzaSendError _ i _ _ _
  · exact utters_stanzaSendError _ i _ _ _

theorem utters_handleIq (hrival : rival srv i = none) (hreg : childNs stanza ≠ registerNs) :
    Utters [] srv (handleIq srv i o stanza) := by
  unfold handleIq
  dsimp only
  split
  · exact utters_routeReply hiq srv i o
  split
  · exact utters_sessionHandleBind hrival stanza
  split
  · exact utters_sessionHandleSessionIq srv i stanza
  split
  · exact utters_whenActive (utters_rosterHandleIq srv i o stanza) stanza
  split
  · exact utters_whenActive (utters_iq rfl srv i) stanza
  split
  · exact utters_whenActive (utters_iq rfl srv i) stanza
  exact utters_routeUnknown hiq srv i o

end

/-- Of all stanzas but messages and registrations only presence announces anything. -/
theorem stanzaRoute_utters (hx : (srv.sess i).inXmlParse = true) (hmessage : stanza.name ≠ "message")
    (hreg : ¬(stanza.name = "iq" ∧ childNs stanza = registerNs)) (hrival : (srv.sess i).authenticated = true → rival srv i = none)
    (hgate : (srv.sess i).authenticated = true ∨ (srv.sess i).state = .streamOpened) :
    Utters [] srv (stanzaRoute srv i o stanza) ∨ (srv.sess i).isActive = true ∧ (srv.sess i).authenticated = true ∧
      stanza.name = "presence" ∧ stanzaRoute srv i o stanza = handlePresence srv i o stanza := by
  unfold stanzaRoute
  split
  · next hclosed =>
    left
    have hau : (srv.sess i).authenticated = false := by simpa using hclosed.2
    unfold routeBeforeAuth
    split
    · exact utters_authHandleSasl hau stanza
    split
    · next hiq =>
      rw [if_neg fun hns => hreg ⟨hiq, hns⟩]
      exact utters_stanzaSendError _ i _ _ _
    · exact utters_streamSendError hx _
  next hopen =>
  have hau : (srv.sess i).authenticated = true := by
    by_contra hn
    exact hopen ⟨hgate.resolve_left hn, by simpa using hn⟩
  split
  · next hiq => exact .inl (utters_handleIq hiq (hrival hau) fun hns => hreg ⟨hiq, hns⟩)
  split
  · next hpresence =>
    split
    · next hactive => exact .inr ⟨hactive, hau, hpresence, rfl⟩
    · exact .inl (utters_streamSendError hx _)
  · exact .inl (utters_streamSendError hx _)

end

end Xmppd.Announcements
