import Xmppd.Confinement
import Xmppd.Evolution

/-!
# What is queued

No handler takes back what has been queued, so what it does to an output is what
it adds to it. A relation says which pieces may be added to which outputs, and
the lemmas say what each handler needs of it. The unavailable presence of a
session goes to the sessions its roster leads to in the state before.
-/
namespace Xmppd.Outputs
open CStrings FileTree LibXml Util ServerState User Roster Message Presence Streams Stanza Frames Confinement

/-- No session has come, and what has been added to each output is allowed there. -/
structure Writes (P : ℕ → Out → Prop) (a b : Server) : Prop where
  live : ∀ j, b.Live j → a.Live j
  out : ∀ j, b.Live j → ∃ added, (b.sess j).out = (a.sess j).out ++ added ∧ ∀ x ∈ added, P j x

namespace Writes
variable {P Q : ℕ → Out → Prop} {a b c srv : Server} {i : ℕ}

theorem of_out (hlive : ∀ j, b.Live j → a.Live j) (hout : ∀ j, b.Live j → (b.sess j).out = (a.sess j).out) : Writes P a b :=
  ⟨hlive, fun j hj => ⟨[], by rw [hout j hj, List.append_nil], by simp⟩⟩

theorem refl (srv : Server) : Writes P srv srv := .of_out (fun _ => id) fun _ _ => rfl

theorem trans (hab : Writes P a b) (hbc : Writes P b c) : Writes P a c := by
  refine ⟨fun j hj => hab.live j (hbc.live j hj), ?_⟩
  intro j hj
  obtain ⟨l, hl, hP⟩ := hab.out j (hbc.live j hj)
  obtain ⟨m, hm, hP'⟩ := hbc.out j hj
  refine ⟨l ++ m, ?_, ?_⟩
  · rw [hm, hl, List.append_assoc]
  · intro x hx
    exact (List.mem_append.mp hx).elim (hP x) (hP' x)

theorem mono (h : Writes P a b) (hPQ : ∀ j x, P j x → Q j x) : Writes Q a b := by
  refine ⟨h.live, ?_⟩
  intro j hj
  obtain ⟨l, hl, hP⟩ := h.out j hj
  exact ⟨l, hl, fun x hx => hPQ j x (hP x hx)⟩

theorem of_filesOnly (h : FilesOnly a b) : Writes P a b := by
  obtain ⟨t, rfl⟩ := h
  exact .of_out (fun _ => id) fun _ _ => rfl

theorem crash (srv : Server) : Writes P srv srv.crash := .of_out (fun _ => id) fun _ _ => rfl

theorem modify (srv : Server) (i : ℕ) {f : Session → Session} (hf : ∀ s, (f s).out = s.out) : Writes P srv (srv.modify i f) :=
  .of_out (fun j => (Server.modify_live srv i j f).mp) fun j _ => Server.sess_modify_congr Session.out srv i j f hf

theorem remove (srv : Server) (i : ℕ) : Writes P srv (srv.serverRemoveSession i) := by
  refine .of_out (fun j hj => (Server.live_serverRemoveSession.mp hj).1) ?_
  intro j hj
  rw [Server.sess_serverRemoveSession (Server.live_serverRemoveSession.mp hj).2]

theorem sessionWrite {x : Out} (h : P i x) : Writes P srv (srv.sessionWrite i x) := by
  refine ⟨fun j => (Server.modify_live srv i j _).mp, ?_⟩
  intro j hj
  by_cases hji : j = i
  · subst hji
    refine ⟨[x], ?_, by simpa using h⟩
    rw [Server.sessionWrite, Server.sess_modify_self ((Server.modify_live srv j j _).mp hj)]
  · refine ⟨[], ?_, by simp⟩
    rw [Server.sessionWrite, Server.sess_modify_of_ne _ _ _ _ hji, List.append_nil]

theorem stanzaSend {n : Node} (h : P i (.stanza n)) : Writes P srv (srv.stanzaSend i n) := sessionWrite h

theorem stanzaSendError (h : ∀ x, P i x) (n : Node) (t c : Str) : Writes P srv (srv.stanzaSendError i n t c) :=
  sessionWrite (h _)

theorem foldl {α : Type} {f : Server → α → Server} (hf : ∀ srv x, Writes P srv (f srv x)) (l : List α) :
    ∀ srv, Writes P srv (l.foldl f srv) := by
  induction l with
  | nil => exact refl
  | cons x xs ih => exact fun srv => (hf srv x).trans (ih _)

/-- What is added to an output, where nothing like it is allowed there. -/
theorem filter_eq_nil {p : Out → Bool} (h : Writes P a b) (hl : b.Live i) (hp : ∀ x, P i x → p x = false) :
    ∃ added, (b.sess i).out = (a.sess i).out ++ added ∧ added.filter p = [] := by
  obtain ⟨l, hout, hP⟩ := h.out i hl
  refine ⟨l, hout, List.filter_eq_nil_iff.mpr ?_⟩
  intro x hx
  rw [hp x (hP x hx)]
  decide

end Writes

/-! ## Rosters -/

section
variable {P : ℕ → Out → Prop} {srv : Server} {i : ℕ}

theorem writes_rosterSaveForUser (srv : Server) (username : Str) (r : Roster) : Writes P srv (rosterSaveForUser srv username r) :=
  .of_filesOnly (filesOnly_rosterSaveForUser srv username r)

theorem writes_ensureRoster (srv : Server) (i : ℕ) : Writes P srv (ensureRoster srv i) := by
  unfold ensureRoster
  split
  · exact .refl srv
  · exact .modify srv i fun _ => rfl

theorem writes_modifyRoster (srv : Server) (i : ℕ) (f : Roster → Roster) : Writes P srv (modifyRoster srv i f) :=
  .modify srv i fun _ => rfl

theorem writes_editSave (srv : Server) (i : ℕ) (f : Roster → Roster) : Writes P srv (rosterSave (modifyRoster srv i f) i) :=
  (writes_modifyRoster srv i f).trans (writes_rosterSaveForUser _ _ _)

end

/-! ## Broadcasts -/

/-- The sessions that the items of a roster lead to where they grant presence. -/
def contacts (srv : Server) (stack : ℕ → Jid) : ℕ → List RosterItem → List ℕ
  | _, [] => []
  | k, item :: items =>
      (if subHasFrom item.subscription.str then (contactOf srv (stack k) item).toList else []) ++
        contacts srv stack (k+1) items

/-- The sessions that are told when session `i` is no longer available. -/
def farewells (srv : Server) (i : ℕ) (o : Oracle) : List ℕ :=
  if (srv.sess i).available ∨ (srv.sess i).initialPresenceSent then contacts srv o.stack 0 (ownRoster srv i).items
  else []

section
variable {P : ℕ → Out → Prop} {srv : Server} {i : ℕ} {o : Oracle}

theorem contacts_congr {a : Server} (h : ∀ bare, a.sessionFindByJid bare = srv.sessionFindByJid bare) (stack : ℕ → Jid)
    (items : List RosterItem) : ∀ k, contacts a stack k items = contacts srv stack k items := by
  induction items with
  | nil => exact fun _ => rfl
  | cons item items ih =>
      intro k
      rw [contacts, contacts, ih, contactOf, contactOf, h]

/-- A loop whose body writes only to the contact an item leads to. -/
theorem writes_rosterLoop {stack : ℕ → Jid} {body : Jid → Server → RosterItem → Server} {K : ℕ → Prop}
    (hsteady : ∀ buf a item, Steady a (body buf a item))
    (hbody : ∀ buf a item, (subHasFrom item.subscription.str = true → ∀ t, contactOf a buf item = some t → K t) →
      Writes P a (body buf a item)) (items : List RosterItem) :
    ∀ k srv, (∀ t ∈ contacts srv stack k items, K t) → Writes P srv (rosterLoop stack body k items srv) := by
  induction items with
  | nil => exact fun _ srv _ => .refl srv
  | cons item items ih =>
      intro k srv hK
      rw [contacts, List.forall_mem_append] at hK
      have hitem := hbody (stack k) srv item
      refine (hitem ?_).trans (ih (k+1) _ ?_)
      · intro hfrom t ht
        refine hK.1 t ?_
        rw [if_pos hfrom, ht]
        exact List.mem_singleton_self t
      · rw [contacts_congr (hsteady (stack k) srv item).sessionFindByJid]
        exact hK.2

theorem writes_sendToContact {pres : Node} {buf : Jid} {item : RosterItem}
    (h : subHasFrom item.subscription.str = true → ∀ t, contactOf srv buf item = some t → P t (.stanza pres)) :
    Writes P srv (sendToContact pres buf srv item) := by
  unfold sendToContact
  split
  · next hfrom =>
    cases hc : contactOf srv buf item with
    | none => exact .refl srv
    | some t => exact .stanzaSend (h hfrom t hc)
  · exact .refl srv

theorem writes_sendUnavailable {pres : Node} {buf : Jid} {item : RosterItem}
    (h : subHasFrom item.subscription.str = true → ∀ t, contactOf srv buf item = some t → t ≠ i → P t (.stanza pres)) :
    Writes P srv (sendUnavailable i pres buf srv item) := by
  unfold sendUnavailable
  split
  · next hfrom =>
    cases hc : contactOf srv buf item with
    | none => exact .refl srv
    | some t =>
        dsimp only
        split
        · exact .refl srv
        · next hne => exact .stanzaSend (h hfrom t hc hne)
  · exact .refl srv

theorem ownRoster_modify (srv : Server) (i j : ℕ) {f : Session → Session}
    (hf : ∀ s, ((f s).jidLocal, (f s).roster) = (s.jidLocal, s.roster)) : ownRoster (srv.modify j f) i = ownRoster srv i := by
  have hsess := Server.sess_modify_congr (fun s => (s.jidLocal, s.roster)) srv j i f hf
  obtain ⟨hlocal, hroster⟩ := Prod.mk.inj hsess
  have hload : ∀ u, rosterLoadForUser (srv.modify j f) u = rosterLoadForUser srv u := fun _ => rfl
  unfold ownRoster
  rw [hroster, hlocal, hload]

/-- Writes to a record that leave what a broadcast reads. -/
theorem farewells_modify (srv : Server) (i j : ℕ) (o : Oracle) {f : Session → Session}
    (hf : ∀ s, ((f s).jidLocal, (f s).jidDomain, (f s).available, (f s).initialPresenceSent, (f s).roster) =
      (s.jidLocal, s.jidDomain, s.available, s.initialPresenceSent, s.roster)) :
    farewells (srv.modify j f) i o = farewells srv i o := by
  have hsess := Server.sess_modify_congr
    (fun s => (s.jidLocal, s.jidDomain, s.available, s.initialPresenceSent, s.roster)) srv j i f hf
  simp only [Prod.mk.injEq] at hsess hf
  obtain ⟨-, -, havail, hinit, -⟩ := hsess
  have hfind := Server.sessionFindByJid_modify srv j f
  have hroster : ownRoster (srv.modify j f) i = ownRoster srv i := by
    apply ownRoster_modify
    intro s
    rw [(hf s).1, (hf s).2.2.2.2]
  unfold farewells
  rw [havail, hinit, hroster, contacts_congr fun bare => hfind bare (fun s => (hf s).1) fun s => (hf s).2.1]

theorem presenceBroadcastUnavailable_writes (hl : srv.Live i)
    (h : ∀ t ∈ farewells srv i o, t ≠ i → P t (.stanza (unavailableNode (srv.sess i).fullJid.str))) :
    Writes P srv (presenceBroadcastUnavailable srv i o) := by
  unfold presenceBroadcastUnavailable
  dsimp only
  split
  · exact .refl srv
  · next hsent =>
    refine ((writes_ensureRoster srv i).trans ?_).trans (.modify _ i fun _ => rfl)
    apply writes_rosterLoop (silent_sendUnavailable i _ · · · |>.steady) fun _ _ _ hK => writes_sendUnavailable hK
    rw [(Own.ensure hl).roster, contacts_congr (steady_ensureRoster srv i).sessionFindByJid]
    have havailable : (srv.sess i).available = true ∨ (srv.sess i).initialPresenceSent = true := by
      simp only [Bool.not_eq_true', not_and_or, Bool.not_eq_false] at hsent
      exact hsent
    rw [farewells, if_pos havailable] at h
    exact h

theorem sessionTeardown_writes
    (h : ∀ t ∈ farewells srv i o, t ≠ i → P t (.stanza (unavailableNode (srv.sess i).fullJid.str))) :
    Writes P srv (sessionTeardown srv i o) := by
  unfold sessionTeardown
  split
  · exact .refl srv
  · next hlive =>
    have hl : srv.Live i := by
      by_contra hn
      exact hlive (Or.inl (by simpa using hn))
    refine (Writes.trans ?_ (.modify _ i ?_)).trans (.remove _ i)
    · split
      · exact presenceBroadcastUnavailable_writes hl h
      · exact .refl srv
    · exact fun _ => rfl

/-- The sessions that are told when the end of session `i` is not deferred. -/
def partings (srv : Server) (i : ℕ) (o : Oracle) : List ℕ := if (srv.sess i).inXmlParse then [] else farewells srv i o

theorem teardownOrDefer_writes
    (h : ∀ t ∈ partings srv i o, t ≠ i → P t (.stanza (unavailableNode (srv.sess i).fullJid.str))) :
    Writes P srv (teardownOrDefer srv i o) := by
  unfold teardownOrDefer
  split
  · exact .modify srv i fun _ => rfl
  · next hparse =>
    apply sessionTeardown_writes
    rwa [partings, if_neg hparse] at h

theorem streamSendError_writes (hraw : ∀ s, P i (.raw s))
    (h : ∀ t ∈ partings srv i o, t ≠ i → P t (.stanza (unavailableNode (srv.sess i).fullJid.str))) (condition : Str) :
    Writes P srv (streamSendError srv i o condition) := by
  unfold streamSendError
  refine (Writes.sessionWrite (hraw _)).trans (teardownOrDefer_writes ?_)
  have hfull : ∀ x, ((srv.sessionWrite i x).sess i).fullJid = (srv.sess i).fullJid := fun x =>
    Server.sess_modify_congr Session.fullJid srv i i _ fun _ => rfl
  have hparse : ∀ x, ((srv.sessionWrite i x).sess i).inXmlParse = (srv.sess i).inXmlParse := fun x =>
    Server.sess_modify_congr Session.inXmlParse srv i i _ fun _ => rfl
  have hsame : ∀ x, farewells (srv.sessionWrite i x) i o = farewells srv i o := fun x =>
    farewells_modify srv i i o fun _ => rfl
  rw [hfull, partings, hparse, hsame]
  exact h

/-- The session that a bind of session `i` ends. -/
def rival (srv : Server) (i : ℕ) : Option ℕ := (srv.sessionFindByJid (srv.sess i).bareJid.str).filter fun t => t ≠ i

theorem kickConflict_eq (srv : Server) (i : ℕ) (o : Oracle) :
    kickConflict srv i o = match rival srv i with
      | some t => streamSendError srv t o "conflict"
      | none => srv := by
  unfold kickConflict rival
  cases srv.sessionFindByJid (srv.sess i).bareJid.str with
  | none => rfl
  | some t =>
      dsimp only
      split
      · next ht => rw [ht, Option.filter_some, if_neg (by simp)]
      · next ht => rw [Option.filter_some, if_pos (by simpa using ht)]

theorem kickConflict_writes (hraw : ∀ t s, P t (.raw s))
    (h : ∀ e ∈ rival srv i, ∀ t ∈ partings srv e o, t ≠ e → P t (.stanza (unavailableNode (srv.sess e).fullJid.str))) :
    Writes P srv (kickConflict srv i o) := by
  rw [kickConflict_eq]
  cases hr : rival srv i with
  | none => exact .refl srv
  | some e => exact streamSendError_writes (hraw e) (h e hr) _

end

end Xmppd.Outputs
