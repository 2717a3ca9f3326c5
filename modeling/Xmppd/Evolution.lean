import Xmppd.EventLoop
import Xmppd.Frames

/-!
# How a record changes

The stream handlers, authentication and the end of sessions move a record along
in few ways, and a relation between a record and a later one that allows these
is kept by every event that completes no stanza. Two such relations are used
here. No event takes back an authentication, and only the start of a read puts a
parser on the call stack. Only a bind and a session request make a session
active; after anything else an active session was active before, with the
address it has.
-/
namespace Xmppd.Evolution
open CStrings FileTree LibXml Util ServerState User Roster Presence Streams Auth Stanza EventLoop Frames

/-- Every record in the table comes from one with the same number, by `R`. -/
def Evolves (R : Session → Session → Prop) (srv srv' : Server) : Prop :=
  ∀ s' ∈ srv'.sessions, ∃ s ∈ srv.sessions, s.id = s'.id ∧ R s s'

namespace Evolves
variable {R Q P : Session → Session → Prop} {a b c : Server}

theorem mono (h : ∀ s s', R s s' → Q s s') (hab : Evolves R a b) : Evolves Q a b := by
  intro s' hs'
  obtain ⟨s, hs, hid, hR⟩ := hab s' hs'
  exact ⟨s, hs, hid, h s s' hR⟩

theorem comp (h : ∀ r s t, R r s → Q s t → P r t) (hab : Evolves R a b) (hbc : Evolves Q b c) :
    Evolves P a c := by
  intro t ht
  obtain ⟨s, hs, hid, hQ⟩ := hbc t ht
  obtain ⟨r, hr, hid', hR⟩ := hab s hs
  exact ⟨r, hr, hid'.trans hid, h r s t hR hQ⟩

theorem of_same {v : View} (h : ∀ s s', v s' = v s → R s s') (hab : Same v a b) : Evolves R a b := by
  intro s' hs'
  obtain ⟨s, hs, he⟩ := hab.mem hs'
  exact ⟨s, hs, by rw [← v.id s, ← he, v.id], h s s' he⟩

theorem modify (srv : Server) (i : ℕ) {f : Session → Session} (hR : ∀ s, R s s)
    (hf : ∀ s ∈ srv.sessions, s.id = i → R s { f s with id := s.id }) : Evolves R srv (srv.modify i f) := by
  intro s' hs'
  obtain ⟨s, hs, rfl⟩ := (Server.mem_modify srv i f).mp hs'
  refine ⟨s, hs, ?_, ?_⟩
  · split_ifs <;> rfl
  · split_ifs with hi
    · exact hf s hs hi
    · exact hR s

end Evolves

/-- A relation kept by whatever the stream handlers do to a record. -/
structure Tame (R : Session → Session → Prop) : Prop where
  trans : ∀ r s t, R r s → R s t → R r t
  held : ∀ s s', holding s' = holding s → R s s'
  opened : ∀ s, R s { s with state := .streamOpened }
  returned : ∀ s, R s { s with inXmlParse := false }

/-- A relation kept by an authentication at this domain. -/
def Identifies (domain : Buf 256) (R : Session → Session → Prop) : Prop :=
  ∀ s l, s.authenticated = false →
    R s { s with jidLocal := l, jidDomain := domain, authenticated := true, state := .authenticated }

/-- The files are as before and every record comes from an earlier one. -/
structure Flow (R : Session → Session → Prop) (srv srv' : Server) : Prop where
  cfg : srv'.cfg = srv.cfg
  files : srv'.files = srv.files
  evolves : Evolves R srv srv'

section
variable {R : Session → Session → Prop} {a b c : Server}

theorem Tame.refl (hR : Tame R) (s : Session) : R s s := hR.held s s rfl

theorem Flow.trans (hR : Tame R) (hab : Flow R a b) (hbc : Flow R b c) : Flow R a c :=
  ⟨hbc.cfg.trans hab.cfg, hbc.files.trans hab.files, hab.evolves.comp hR.trans hbc.evolves⟩

theorem Flow.of_silent (hR : Tame R) (h : Silent a b) : Flow R a b :=
  ⟨h.cfg, h.files, .of_same hR.held h.toSame⟩

theorem Flow.refl (hR : Tame R) (srv : Server) : Flow R srv srv := .of_silent hR (.refl srv)

theorem Flow.modify (hR : Tame R) (srv : Server) (i : ℕ) {f : Session → Session}
    (hf : ∀ s ∈ srv.sessions, s.id = i → R s { f s with id := s.id }) : Flow R srv (srv.modify i f) :=
  ⟨rfl, rfl, .modify srv i hR.refl hf⟩

end

/-! ## Streams, authentication and the end of sessions -/

section
variable (srv : Server) (i : ℕ) (o : Oracle)

/-- Up to outputs and presence, the broadcast of a session changes its own record only. -/
theorem presenceBroadcastUnavailable_others {s' : Session}
    (hs' : s' ∈ (presenceBroadcastUnavailable srv i o).sessions) (hi : s'.id ≠ i) :
    ∃ s ∈ srv.sessions, holding s' = holding s := by
  obtain h | h := presenceBroadcastUnavailable_silent srv i o
  · rw [h] at hs'
    exact ⟨s', hs', rfl⟩
  · obtain ⟨t, ht, he⟩ := h.mem hs'
    have hid : t.id ≠ i := by
      rw [← holding.id t, ← he, holding.id]
      exact hi
    refine ⟨t, ?_, he⟩
    unfold ensureRoster at ht
    split at ht
    · exact ht
    · obtain ⟨s, hs, rfl⟩ := (Server.mem_modify srv i _).mp ht
      split_ifs at hid ⊢ with hsi
      · exact absurd hsi hid
      · exact hs

theorem presenceBroadcastUnavailable_files :
    (presenceBroadcastUnavailable srv i o).files = srv.files := by
  have he : (ensureRoster srv i).files = srv.files := by
    unfold ensureRoster
    split <;> rfl
  obtain h | h := presenceBroadcastUnavailable_silent srv i o
  · rw [h]
  · exact h.files.trans he

variable {R : Session → Session → Prop} (hR : Tame R)
include hR

theorem sessionTeardown_flow : Flow R srv (sessionTeardown srv i o) := by
  unfold sessionTeardown
  split
  · exact .refl hR srv
  · dsimp only
    refine ⟨?_, ?_, ?_⟩
    · change Server.cfg (if _ then _ else _) = _
      split
      · exact (steady_presenceBroadcastUnavailable srv i o).cfg
      · rfl
    · change Server.files (if _ then _ else _) = _
      split
      · exact presenceBroadcastUnavailable_files srv i o
      · rfl
    · intro s' hs'
      obtain ⟨hm, hne⟩ := Server.mem_serverRemoveSession.mp hs'
      obtain ⟨t, ht, rfl⟩ := (Server.mem_modify _ i _).mp hm
      have hti : t.id ≠ i := by
        split_ifs at hne <;> exact hne
      rw [if_neg hti]
      split at ht
      · obtain ⟨s, hs, he⟩ := presenceBroadcastUnavailable_others srv i o ht hti
        exact ⟨s, hs, by rw [← holding.id s, ← he, holding.id], hR.held s t he⟩
      · exact ⟨t, ht, rfl, hR.refl t⟩

theorem teardownOrDefer_flow : Flow R srv (teardownOrDefer srv i o) := by
  unfold teardownOrDefer
  split
  · exact .of_silent hR (.modify srv i fun _ => rfl)
  · exact sessionTeardown_flow srv i o hR

theorem streamSendError_flow (condition : Str) : Flow R srv (streamSendError srv i o condition) :=
  (Flow.of_silent hR (.sessionWrite srv i _)).trans hR (teardownOrDefer_flow _ i o hR)

theorem streamHandleClose_flow : Flow R srv (streamHandleClose srv i o) :=
  (Flow.of_silent hR (.sessionWrite srv i _)).trans hR (teardownOrDefer_flow _ i o hR)

theorem streamHandleOpen_flow (dest : Str) : Flow R srv (streamHandleOpen srv i o dest) := by
  unfold streamHandleOpen
  split
  · exact streamSendError_flow srv i o hR _
  · dsimp only
    refine Flow.trans hR ?_ (.modify hR _ i fun s _ _ => hR.opened s)
    exact .of_silent hR ((Silent.sessionWrite srv i _).trans (.sessionWrite _ i _))

theorem authHandleSasl_flow (hid : Identifies srv.cfg.domain R) (stanza : Node)
    (ha : (srv.sess i).authenticated = false) : Flow R srv (authHandleSasl srv i stanza) := by
  unfold authHandleSasl
  split
  · exact .of_silent hR (.sessionWrite srv i _)
  split
  · exact .of_silent hR (.sessionWrite srv i _)
  · dsimp only
    refine Flow.trans hR (.modify hR srv i ?_)
      (.of_silent hR ((Silent.sessionWrite _ i _).trans (.modify _ i (by intro s; rfl))))
    rintro s hs rfl
    rw [Server.sess_of_mem hs] at ha
    exact hid s _ ha

theorem kickConflict_flow : Flow R srv (kickConflict srv i o) := by
  unfold kickConflict
  split
  · split
    · exact .refl hR srv
    · exact streamSendError_flow srv _ o hR _
  · exact .refl hR srv

end

/-! ## Events that complete no stanza -/

section
variable (srv : Server) (i : ℕ) (o : Oracle)

theorem addDepth_silent (d : ℤ) : Silent srv (addDepth srv i d) := .modify srv i fun _ => rfl

/-- The end of an element, where it completes no stanza. -/
theorem onEndElementNs_cases (hl : srv.Live i) (hd : dispatched (srv.sess i) = none) :
    onEndElementNs srv i o = streamHandleClose (addDepth srv i (-1)) i o ∨
      onEndElementNs srv i o = addDepth srv i (-1) ∨
      onEndElementNs srv i o = (addDepth srv i (-1)).modify i closeElement := by
  have hs : (addDepth srv i (-1)).sess i =
      { srv.sess i with id := i, stanzaDepth := (srv.sess i).stanzaDepth + -1 } :=
    Server.sess_modify_self hl _
  unfold onEndElementNs
  simp only [hs]
  split_ifs with h₀ h₁
  · exact Or.inl rfl
  · rw [dispatched, if_pos (by omega)] at hd
    rw [hd]
    exact Or.inr (Or.inl rfl)
  · exact Or.inr (Or.inr rfl)

/-- The end of an element, where it completes a stanza. -/
theorem onEndElementNs_dispatched (hl : srv.Live i) {stanza : Node}
    (hd : dispatched (srv.sess i) = some stanza) :
    onEndElementNs srv i o = (stanzaRoute (addDepth srv i (-1)) i o stanza).modify i
      fun s => { s with building := [] } := by
  have hs : (addDepth srv i (-1)).sess i =
      { srv.sess i with id := i, stanzaDepth := (srv.sess i).stanzaDepth + -1 } :=
    Server.sess_modify_self hl _
  unfold dispatched at hd
  split_ifs at hd with h₂
  unfold onEndElementNs
  simp only [hs, h₂, hd]
  rfl

variable {R : Session → Session → Prop} (hR : Tame R)
include hR

theorem onStartElementNs_flow (name uri : Str) (attrs : List Attr) :
    Flow R srv (onStartElementNs srv i o name uri attrs) := by
  refine (Flow.of_silent hR (addDepth_silent srv i 1)).trans hR ?_
  unfold onStartElementNs
  dsimp only
  split
  · exact streamHandleOpen_flow _ i o hR _
  · exact .of_silent hR (.modify _ i fun _ => rfl)

theorem onEndElementNs_flow (hl : srv.Live i) (hd : dispatched (srv.sess i) = none) :
    Flow R srv (onEndElementNs srv i o) := by
  have ha := Flow.of_silent hR (addDepth_silent srv i (-1))
  obtain h | h | h := onEndElementNs_cases srv i o hl hd
  · rw [h]
    exact ha.trans hR (streamHandleClose_flow _ i o hR)
  · rw [h]
    exact ha
  · rw [h]
    exact ha.trans hR (.of_silent hR (.modify _ i fun _ => rfl))

/-- A callback is of this kind, or it routes a stanza. -/
theorem callback_cases (hl : srv.Live i) (e : Sax) :
    Flow R srv (callback srv i o e) ∨
      e = .endElement ∧ ∃ stanza, dispatched (srv.sess i) = some stanza ∧
        callback srv i o e = (stanzaRoute (addDepth srv i (-1)) i o stanza).modify i
          fun s => { s with building := [] } := by
  cases e with
  | startElement name uri attrs => exact Or.inl (onStartElementNs_flow srv i o hR name uri attrs)
  | endElement =>
      cases hd : dispatched (srv.sess i) with
      | none => exact Or.inl (onEndElementNs_flow srv i o hR hl hd)
      | some stanza => exact Or.inr ⟨rfl, stanza, rfl, onEndElementNs_dispatched srv i o hl hd⟩
  | characters text => exact Or.inl (.of_silent hR (.modify srv i fun _ => rfl))
  | error => exact Or.inl (teardownOrDefer_flow srv i o hR)

theorem endChunk_flow : Flow R srv (endChunk srv i o) := by
  have hc : Flow R srv (srv.modify i closeChunk) := by
    refine .modify hR srv i ?_
    intro s _ _
    refine hR.trans _ _ _ (hR.returned s) (hR.held _ _ ?_)
    unfold closeChunk
    split <;> rfl
  unfold endChunk
  dsimp only
  split
  · exact hc.trans hR (sessionTeardown_flow _ i o hR)
  · exact hc

end

/-! ## Binding -/

/-- A relation that allows the two requests which make a session active. -/
structure Loose (R : Session → Session → Prop) : Prop extends Tame R where
  bound : ∀ s r, R s { s with jidResource := r, state := .bound }
  started : ∀ s, R s { s with state := .sessionActive }

/-- The requests that can make a session active. -/
def Activates (stanza : Node) : Prop :=
  stanza.name = "iq" ∧ ¬(stanza.prop "type" = "result" ∨ stanza.prop "type" = "error") ∧
    (childNs stanza = bindNs ∨ childNs stanza = sessionNs)

section
variable (srv : Server) (i : ℕ) (o : Oracle)

theorem stanzaRoute_activates {stanza : Node} (ha : Activates stanza)
    (hg : ¬((srv.sess i).state = .streamOpened ∧ (srv.sess i).authenticated = false)) :
    stanzaRoute srv i o stanza =
      if childNs stanza = bindNs then sessionHandleBind srv i o stanza
      else sessionHandleSessionIq srv i stanza := by
  obtain ⟨hn, ht, hc⟩ := ha
  unfold stanzaRoute handleIq
  simp only [Bool.not_eq_true', hg, hn, ht, if_true, if_false]
  by_cases hb : childNs stanza = bindNs
  · rw [if_pos hb, if_pos hb]
  · rw [if_neg hb, if_neg hb, if_pos (hc.resolve_left hb)]

theorem sessionHandleBind_flow {R : Session → Session → Prop} (hR : Loose R) (stanza : Node) :
    Flow R srv (sessionHandleBind srv i o stanza) := by
  unfold sessionHandleBind
  split
  · exact .of_silent hR.toTame (.stanzaSendError srv i _ _ _)
  · dsimp only
    refine Flow.trans hR.toTame ?_ (.of_silent hR.toTame (.stanzaSend _ i _))
    refine (kickConflict_flow srv i o hR.toTame).trans hR.toTame ?_
    exact .modify hR.toTame _ i fun s _ _ => hR.bound s _

theorem sessionHandleSessionIq_flow {R : Session → Session → Prop} (hR : Loose R) (stanza : Node) :
    Flow R srv (sessionHandleSessionIq srv i stanza) := by
  unfold sessionHandleSessionIq
  dsimp only
  refine Flow.trans hR.toTame ?_ (.of_silent hR.toTame (.stanzaSend _ i _))
  exact .modify hR.toTame _ i fun s _ _ => hR.started s

/-- Ending one session leaves the standing of the others. -/
theorem sessionTeardown_standing {j : ℕ} (hj : j ≠ i) :
    standing ((sessionTeardown srv i o).sess j) = standing (srv.sess j) := by
  unfold sessionTeardown
  split
  · rfl
  · dsimp only
    rw [Server.sess_serverRemoveSession hj, Server.sess_modify_of_ne _ _ _ _ hj]
    split
    · exact (steady_presenceBroadcastUnavailable srv i o).sess j
    · rfl

theorem sessionTeardown_live {j : ℕ} (hj : j ≠ i) (hl : srv.Live j) : (sessionTeardown srv i o).Live j := by
  unfold sessionTeardown
  split
  · exact hl
  · apply Server.live_serverRemoveSession.mpr
    refine ⟨(Server.modify_live _ _ _ _).mpr ?_, hj⟩
    split
    · exact ((steady_presenceBroadcastUnavailable srv i o).live j).mpr hl
    · exact hl

theorem sessionTeardown_removes (hs : (srv.sess i).state ≠ .disconnected) :
    ¬(sessionTeardown srv i o).Live i := by
  unfold sessionTeardown
  by_cases hl : srv.Live i
  · rw [if_neg (by simp [hl, hs])]
    exact fun h => (Server.live_serverRemoveSession.mp h).2 rfl
  · rw [if_pos (Or.inl (by simpa using hl))]
    exact hl

theorem streamSendError_standing (condition : Str) {j : ℕ} (hj : j ≠ i) :
    standing ((streamSendError srv i o condition).sess j) = standing (srv.sess j) := by
  unfold streamSendError
  dsimp only
  have hw := fun out => (Same.sessionWrite srv i out).sess j
  rw [← hw]
  unfold teardownOrDefer
  split
  · exact congrArg standing.see (Server.sess_modify_of_ne _ _ _ _ hj)
  · exact sessionTeardown_standing _ i o hj

theorem streamSendError_removes (condition : Str) (hx : (srv.sess i).inXmlParse = false)
    (hs : (srv.sess i).state ≠ .disconnected) : ¬(streamSendError srv i o condition).Live i := by
  unfold streamSendError teardownOrDefer
  dsimp only
  have hw := fun out => Same.sessionWrite srv i out
  rw [if_neg (by rw [(hw _).get Session.inXmlParse (fun _ => rfl), hx]; simp)]
  apply sessionTeardown_removes
  rw [(hw _).get Session.state fun _ => rfl]
  exact hs

theorem streamSendError_live (condition : Str) {j : ℕ} (hj : j ≠ i) (hl : srv.Live j) :
    (streamSendError srv i o condition).Live j := by
  have hw : ∀ out, (srv.sessionWrite i out).Live j := fun out => (Server.modify_live srv i j _).mpr hl
  unfold streamSendError teardownOrDefer
  dsimp only
  split
  · exact (Server.modify_live _ _ _ _).mpr (hw _)
  · exact sessionTeardown_live _ i o hj (hw _)

theorem kickConflict_live (hl : srv.Live i) : (kickConflict srv i o).Live i := by
  unfold kickConflict
  split
  · split
    · exact hl
    · next hne => exact streamSendError_live srv _ o _ (Ne.symm hne) hl
  · exact hl

theorem kickConflict_standing : standing ((kickConflict srv i o).sess i) = standing (srv.sess i) := by
  unfold kickConflict
  split
  · split
    · rfl
    · rename_i hne
      exact streamSendError_standing srv _ o _ (Ne.symm hne)
  · rfl

theorem kickConflict_removes {t : ℕ} (hf : srv.sessionFindByJid (srv.sess i).bareJid.str = some t)
    (ht : t ≠ i) (hx : (srv.sess t).inXmlParse = false) (hs : (srv.sess t).state ≠ .disconnected) :
    ¬(kickConflict srv i o).Live t := by
  simp only [kickConflict, hf, ht, if_false]
  exact streamSendError_removes srv t o _ hx hs

end

/-! ## Authentication and activity -/

/-- A record after any event but the start of a read. -/
structure Kept (s s' : Session) : Prop where
  authenticated : s.authenticated = true → s'.authenticated = true
  inXmlParse : s'.inXmlParse = true → s.inXmlParse = true

/-- A record after any event but these and a request of its own to become active. -/
structure Later (s s' : Session) : Prop extends Kept s s' where
  active : s'.isActive = true → s.isActive = true ∧ s'.bareJid = s.bareJid

theorem Kept.trans {r s t : Session} (h₁ : Kept r s) (h₂ : Kept s t) : Kept r t :=
  ⟨h₂.1 ∘ h₁.1, h₁.2 ∘ h₂.2⟩

theorem Later.trans {r s t : Session} (h₁ : Later r s) (h₂ : Later s t) : Later r t := by
  refine ⟨h₁.toKept.trans h₂.toKept, ?_⟩
  intro ht
  obtain ⟨hs, hst⟩ := h₂.active ht
  obtain ⟨hr, hrs⟩ := h₁.active hs
  exact ⟨hr, hst.trans hrs⟩

theorem later_of_standing (s s' : Session) (h : standing s' = standing s) : Later s s' := by
  have ha := standing.get Session.authenticated (fun _ => rfl) h
  have hx := standing.get Session.inXmlParse (fun _ => rfl) h
  have hs := standing.get Session.isActive (fun _ => rfl) h
  have hj := standing.get Session.bareJid (fun _ => rfl) h
  refine ⟨⟨?_, ?_⟩, ?_⟩
  · rw [ha]
    exact id
  · rw [hx]
    exact id
  · rw [hs]
    exact fun h => ⟨h, hj⟩

/-- A relation kept by everything but the two requests that make a session
active and the start of a read. -/
structure Settled (domain : Buf 256) (R : Session → Session → Prop) : Prop extends Tame R where
  stood : ∀ s s', standing s' = standing s → R s s'
  identified : Identifies domain R

theorem standing_of_holding {s s' : Session} (h : holding s' = holding s) : standing s' = standing s :=
  congrArg (fun t => { t with roster := Roster.empty }) h

theorem settled_later (domain : Buf 256) : Settled domain Later where
  trans _ _ _ := Later.trans
  held s s' h := later_of_standing s s' (standing_of_holding h)
  stood := later_of_standing
  opened _ := ⟨⟨id, id⟩, fun h => by cases h⟩
  identified _ _ _ := ⟨⟨fun _ => rfl, id⟩, fun h => by cases h⟩
  returned _ := ⟨⟨id, fun h => by cases h⟩, fun h => ⟨h, rfl⟩⟩

theorem tame_later : Tame Later := (settled_later Buf.empty).toTame

theorem settled_kept (domain : Buf 256) : Settled domain Kept where
  trans _ _ _ := Kept.trans
  held s s' h := (tame_later.held s s' h).toKept
  stood s s' h := (later_of_standing s s' h).toKept
  opened _ := ⟨id, id⟩
  identified _ _ _ := ⟨fun _ => rfl, id⟩
  returned _ := ⟨id, fun h => by cases h⟩

theorem loose_kept : Loose Kept where
  toTame := (settled_kept Buf.empty).toTame
  bound _ _ := ⟨id, id⟩
  started _ := ⟨id, id⟩

namespace Evolves
variable {a b : Server}

theorem kept (h : Evolves Later a b) : Evolves Kept a b := h.mono fun _ _ => Later.toKept

theorem of_steady (h : Steady a b) : Evolves Later a b := .of_same later_of_standing h

end Evolves

section
variable (srv : Server) (i : ℕ) (o : Oracle)

theorem handleIq_steady {stanza : Node} (hn : stanza.name = "iq") (ha : ¬Activates stanza) :
    Steady srv (handleIq srv i o stanza) := by
  unfold handleIq
  dsimp only
  split_ifs with ht hb hs hr hd hi hg
  · exact (silent_routeReply srv i o stanza).steady
  · exact absurd ⟨hn, ht, Or.inl hb⟩ ha
  · exact absurd ⟨hn, ht, Or.inr hs⟩ ha
  · exact steady_whenActive i stanza (steady_rosterHandleIq srv i o stanza)
  · exact steady_whenActive i stanza (.stanzaSend srv i _)
  · exact steady_whenActive i stanza (.stanzaSend srv i _)
  · exact steady_registerHandleIq srv i o stanza
  · exact (silent_routeUnknown srv i o stanza).steady

variable {R : Session → Session → Prop} (hR : Settled srv.cfg.domain R)
include hR

theorem routeBeforeAuth_evolves (ha : (srv.sess i).authenticated = false) (stanza : Node) :
    Evolves R srv (routeBeforeAuth srv i o stanza) := by
  unfold routeBeforeAuth
  split
  · exact (authHandleSasl_flow srv i hR.toTame hR.identified stanza ha).evolves
  split
  · split
    · exact .of_same hR.stood (steady_registerHandleIq srv i o stanza)
    · exact .of_same hR.stood (.stanzaSendError srv i _ _ _)
  · exact (streamSendError_flow srv i o hR.toTame _).evolves

/-- A session before the gate, or a stanza that is not one of the two requests. -/
theorem stanzaRoute_settled {stanza : Node}
    (ha : (srv.sess i).state = .streamOpened ∧ (srv.sess i).authenticated = false ∨ ¬Activates stanza) :
    Evolves R srv (stanzaRoute srv i o stanza) := by
  have herr : ∀ condition, Evolves R srv (streamSendError srv i o condition) :=
    fun condition => (streamSendError_flow srv i o hR.toTame condition).evolves
  unfold stanzaRoute
  split
  · rename_i hg
    exact routeBeforeAuth_evolves srv i o hR (by simpa using hg.2) stanza
  rename_i hg
  have hna : ¬Activates stanza := by
    refine ha.resolve_left ?_
    rintro ⟨hs, hu⟩
    exact hg ⟨hs, by simp [hu]⟩
  split
  · rename_i hn
    exact .of_same hR.stood (handleIq_steady srv i o hn hna)
  split
  · split
    · exact .of_same hR.stood (steady_handleMessage srv i o stanza)
    · exact herr _
  split
  · split
    · exact .of_same hR.stood (steady_handlePresence srv i o stanza)
    · exact herr _
  · exact herr _

theorem stanzaRoute_evolves (hL : Loose R) (stanza : Node) : Evolves R srv (stanzaRoute srv i o stanza) := by
  by_cases hg : (srv.sess i).state = .streamOpened ∧ (srv.sess i).authenticated = false
  · exact stanzaRoute_settled srv i o hR (Or.inl hg)
  by_cases ha : Activates stanza
  · rw [stanzaRoute_activates srv i o ha hg]
    split
    · exact (sessionHandleBind_flow srv i o hL stanza).evolves
    · exact (sessionHandleSessionIq_flow srv i hL stanza).evolves
  · exact stanzaRoute_settled srv i o hR (Or.inr ha)

theorem callback_evolves (hL : Loose R) (hl : srv.Live i) (e : Sax) : Evolves R srv (callback srv i o e) := by
  obtain h | ⟨-, stanza, -, he⟩ := callback_cases srv i o hR.toTame hl e
  · exact h.evolves
  · have hs : Evolves R srv (addDepth srv i (-1)) := .of_same hR.held (addDepth_silent srv i (-1)).toSame
    have hr := hs.comp hR.trans (stanzaRoute_evolves (addDepth srv i (-1)) i o hR hL stanza)
    rw [he]
    exact hr.comp hR.trans (.of_same hR.held (Same.modify _ i fun _ => rfl))

end

section
variable (srv : Server) (i : ℕ) (o : Oracle)

theorem stanzaRoute_later {stanza : Node}
    (ha : (srv.sess i).state = .streamOpened ∧ (srv.sess i).authenticated = false ∨ ¬Activates stanza) :
    Evolves Later srv (stanzaRoute srv i o stanza) :=
  stanzaRoute_settled srv i o (settled_later _) ha

theorem stanzaRoute_kept (stanza : Node) : Evolves Kept srv (stanzaRoute srv i o stanza) :=
  stanzaRoute_evolves srv i o (settled_kept _) loose_kept stanza

theorem callback_kept (hl : srv.Live i) (e : Sax) : Evolves Kept srv (callback srv i o e) :=
  callback_evolves srv i o (settled_kept _) loose_kept hl e

end

/-! ## Identity -/

/-- A record with an address is authenticated, at the domain of the server. -/
structure Homed (domain : Buf 256) (s : Session) : Prop where
  known : s.jidLocal.str ≠ [] → s.authenticated = true
  domain : s.authenticated = true → s.jidDomain = domain

/-- A record that is as good as an earlier one. -/
def Rehomed (domain : Buf 256) (s s' : Session) : Prop := Homed domain s → Homed domain s'

theorem Homed.congr {domain : Buf 256} {s s' : Session} (hl : s'.jidLocal = s.jidLocal)
    (hd : s'.jidDomain = s.jidDomain) (ha : s'.authenticated = s.authenticated) : Rehomed domain s s' := by
  intro h
  constructor
  · rw [hl, ha]
    exact h.known
  · rw [ha, hd]
    exact h.domain

theorem settled_rehomed (domain : Buf 256) : Settled domain (Rehomed domain) where
  trans _ _ _ h₁ h₂ := h₂ ∘ h₁
  held _ _ h := .congr (holding.get Session.jidLocal (fun _ => rfl) h)
    (holding.get Session.jidDomain (fun _ => rfl) h) (holding.get Session.authenticated (fun _ => rfl) h)
  stood _ _ h := .congr (standing.get Session.jidLocal (fun _ => rfl) h)
    (standing.get Session.jidDomain (fun _ => rfl) h) (standing.get Session.authenticated (fun _ => rfl) h)
  opened _ := .congr rfl rfl rfl
  identified _ _ _ _ := ⟨fun _ => rfl, fun _ => rfl⟩
  returned _ := .congr rfl rfl rfl

theorem loose_rehomed (domain : Buf 256) : Loose (Rehomed domain) where
  toTame := (settled_rehomed domain).toTame
  bound _ _ := .congr rfl rfl rfl
  started _ := .congr rfl rfl rfl

/-- Every address in the table is at the server's domain. -/
def AtHome (srv : Server) : Prop := ∀ s ∈ srv.sessions, Homed srv.cfg.domain s

/-- Whatever happens, addresses are at the server's domain. -/
theorem step_homed {srv : Server} (h : AtHome srv) (e : Step) :
    ∀ s ∈ (step srv e).sessions, Homed srv.cfg.domain s := by
  have hR := settled_rehomed srv.cfg.domain
  have hev : ∀ {srv'}, Evolves (Rehomed srv.cfg.domain) srv srv' →
      ∀ s ∈ srv'.sessions, Homed srv.cfg.domain s := by
    intro srv' he s' hs'
    obtain ⟨s, hs, -, hs''⟩ := he s' hs'
    exact hs'' (h s hs)
  refine step_cases (P := fun _ srv' => ∀ s ∈ srv'.sessions, Homed srv.cfg.domain s) ?_ ?_ ?_ ?_ ?_ ?_ e
  · exact fun _ => h
  · intro _ s hs
    obtain hs | rfl := Server.mem_serverAccept hs
    · exact h s hs
    · exact ⟨fun hc => absurd rfl hc, fun hc => by cases hc⟩
  · exact fun i o _ => hev (sessionTeardown_flow srv i o hR.toTame).evolves
  · intro i _
    refine hev (.modify srv i hR.refl ?_)
    exact fun s _ _ => .congr rfl rfl rfl
  · exact fun i o sax hp => hev (callback_evolves srv i o hR (loose_rehomed _) (live_of_parsing hp) sax)
  · exact fun i o _ => hev (endChunk_flow srv i o hR.toTame).evolves

end Xmppd.Evolution
