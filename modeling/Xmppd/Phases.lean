import Xmppd.Conflict

/-!
# The phases of a session

A session is opened, authenticated, bound and started, in this order, as long as
a stream header comes to a session that is not bound, a bind request gives a
resource to a session that has a name, and a session request comes to a bound
session. Each of these is left to the client. What a step does to a record is
then one move between phases, and what is claimed of the phases is read off the
moves.
-/
namespace Xmppd.Phases
open CStrings LibXml Util ServerState User Streams Auth Stanza EventLoop Frames Evolution Conflict Installation

/-! ## Moves between phases -/

structure Phase where
  state : State
  authenticated : Bool
  jidLocal : Buf 256
  jidResource : Buf 256
deriving DecidableEq

namespace Phase

def active (p : Phase) : Prop := p.state = .bound ∨ p.state = .sessionActive

/-- Bound sessions have been authenticated and have an address. -/
structure Established (p : Phase) : Prop where
  authenticated : p.active → p.authenticated = true
  jidLocal : p.active → p.jidLocal.str ≠ []
  jidResource : p.active → p.jidResource.str ≠ []
  known : p.state = .authenticated → p.authenticated = true

inductive Move : Phase → Phase → Prop
  | stay (p : Phase) : Move p p
  | opened (p : Phase) : ¬p.active → Move p { p with state := .streamOpened }
  | authenticated (p : Phase) (l : Buf 256) : p.state = .streamOpened →
      Move p { p with jidLocal := l, authenticated := true, state := .authenticated }
  | bound (p : Phase) (r : Buf 256) : p.state = .authenticated ∨ p.state = .streamOpened ∧ p.authenticated = true →
      p.jidLocal.str ≠ [] → r.str ≠ [] → Move p { p with jidResource := r, state := .bound }
  | started (p : Phase) : p.active → Move p { p with state := .sessionActive }

theorem not_active {p : Phase} (hb : p.state ≠ .bound) (hs : p.state ≠ .sessionActive) : ¬p.active := by
  rintro (h | h)
  · exact hb h
  · exact hs h

theorem Established.of_not_active {p : Phase} (ha : ¬p.active) (hk : p.state = .authenticated → p.authenticated = true) :
    p.Established :=
  ⟨fun h => absurd h ha, fun h => absurd h ha, fun h => absurd h ha, hk⟩

theorem Move.established {p q : Phase} (h : Move p q) (hp : p.Established) : q.Established := by
  cases h with
  | stay => exact hp
  | opened _ => exact .of_not_active (not_active (by simp) (by simp)) (by simp)
  | authenticated l _ => exact .of_not_active (not_active (by simp) (by simp)) fun _ => rfl
  | bound r hs hl hr =>
      have hknown : p.authenticated = true := by
        rcases hs with hs | hs
        · exact hp.known hs
        · exact hs.2
      exact ⟨fun _ => hknown, fun _ => hl, fun _ => hr, fun _ => hknown⟩
  | started ha =>
      exact ⟨fun _ => hp.authenticated ha, fun _ => hp.jidLocal ha, fun _ => hp.jidResource ha, by simp⟩

/-- A session is started only from the bound state. -/
theorem Move.entered {p q : Phase} (h : Move p q) (hq : q.state = .sessionActive) : p.active := by
  cases h with
  | stay => exact Or.inr hq
  | opened _ => cases hq
  | authenticated l _ => cases hq
  | bound r _ _ _ => cases hq
  | started ha => exact ha

/-- A bound session stays bound or active. -/
theorem Move.active {p q : Phase} (h : Move p q) (hp : p.active) : q.active := by
  cases h with
  | stay => exact hp
  | opened hna => exact absurd hp hna
  | authenticated l hs => exact absurd hp (not_active (by simp [hs]) (by simp [hs]))
  | bound r _ _ _ => exact Or.inl rfl
  | started _ => exact Or.inr rfl

end Phase

open Phase

def phase (s : Session) : Phase := ⟨s.state, s.authenticated, s.jidLocal, s.jidResource⟩

/-! ## Steps that move nothing -/

/-- No session is new, and each moves in this way. -/
structure Moves (R : Phase → Phase → Prop) (a b : Server) : Prop where
  nextId : b.nextId = a.nextId
  evolves : Evolves (fun s s' => R (phase s) (phase s')) a b

abbrev Calm : Server → Server → Prop := Moves fun p q => q = p

section
variable {R : Phase → Phase → Prop} {a b c : Server}

theorem Calm.trans (hab : Calm a b) (hbc : Moves R b c) : Moves R a c := by
  refine ⟨hbc.nextId.trans hab.nextId, hab.evolves.comp ?_ hbc.evolves⟩
  intro r s t hrs hst
  rwa [hrs] at hst

theorem Moves.calm (hab : Moves R a b) (hbc : Calm b c) : Moves R a c := by
  refine ⟨hbc.nextId.trans hab.nextId, hab.evolves.comp ?_ hbc.evolves⟩
  intro r s t hrs hst
  rwa [← hst] at hrs

theorem calm_of_steady (h : Steady a b) : Calm a b := by
  refine ⟨h.nextId, .of_same ?_ h⟩
  intro s s' he
  exact standing.get phase (fun _ => rfl) he

theorem Calm.refl (a : Server) : Calm a a := calm_of_steady (.refl a)

theorem moves_modify (srv : Server) (i : ℕ) {f : Session → Session} (hR : ∀ p, R p p)
    (hf : ∀ s ∈ srv.sessions, s.id = i → R (phase s) (phase (f s))) : Moves R srv (srv.modify i f) :=
  ⟨rfl, .modify srv i (fun s => hR (phase s)) hf⟩

theorem calm_modify (srv : Server) (i : ℕ) {f : Session → Session} (hf : ∀ s, phase (f s) = phase s) :
    Calm srv (srv.modify i f) := moves_modify srv i (fun _ => rfl) fun s _ _ => hf s

end

section
variable (srv : Server) (i : ℕ) (o : Oracle)

theorem calm_sessionTeardown : Calm srv (sessionTeardown srv i o) := by
  by_cases hs : (srv.sess i).state = .disconnected
  · unfold sessionTeardown
    rw [if_pos (Or.inr hs)]
    exact .refl srv
  · refine ⟨?_, ?_⟩
    · unfold sessionTeardown
      split
      · rfl
      · change Server.nextId (if _ then _ else _) = _
        split
        · exact (steady_presenceBroadcastUnavailable srv i o).nextId
        · rfl
    · intro s' hs'
      obtain ⟨s, hmem, hid, -⟩ := (sessionTeardown_flow srv i o tame_later).evolves s' hs'
      have hne : s'.id ≠ i := by
        rintro rfl
        exact sessionTeardown_removes srv s'.id o hs (Server.live_of_mem hs')
      have he := sessionTeardown_standing srv i o hne
      rw [Server.sess_of_mem hs', ← hid, Server.sess_of_mem hmem] at he
      exact ⟨s, hmem, hid, standing.get phase (fun _ => rfl) he⟩

theorem calm_teardownOrDefer : Calm srv (teardownOrDefer srv i o) := by
  unfold teardownOrDefer
  split
  · exact calm_of_steady (.modify srv i fun _ => rfl)
  · exact calm_sessionTeardown srv i o

theorem calm_streamSendError (condition : Str) : Calm srv (streamSendError srv i o condition) :=
  (calm_of_steady (.sessionWrite srv i _)).trans (calm_teardownOrDefer _ i o)

theorem calm_streamHandleClose : Calm srv (streamHandleClose srv i o) :=
  (calm_of_steady (.sessionWrite srv i _)).trans (calm_teardownOrDefer _ i o)

theorem calm_kickConflict : Calm srv (kickConflict srv i o) := by
  unfold kickConflict
  split
  · split
    · exact .refl srv
    · exact calm_streamSendError srv _ o _
  · exact .refl srv

theorem calm_endChunk : Calm srv (endChunk srv i o) := by
  have hclose : Calm srv (srv.modify i closeChunk) := by
    refine calm_modify srv i ?_
    intro s
    unfold closeChunk
    split <;> rfl
  unfold endChunk
  dsimp only
  split
  · exact hclose.trans (calm_sessionTeardown _ i o)
  · exact hclose

end

/-! ## Steps that move a session -/

section
variable {srv : Server} {i : ℕ} (o : Oracle) {stanza : Node}

theorem Calm.moves {a b : Server} (h : Calm a b) : Moves Move a b := by
  refine ⟨h.nextId, h.evolves.mono ?_⟩
  intro s s' he
  rw [he]
  exact .stay _

theorem moves_own {f : Session → Session} (hf : Move (phase (srv.sess i)) (phase (f (srv.sess i)))) :
    Moves Move srv (srv.modify i f) := by
  refine moves_modify srv i .stay ?_
  rintro s hs rfl
  rwa [Server.sess_of_mem hs] at hf

theorem moves_authHandleSasl (hs : (srv.sess i).state = .streamOpened) : Moves Move srv (authHandleSasl srv i stanza) := by
  unfold authHandleSasl
  split
  · exact (calm_of_steady (.sessionWrite srv i _)).moves
  split
  · exact (calm_of_steady (.sessionWrite srv i _)).moves
  · next u _ _ _ =>
    dsimp only
    have hnamed := moves_own (f := fun s => { s with
      jidLocal := snprintf 256 u, jidDomain := srv.cfg.domain, authenticated := true, state := .authenticated })
      (.authenticated (phase (srv.sess i)) (snprintf 256 u) hs)
    refine hnamed.calm ((calm_of_steady (.sessionWrite _ i _)).trans (calm_modify _ i ?_))
    exact fun _ => rfl

theorem moves_routeBeforeAuth (hs : (srv.sess i).state = .streamOpened) :
    Moves Move srv (routeBeforeAuth srv i o stanza) := by
  unfold routeBeforeAuth
  split
  · exact moves_authHandleSasl hs
  split
  · split
    · exact (calm_of_steady (steady_registerHandleIq srv i o stanza)).moves
    · exact (calm_of_steady (.stanzaSendError srv i _ _ _)).moves
  · exact (calm_streamSendError srv i o _).moves

/-- A bind that is carried out gives a resource to a session with a name, and a
session request that is carried out comes from a bound session. -/
def Orderly (srv : Server) (i : ℕ) (o : Oracle) (stanza : Node) : Prop :=
  (Binds srv i stanza → (srv.sess i).jidLocal.str ≠ [] ∧ (requestedResource o stanza).str ≠ []) ∧
    (Starts srv i stanza → (srv.sess i).isActive = true)

theorem active_phase {s : Session} (h : s.isActive = true) : (phase s).active := (of_decide_eq_true h).symm

theorem moves_sessionHandleBind (hg : ¬((srv.sess i).state = .streamOpened ∧ (srv.sess i).authenticated = false))
    (ha : Activates stanza) (hb : childNs stanza = bindNs) (hc : Orderly srv i o stanza) :
    Moves Move srv (sessionHandleBind srv i o stanza) := by
  unfold sessionHandleBind
  split
  · exact (calm_of_steady (.stanzaSendError srv i _ _ _)).moves
  · next hs =>
    have hstate : (srv.sess i).state = .authenticated ∨
        (srv.sess i).state = .streamOpened ∧ (srv.sess i).authenticated = true := by
      by_cases h₁ : (srv.sess i).state = .authenticated
      · exact Or.inl h₁
      · have h₂ : (srv.sess i).state = .streamOpened := by
          by_contra h₂
          exact hs ⟨h₁, h₂⟩
        exact Or.inr ⟨h₂, by simpa [h₂] using hg⟩
    obtain ⟨hl, hr⟩ := hc.1 ⟨ha, hb, hstate⟩
    have hphase : phase ((kickConflict srv i o).sess i) = phase (srv.sess i) :=
      standing.get phase (fun _ => rfl) (kickConflict_standing srv i o)
    have hmove : Move (phase ((kickConflict srv i o).sess i))
        { phase ((kickConflict srv i o).sess i) with jidResource := requestedResource o stanza, state := .bound } := by
      rw [hphase]
      exact .bound (phase (srv.sess i)) (requestedResource o stanza) hstate hl hr
    have hbound := moves_own (f := fun s => { s with jidResource := requestedResource o stanza, state := .bound }) hmove
    exact (calm_kickConflict srv i o).trans (hbound.calm (calm_of_steady (.stanzaSend _ i _)))

theorem moves_sessionHandleSessionIq (hg : ¬((srv.sess i).state = .streamOpened ∧ (srv.sess i).authenticated = false))
    (ha : Activates stanza) (hb : childNs stanza ≠ bindNs) (hc : Orderly srv i o stanza) :
    Moves Move srv (sessionHandleSessionIq srv i stanza) := by
  have hs : Starts srv i stanza := ⟨ha, ha.2.2.resolve_left hb, hg⟩
  unfold sessionHandleSessionIq
  dsimp only
  refine Moves.calm (moves_own ?_) (calm_of_steady (.stanzaSend _ i _))
  exact .started (phase (srv.sess i)) (active_phase (hc.2 hs))

theorem moves_stanzaRoute (hc : Orderly srv i o stanza) : Moves Move srv (stanzaRoute srv i o stanza) := by
  by_cases hg : (srv.sess i).state = .streamOpened ∧ (srv.sess i).authenticated = false
  · have hgate : (srv.sess i).state = .streamOpened ∧ (!(srv.sess i).authenticated) = true := ⟨hg.1, by rw [hg.2]; rfl⟩
    unfold stanzaRoute
    rw [if_pos hgate]
    exact moves_routeBeforeAuth o hg.1
  by_cases ha : Activates stanza
  · rw [stanzaRoute_activates srv i o ha hg]
    split
    · exact moves_sessionHandleBind o hg ha ‹_› hc
    · exact moves_sessionHandleSessionIq o hg ha ‹_› hc
  · apply Calm.moves
    have hgate : ¬((srv.sess i).state = .streamOpened ∧ (!(srv.sess i).authenticated) = true) := by
      simpa using hg
    unfold stanzaRoute
    rw [if_neg hgate]
    split
    · exact calm_of_steady (handleIq_steady srv i o ‹_› ha)
    split
    · split
      · exact calm_of_steady (steady_handleMessage srv i o stanza)
      · exact calm_streamSendError srv i o _
    split
    · split
      · exact calm_of_steady (steady_handlePresence srv i o stanza)
      · exact calm_streamSendError srv i o _
    · exact calm_streamSendError srv i o _

end

/-- The header asks for this domain. -/
def Accepted (srv : Server) (attrs : List Attr) : Prop :=
  ((attrs.find? fun a => a.name = ("to" : Str)).map Attr.value).getD [] = srv.cfg.domain.str

/-- A stream header that is accepted comes to a session that is not bound, and
the requests come in order. -/
def Ordered (srv : Server) : Step → Prop
  | .sax i _ (.startElement _ _ attrs) =>
      (srv.sess i).stanzaDepth = 0 → Accepted srv attrs → (srv.sess i).isActive = false
  | e => OnStanza Orderly srv e

section
variable {srv : Server} {i : ℕ} (o : Oracle)

theorem moves_streamHandleOpen {dest : Str} (h : dest = srv.cfg.domain.str → (srv.sess i).isActive = false) :
    Moves Move srv (streamHandleOpen srv i o dest) := by
  unfold streamHandleOpen
  split
  · exact (calm_streamSendError srv i o _).moves
  · next hdest =>
    have hinactive := h (not_not.mp hdest)
    dsimp only
    have hwrites : Steady srv ((srv.sessionWrite i (.raw (streamHeader srv.cfg.domain.str (o.ident 0)))).sessionWrite i
        (.raw (if ((srv.sessionWrite i (.raw (streamHeader srv.cfg.domain.str (o.ident 0)))).sess i).authenticated
          then featuresBind else featuresAuth))) := (Same.sessionWrite srv i _).trans (Same.sessionWrite _ i _)
    refine (calm_of_steady hwrites).trans (moves_own (.opened _ ?_))
    rintro hactive
    rw [hwrites.get phase (fun _ => rfl)] at hactive
    have hisActive : (srv.sess i).isActive = true := decide_eq_true hactive.symm
    rw [hinactive] at hisActive
    cases hisActive

theorem moves_onStartElementNs {name uri : Str} {attrs : List Attr} (hl : srv.Live i)
    (h : Ordered srv (.sax i o (.startElement name uri attrs))) : Moves Move srv (onStartElementNs srv i o name uri attrs) := by
  have hdepth : ((addDepth srv i 1).sess i).stanzaDepth = (srv.sess i).stanzaDepth + 1 := by
    unfold addDepth
    rw [Server.sess_modify_self hl]
  have hsame := addDepth_silent srv i 1
  refine (calm_of_steady hsame.steady).trans ?_
  unfold onStartElementNs
  dsimp only
  split
  · next hone =>
    apply moves_streamHandleOpen
    intro hdest
    rw [hdepth] at hone
    rw [hsame.steady.get Session.isActive fun _ => rfl]
    exact h (by omega) hdest
  · exact Calm.moves (calm_modify _ i (by intro s; rfl))

theorem moves_onEndElementNs (hl : srv.Live i) (h : Ordered srv (.sax i o .endElement)) :
    Moves Move srv (onEndElementNs srv i o) := by
  have hdepth := calm_of_steady (addDepth_silent srv i (-1)).steady
  cases hd : dispatched (srv.sess i) with
  | none =>
      apply Calm.moves
      obtain he | he | he := onEndElementNs_cases srv i o hl hd
      · rw [he]
        exact hdepth.trans (calm_streamHandleClose _ i o)
      · rw [he]
        exact hdepth
      · rw [he]
        exact hdepth.trans (calm_of_steady (.modify _ i fun _ => rfl))
  | some stanza =>
      rw [onEndElementNs_dispatched srv i o hl hd]
      exact (hdepth.trans (moves_stanzaRoute o (h stanza hd))).calm (calm_of_steady (.modify _ i fun _ => rfl))

theorem moves_callback (hl : srv.Live i) {e : Sax} (h : Ordered srv (.sax i o e)) : Moves Move srv (callback srv i o e) := by
  cases e with
  | startElement name uri attrs => exact moves_onStartElementNs o hl h
  | endElement => exact moves_onEndElementNs o hl h
  | characters text => exact Calm.moves (calm_modify srv i (by intro s; rfl))
  | error => exact (calm_teardownOrDefer srv i o).moves

end

/-! ## Steps and runs -/

/-- One step moves each session once and accepts unauthenticated ones. -/
structure Steps (a b : Server) : Prop where
  nextId : a.nextId ≤ b.nextId
  sessions : ∀ t ∈ b.sessions, (∃ s ∈ a.sessions, s.id = t.id ∧ Move (phase s) (phase t)) ∨ t = { id := a.nextId }

theorem Moves.steps {a b : Server} (h : Moves Move a b) : Steps a b :=
  ⟨Nat.le_of_eq h.nextId.symm, fun t ht => Or.inl (h.evolves t ht)⟩

theorem steps_serverAccept (srv : Server) : Steps srv srv.serverAccept := by
  refine ⟨?_, ?_⟩
  · unfold Server.serverAccept
    split
    · exact Nat.le_refl _
    · exact Nat.le_succ _
  · intro t ht
    obtain ht | rfl := Server.mem_serverAccept ht
    · exact Or.inl ⟨t, ht, rfl, .stay _⟩
    · exact Or.inr rfl

theorem step_steps (srv : Server) (e : Step) : Ordered srv e → Steps srv (step srv e) := by
  refine step_cases (P := fun e srv' => Ordered srv e → Steps srv srv') ?_ ?_ ?_ ?_ ?_ ?_ e
  · exact fun _ _ => (Calm.refl srv).moves.steps
  · exact fun _ _ => steps_serverAccept srv
  · exact fun i o _ _ => (calm_sessionTeardown srv i o).moves.steps
  · exact fun i _ _ => Moves.steps (Calm.moves (calm_modify srv i (by intro s; rfl)))
  · exact fun i o sax hp h => (moves_callback o (live_of_parsing hp) h).steps
  · exact fun i o _ _ => (calm_endChunk srv i o).moves.steps

/-- Bound sessions are authenticated and have an address. -/
def Sound (srv : Server) : Prop := ∀ s ∈ srv.sessions, (phase s).Established

theorem Steps.sound {a b : Server} (h : Steps a b) (ha : Sound a) : Sound b := by
  intro t ht
  obtain ⟨s, hs, -, hmove⟩ | rfl := h.sessions t ht
  · exact hmove.established (ha s hs)
  · exact .of_not_active (not_active (by simp [phase]) (by simp [phase])) (by simp [phase])

theorem run_sound (cfg : Config) (files : FileTree.Tree Content) (steps : List Step)
    (h : Meets Ordered (Server.init cfg files) steps) : Sound (run (Server.init cfg files) steps) := by
  refine run_invariant (fun srv e ha he => (step_steps srv e he).sound ha) steps _ ?_ h
  exact fun s hs => absurd hs (by simp [Server.init])

/-- A session that is bound in the one state is bound in the other. -/
def StaysBound (a b : Server) : Prop :=
  ∀ s ∈ a.sessions, ∀ t ∈ b.sessions, s.id = t.id → s.isActive = true → t.isActive = true

/-- A session that is started in the second state was bound in the first. -/
def StartsBound (a b : Server) : Prop :=
  ∀ t ∈ b.sessions, t.state = .sessionActive → ∃ s ∈ a.sessions, s.id = t.id ∧ s.isActive = true

theorem isActive_phase {s : Session} : s.isActive = true ↔ (phase s).active :=
  ⟨active_phase, fun h => decide_eq_true h.symm⟩

theorem Steps.startsBound {a b : Server} (h : Steps a b) : StartsBound a b := by
  intro t ht hstate
  obtain ⟨s, hs, hid, hmove⟩ | rfl := h.sessions t ht
  · exact ⟨s, hs, hid, isActive_phase.mpr (hmove.entered hstate)⟩
  · cases hstate

/-- What becomes of a session over several steps. -/
structure Remains (a b : Server) : Prop where
  nextId : a.nextId ≤ b.nextId
  sessions : ∀ t ∈ b.sessions, (∃ s ∈ a.sessions, s.id = t.id ∧ (s.isActive = true → t.isActive = true)) ∨ a.nextId ≤ t.id

theorem Steps.remains {a b : Server} (h : Steps a b) : Remains a b := by
  refine ⟨h.nextId, ?_⟩
  intro t ht
  obtain ⟨s, hs, hid, hmove⟩ | rfl := h.sessions t ht
  · exact Or.inl ⟨s, hs, hid, fun ha => isActive_phase.mpr (hmove.active (isActive_phase.mp ha))⟩
  · exact Or.inr (Nat.le_refl _)

theorem Remains.trans {a b c : Server} (hab : Remains a b) (hbc : Remains b c) : Remains a c := by
  refine ⟨Nat.le_trans hab.nextId hbc.nextId, ?_⟩
  intro t ht
  obtain ⟨s, hs, hid, hst⟩ | hnew := hbc.sessions t ht
  · obtain ⟨r, hr, hid', hrs⟩ | hnew := hab.sessions s hs
    · exact Or.inl ⟨r, hr, hid'.trans hid, fun ha => hst (hrs ha)⟩
    · exact Or.inr (hid ▸ hnew)
  · exact Or.inr (Nat.le_trans hab.nextId hnew)

theorem run_remains (steps : List Step) : ∀ srv, Meets Ordered srv steps → Remains srv (run srv steps) := by
  induction steps with
  | nil => exact fun srv _ => (Calm.refl srv).moves.steps.remains
  | cons e es ih => exact fun srv h => (step_steps srv e h.1).remains.trans (ih _ h.2)

/-- The numbers of the sessions identify them. -/
theorem Remains.staysBound {a b : Server} (h : Remains a b) : StaysBound a b := by
  intro s hs t ht hid ha
  obtain ⟨s', hs', hid', hst⟩ | hnew := h.sessions t ht
  · rw [List.inj_on_of_nodup_map a.nodup hs hs' (hid.trans hid'.symm)] at ha
    exact hst ha
  · have hold := a.fresh s hs
    omega

theorem meets_append {ok : Server → Step → Prop} (later : List Step) : ∀ (steps : List Step) {srv : Server},
    Meets ok srv (steps ++ later) → Meets ok srv steps ∧ Meets ok (run srv steps) later := by
  intro steps
  induction steps with
  | nil => exact fun h => ⟨trivial, h⟩
  | cons e es ih =>
      intro srv h
      obtain ⟨hes, hlater⟩ := ih h.2
      exact ⟨⟨h.1, hes⟩, hlater⟩

/-- What the phases promise of a step of a run and of the rest of it. -/
structure Phased (srv : Server) (steps : List Step) (e : Step) (later : List Step) : Prop where
  sound : ∀ s ∈ (run (step (run srv steps) e) later).sessions, s.isActive = true →
    s.authenticated = true ∧ s.jidLocal.str ≠ [] ∧ s.jidResource.str ≠ []
  starts : StartsBound (run srv steps) (step (run srv steps) e)
  stays : StaysBound (run srv steps) (run (step (run srv steps) e) later)

/-- In a run whose requests come in order, bound sessions are authenticated and
have an address, sessions are started from the bound state, and a bound session
stays bound for the rest of the run. -/
theorem session_phases (cfg : Config) (files : FileTree.Tree Content) (steps : List Step) (e : Step) (later : List Step)
    (h : Meets Ordered (Server.init cfg files) (steps ++ e :: later)) :
    Phased (Server.init cfg files) steps e later := by
  obtain ⟨-, he, hlater⟩ := meets_append (e :: later) steps h
  have hstep := step_steps (run (Server.init cfg files) steps) e he
  refine ⟨?_, hstep.startsBound, (hstep.remains.trans (run_remains later _ hlater)).staysBound⟩
  intro s hs ha
  have hrun : run (step (run (Server.init cfg files) steps) e) later =
      run (Server.init cfg files) (steps ++ e :: later) := by
    simp only [run, List.foldl_append, List.foldl_cons]
  rw [hrun] at hs
  have hsound := run_sound cfg files _ h s hs
  have hactive := isActive_phase.mp ha
  exact ⟨hsound.authenticated hactive, hsound.jidLocal hactive, hsound.jidResource hactive⟩

instance (srv : Server) (attrs : List Attr) : Decidable (Accepted srv attrs) := inferInstanceAs (Decidable (_ = _))

instance (srv : Server) (i : ℕ) (o : Oracle) (stanza : Node) : Decidable (Orderly srv i o stanza) :=
  inferInstanceAs (Decidable ((_ → _) ∧ (_ → _)))

instance orderedDecidable (srv : Server) : (e : Step) → Decidable (Ordered srv e)
  | .sax i _ (.startElement _ _ attrs) =>
      inferInstanceAs (Decidable ((srv.sess i).stanzaDepth = 0 → Accepted srv attrs → (srv.sess i).isActive = false))
  | .sax i o .endElement => decidableOnStanza Orderly srv (.sax i o .endElement)
  | .sax _ _ (.characters _) => isTrue trivial
  | .sax _ _ .error => isTrue trivial
  | .accept => isTrue trivial
  | .hangup _ _ => isTrue trivial
  | .beginRead _ => isTrue trivial
  | .endRead _ _ => isTrue trivial

/-- A new connection, up to the last event of a session request. -/
def requested (before : List Step) : List Step :=
  .accept :: before ++ .beginRead 0 ::
    [.startElement "iq" "jabber:client" [attr "type" "set"], .startElement "session" sessionNs [],
      .endElement].map (Step.sax 0 exampleOracle)

/-- The session request ends. -/
def last : Step := .sax 0 exampleOracle .endElement

set_option maxRecDepth 20000 in
theorem login_phased :
    Phased exampleServer (requested (login 0 bobPlain)) last [.endRead 0 exampleOracle] ∧
      (run exampleServer (requested (login 0 bobPlain) ++ [last])).sessions.map Session.state = [.sessionActive] :=
  ⟨session_phases exampleConfig (dataDirectory exampleAccounts) (requested (login 0 bobPlain)) last _ (by decide +kernel),
    by decide +kernel⟩

set_option maxRecDepth 20000 in
/-- A session is started that has not been bound. -/
theorem started_unbound :
    ¬∀ cfg files steps e later, Phased (Server.init cfg files) steps e later := by
  intro h
  have hsound := (h exampleConfig (dataDirectory exampleAccounts)
    (requested (chunk 0 (streamHeaderTo "localhost" :: authPlain bobPlain) ++ chunk 0 [streamHeaderTo "localhost"]))
    last []).sound
  revert hsound
  decide +kernel

end Xmppd.Phases
