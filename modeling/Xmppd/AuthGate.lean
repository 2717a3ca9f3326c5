import Xmppd.Evolution
import Xmppd.Installation

/-!
# The authentication gate

A connection that has not authenticated may create an account and write to its
own output, and nothing else. The gate tests one of the six states, so the
result rests on what is known of the record of such a connection: it is still
waiting for the stream header or has received it, and it has sent no presence.
Two requests get past the gate before the header has been accepted, and the
result is stated for connections that send neither there.

The other sessions and the files may change in any way between two events of
the connection; only its own record is followed.
-/
namespace Xmppd.AuthGate
open CStrings FileTree LibXml Util ServerState User Roster Presence Streams Auth Stanza EventLoop Evolution Installation

/-- Nothing but the record of session `i` and the files differs, and the record
keeps its roster. -/
structure OwnOnly (i : ℕ) (srv srv' : Server) : Prop where
  cfg : srv'.cfg = srv.cfg
  crashed : srv'.crashed = srv.crashed
  live : ∀ j, j ≠ i → (srv'.Live j ↔ srv.Live j)
  others : ∀ j, j ≠ i → srv'.sess j = srv.sess j
  own : srv'.Live i → srv.Live i
  roster : srv'.Live i → (srv'.sess i).roster = (srv.sess i).roster

/-- The files are as before, or as creating one new account left them. -/
def NewAccountOnly (srv srv' : Server) : Prop :=
  srv'.files = srv.files ∨
    ∃ o username password, validUsername username = true ∧ userExists srv username = false ∧
      srv'.files = (userCreate srv o username password).1.files

/-- What a connection may do before it has authenticated. -/
structure Confined (i : ℕ) (srv srv' : Server) : Prop extends OwnOnly i srv srv' where
  files : NewAccountOnly srv srv'

/-- What is known of a record until it is authenticated. -/
def Gated (s : Session) : Prop :=
  s.authenticated = false →
    (s.state = .connected ∨ s.state = .streamOpened) ∧
      s.available = false ∧ s.initialPresenceSent = false

/-- A record as the gate has to see it. -/
def Closed (s : Session) : Prop := s.authenticated = false ∧ Gated s

/-- An effect on session `i` alone that keeps what is known of its record. -/
structure Guarded (i : ℕ) (srv srv' : Server) : Prop extends OwnOnly i srv srv' where
  gated : Gated (srv.sess i) → srv'.Live i → Gated (srv'.sess i)

structure Quiet (i : ℕ) (srv srv' : Server) : Prop extends Guarded i srv srv' where
  files : srv'.files = srv.files

section
variable {i : ℕ} {a b c : Server}

theorem Guarded.trans (hab : Guarded i a b) (hbc : Guarded i b c) : Guarded i a c where
  cfg := hbc.cfg.trans hab.cfg
  crashed := hbc.crashed.trans hab.crashed
  live j hj := (hbc.live j hj).trans (hab.live j hj)
  others j hj := (hbc.others j hj).trans (hab.others j hj)
  own hl := hab.own (hbc.own hl)
  roster hl := (hbc.roster hl).trans (hab.roster (hbc.own hl))
  gated hg hl := hbc.gated (hab.gated hg (hbc.own hl)) hl

theorem Guarded.of_filesOnly (h : FilesOnly a b) : Guarded i a b := by
  obtain ⟨t, rfl⟩ := h
  exact ⟨⟨rfl, rfl, fun _ _ => Iff.rfl, fun _ _ => rfl, id, fun _ => rfl⟩, fun h _ => h⟩

theorem Quiet.refl (i : ℕ) (srv : Server) : Quiet i srv srv :=
  ⟨.of_filesOnly (.refl srv), rfl⟩

theorem Quiet.trans (hab : Quiet i a b) (hbc : Quiet i b c) : Quiet i a c :=
  ⟨hab.toGuarded.trans hbc.toGuarded, hbc.files.trans hab.files⟩

theorem Quiet.modify (i : ℕ) (srv : Server) {f : Session → Session}
    (hr : ∀ s, (f s).roster = s.roster) (hg : ∀ s, Gated s → Gated (f s)) :
    Quiet i srv (srv.modify i f) where
  cfg := rfl
  crashed := rfl
  live j _ := Server.modify_live srv i j f
  others j hj := Server.sess_modify_of_ne srv i j f hj
  own hl := by simpa using hl
  roster _ := Server.sess_modify_congr Session.roster srv i i f hr
  gated h hl := by
    rw [Server.sess_modify_self (by simpa using hl)]
    exact hg _ h
  files := rfl

theorem Quiet.remove (i : ℕ) (srv : Server) (f : Session → Session) :
    Quiet i srv ((srv.modify i f).serverRemoveSession i) := by
  have hn : ¬((srv.modify i f).serverRemoveSession i).Live i := fun h =>
    (Server.live_serverRemoveSession.mp h).2 rfl
  refine ⟨⟨⟨rfl, rfl, ?_, ?_, fun h => absurd h hn, fun h => absurd h hn⟩, fun _ h => absurd h hn⟩, rfl⟩
  · intro j hj
    rw [Server.live_serverRemoveSession, Server.modify_live]
    exact ⟨And.left, fun h => ⟨h, hj⟩⟩
  · intro j hj
    rw [Server.sess_serverRemoveSession hj, Server.sess_modify_of_ne _ _ _ _ hj]

theorem Quiet.sessionWrite (i : ℕ) (srv : Server) (out : Out) :
    Quiet i srv (srv.sessionWrite i out) :=
  Quiet.modify i srv (fun _ => rfl) fun _ h => h

theorem Quiet.stanzaSendError (i : ℕ) (srv : Server) (n : Node) (t c : Str) :
    Quiet i srv (srv.stanzaSendError i n t c) := Quiet.sessionWrite i srv _

end

theorem Closed.sessionWrite {srv : Server} {i : ℕ} (h : Closed (srv.sess i)) (out : Out) :
    Closed ((srv.sessionWrite i out).sess i) := by
  have hc := Server.sess_modify_congr Closed srv i i (fun s => { s with out := s.out ++ [out] })
    fun s => rfl
  exact hc ▸ h

/-! ## The handlers before authentication -/

section
variable {srv : Server} {i : ℕ} (o : Oracle)

theorem sessionTeardown_quiet (h : Closed (srv.sess i)) : Quiet i srv (sessionTeardown srv i o) := by
  obtain ⟨-, hav, hin⟩ := h.2 h.1
  unfold sessionTeardown
  split
  · exact .refl i srv
  · simp only [hav, hin, Bool.false_eq_true, or_self, if_false]
    exact .remove i srv _

theorem teardownOrDefer_quiet (h : Closed (srv.sess i)) : Quiet i srv (teardownOrDefer srv i o) := by
  unfold teardownOrDefer
  split
  · exact .modify i srv (fun _ => rfl) fun _ h => h
  · exact sessionTeardown_quiet o h

theorem streamSendError_quiet (h : Closed (srv.sess i)) (condition : Str) :
    Quiet i srv (streamSendError srv i o condition) :=
  (Quiet.sessionWrite i srv _).trans (teardownOrDefer_quiet o (h.sessionWrite _))

theorem streamHandleClose_quiet (h : Closed (srv.sess i)) :
    Quiet i srv (streamHandleClose srv i o) :=
  (Quiet.sessionWrite i srv _).trans (teardownOrDefer_quiet o (h.sessionWrite _))

theorem streamHandleOpen_quiet (h : Closed (srv.sess i)) (dest : Str) :
    Quiet i srv (streamHandleOpen srv i o dest) := by
  unfold streamHandleOpen
  split
  · exact streamSendError_quiet o h _
  · dsimp only
    refine ((Quiet.sessionWrite i srv _).trans (.sessionWrite i _ _)).trans (.modify i _ ?_ ?_)
    · exact fun _ => rfl
    · intro s hs ha
      exact ⟨Or.inr rfl, (hs ha).2⟩

theorem authHandleSasl_quiet (srv : Server) (i : ℕ) (stanza : Node) :
    Quiet i srv (authHandleSasl srv i stanza) := by
  unfold authHandleSasl
  split
  · exact .sessionWrite i srv _
  · split
    · exact .sessionWrite i srv _
    · dsimp only
      refine ((Quiet.modify i srv ?_ ?_).trans (.sessionWrite i _ _)).trans
        (.modify i _ (fun _ => rfl) fun _ h => h)
      · exact fun _ => rfl
      · intro s _ ha
        cases ha

theorem sendResultIq_quiet (srv : Server) (i : ℕ) (id : Str) (includeTo : Bool) :
    Quiet i srv (sendResultIq srv i id includeTo) := .sessionWrite i srv _

/-- An effect on session `i` alone that may create an account. -/
def Permitted (i : ℕ) (srv srv' : Server) : Prop := Guarded i srv srv' ∧ NewAccountOnly srv srv'

theorem Permitted.of_quiet {a b : Server} (h : Quiet i a b) : Permitted i a b :=
  ⟨h.toGuarded, Or.inl h.files⟩

theorem Permitted.trans_quiet {a b c : Server} (h : Permitted i a b) (hq : Quiet i b c) :
    Permitted i a c := by
  refine ⟨h.1.trans hq.toGuarded, ?_⟩
  unfold NewAccountOnly
  rw [hq.files]
  exact h.2

/-- A write to the own record before the effect makes no difference to it. -/
theorem Permitted.after_modify {b : Server} {f : Session → Session}
    (hq : Quiet i srv (srv.modify i f)) (h : Permitted i (srv.modify i f) b) :
    Permitted i srv b := by
  refine ⟨hq.toGuarded.trans h.1, ?_⟩
  obtain hs | ⟨o, u, p, hv, he, hf⟩ := h.2
  · exact Or.inl hs
  · rw [userCreate_modify] at hf
    exact Or.inr ⟨o, u, p, hv, he, hf⟩

theorem registerCreate_permitted (stanza : Node) (uname pw : Str) :
    Permitted i srv (registerCreate srv i o stanza uname pw) := by
  have hc : Permitted i srv (userCreate srv o uname pw).1 := by
    refine ⟨.of_filesOnly (userCreate_filesOnly srv o uname pw), ?_⟩
    obtain hs | hn := userCreate_new srv o uname pw
    · exact Or.inl (by rw [hs])
    · exact Or.inr ⟨o, uname, pw, hn.1, hn.2, rfl⟩
  unfold registerCreate
  dsimp only
  split
  · exact hc.trans_quiet (sendResultIq_quiet _ i _ _)
  split
  · exact hc.trans_quiet (.stanzaSendError i _ _ _ _)
  split
  · exact hc.trans_quiet (.stanzaSendError i _ _ _ _)
  · exact hc.trans_quiet (.stanzaSendError i _ _ _ _)

theorem registerHandleIq_permitted (ha : (srv.sess i).authenticated = false) (stanza : Node) :
    Permitted i srv (registerHandleIq srv i o stanza) := by
  unfold registerHandleIq registerSet
  simp only [ha, Bool.not_false, if_true]
  split
  · exact .of_quiet (Quiet.sessionWrite i srv _)
  split
  · split
    · exact .of_quiet (Quiet.stanzaSendError i srv _ _ _)
    · split
      · exact .of_quiet (Quiet.stanzaSendError i srv _ _ _)
      · exact registerCreate_permitted o stanza _ _
  · exact .of_quiet (Quiet.stanzaSendError i srv _ _ _)

theorem routeBeforeAuth_permitted (h : Closed (srv.sess i)) (stanza : Node) :
    Permitted i srv (routeBeforeAuth srv i o stanza) := by
  unfold routeBeforeAuth
  split
  · exact .of_quiet (authHandleSasl_quiet srv i stanza)
  split
  · split
    · exact registerHandleIq_permitted o h.1 stanza
    · exact .of_quiet (Quiet.stanzaSendError i srv _ _ _)
  · exact .of_quiet (streamSendError_quiet o h _)

/-- The requests that get past the gate: a reply to a connected user, and a
session request, both before the stream header has been accepted. -/
def Bypass (srv : Server) (i : ℕ) (o : Oracle) (stanza : Node) : Prop :=
  (srv.sess i).state = .connected ∧ stanza.name = "iq" ∧
    if stanza.prop "type" = "result" ∨ stanza.prop "type" = "error" then
      !isServerJid srv.cfg (stanza.prop "to") ∧ (routeTarget srv o (stanza.prop "to")).isSome
    else childNs stanza = sessionNs

theorem whenActive_quiet (hs : (srv.sess i).isActive = false) (stanza : Node) (srv' : Server) :
    Quiet i srv (whenActive srv i stanza srv') := by
  unfold whenActive
  rw [hs]
  exact .stanzaSendError i srv _ _ _

theorem handleIq_permitted (h : Closed (srv.sess i)) (hs : (srv.sess i).state = .connected)
    {stanza : Node} (hn : stanza.name = "iq") (hb : ¬Bypass srv i o stanza) :
    Permitted i srv (handleIq srv i o stanza) := by
  have hact : (srv.sess i).isActive = false := by simp [Session.isActive, hs]
  simp only [Bypass, hs, hn, true_and] at hb
  unfold handleIq
  dsimp only
  split_ifs at hb ⊢ with ht hbind hsess hros hinfo hitems
  · have hr : routeReply srv i o stanza = srv := by
      unfold routeReply
      dsimp only
      split_ifs with hj
      · rfl
      · cases hf : routeTarget srv o (stanza.prop "to") with
        | none => rfl
        | some t => exact absurd ⟨by simpa using hj, by rw [hf]; rfl⟩ hb
    rw [hr]
    exact .of_quiet (Quiet.refl i srv)
  · have he : sessionHandleBind srv i o stanza = srv.stanzaSendError i stanza "cancel" "not-allowed" := by
      simp [sessionHandleBind, hs]
    rw [he]
    exact .of_quiet (Quiet.stanzaSendError i srv _ _ _)
  · exact .of_quiet (whenActive_quiet hact stanza _)
  · exact .of_quiet (whenActive_quiet hact stanza _)
  · exact .of_quiet (whenActive_quiet hact stanza _)
  · exact registerHandleIq_permitted o h.1 stanza
  · have he : routeUnknown srv i o stanza =
        srv.stanzaSendError i stanza "cancel" "service-unavailable" := by
      simp [routeUnknown, hact]
    rw [he]
    exact .of_quiet (Quiet.stanzaSendError i srv _ _ _)

theorem stanzaRoute_permitted (h : Closed (srv.sess i)) {stanza : Node}
    (hb : ¬Bypass srv i o stanza) : Permitted i srv (stanzaRoute srv i o stanza) := by
  unfold stanzaRoute
  by_cases hs : (srv.sess i).state = .streamOpened
  · rw [if_pos ⟨hs, by simp [h.1]⟩]
    exact routeBeforeAuth_permitted o h stanza
  · have hc : (srv.sess i).state = .connected := (h.2 h.1).1.resolve_right hs
    have hact : (srv.sess i).isActive = false := by simp [Session.isActive, hc]
    simp only [hs, false_and, if_false, hact, Bool.false_eq_true]
    split
    · rename_i hn
      exact handleIq_permitted o h hc hn hb
    split
    · exact .of_quiet (streamSendError_quiet o h _)
    split
    · exact .of_quiet (streamSendError_quiet o h _)
    · exact .of_quiet (streamSendError_quiet o h _)

end

/-! ## Events and runs of one connection -/

/-- An event that completes neither of the two requests. -/
def NoBypass : Server → Step → Prop := OnStanza fun srv i o stanza => ¬Bypass srv i o stanza

/-- The states in which connection `i` can be found: from the accepted record by
its own events, each of which meets the condition, while everything else may
change between them. -/
inductive Reach (ok : Server → Step → Prop) (i : ℕ) : Server → Prop
  | accepted (srv : Server) : srv.Live i → srv.sess i = { id := i } → Reach ok i srv
  | event (srv : Server) (e : Step) : Reach ok i srv → e.owner = some i → ok srv e → Reach ok i (step srv e)
  | others (srv srv' : Server) : Reach ok i srv → (srv'.Live i ↔ srv.Live i) →
      srv'.sess i = srv.sess i → Reach ok i srv'

section
variable {srv : Server} {i : ℕ} (o : Oracle)

theorem Closed.addDepth (h : Closed (srv.sess i)) (d : ℤ) : Closed ((addDepth srv i d).sess i) := by
  have hc := Server.sess_modify_congr Closed srv i i
    (fun s => { s with stanzaDepth := s.stanzaDepth + d }) fun _ => rfl
  exact hc ▸ h

theorem addDepth_quiet (srv : Server) (i : ℕ) (d : ℤ) : Quiet i srv (addDepth srv i d) :=
  .modify i srv (fun _ => rfl) fun _ h => h

theorem onStartElementNs_quiet (h : Closed (srv.sess i)) (name uri : Str) (attrs : List Attr) :
    Quiet i srv (onStartElementNs srv i o name uri attrs) := by
  refine (addDepth_quiet srv i 1).trans ?_
  unfold onStartElementNs
  dsimp only
  split
  · exact streamHandleOpen_quiet o (h.addDepth 1) _
  · exact .modify i _ (fun _ => rfl) fun _ h => h

theorem onEndElementNs_permitted (hl : srv.Live i) (h : Closed (srv.sess i))
    (hb : ∀ stanza ∈ dispatched (srv.sess i), ¬Bypass (addDepth srv i (-1)) i o stanza) :
    Permitted i srv (onEndElementNs srv i o) := by
  have hd := addDepth_quiet srv i (-1)
  have hc := h.addDepth (-1)
  cases hst : dispatched (srv.sess i) with
  | some stanza =>
      rw [onEndElementNs_dispatched srv i o hl hst]
      have hr := stanzaRoute_permitted o hc (hb stanza hst)
      exact (hr.after_modify hd).trans_quiet (.modify i _ (fun _ => rfl) fun _ h => h)
  | none =>
      obtain he | he | he := onEndElementNs_cases srv i o hl hst
      · rw [he]
        exact .of_quiet (hd.trans (streamHandleClose_quiet o hc))
      · rw [he]
        exact .of_quiet hd
      · rw [he]
        exact .of_quiet (hd.trans (.modify i _ (fun _ => rfl) fun _ h => h))

theorem endChunk_quiet (h : Closed (srv.sess i)) : Quiet i srv (endChunk srv i o) := by
  have hq : Quiet i srv (srv.modify i closeChunk) := by
    refine .modify i srv ?_ ?_
    · intro s
      unfold closeChunk
      split <;> rfl
    · intro s hs
      unfold closeChunk
      split <;> exact hs
  have hc : Closed ((srv.modify i closeChunk).sess i) := by
    refine Server.sess_modify_congr Closed srv i i closeChunk ?_ ▸ h
    intro s
    unfold closeChunk
    split <;> rfl
  unfold endChunk
  dsimp only
  split
  · exact hq.trans (sessionTeardown_quiet o hc)
  · exact hq

/-- One event of the connection. -/
theorem step_permitted (h : Closed (srv.sess i)) (e : Step) :
    e.owner = some i → NoBypass srv e → Permitted i srv (step srv e) := by
  refine step_cases (P := fun e srv' => e.owner = some i → NoBypass srv e → Permitted i srv srv')
    ?_ ?_ ?_ ?_ ?_ ?_ e
  · exact fun _ _ _ => .of_quiet (.refl i srv)
  · rintro - ⟨⟩
  · rintro _ o - ⟨⟩ -
    exact .of_quiet (sessionTeardown_quiet o h)
  · rintro _ - ⟨⟩ -
    exact .of_quiet (.modify _ srv (fun _ => rfl) fun _ h => h)
  · rintro _ o sax hp ⟨⟩ hb
    cases sax with
    | startElement name uri attrs => exact .of_quiet (onStartElementNs_quiet o h name uri attrs)
    | endElement => exact onEndElementNs_permitted o (live_of_parsing hp) h hb
    | characters text => exact .of_quiet (.modify _ srv (fun _ => rfl) fun _ h => h)
    | error => exact .of_quiet (teardownOrDefer_quiet o h)
  · rintro _ o - ⟨⟩ -
    exact .of_quiet (endChunk_quiet o h)

end

/-- No event of the connection takes an authentication back. -/
theorem step_kept {srv : Server} {i : ℕ} (e : Step) : e.owner = some i →
    Evolves (fun s s' => s.authenticated = true → s'.authenticated = true) srv (step srv e) := by
  have hk : ∀ {srv'}, Evolves Kept srv srv' →
      Evolves (fun s s' => s.authenticated = true → s'.authenticated = true) srv srv' :=
    fun h => h.mono fun _ _ => Kept.authenticated
  refine step_cases (P := fun e srv' => e.owner = some i → Evolves _ srv srv') ?_ ?_ ?_ ?_ ?_ ?_ e
  · exact fun _ _ => hk (Flow.refl loose_kept.toTame srv).evolves
  · rintro - ⟨⟩
  · exact fun j o _ _ => hk (sessionTeardown_flow srv j o loose_kept.toTame).evolves
  · exact fun j _ _ => .modify srv j (fun _ => id) fun _ _ _ => id
  · exact fun j o sax hp _ => hk (callback_kept srv j o (live_of_parsing hp) sax)
  · exact fun j o _ _ => hk (endChunk_flow srv j o loose_kept.toTame).evolves

theorem step_authenticated {srv : Server} {i : ℕ} {e : Step} (he : e.owner = some i)
    (hl : (step srv e).Live i) (ha : (srv.sess i).authenticated = true) :
    ((step srv e).sess i).authenticated = true := by
  obtain ⟨s, hs, hid, hR⟩ := step_kept e he _ (Server.sess_mem hl).1
  rw [(Server.sess_mem hl).2] at hid
  subst hid
  rw [Server.sess_of_mem hs] at ha
  exact hR ha

theorem gated_of_not_live {srv : Server} {i : ℕ} (h : ¬srv.Live i) : Gated (srv.sess i) := by
  rw [Server.sess_of_not_live h]
  exact fun _ => ⟨Or.inl rfl, rfl, rfl⟩

theorem Reach.gated {i : ℕ} {srv : Server} (h : Reach NoBypass i srv) : Gated (srv.sess i) := by
  induction h with
  | accepted srv hl hs =>
      rw [hs]
      exact fun _ => ⟨Or.inl rfl, rfl, rfl⟩
  | event srv e hr he hb ih =>
      by_cases hl : (step srv e).Live i
      · cases ha : (srv.sess i).authenticated with
        | true =>
            intro hf
            rw [step_authenticated he hl ha] at hf
            cases hf
        | false => exact (step_permitted ⟨ha, ih⟩ e he hb).1.gated ih hl
      · exact gated_of_not_live hl
  | others srv srv' hr hl hs ih =>
      rw [hs]
      exact ih

/-- Until connection `i` has authenticated, none of its events reaches another
session, a roster or the files, account creation apart. -/
theorem unauthenticated_confined {i : ℕ} {srv : Server} {e : Step}
    (hr : Reach NoBypass i srv) (he : e.owner = some i) (hb : NoBypass srv e)
    (ha : (srv.sess i).authenticated = false) : Confined i srv (step srv e) := by
  have hp := step_permitted ⟨ha, hr.gated⟩ e he hb
  exact ⟨hp.1.toOwnOnly, hp.2⟩

theorem Reach.run {ok : Server → Step → Prop} {i : ℕ} (events : List Step) :
    ∀ {srv}, Reach ok i srv → (∀ e ∈ events, e.owner = some i) → Meets ok srv events →
      Reach ok i (run srv events) := by
  induction events with
  | nil => exact fun h _ _ => h
  | cons e es ih =>
      intro srv h hown hm
      exact ih (.event srv e h (hown e (by simp)) hm.1) (fun x hx => hown x (by simp [hx])) hm.2

instance (srv : Server) (i : ℕ) (o : Oracle) (stanza : Node) : Decidable (Bypass srv i o stanza) := by
  unfold Bypass
  infer_instance

instance (srv : Server) (e : Step) : Decidable (NoBypass srv e) := decidableOnStanza _ srv e

/-- A new connection, up to the last event of the registration of an account. -/
def registration : List Step :=
  .beginRead 0 :: ([streamHeaderTo "localhost",
    .startElement "iq" "jabber:client" [attr "type" "set"],
    .startElement "query" registerNs [],
    .startElement "username" registerNs [], .characters "dave", .endElement,
    .startElement "password" registerNs [], .characters "pd", .endElement,
    .endElement].map (Step.sax 0 exampleOracle))

def registering : Server := run (step exampleServer .accept) registration

set_option maxRecDepth 20000 in
theorem registration_confined :
    Confined 0 registering (step registering (.sax 0 exampleOracle .endElement)) ∧
      userExists registering "dave" = false ∧
      userExists (step registering (.sax 0 exampleOracle .endElement)) "dave" = true := by
  have hn : Reach NoBypass 0 (step exampleServer .accept) :=
    .accepted _ (by decide +kernel) (by decide +kernel)
  have hr : Reach NoBypass 0 registering :=
    hn.run registration (by decide +kernel) (by decide +kernel)
  exact ⟨unauthenticated_confined hr rfl (by decide +kernel) (by decide +kernel),
    by decide +kernel, by decide +kernel⟩

/-- A connection refused for its stream header, up to the last event of a reply to a user. -/
def reply : List Step :=
  .beginRead 1 :: ([streamHeaderTo "elsewhere",
    .startElement "iq" "jabber:client" [attr "type" "result", attr "to" "bob@localhost"]].map
      (Step.sax 1 exampleOracle))

def bobConnected : Server := run exampleServer (.accept :: login 0 bobPlain ++ [.accept])

set_option maxRecDepth 20000 in
theorem unauthenticated_not_confined :
    ¬∀ i srv e, Reach (fun _ _ => True) i srv → e.owner = some i →
      (srv.sess i).authenticated = false → Confined i srv (step srv e) := by
  intro h
  have hn : Reach (fun _ _ => True) 1 bobConnected :=
    .accepted _ (by decide +kernel) (by decide +kernel)
  have hr := hn.run reply (by decide +kernel) (by decide +kernel)
  have hc := h 1 _ (.sax 1 exampleOracle .endElement) hr rfl (by decide +kernel)
  have ho := congrArg (fun s => s.out.length) (hc.others 0 (by decide))
  revert ho
  decide +kernel

end Xmppd.AuthGate
