import Mathlib.Data.List.Induction
import Xmppd.Installation

/-!
# Sessions that are being closed

A stream error, the end of a stream and the removal of an account mark the
session while its parser runs, and the mark is read when the chunk has been
parsed. The callbacks of the rest of the chunk do not look at it. Those that
complete no stanza keep to the session's own record; one that completes a
stanza hands it to the router like any other.
-/
namespace Xmppd.Closing
open CStrings FileTree LibXml Util ServerState User Streams Stanza EventLoop Installation

/-- The record without the output, the state, the parser's position and the
deferred requests. -/
def keptPart (s : Session) : Session :=
  { s with
    state := .connected
    out := []
    building := []
    stanzaDepth := 0
    parserResetPending := false
    teardownPending := false }

/-- Nothing outside the record of session `i` changes, and of the record only
the parser's position, the output and the state. -/
structure Own (i : ℕ) (a b : Server) : Prop where
  files : b.files = a.files
  crashed : b.crashed = a.crashed
  live : ∀ j, b.Live j ↔ a.Live j
  others : ∀ j, j ≠ i → b.sess j = a.sess j
  kept : keptPart (b.sess i) = keptPart (a.sess i)
  pending : (a.sess i).teardownPending = true → (b.sess i).teardownPending = true

namespace Own
variable {i : ℕ} {a b c : Server}

theorem refl (a : Server) : Own i a a := by
  constructor
  · rfl
  · rfl
  · exact fun _ => Iff.rfl
  · exact fun _ _ => rfl
  · rfl
  · exact id

theorem trans (h : Own i a b) (h' : Own i b c) : Own i a c := by
  constructor
  · rw [h'.files, h.files]
  · rw [h'.crashed, h.crashed]
  · exact fun j => (h'.live j).trans (h.live j)
  · exact fun j hj => (h'.others j hj).trans (h.others j hj)
  · rw [h'.kept, h.kept]
  · exact fun hp => h'.pending (h.pending hp)

theorem modify (srv : Server) {f : Session → Session} (hf : ∀ s, keptPart { f s with id := s.id } = keptPart s)
    (hp : ∀ s, s.teardownPending = true → (f s).teardownPending = true) : Own i srv (srv.modify i f) := by
  constructor
  · rfl
  · rfl
  · intro j
    exact Server.modify_live srv i j f
  · intro j hj
    exact Server.sess_modify_of_ne srv i j f hj
  · exact Server.sess_modify_congr keptPart srv i i f hf
  · by_cases hl : srv.Live i
    · rw [Server.sess_modify_self hl]
      exact hp _
    · have hl' : ¬(srv.modify i f).Live i := fun h => hl ((Server.modify_live srv i i f).mp h)
      rw [Server.sess_of_not_live hl, Server.sess_of_not_live hl']
      exact id

theorem sessionWrite (srv : Server) (o : Out) : Own i srv (srv.sessionWrite i o) :=
  modify srv (fun _ => rfl) (fun _ h => h)

theorem inXmlParse (h : Own i a b) : (b.sess i).inXmlParse = (a.sess i).inXmlParse := by
  have hk := congrArg Session.inXmlParse h.kept
  exact hk

end Own

section
variable {srv : Server} {i : ℕ} (o : Oracle)

theorem teardownOrDefer_own (hp : (srv.sess i).inXmlParse = true) : Own i srv (teardownOrDefer srv i o) := by
  rw [teardownOrDefer, if_pos hp]
  exact Own.modify srv (fun _ => rfl) (fun _ _ => rfl)

theorem streamSendError_own (hp : (srv.sess i).inXmlParse = true) (condition : Str) :
    Own i srv (streamSendError srv i o condition) := by
  have hw := Own.sessionWrite (i := i) srv (.raw (("<stream:error><" : Str) ++ condition ++
    (" xmlns='urn:ietf:params:xml:ns:xmpp-streams'/></stream:error></stream:stream>" : Str)))
  exact hw.trans (teardownOrDefer_own o (hw.inXmlParse.trans hp))

theorem streamHandleClose_own (hp : (srv.sess i).inXmlParse = true) : Own i srv (streamHandleClose srv i o) := by
  have hw := Own.sessionWrite (i := i) srv (.raw "</stream:stream>")
  exact hw.trans (teardownOrDefer_own o (hw.inXmlParse.trans hp))

theorem streamHandleOpen_own (hp : (srv.sess i).inXmlParse = true) (dest : Str) :
    Own i srv (streamHandleOpen srv i o dest) := by
  unfold streamHandleOpen
  split
  · exact streamSendError_own o hp _
  · have hh := Own.sessionWrite (i := i) srv (.raw (streamHeader srv.cfg.domain.str (o.ident 0)))
    have hf := hh.trans (Own.sessionWrite _ (.raw (if ((srv.sessionWrite i
      (.raw (streamHeader srv.cfg.domain.str (o.ident 0)))).sess i).authenticated then featuresBind else featuresAuth)))
    exact hf.trans (Own.modify _ (fun _ => rfl) (fun _ h => h))

theorem addDepth_own (d : ℤ) : Own i srv (addDepth srv i d) := Own.modify srv (fun _ => rfl) (fun _ h => h)

end

/-- The stanza handed to the router by a callback. -/
def routed (srv : Server) (i : ℕ) : Sax → Option Node
  | .endElement =>
      let srv := addDepth srv i (-1)
      if (srv.sess i).stanzaDepth = 0 then none
      else if (srv.sess i).stanzaDepth = 1 then currentStanza (srv.sess i).building
      else none
  | _ => none

/-- The event is the end tag of a stanza that was begun. -/
def EndsStanza (s : Session) (e : Sax) : Prop := e = .endElement ∧ s.stanzaDepth = 2 ∧ s.building ≠ []

instance (s : Session) (e : Sax) : Decidable (EndsStanza s e) := inferInstanceAs (Decidable (_ ∧ _ ∧ _))

theorem currentStanza_eq_none {l : List Node} : currentStanza l = none ↔ l = [] := by
  cases l with
  | nil => simp [currentStanza]
  | cons n rest => simp [currentStanza]

theorem routed_eq_none {srv : Server} {i : ℕ} (hl : srv.Live i) (e : Sax) :
    routed srv i e = none ↔ ¬EndsStanza (srv.sess i) e := by
  cases e with
  | startElement name uri attrs => simp [routed, EndsStanza]
  | characters text => simp [routed, EndsStanza]
  | error => simp [routed, EndsStanza]
  | endElement =>
      have hs : (addDepth srv i (-1)).sess i =
          { srv.sess i with id := i, stanzaDepth := (srv.sess i).stanzaDepth + -1 } := Server.sess_modify_self hl _
      simp only [routed, hs, EndsStanza, true_and]
      by_cases h0 : (srv.sess i).stanzaDepth + -1 = 0
      · have h2 : (srv.sess i).stanzaDepth ≠ 2 := by omega
        simp [h0, h2]
      · by_cases h1 : (srv.sess i).stanzaDepth + -1 = 1
        · have h2 : (srv.sess i).stanzaDepth = 2 := by omega
          simp [h2, currentStanza_eq_none]
        · have h2 : (srv.sess i).stanzaDepth ≠ 2 := by omega
          simp [h0, h1, h2]

/-- The event is the start tag of a stream. -/
def OpensStream (s : Session) : Sax → Prop
  | .startElement .. => s.stanzaDepth = 0
  | _ => False

/-- A callback hands nothing to the router: files, accounts and other sessions
stay as they are, and so does the session's state unless a stream is opened. -/
structure Quiet (srv : Server) (i : ℕ) (o : Oracle) (e : Sax) : Prop where
  unrouted : routed srv i e = none
  own : Own i srv (callback srv i o e)
  state : OpensStream (srv.sess i) e ∨ ((callback srv i o e).sess i).state = (srv.sess i).state

theorem modify_state {srv : Server} {i : ℕ} {f : Session → Session} (hf : ∀ s, (f s).state = s.state) :
    ((srv.modify i f).sess i).state = (srv.sess i).state :=
  Server.sess_modify_congr Session.state srv i i f hf

theorem onStartElementNs_quiet {srv : Server} {i : ℕ} (hl : srv.Live i) (hp : (srv.sess i).inXmlParse = true)
    (o : Oracle) (name uri : Str) (attrs : List Attr) : Quiet srv i o (.startElement name uri attrs) := by
  have hd : ((addDepth srv i 1).sess i).stanzaDepth = (srv.sess i).stanzaDepth + 1 := by
    rw [addDepth, Server.sess_modify_self hl]
  have ha : Own i srv (addDepth srv i 1) := addDepth_own 1
  have hpa := ha.inXmlParse.trans hp
  constructor
  · rfl
  · simp only [callback, onStartElementNs]
    split
    · exact ha.trans (streamHandleOpen_own o hpa _)
    · exact ha.trans (Own.modify _ (fun _ => rfl) (fun _ h => h))
  · by_cases h0 : (srv.sess i).stanzaDepth = 0
    · exact Or.inl h0
    · right
      have h1 : ¬((addDepth srv i 1).sess i).stanzaDepth = 1 := by omega
      simp only [callback, onStartElementNs, if_neg h1]
      rw [modify_state (by intro s; rfl)]
      exact modify_state (by intro s; rfl)

theorem teardownOrDefer_state {srv : Server} {i : ℕ} (hp : (srv.sess i).inXmlParse = true) (o : Oracle) :
    ((teardownOrDefer srv i o).sess i).state = (srv.sess i).state := by
  rw [teardownOrDefer, if_pos hp]
  exact modify_state (by intro s; rfl)

theorem onEndElementNs_quiet {srv : Server} {i : ℕ} (hl : srv.Live i) (hp : (srv.sess i).inXmlParse = true)
    (o : Oracle) (he : ¬EndsStanza (srv.sess i) .endElement) : Quiet srv i o .endElement := by
  have hr := (routed_eq_none hl .endElement).mpr he
  have ha : Own i srv (addDepth srv i (-1)) := addDepth_own (-1)
  have hpa := ha.inXmlParse.trans hp
  have hsa : ((addDepth srv i (-1)).sess i).state = (srv.sess i).state := modify_state (by intro s; rfl)
  simp only [routed] at hr
  by_cases h0 : ((addDepth srv i (-1)).sess i).stanzaDepth = 0
  · constructor
    · simp [routed, h0]
    · simp only [callback, onEndElementNs, h0, if_true]
      exact ha.trans (streamHandleClose_own o hpa)
    · right
      simp only [callback, onEndElementNs, h0, if_true]
      have hw := Own.sessionWrite (i := i) (addDepth srv i (-1)) (.raw "</stream:stream>")
      rw [streamHandleClose, teardownOrDefer_state (hw.inXmlParse.trans hpa), Server.sessionWrite]
      rw [modify_state (by intro s; rfl)]
      exact hsa
  · rw [if_neg h0] at hr
    by_cases h1 : ((addDepth srv i (-1)).sess i).stanzaDepth = 1
    · rw [if_pos h1] at hr
      constructor
      · simp [routed, h1, hr]
      · simp only [callback, onEndElementNs, h1, hr, one_ne_zero, if_false, if_true]
        exact ha
      · right
        simp only [callback, onEndElementNs, h1, hr, one_ne_zero, if_false, if_true]
        exact hsa
    · constructor
      · simp [routed, h0, h1]
      · simp only [callback, onEndElementNs, h0, h1, if_false]
        exact ha.trans (Own.modify _ (fun _ => rfl) (fun _ h => h))
      · right
        simp only [callback, onEndElementNs, h0, h1, if_false]
        rw [modify_state (by intro s; rfl)]
        exact hsa

/-- A callback that ends no stanza is quiet, and no other is. -/
theorem quiet_iff {srv : Server} {i : ℕ} (hp : parsing srv i = true) (o : Oracle) (e : Sax) :
    Quiet srv i o e ↔ ¬EndsStanza (srv.sess i) e := by
  obtain ⟨hl, hx⟩ := of_decide_eq_true hp
  constructor
  · intro h
    exact (routed_eq_none hl e).mp h.unrouted
  · intro h
    cases e with
    | startElement name uri attrs => exact onStartElementNs_quiet hl hx o name uri attrs
    | endElement => exact onEndElementNs_quiet hl hx o h
    | characters text =>
        constructor
        · rfl
        · exact Own.modify srv (fun _ => rfl) (fun _ h => h)
        · exact Or.inr (modify_state (by intro s; rfl))
    | error =>
        constructor
        · rfl
        · exact teardownOrDefer_own o hx
        · exact Or.inr (teardownOrDefer_state hx o)

/-- The state after some callbacks of a chunk. -/
def feed (srv : Server) (i : ℕ) (events : List (Oracle × Sax)) : Server :=
  run srv (events.map fun x => .sax i x.1 x.2)

theorem feed_append (srv : Server) (i : ℕ) (a b : List (Oracle × Sax)) :
    feed srv i (a ++ b) = feed (feed srv i a) i b := by
  simp only [feed, run, List.map_append, List.foldl_append]

/-- The session is marked for its teardown and its parser is still running. -/
def IsClosing (srv : Server) (i : ℕ) : Prop :=
  srv.crashed = false ∧ parsing srv i = true ∧ (srv.sess i).teardownPending = true

instance (srv : Server) (i : ℕ) : Decidable (IsClosing srv i) := inferInstanceAs (Decidable (_ ∧ _ ∧ _))

theorem Own.closing {i : ℕ} {a b : Server} (h : Own i a b) (hc : IsClosing a i) : IsClosing b i := by
  obtain ⟨hcr, hp, ht⟩ := hc
  obtain ⟨hl, hx⟩ := of_decide_eq_true hp
  constructor
  · exact h.crashed.trans hcr
  constructor
  · exact decide_eq_true ⟨(h.live i).mpr hl, h.inXmlParse.trans hx⟩
  · exact h.pending ht

theorem pending_modify {srv : Server} {i : ℕ} (hl : srv.Live i) :
    ((srv.modify i fun s => { s with teardownPending := true }).sess i).teardownPending = true := by
  rw [Server.sess_modify_self hl]

theorem teardownOrDefer_pending {srv : Server} {i : ℕ} (hl : srv.Live i) (hx : (srv.sess i).inXmlParse = true)
    (o : Oracle) : ((teardownOrDefer srv i o).sess i).teardownPending = true := by
  rw [teardownOrDefer, if_pos hx]
  exact pending_modify hl

theorem closing_of_own {srv srv' : Server} {i : ℕ} (hc : srv.crashed = false) (hp : parsing srv i = true)
    (h : Own i srv srv') (ht : (srv'.sess i).teardownPending = true) : IsClosing srv' i := by
  obtain ⟨hl, hx⟩ := of_decide_eq_true hp
  constructor
  · exact h.crashed.trans hc
  constructor
  · exact decide_eq_true ⟨(h.live i).mpr hl, h.inXmlParse.trans hx⟩
  · exact ht

/-- `stream_send_error` and `stream_handle_close` mark a session whose parser runs. -/
theorem stream_marks {srv : Server} {i : ℕ} (hc : srv.crashed = false) (hp : parsing srv i = true) (o : Oracle) :
    (∀ condition, IsClosing (streamSendError srv i o condition) i) ∧ IsClosing (streamHandleClose srv i o) i := by
  obtain ⟨hl, hx⟩ := of_decide_eq_true hp
  have hw : ∀ out, (srv.sessionWrite i out).Live i ∧ ((srv.sessionWrite i out).sess i).inXmlParse = true := by
    intro out
    have h : Own i srv (srv.sessionWrite i out) := Own.sessionWrite srv out
    exact ⟨(h.live i).mpr hl, h.inXmlParse.trans hx⟩
  constructor
  · intro condition
    exact closing_of_own hc hp (streamSendError_own o hx condition) (teardownOrDefer_pending (hw _).1 (hw _).2 o)
  · exact closing_of_own hc hp (streamHandleClose_own o hx) (teardownOrDefer_pending (hw _).1 (hw _).2 o)

/-- A callback runs in the given state. -/
theorem feed_snoc {srv : Server} {i : ℕ} (pre : List (Oracle × Sax)) (x : Oracle × Sax)
    (hc : IsClosing (feed srv i pre) i) :
    feed srv i (pre ++ [x]) = callback (feed srv i pre) i x.1 x.2 := by
  have hn : ¬(feed srv i pre).crashed = true := by
    rw [hc.1]
    exact Bool.false_ne_true
  rw [feed_append]
  change step (feed srv i pre) (.sax i x.1 x.2) = _
  rw [step, if_neg hn]
  exact if_pos hc.2.1

/-- Every callback of the chunk that comes after the mark satisfies a condition
in the state in which it runs. -/
def AfterMark (P : Server → ℕ → Oracle → Sax → Prop) (srv : Server) (i : ℕ) (events : List (Oracle × Sax)) : Prop :=
  ∀ pre mid x post, events = pre ++ (mid ++ x :: post) → IsClosing (feed srv i pre) i →
    P (feed srv i (pre ++ mid)) i x.1 x.2

/-- As long as the callbacks are quiet the mark stays. -/
theorem closing_stays {srv : Server} {i : ℕ} {pre : List (Oracle × Sax)} (mid post : List (Oracle × Sax))
    (hc : IsClosing (feed srv i pre) i)
    (hq : ∀ m x p, mid ++ post = m ++ x :: p → IsClosing (feed srv i (pre ++ m)) i →
      Quiet (feed srv i (pre ++ m)) i x.1 x.2) :
    IsClosing (feed srv i (pre ++ mid)) i := by
  induction mid using List.reverseRec generalizing post with
  | nil => simpa using hc
  | append_singleton mid x ih =>
      have hm : IsClosing (feed srv i (pre ++ mid)) i := by
        apply ih (x :: post)
        intro m y p he
        exact hq m y p (by simpa using he)
      have hx := hq mid x post (by simp) hm
      rw [← List.append_assoc, feed_snoc _ _ hm]
      exact hx.own.closing hm

/-- A marked session is quiet to the end of the chunk exactly if no stanza of
the chunk ends after the mark. -/
theorem closing_quiet (srv : Server) (i : ℕ) (events : List (Oracle × Sax)) :
    AfterMark Quiet srv i events ↔
      AfterMark (fun srv i _ e => ¬EndsStanza (srv.sess i) e) srv i events := by
  constructor
  · intro h pre mid x post he hc
    have hm : IsClosing (feed srv i (pre ++ mid)) i := by
      apply closing_stays mid (x :: post) hc
      intro m y p hs _
      exact h pre m y p (by rw [he, hs]) hc
    exact (quiet_iff hm.2.1 x.1 x.2).mp (h pre mid x post he hc)
  · intro h pre mid x post he hc
    have hm : IsClosing (feed srv i (pre ++ mid)) i := by
      apply closing_stays mid (x :: post) hc
      intro m y p hs hm
      exact (quiet_iff hm.2.1 y.1 y.2).mpr (h pre m y p (by rw [he, hs]) hc)
    exact (quiet_iff hm.2.1 x.1 x.2).mpr (h pre mid x post he hc)

/-- An account removal, and a message in the same read. -/
def removal : List (Oracle × Sax) :=
  [.startElement "iq" "jabber:client" [attr "type" "set", attr "id" "1"],
    .startElement "query" Auth.registerNs [], .startElement "remove" Auth.registerNs [],
    .endElement, .endElement, .endElement].map (exampleOracle, ·)

def farewell : List (Oracle × Sax) :=
  [.startElement "message" "jabber:client" [attr "to" "bob@localhost"]].map (exampleOracle, ·)

def readingServer : Server :=
  run exampleServer ([.accept, .accept] ++ login 0 alicePlain ++ login 1 bobPlain ++ [.beginRead 0])

set_option maxRecDepth 20000 in
theorem removed_account_heard :
    ¬∀ srv i events, AfterMark Quiet srv i events := by
  intro h
  have hq := h readingServer 0 (removal ++ (farewell ++ [(exampleOracle, .endElement)])) removal farewell
    (exampleOracle, .endElement) [] rfl (by decide +kernel)
  have hb := hq.own.others 1 (by decide)
  have hn : ((callback (feed readingServer 0 (removal ++ farewell)) 0 exampleOracle .endElement).sess 1).out.length ≠
      ((feed readingServer 0 (removal ++ farewell)).sess 1).out.length := by decide +kernel
  exact hn (congrArg (fun s => s.out.length) hb)

end Xmppd.Closing
