import Xmppd.GoStanza
import Xmppd.GoWorld
import Xmppd.Installation
import Xmppd.Outputs

/-!
# Errors in response to errors

A stanza that is itself an error should not be answered by one. Both routers drop
an error in presence and forward one in a query, and both answer an error in a
message whose address does not lead to a user, and any query before
authentication. An error that a session has addressed to itself comes back to it.
-/
namespace Xmppd.ErrorReplies
open CStrings FileTree LibXml Util ServerState User Message Presence Streams Auth Stanza Frames Outputs

/-- The stanzas the routers know. -/
def stanzaNames : List Str := ["message", "iq", "presence"]

/-! ## The C server -/

def isError : Out → Bool
  | .raw _ => false
  | .stanza n => n.prop "type" = "error"

/-- An error has been added to the output of session `i`. -/
def SendsError (i : ℕ) (a b : Server) : Prop :=
  ∃ added, (b.sess i).out = (a.sess i).out ++ added ∧ ∃ x ∈ added, isError x = true

/-- The addresses of messages that come back. -/
def Undeliverable (srv : Server) (i : ℕ) (o : Oracle) (stanza : Node) : Prop :=
  let p := jidParse (o.stack 0) (stanza.prop "to")
  p.ok = false ∨ p.jid.localpart.str = [] ∨ p.jid.domain ≠ srv.cfg.domain ∨ userExists srv p.jid.localpart.str = false ∨
    srv.sessionFindByJid p.jid.bare.str = some i

/-- The errors that the router answers with an error, or hands back to the sender. -/
def Bounces (srv : Server) (i : ℕ) (o : Oracle) (stanza : Node) : Prop :=
  if (srv.sess i).state = .streamOpened ∧ !(srv.sess i).authenticated then stanza.name = "iq"
  else if stanza.name = "iq" then
    isServerJid srv.cfg (stanza.prop "to") = false ∧ routeTarget srv o (stanza.prop "to") = some i
  else stanza.name = "message" ∧ (srv.sess i).isActive = true ∧ Undeliverable srv i o stanza

section
variable {srv a b : Server} {i : ℕ} {o : Oracle} {stanza : Node}

theorem not_sendsError {P : ℕ → Out → Prop} (h : Writes P a b) (hP : ∀ x, P i x → isError x = false) : ¬SendsError i a b := by
  rintro ⟨added, hout, x, hx, herr⟩
  by_cases hl : b.Live i
  · obtain ⟨l, hl, hallowed⟩ := h.out i hl
    rw [hl, List.append_cancel_left_eq] at hout
    rw [hP x (hallowed x (hout ▸ hx))] at herr
    cases herr
  · rw [Server.sess_of_not_live hl] at hout
    obtain ⟨-, rfl⟩ := List.append_eq_nil_iff.mp hout.symm
    cases hx

theorem sendsError_stanzaSend (hl : srv.Live i) {n : Node} (h : isError (.stanza n) = true) :
    SendsError i srv (srv.stanzaSend i n) := by
  refine ⟨[.stanza n], ?_, .stanza n, List.mem_singleton_self _, h⟩
  rw [Server.stanzaSend, Server.sessionWrite, Server.sess_modify_self hl]

theorem sendsError_stanzaSendError (hl : srv.Live i) (n : Node) (t c : Str) :
    SendsError i srv (srv.stanzaSendError i n t c) := by
  apply sendsError_stanzaSend hl
  unfold isError
  refine decide_eq_true ?_
  rw [Node.prop, elem, List.append_assoc, List.singleton_append, getProp_cons_self]
  rfl

/-- Text, and what other sessions are sent. -/
def Harmless (i : ℕ) (t : ℕ) (x : Out) : Prop := t = i → isError x = false

theorem not_sendsError_forward {t : ℕ} (ht : t ≠ i) (n : Node) : ¬SendsError i srv (srv.stanzaSend t n) :=
  not_sendsError (Writes.stanzaSend (fun h => absurd h ht) : Writes (Harmless i) srv _) fun _ hx => hx rfl

theorem not_sendsError_self (srv : Server) : ¬SendsError i srv srv :=
  not_sendsError (.refl srv : Writes (Harmless i) srv srv) fun _ hx => hx rfl

theorem not_sendsError_streamSendError (o : Oracle) (condition : Str) : ¬SendsError i srv (streamSendError srv i o condition) := by
  have hunavailable : ∀ src, isError (.stanza (unavailableNode src)) = false := by
    intro src
    rw [isError, Node.prop, unavailableNode, elem, getProp_cons_self]
    decide
  have hwrites : Writes (fun _ x => isError x = false) srv (streamSendError srv i o condition) :=
    streamSendError_writes (fun _ => rfl) (fun _ _ _ => hunavailable _) condition
  exact not_sendsError hwrites fun _ hx => hx

/-- A forwarded error stays one. -/
theorem isError_forwarded (htype : stanza.prop "type" = "error") (v : Str) : isError (.stanza (stanza.setProp "from" v)) = true := by
  unfold isError
  refine decide_eq_true ?_
  rw [Node.prop, Node.getProp_setProp_of_ne stanza v (by decide)]
  exact htype

/-- Forwarding hands an error back exactly if the session found is the sender's own. -/
theorem forward_sendsError_iff (hl : srv.Live i) (htype : stanza.prop "type" = "error") (t : ℕ) (v : Str) :
    SendsError i srv (srv.stanzaSend t (stanza.setProp "from" v)) ↔ t = i := by
  constructor
  · intro h
    by_contra ht
    exact not_sendsError_forward ht _ h
  · rintro rfl
    exact sendsError_stanzaSend hl (isError_forwarded htype v)

theorem routeReply_sendsError_iff (hl : srv.Live i) (htype : stanza.prop "type" = "error") :
    SendsError i srv (routeReply srv i o stanza) ↔
      isServerJid srv.cfg (stanza.prop "to") = false ∧ routeTarget srv o (stanza.prop "to") = some i := by
  unfold routeReply
  dsimp only
  cases isServerJid srv.cfg (stanza.prop "to") with
  | true => simpa using not_sendsError_self srv
  | false =>
      cases routeTarget srv o (stanza.prop "to") with
      | none => simpa using not_sendsError_self srv
      | some t => simpa using forward_sendsError_iff hl htype t _

theorem handleMessage_sendsError_iff (hl : srv.Live i) (htype : stanza.prop "type" = "error") :
    SendsError i srv (handleMessage srv i o stanza) ↔ Undeliverable srv i o stanza := by
  unfold handleMessage Undeliverable
  dsimp only
  generalize jidParse (o.stack 0) (stanza.prop "to") = p
  split
  · next h =>
    have hbad : p.ok = false ∨ p.jid.localpart.str = [] := by simpa using h
    have hsends := sendsError_stanzaSendError hl stanza "modify" "jid-malformed"
    rcases hbad with hok | hlocal
    · exact iff_of_true hsends (Or.inl hok)
    · exact iff_of_true hsends (Or.inr (Or.inl hlocal))
  next hparse =>
  split
  · next hdomain => exact iff_of_true (sendsError_stanzaSendError hl _ _ _) (Or.inr (Or.inr (Or.inl hdomain)))
  next hdomain =>
  split
  · next huser =>
    exact iff_of_true (sendsError_stanzaSendError hl _ _ _) (Or.inr (Or.inr (Or.inr (Or.inl (by simpa using huser)))))
  next huser =>
  simp only [Bool.not_eq_true', not_or, Bool.not_eq_false, ne_eq, not_not] at hparse hdomain huser
  have herror : (stanza.setProp "from" (srv.sess i).fullJid.str).getProp "type" = some "error" := by
    rw [Node.getProp_setProp_of_ne stanza _ (by decide)]
    cases hget : stanza.getProp "type" with
    | none =>
        rw [Node.prop, hget] at htype
        exact absurd htype (by decide)
    | some type =>
        rw [Node.prop, hget] at htype
        exact congrArg some htype
  cases hfind : srv.sessionFindByJid p.jid.bare.str with
  | none =>
      dsimp only
      rw [if_pos herror]
      simpa [hparse, hdomain, huser] using not_sendsError_self srv
  | some t => simpa [hparse, hdomain, huser] using forward_sendsError_iff hl htype t _

theorem handlePresence_error (htype : stanza.prop "type" = "error") : handlePresence srv i o stanza = srv := by
  unfold handlePresence
  dsimp only
  rw [htype]
  rfl

theorem handleIq_error (htype : stanza.prop "type" = "error") : handleIq srv i o stanza = routeReply srv i o stanza := by
  unfold handleIq
  dsimp only
  rw [if_pos (Or.inr htype)]

theorem registerHandleIq_error (htype : stanza.prop "type" = "error") :
    registerHandleIq srv i o stanza = srv.stanzaSendError i stanza "cancel" "bad-request" := by
  unfold registerHandleIq
  rw [htype]
  rfl

/-- Before authentication every query is answered, and the rest ends the stream. -/
theorem routeBeforeAuth_sendsError_iff (hl : srv.Live i) (hname : stanza.name ∈ stanzaNames)
    (htype : stanza.prop "type" = "error") : SendsError i srv (routeBeforeAuth srv i o stanza) ↔ stanza.name = "iq" := by
  have hauth : stanza.name ≠ "auth" := by
    intro h
    rw [h] at hname
    exact absurd hname (by decide)
  unfold routeBeforeAuth
  rw [if_neg fun h => hauth h.1]
  split
  · next hiq =>
    refine iff_of_true ?_ hiq
    split
    · rw [registerHandleIq_error htype]
      exact sendsError_stanzaSendError hl _ _ _
    · exact sendsError_stanzaSendError hl _ _ _
  · next hiq => exact iff_of_false (not_sendsError_streamSendError o _) hiq

theorem stanzaRoute_sendsError_iff (hl : srv.Live i) (hname : stanza.name ∈ stanzaNames)
    (htype : stanza.prop "type" = "error") : SendsError i srv (stanzaRoute srv i o stanza) ↔ Bounces srv i o stanza := by
  unfold stanzaRoute Bounces
  split
  · exact routeBeforeAuth_sendsError_iff hl hname htype
  split
  · rw [handleIq_error htype]
    exact routeReply_sendsError_iff hl htype
  split
  · next hmessage =>
    rw [and_iff_right hmessage]
    split
    · next hactive =>
      rw [and_iff_right hactive]
      exact handleMessage_sendsError_iff hl htype
    · next hactive => exact iff_of_false (not_sendsError_streamSendError o _) fun h => hactive h.1
  next hmessage =>
  refine iff_of_false ?_ fun h => hmessage h.1
  split
  · split
    · rw [handlePresence_error htype]
      exact not_sendsError_self srv
    · exact not_sendsError_streamSendError o _
  · exact not_sendsError_streamSendError o _

end

/-! ## The Go server -/

section
open GoXml Programs Program GoSession GoStanza

/-- The start of an error, as the handlers write it. -/
def errorStart (name : Str) : Str := '<' :: name ++ (" type='error'" : Str)

def isErrorData : Data → Bool
  | .text x => stanzaNames.any fun name => (errorStart name).isPrefixOf x
  | .node n => n.attr "type" = "error"

variable {A B S : Type} (answer : (c : Call) → S → GoSession.Result c × S)

/-- A program sends an error to this session, its calls answered so. -/
def Tells (self : ℕ) (p : Handler A) (st : S) : Prop :=
  ∃ d, Call.send self d ∈ (p.exec answer st).2.2 ∧ isErrorData d = true

/-- The session that an address leads to. -/
def found (jid : Str) (st : S) : Option ℕ := (answer (.find jid) st).1

/-- The addresses of messages that come back, where the accounts are looked up before the sessions. -/
def GoUndeliverable (domain : Str) (self : ℕ) (node : XmlNode) (st : S) : Prop :=
  let target := splitBareJID (node.attr "to")
  target.1 = [] ∨ target.2 ≠ domain ∨ (answer (.userExists target.1) st).1 = false ∨
    found answer (target.1 ++ '@' :: target.2) (answer (.userExists target.1) st).2 = some self

/-- The errors that the router answers with an error, or hands back to the sender. -/
def GoBounces (domain : Str) (self : ℕ) (s : GoSession.Session) (node : XmlNode) (st : S) : Prop :=
  if s.state = .streamOpened ∧ !s.authenticated then node.name = "iq"
  else if node.name = "iq" then
    isServerJID (node.attr "to") domain = false ∧ found answer (GoSession.bareJID (node.attr "to")) st = some self
  else node.name = "message" ∧ s.isActive = true ∧ GoUndeliverable answer domain self node st

variable {answer} {self : ℕ} {st : S} {s : GoSession.Session} {node : XmlNode} {domain : Str}

theorem tells_bind {p : Handler A} {f : A → Handler B} :
    Tells answer self (p >>= f) st ↔
      Tells answer self p st ∨ Tells answer self (f (p.exec answer st).1) (p.exec answer st).2.1 := by
  unfold Tells
  rw [exec_bind]
  simp only [List.mem_append, or_and_right, exists_or]

theorem not_tells_pure (a : A) : ¬Tells answer self (pure a : Handler A) st := by
  rintro ⟨d, hd, -⟩
  cases hd

theorem tells_perform {c : Call} : Tells answer self (perform c) st ↔ ∃ d, c = .send self d ∧ isErrorData d = true := by
  have hcalls : ((perform c : Handler (GoSession.Result c)).exec answer st).2.2 = [c] := rfl
  unfold Tells
  rw [hcalls]
  simp only [List.mem_singleton, eq_comm]

theorem tells_then_pure {p : Handler A} {b : B} : Tells answer self (p >>= fun _ => pure b) st ↔ Tells answer self p st := by
  rw [tells_bind]
  exact or_iff_left (not_tells_pure b)

theorem tells_sendStanzaError (hname : node.name ∈ stanzaNames) (errType condition : Str) :
    Tells answer self (sendStanzaError self s node errType condition) st := by
  refine tells_perform.mpr ⟨_, rfl, List.any_eq_true.mpr ⟨node.name, hname, ?_⟩⟩
  rw [List.isPrefixOf_iff_prefix]
  simp only [errorStart, List.append_assoc, List.cons_append, List.prefix_append, List.prefix_cons_inj,
    List.prefix_append_right_inj]

theorem not_tells_sendError (t : ℕ) (condition : Str) : ¬Tells answer self (sendError t condition) st := by
  rintro h
  obtain ⟨d, hd, herr⟩ := tells_perform.mp h
  cases hd
  cases herr

theorem setAttrIn_find {name other : Str} (h : other ≠ name) (value : Str) (l : List XmlAttr) :
    ((setAttrIn name value l).find? fun a => a.name = other).map XmlAttr.value =
      (l.find? fun a => a.name = other).map XmlAttr.value := by
  induction l with
  | nil => simp [setAttrIn, h.symm]
  | cons a as ih =>
      by_cases ha : a.name = name
      · simp [setAttrIn, ha, h.symm]
      · by_cases hother : a.name = other
        · simp [setAttrIn, hother, h]
        · simp [setAttrIn, ha, hother, ih]

theorem attr_setAttr_of_ne {name other : Str} (h : other ≠ name) (n : XmlNode) (value : Str) :
    (setAttr n name value).attr other = n.attr other :=
  congrArg (fun v : Option Str => v.getD []) (setAttrIn_find h value n.attrs)

theorem send_tells_iff {t : ℕ} (htype : node.attr "type" = "error") (v : Str) :
    Tells answer self (send t (.node (setAttr node "from" v))) st ↔ t = self := by
  have herr : isErrorData (.node (setAttr node "from" v)) = true := by
    unfold isErrorData
    refine decide_eq_true ?_
    rw [attr_setAttr_of_ne (by decide), htype]
  refine tells_perform.trans ⟨?_, ?_⟩
  · rintro ⟨d, hd, -⟩
    cases hd
    rfl
  · rintro rfl
    exact ⟨_, rfl, herr⟩

theorem not_tells_of_ensures {p : Handler A} (h : Ensures (fun c => ∀ t d, c ≠ .send t d) p fun _ => True) :
    ¬Tells answer self p st := by
  rintro ⟨d, hd, -⟩
  exact (h.exec answer st).2 _ hd self d rfl

/-- A question tells nobody anything. -/
theorem tells_after_call {c : Call} (hc : ∀ t d, c ≠ .send t d) {f : GoSession.Result c → Handler A} :
    Tells answer self (perform c >>= f) st ↔ Tells answer self (f (answer c st).1) (answer c st).2 := by
  rw [tells_bind]
  refine or_iff_right ?_
  rw [tells_perform]
  rintro ⟨d, hd, -⟩
  exact hc self d hd

theorem forward_tells_iff (htype : node.attr "type" = "error") :
    Tells answer self (forward s node) st ↔ found answer (GoSession.bareJID (node.attr "to")) st = some self := by
  refine (tells_after_call fun _ _ => Call.noConfusion).trans ?_
  unfold found
  generalize (answer (.find (GoSession.bareJID (node.attr "to"))) st).1 = r
  cases r with
  | none => exact iff_of_false (not_tells_pure false) (by simp)
  | some t =>
      rw [Option.some_inj]
      exact tells_then_pure.trans (send_tells_iff htype _)

theorem handle_tells_iff (hname : node.name ∈ stanzaNames) (htype : node.attr "type" = "error") :
    Tells answer self (GoMessage.handle self domain s node) st ↔ GoUndeliverable answer domain self node st := by
  unfold GoMessage.handle GoUndeliverable found
  dsimp only
  rw [htype]
  split
  · next hlocal => exact iff_of_true (tells_then_pure.mpr (tells_sendStanzaError hname _ _)) (Or.inl hlocal)
  next hlocal =>
  split
  · next hdomain => exact iff_of_true (tells_then_pure.mpr (tells_sendStanzaError hname _ _)) (Or.inr (Or.inl hdomain))
  next hdomain =>
  rw [or_iff_right hlocal, or_iff_right hdomain]
  refine (tells_after_call fun _ _ => Call.noConfusion).trans ?_
  generalize (answer (.userExists (splitBareJID (node.attr "to")).1) st).1 = known
  generalize (answer (.userExists (splitBareJID (node.attr "to")).1) st).2 = st'
  cases known with
  | false => exact iff_of_true (tells_then_pure.mpr (tells_sendStanzaError hname _ _)) (Or.inl rfl)
  | true =>
      rw [or_iff_right Bool.noConfusion]
      refine (tells_after_call fun _ _ => Call.noConfusion).trans ?_
      generalize (answer (.find ((splitBareJID (node.attr "to")).1 ++ '@' :: (splitBareJID (node.attr "to")).2)) st').1 = r
      cases r with
      | none => exact iff_of_false (not_tells_pure RouteResult.ok) (by simp)
      | some t =>
          rw [Option.some_inj]
          exact tells_then_pure.trans (send_tells_iff htype _)

theorem handleIQ_tells_iff (htype : node.attr "type" = "error") :
    Tells answer self (handleIQ domain self s node) st ↔
      isServerJID (node.attr "to") domain = false ∧ found answer (GoSession.bareJID (node.attr "to")) st = some self := by
  unfold handleIQ
  dsimp only
  rw [if_pos (Or.inr htype)]
  cases isServerJID (node.attr "to") domain with
  | true => exact iff_of_false (not_tells_pure _) fun h => Bool.noConfusion h.1
  | false =>
      rw [and_iff_right rfl]
      exact tells_then_pure.trans (forward_tells_iff htype)

theorem registerHandleIQ_tells (hname : node.name ∈ stanzaNames) (htype : node.attr "type" = "error") :
    Tells answer self (registerHandleIQ self s node) st := by
  unfold registerHandleIQ
  rw [htype]
  exact tells_then_pure.mpr (tells_sendStanzaError hname _ _)

theorem routeBeforeAuth_tells_iff (hname : node.name ∈ stanzaNames) (htype : node.attr "type" = "error") :
    Tells answer self (GoStanza.routeBeforeAuth self s node) st ↔ node.name = "iq" := by
  have hauth : node.name ≠ "auth" := by
    intro h
    rw [h] at hname
    exact absurd hname (by decide)
  unfold GoStanza.routeBeforeAuth
  rw [if_neg hauth]
  split
  · next hiq =>
    refine iff_of_true ?_ hiq
    split
    · rw [tells_bind]
      exact Or.inl (registerHandleIQ_tells hname htype)
    · exact tells_then_pure.mpr (tells_sendStanzaError hname _ _)
  · next hiq => exact iff_of_false (fun h => not_tells_sendError _ _ (tells_then_pure.mp h)) hiq

theorem route_tells_iff (hname : node.name ∈ stanzaNames) (htype : node.attr "type" = "error") :
    Tells answer self (route domain self s node) st ↔ GoBounces answer domain self s node st := by
  have hrefused : ∀ condition, ¬Tells answer self (sendError self condition >>= fun _ => pure (s, RouteResult.close)) st :=
    fun condition h => not_tells_sendError _ _ (tells_then_pure.mp h)
  unfold route GoBounces
  split
  · exact routeBeforeAuth_tells_iff hname htype
  split
  · exact handleIQ_tells_iff htype
  split
  · next hmessage =>
    rw [and_iff_right hmessage]
    split
    · next hactive =>
      rw [and_iff_right hactive, tells_bind]
      exact (or_iff_left (not_tells_pure _)).trans (handle_tells_iff hname htype)
    · next hactive => exact iff_of_false (hrefused _) fun h => hactive h.1
  next hmessage =>
  refine iff_of_false ?_ fun h => hmessage h.1
  split
  · split
    · unfold GoPresence.handle
      dsimp only
      rw [htype]
      exact not_tells_pure _
    · exact hrefused _
  · exact hrefused _

end

/-- An error is answered by none exactly where it does not bounce, in both servers. -/
theorem errors_unanswered_iff (srv : Server) (i : ℕ) (o : Oracle) (stanza : Node) (hl : srv.Live i)
    (hname : stanza.name ∈ stanzaNames) (htype : stanza.prop "type" = "error")
    {S : Type} (answer : (c : GoSession.Call) → S → GoSession.Result c × S) (st : S) (domain : Str) (self : ℕ)
    (s : GoSession.Session) (node : GoXml.XmlNode) (hname' : node.name ∈ stanzaNames) (htype' : node.attr "type" = "error") :
    (¬SendsError i srv (stanzaRoute srv i o stanza) ↔ ¬Bounces srv i o stanza) ∧
      (¬Tells answer self (GoStanza.route domain self s node) st ↔ ¬GoBounces answer domain self s node st) :=
  ⟨not_congr (stanzaRoute_sendsError_iff hl hname htype), not_congr (route_tells_iff hname' htype')⟩

/-! ## An error to a user who is away, and one to another domain -/

section
open EventLoop Installation GoXml GoSession GoStanza

def errorTo (dest : Str) : Node := .element "message" "jabber:client" [attr "type" "error", attr "to" dest] []

def goErrorTo (dest : Str) : XmlNode := .mk "message" "jabber:client" [⟨"type", [], "error"⟩, ⟨"to", [], dest⟩] [] []

def aliceBound : Server := run exampleServer (.accept :: login 0 alicePlain)

def goAliceBound : GoSession.Session :=
  { jidLocal := "alice", jidDomain := "localhost", jidResource := "r", state := .bound, authenticated := true }

/-- All users have accounts, and nobody else is connected. -/
def nobodyElse (c : Call) (_ : Unit) : GoSession.Result c × Unit := (GoWorld.plainOutside 0 c, ())

theorem error_dropped :
    ¬SendsError 0 aliceBound (stanzaRoute aliceBound 0 exampleOracle (errorTo "carol@localhost")) ∧
      ¬Tells nobodyElse 0 (route "localhost" 0 goAliceBound (goErrorTo "carol@localhost")) () := by
  have hiff := errors_unanswered_iff aliceBound 0 exampleOracle (errorTo "carol@localhost") (by decide +kernel) (by decide)
    (by decide) nobodyElse () "localhost" 0 goAliceBound (goErrorTo "carol@localhost") (by decide) (by decide)
  refine ⟨hiff.1.mpr ?_, hiff.2.mpr ?_⟩
  · unfold Bounces Undeliverable
    decide +kernel
  · unfold GoBounces GoUndeliverable found
    decide

theorem error_bounced :
    SendsError 0 aliceBound (stanzaRoute aliceBound 0 exampleOracle (errorTo "carol@elsewhere")) ∧
      Tells nobodyElse 0 (route "localhost" 0 goAliceBound (goErrorTo "carol@elsewhere")) () := by
  constructor
  · refine (stanzaRoute_sendsError_iff ?_ ?_ ?_).mpr ?_
    · decide +kernel
    · decide
    · decide
    · unfold Bounces Undeliverable
      decide +kernel
  · refine (route_tells_iff ?_ ?_).mpr ?_
    · decide
    · decide
    · unfold GoBounces GoUndeliverable found
      decide

end

end Xmppd.ErrorReplies
