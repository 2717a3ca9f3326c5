import Xmppd.GoSerialization
import Xmppd.GoStanza
import Mathlib.Data.List.Forall2

/-!
# Replies of the Go server

The texts that the bind, session, roster, discovery, registration and error paths
send. Each is due to be one element of a fixed shape in which the strings of the
client are values of attributes or text. The replies that escape these strings
are read so; the discovery replies are read so where the domain needs no
escaping; the replies of the registration path are never read so, as their start
tag is not closed.
-/
namespace Xmppd.GoReplies
open CStrings GoXml Programs Program GoSession GoStanza
open XmlReader (IsName)
open GoSerialization (escapeAttr_quote escapeText_escape)
open XmlElements hiding escapeChar

/-! ## What is sent -/

def textOf : Call → List Str
  | .send _ (.text s) => [s]
  | _ => []

section
variable {A B : Type}

/-- The texts that a handler sends where its calls are answered so. -/
def said (answer : (c : Call) → Result c) (p : Handler A) : List Str :=
  (p.exec (fun c (_ : Unit) => (answer c, ())) ()).2.2.flatMap textOf

def outcome (answer : (c : Call) → Result c) (p : Handler A) : A := (p.exec (fun c (_ : Unit) => (answer c, ())) ()).1

variable {answer : (c : Call) → Result c}

@[simp] theorem said_bind (p : Handler A) (f : A → Handler B) :
    said answer (p >>= f) = said answer p ++ said answer (f (outcome answer p)) := by
  unfold said outcome
  rw [exec_bind, List.flatMap_append]

@[simp] theorem outcome_bind (p : Handler A) (f : A → Handler B) :
    outcome answer (p >>= f) = outcome answer (f (outcome answer p)) := by
  unfold outcome
  rw [exec_bind]

@[simp] theorem said_pure (a : A) : said answer (pure a : Handler A) = [] := rfl

@[simp] theorem outcome_pure (a : A) : outcome answer (pure a : Handler A) = a := rfl

@[simp] theorem said_perform (c : Call) : said answer (perform c) = textOf c := List.append_nil _

@[simp] theorem outcome_perform (c : Call) : outcome answer (perform c) = answer c := rfl

@[simp] theorem said_sendText (t : ℕ) (s : Str) : said answer (sendText t s) = [s] := said_perform _

end

/-! ## Replies -/

/-- The errors of the handlers. -/
inductive Refusal where
  | badRequest | badType | notAllowed | conflict | notAcceptable | serverError | notImplemented | unavailable
  | malformed | notFound
deriving DecidableEq, Repr

namespace Refusal

def errType : Refusal → Str
  | .badRequest => "modify"
  | .badType => "cancel"
  | .notAllowed => "cancel"
  | .conflict => "cancel"
  | .notAcceptable => "modify"
  | .serverError => "wait"
  | .notImplemented => "cancel"
  | .unavailable => "cancel"
  | .malformed => "modify"
  | .notFound => "cancel"

def condition : Refusal → Str
  | .badRequest => "bad-request"
  | .badType => "bad-request"
  | .notAllowed => "not-allowed"
  | .conflict => "conflict"
  | .notAcceptable => "not-acceptable"
  | .serverError => "internal-server-error"
  | .notImplemented => "feature-not-implemented"
  | .unavailable => "service-unavailable"
  | .malformed => "jid-malformed"
  | .notFound => "item-not-found"

end Refusal

/-- A reply, with the strings that are put into it; `streamError` closes the stream
of a session that is replaced. -/
inductive Reply where
  | refused (name id domain fullJID : Str) (r : Refusal)
  | bound (id fullJID : Str)
  | empty (id : Str)
  | roster (id fullJID : Str) (contacts : List Item)
  | push (id fullJID : Str) (i : Item)
  | discoInfo (domain fullJID id : Str)
  | discoItems (domain fullJID id : Str)
  | form (id domain : Str)
  | registered (id domain fullJID : Str)
  | streamError

def optional (s : Str) : Option Str := if s = [] then none else some s

def itemMarkup (i : Item) : Markup :=
  .empty "item".toList (given [("jid".toList, some i.jid), ("name".toList, optional i.name),
    ("subscription".toList, some i.subscription), ("ask".toList, if i.askSubscribe then some "subscribe".toList else none)])

def rosterMarkup (items : List Item) : Markup :=
  .element "query".toList [("xmlns".toList, nsRoster)] (items.map itemMarkup)

def infoMarkup : Markup :=
  .element "query".toList [("xmlns".toList, nsDiscoInfo)]
    (.empty "identity".toList [("category".toList, "server".toList), ("type".toList, "im".toList), ("name".toList, "xmppd".toList)] ::
      discoFeatures.map fun f => .empty "feature".toList [("var".toList, f)])

def formMarkup : Markup :=
  .element "query".toList [("xmlns".toList, nsRegister)]
    [.element "instructions".toList [] [.text "Choose a username and password.".toList],
      .empty "username".toList [], .empty "password".toList []]

/-- The element that a reply is due to be. -/
def Reply.markup : Reply → Option Markup
  | .refused name id domain fullJID r =>
      some (.element name (given [("type".toList, some "error".toList), ("id".toList, optional id), ("from".toList, some domain),
          ("to".toList, optional fullJID)])
        [.element "error".toList [("type".toList, r.errType)]
          [.empty r.condition [("xmlns".toList, "urn:ietf:params:xml:ns:xmpp-stanzas".toList)]]])
  | .bound id fullJID =>
      some (.element "iq".toList (given [("type".toList, some "result".toList), ("id".toList, optional id)])
        [.element "bind".toList [("xmlns".toList, nsBind)] [.element "jid".toList [] [.text fullJID]]])
  | .empty id => some (.empty "iq".toList (given [("type".toList, some "result".toList), ("id".toList, optional id)]))
  | .roster id fullJID contacts =>
      some (.element "iq".toList (given [("type".toList, some "result".toList), ("id".toList, optional id),
        ("to".toList, some fullJID)]) [rosterMarkup contacts])
  | .push id fullJID i =>
      some (.element "iq".toList (given [("type".toList, some "set".toList), ("id".toList, some id), ("to".toList, some fullJID)])
        [rosterMarkup [i]])
  | .discoInfo domain fullJID id =>
      some (.element "iq".toList (given [("type".toList, some "result".toList), ("from".toList, some domain),
        ("to".toList, some fullJID), ("id".toList, optional id)]) [infoMarkup])
  | .discoItems domain fullJID id =>
      some (.element "iq".toList (given [("type".toList, some "result".toList), ("from".toList, some domain),
        ("to".toList, some fullJID), ("id".toList, optional id)])
        [.empty "query".toList [("xmlns".toList, nsDiscoItems)]])
  | .form id domain =>
      some (.element "iq".toList (given [("type".toList, some "result".toList), ("id".toList, optional id),
        ("from".toList, some domain)]) [formMarkup])
  | .registered id domain fullJID =>
      some (.element "iq".toList (given [("type".toList, some "result".toList), ("id".toList, optional id),
        ("from".toList, some domain), ("to".toList, optional fullJID)]) [])
  | .streamError => none

/-- The text as the handlers format it. -/
def Reply.text : Reply → Str
  | .refused name id domain fullJID r =>
      '<' :: name ++ (" type='error'" : Str) ++ optAttr "id" id ++ (" from='" : Str) ++ escapeAttr domain ++ ("'" : Str) ++
        optAttr "to" fullJID ++ ("><error type='" : Str) ++ r.errType ++ ("'><" : Str) ++ r.condition ++
        (" xmlns='urn:ietf:params:xml:ns:xmpp-stanzas'/></error></" : Str) ++ name ++ (">" : Str)
  | .bound id fullJID =>
      ("<iq type='result'" : Str) ++ optAttr "id" id ++ ("><bind xmlns='urn:ietf:params:xml:ns:xmpp-bind'><jid>" : Str) ++
        escapeText fullJID ++ ("</jid></bind></iq>" : Str)
  | .empty id => emptyResult id
  | .roster id fullJID contacts =>
      ("<iq type='result'" : Str) ++ optAttr "id" id ++ (" to='" : Str) ++ escapeAttr fullJID ++
        ("'><query xmlns='jabber:iq:roster'>" : Str) ++ contacts.flatMap itemAttrs ++ ("</query></iq>" : Str)
  | .push id fullJID i =>
      ("<iq type='set' id='" : Str) ++ id ++ ("' to='" : Str) ++ escapeAttr fullJID ++
        ("'><query xmlns='jabber:iq:roster'>" : Str) ++ itemAttrs i ++ ("</query></iq>" : Str)
  | .discoInfo domain fullJID id =>
      ("<iq type='result' from='" : Str) ++ domain ++ ("' to='" : Str) ++ escapeAttr fullJID ++ ("'" : Str) ++
        optAttr "id" id ++ (">" : Str) ++ (("<query xmlns='http://jabber.org/protocol/disco#info'>" : Str) ++
          ("<identity category='server' type='im' name='xmppd'/>" : Str) ++
          (discoFeatures.flatMap fun f => ("<feature var='" : Str) ++ escapeAttr f ++ ("'/>" : Str)) ++ ("</query>" : Str)) ++
        ("</iq>" : Str)
  | .discoItems domain fullJID id =>
      ("<iq type='result' from='" : Str) ++ domain ++ ("' to='" : Str) ++ escapeAttr fullJID ++ ("'" : Str) ++
        optAttr "id" id ++ (">" : Str) ++ ("<query xmlns='http://jabber.org/protocol/disco#items'/>" : Str) ++ ("</iq>" : Str)
  | .form id domain =>
      ("<iq type='result'" : Str) ++ (if id = [] then [] else (" id='" : Str) ++ id ++ ("'" : Str)) ++
        (" from='" : Str) ++ domain ++ ("'" : Str) ++
        ("<query xmlns='jabber:iq:register'><instructions>Choose a username and password.</instructions>" : Str) ++
        ("<username/><password/></query></iq>" : Str)
  | .registered id domain fullJID =>
      ("<iq type='result'" : Str) ++ (if id = [] then [] else (" id='" : Str) ++ id ++ ("'" : Str)) ++
        (" from='" : Str) ++ domain ++ ("'" : Str) ++
        (if fullJID = [] then [] else (" to='" : Str) ++ fullJID ++ ("'" : Str)) ++ ("</iq>" : Str)
  | .streamError =>
      ("<stream:error><" : Str) ++ ("conflict" : Str) ++
        (" xmlns='urn:ietf:params:xml:ns:xmpp-streams'/></stream:error></stream:stream>" : Str)

/-- The text reads as the element that is due. -/
def Reads (x : Str) (r : Reply) : Prop := ∀ m, r.markup = some m → readElement x = some m.uniform.tree

/-! ## What is due -/

/-- The subscriptions of a roster. -/
def subscriptions : List Str := ["none".toList, "to".toList, "from".toList, "both".toList]

/-- Answers to the calls of a handler: rosters have these subscriptions, and the
identifiers of pushes are letters and digits. -/
structure Answers where
  answer : (c : Call) → Result c
  cached : ∀ t, ∀ i ∈ (answer (.roster t)).items, i.subscription ∈ subscriptions
  stored : ∀ user, ∀ i ∈ (answer (.load user)).items, i.subscription ∈ subscriptions
  pushID : ∀ c ∈ answer .pushID, c.isAlphanum = true

/-- The paths through the handlers. -/
inductive Path where
  | bind | session | roster | discoInfo | discoItems | register
  | error (r : Refusal)

section
variable (A : Answers) (domain : Str) (self : ℕ) (s : Session) (node : XmlNode)

/-- The texts that a path sends. -/
def sent : Path → List Str
  | .bind => said A.answer (handleBind self s node)
  | .session => said A.answer (handleSessionIQ self s node)
  | .roster => said A.answer (whenActive self s node (handleRosterIQ self s node))
  | .discoInfo => said A.answer (whenActive self s node (handleInfo domain self s node))
  | .discoItems => said A.answer (whenActive self s node (handleItems domain self s node))
  | .register => said A.answer (registerHandleIQ self s node)
  | .error r => said A.answer (sendStanzaError self s node r.errType r.condition)

def refusal (r : Refusal) : Reply := .refused node.name (node.attr "id") s.jidDomain s.fullJID r

def dueBind : List Reply :=
  if s.state ≠ .authenticated ∧ s.state ≠ .streamOpened then [refusal s node .notAllowed]
  else
    let resource := if requestedResource node = [] then A.answer (.generateID 8) else requestedResource node
    let bound := { s with jidResource := resource, state := .bound }
    (if (A.answer (.register bound.bareJID)).isSome then [.streamError] else []) ++ [.bound (node.attr "id") bound.fullJID]

/-- The roster that the session works on. -/
def currentRoster : Roster :=
  if (A.answer (.roster self)).loaded then A.answer (.roster self) else A.answer (.load s.jidLocal)

def dueRoster : List Reply :=
  if node.attr "type" = "get" then [.roster (node.attr "id") s.fullJID (currentRoster A self s).items]
  else if node.attr "type" = "set" then
    match setItem node with
    | none => [refusal s node .badRequest]
    | some item =>
        let jid := item.attr "jid"
        if jid = [] then [refusal s node .badRequest]
        else if item.attr "subscription" = "remove" then
          [.empty (node.attr "id"), .push (A.answer .pushID) s.fullJID ⟨jid, [], "remove", false⟩]
        else
          .empty (node.attr "id") ::
            match (setRosterItem (currentRoster A self s) jid (item.attr "name")).find jid with
            | some i => [.push (A.answer .pushID) s.fullJID i]
            | none => []
  else [refusal s node .notImplemented]

def dueCreated : Created → Reply
  | .ok => .registered (node.attr "id") s.jidDomain []
  | .conflict => refusal s node .conflict
  | .invalidUsername => refusal s node .notAcceptable
  | .failed => refusal s node .serverError

def dueSet (query : XmlNode) : Reply :=
  if (query.findChild "remove").isSome then
    if !s.authenticated then refusal s node .notAllowed else .registered (node.attr "id") s.jidDomain s.fullJID
  else if childText query "username" = [] ∨ childText query "password" = [] then refusal s node .badRequest
  else if !s.authenticated then
    dueCreated s node (A.answer (.create (childText query "username") (childText query "password")))
  else if childText query "username" ≠ s.jidLocal then refusal s node .notAllowed
  else if A.answer (.changePassword (childText query "username") (childText query "password")) then
    .registered (node.attr "id") s.jidDomain s.fullJID
  else refusal s node .serverError

def dueRegister : Reply :=
  if node.attr "type" = "get" then .form (node.attr "id") s.jidDomain
  else if node.attr "type" = "set" then
    match node.firstChild with
    | none => refusal s node .badRequest
    | some query => dueSet A s node query
  else refusal s node .badType

def whenBound (replies : List Reply) : List Reply := if s.isActive then replies else [refusal s node .notAllowed]

/-- The replies that are due on a path. -/
def due : Path → List Reply
  | .bind => dueBind A s node
  | .session => [.empty (node.attr "id")]
  | .roster => whenBound s node (dueRoster A self s node)
  | .discoInfo => whenBound s node [.discoInfo domain s.fullJID (node.attr "id")]
  | .discoItems => whenBound s node [.discoItems domain s.fullJID (node.attr "id")]
  | .register => [dueRegister A s node]
  | .error r => [refusal s node r]

end

/-! ## The handlers send the replies that are due -/

section
variable {A : Answers} {domain : Str} {self : ℕ} {s : Session} {node : XmlNode}

theorem said_sendStanzaError (r : Refusal) :
    said A.answer (sendStanzaError self s node r.errType r.condition) = [(refusal s node r).text] := said_sendText _ _

theorem said_whenActive {h : Handler RouteResult} {replies : List Reply}
    (hh : said A.answer h = replies.map Reply.text) :
    said A.answer (whenActive self s node h) = (whenBound s node replies).map Reply.text := by
  unfold whenActive whenBound
  split
  · rw [said_bind, hh, said_pure, List.append_nil]
  · have hrefused : said A.answer (sendStanzaError self s node Refusal.notAllowed.errType Refusal.notAllowed.condition) =
        [(refusal s node .notAllowed).text] := said_sendStanzaError .notAllowed
    rw [said_bind, said_pure, List.append_nil]
    exact hrefused

theorem said_error (errType condition : Str) (r : Refusal) (he : r.errType = errType) (hc : r.condition = condition) :
    said A.answer (sendStanzaError self s node errType condition) = [(refusal s node r).text] := by
  rw [← he, ← hc]
  exact said_sendStanzaError r

theorem said_bindResource (bound : Session) (id : Str) :
    said A.answer (bindResource self bound id) =
      ((if (A.answer (.register bound.bareJID)).isSome then [Reply.streamError] else []) ++
        [Reply.bound id bound.fullJID]).map Reply.text := by
  unfold bindResource kick
  rw [said_bind, register, said_perform, outcome_perform, said_bind, said_bind, said_pure, said_sendText]
  cases A.answer (.register bound.bareJID) with
  | none => rfl
  | some t =>
      rw [said_bind, sendError, said_sendText, close, said_perform]
      rfl

theorem said_handleBind : said A.answer (handleBind self s node) = (dueBind A s node).map Reply.text := by
  unfold handleBind dueBind
  split
  · rw [said_bind, said_pure, List.append_nil]
    exact said_error "cancel" "not-allowed" .notAllowed rfl rfl
  dsimp only
  by_cases hnil : requestedResource node = []
  · rw [if_pos hnil, if_pos hnil, said_bind, generateID, said_perform, outcome_perform, said_bind, said_pure,
      List.append_nil, said_bindResource]
    rfl
  · rw [if_neg hnil, if_neg hnil, said_bind, said_pure, List.append_nil, said_bindResource]

theorem outcome_ensureLoaded (answer : (c : Call) → Result c) (user : Str) :
    outcome answer (ensureLoaded self user) =
      if (answer (.roster self)).loaded then answer (.roster self) else answer (.load user) := by
  unfold ensureLoaded
  rw [outcome_bind, rosterOf, outcome_perform]
  split
  · rfl
  · rfl

theorem said_ensureLoaded (answer : (c : Call) → Result c) (user : Str) : said answer (ensureLoaded self user) = [] := by
  unfold ensureLoaded
  rw [said_bind, rosterOf, said_perform, outcome_perform]
  split
  · rfl
  · rfl

theorem said_push (t : ℕ) (fullJID : Str) (i : Item) :
    said A.answer (push t fullJID i) = [(Reply.push (A.answer .pushID) fullJID i).text] := by
  unfold push
  rw [said_bind, pushID, said_perform, outcome_perform, said_sendText]
  rfl

theorem said_handleRosterIQ :
    said A.answer (handleRosterIQ self s node) = (dueRoster A self s node).map Reply.text := by
  unfold handleRosterIQ dueRoster
  rw [said_bind, said_ensureLoaded, outcome_ensureLoaded, List.nil_append]
  split
  · rw [said_bind, said_sendText]
    rfl
  split
  · cases setItem node with
    | none =>
        rw [said_bind, said_pure, List.append_nil]
        exact said_error "modify" "bad-request" .badRequest rfl rfl
    | some item =>
        dsimp only
        split
        · rw [said_bind, said_pure, List.append_nil]
          exact said_error "modify" "bad-request" .badRequest rfl rfl
        split
        · rw [said_bind, setRoster, said_perform, said_bind, save, said_perform, said_bind, said_sendText, said_bind, said_push,
            said_pure]
          rfl
        · rw [said_bind, setRoster, said_perform, said_bind, save, said_perform, said_bind, said_sendText]
          change _ = Reply.text _ :: List.map Reply.text (match (setRosterItem (currentRoster A self s) _ _).find _ with
            | some i => [Reply.push (A.answer .pushID) s.fullJID i]
            | none => [])
          unfold currentRoster
          cases (setRosterItem _ _ _).find _ with
          | none => rfl
          | some i =>
              rw [said_bind, said_push, said_pure]
              rfl
  · rw [said_bind, said_pure, List.append_nil]
    exact said_error "cancel" "feature-not-implemented" .notImplemented rfl rfl

theorem buildResultIQ_eq (id : Str) (includeTo : Bool) :
    buildResultIQ s id includeTo ++ ("</iq>" : Str) =
      (Reply.registered id s.jidDomain (if includeTo then s.fullJID else [])).text := by
  have hto : (if includeTo ∧ s.fullJID ≠ [] then (" to='" : Str) ++ s.fullJID ++ ("'" : Str) else []) =
      if (if includeTo then s.fullJID else []) = [] then [] else
        (" to='" : Str) ++ (if includeTo then s.fullJID else []) ++ ("'" : Str) := by
    cases includeTo with
    | false => rw [if_neg (fun h => Bool.false_ne_true h.1), if_neg Bool.false_ne_true, if_pos rfl]
    | true =>
        rw [if_pos rfl]
        by_cases hnil : s.fullJID = []
        · rw [if_neg (fun h => h.2 hnil), if_pos hnil]
        · rw [if_pos ⟨rfl, hnil⟩, if_neg hnil]
  exact congrArg (fun x : Str => ("<iq type='result'" : Str) ++ (if id = [] then [] else (" id='" : Str) ++ id ++ ("'" : Str)) ++
    (" from='" : Str) ++ s.jidDomain ++ ("'" : Str) ++ x ++ ("</iq>" : Str)) hto

theorem buildResultIQ_form (id : Str) :
    buildResultIQ s id false ++
      ("<query xmlns='jabber:iq:register'><instructions>Choose a username and password.</instructions>" : Str) ++
      ("<username/><password/></query></iq>" : Str) = (Reply.form id s.jidDomain).text := by
  have hto : (if false = true ∧ s.fullJID ≠ [] then (" to='" : Str) ++ s.fullJID ++ ("'" : Str) else []) = [] :=
    if_neg fun h => Bool.false_ne_true h.1
  have hfront : buildResultIQ s id false = ("<iq type='result'" : Str) ++
      (if id = [] then [] else (" id='" : Str) ++ id ++ ("'" : Str)) ++ (" from='" : Str) ++ s.jidDomain ++ ("'" : Str) :=
    (congrArg (fun x : Str => ("<iq type='result'" : Str) ++ (if id = [] then [] else (" id='" : Str) ++ id ++ ("'" : Str)) ++
      (" from='" : Str) ++ s.jidDomain ++ ("'" : Str) ++ x) hto).trans (List.append_nil _)
  rw [hfront]
  rfl

theorem said_registerSet (query : XmlNode) (hq : node.firstChild = some query) :
    said A.answer (registerSet self s node (node.attr "id")) = [(dueSet A s node query).text] := by
  unfold registerSet dueSet
  rw [hq]
  dsimp only
  split
  · split
    · rw [said_bind, said_pure, List.append_nil]
      exact said_error "cancel" "not-allowed" .notAllowed rfl rfl
    · rw [said_bind, said_sendText, said_bind, delete, said_perform, said_pure, buildResultIQ_eq]
      rfl
  split
  · rw [said_bind, said_pure, List.append_nil]
    exact said_error "modify" "bad-request" .badRequest rfl rfl
  split
  · rw [said_bind, create, said_perform, outcome_perform]
    cases A.answer (.create (childText query "username") (childText query "password")) with
    | ok =>
        rw [said_bind, said_sendText, said_pure, buildResultIQ_eq]
        rfl
    | conflict =>
        rw [said_bind, said_pure, List.append_nil]
        exact said_error "cancel" "conflict" .conflict rfl rfl
    | invalidUsername =>
        rw [said_bind, said_pure, List.append_nil]
        exact said_error "modify" "not-acceptable" .notAcceptable rfl rfl
    | failed =>
        rw [said_bind, said_pure, List.append_nil]
        exact said_error "wait" "internal-server-error" .serverError rfl rfl
  split
  · rw [said_bind, said_pure, List.append_nil]
    exact said_error "cancel" "not-allowed" .notAllowed rfl rfl
  · rw [said_bind, changePassword, said_perform, outcome_perform]
    cases A.answer (.changePassword (childText query "username") (childText query "password")) with
    | true =>
        rw [if_pos rfl, if_pos rfl, said_bind, said_sendText, said_pure, buildResultIQ_eq]
        rfl
    | false =>
        rw [if_neg Bool.false_ne_true, if_neg Bool.false_ne_true, said_bind, said_pure, List.append_nil]
        exact said_error "wait" "internal-server-error" .serverError rfl rfl

theorem said_registerHandleIQ : said A.answer (registerHandleIQ self s node) = [(dueRegister A s node).text] := by
  unfold registerHandleIQ dueRegister
  split
  · rw [said_bind, said_sendText, said_pure, List.append_nil, buildResultIQ_form]
  split
  · cases hq : node.firstChild with
    | none =>
        unfold registerSet
        rw [hq, said_bind, said_pure, List.append_nil]
        exact said_error "modify" "bad-request" .badRequest rfl rfl
    | some query => exact said_registerSet query hq
  · rw [said_bind, said_pure, List.append_nil]
    exact said_error "cancel" "bad-request" .badType rfl rfl

/-- On every path the texts of the replies that are due are sent. -/
theorem sent_eq (path : Path) : sent A domain self s node path = (due A domain self s node path).map Reply.text := by
  cases path with
  | bind => exact said_handleBind
  | session =>
      change said A.answer (handleSessionIQ self s node) = _
      rw [handleSessionIQ, said_bind, said_sendText]
      rfl
  | roster => exact said_whenActive said_handleRosterIQ
  | discoInfo =>
      apply said_whenActive
      rw [handleInfo, discoReply, said_bind, said_sendText]
      rfl
  | discoItems =>
      apply said_whenActive
      rw [handleItems, discoReply, said_bind, said_sendText]
      rfl
  | register => exact said_registerHandleIQ
  | error r => exact said_sendStanzaError r

end

/-! ## The shapes of the replies -/

section
variable {name value : Str} {l : List (Str × Option Str)}

/-- An attribute as the handlers format it. -/
def attrText (name value : Str) : Str := ' ' :: (name ++ '=' :: '\'' :: (quote value ++ ['\'']))

theorem printAttrs_some : printAttrs (given ((name, some value) :: l)) = attrText name value ++ printAttrs (given l) := rfl

theorem optAttr_eq : optAttr name value = if value = [] then [] else attrText name value := by
  unfold optAttr attrText
  split
  · rfl
  · rw [escapeAttr_quote]
    simp

theorem printAttrs_optional :
    printAttrs (given ((name, optional value) :: l)) = optAttr name value ++ printAttrs (given l) := by
  rw [optAttr_eq]
  unfold optional
  split
  · rfl
  · rfl

theorem legal_some : (∀ a ∈ given ((name, some value) :: l), LegalText a.2) ↔
    LegalText value ∧ ∀ a ∈ given l, LegalText a.2 := List.forall_mem_cons

theorem legal_optional : (∀ a ∈ given ((name, optional value) :: l), LegalText a.2) ↔
    LegalText value ∧ ∀ a ∈ given l, LegalText a.2 := by
  unfold optional
  split
  · next h =>
    rw [h]
    exact (and_iff_right legalText_nil).symm
  · exact List.forall_mem_cons

theorem quote_alphanum {s : Str} (h : ∀ c ∈ s, c.isAlphanum = true) : quote s = s := by
  apply quote_unescaped
  intro c hc
  refine ⟨?_, ?_, ?_⟩
  · rintro rfl
    exact absurd (h _ hc) (by decide)
  · rintro rfl
    exact absurd (h _ hc) (by decide)
  · rintro rfl
    exact absurd (h _ hc) (by decide)

end

/-- The subscriptions that are sent. -/
def sentSubscriptions : List Str := "remove".toList :: subscriptions

theorem quote_subscription {s : Str} (h : s ∈ sentSubscriptions) : quote s = s := by
  have hall : ∀ t ∈ sentSubscriptions, quote t = t := by decide
  exact hall s h

theorem itemAttrs_eq {i : Item} (h : i.subscription ∈ sentSubscriptions) : itemAttrs i = (itemMarkup i).print := by
  have hjid : ("<item jid='" : Str) = '<' :: ("item".toList ++ ' ' :: ("jid".toList ++ ['=', '\''])) := by decide
  have hsub : (" subscription='" : Str) = ' ' :: ("subscription".toList ++ ['=', '\'']) := by decide
  have hask : (" ask='subscribe'" : Str) = attrText "ask".toList "subscribe".toList := by decide
  have hquote : ("'" : Str) = ['\''] := by decide
  have hend : ("/>" : Str) = ['/', '>'] := by decide
  have hprintAsk : printAttrs (given [("ask".toList, if i.askSubscribe then some "subscribe".toList else none)]) =
      if i.askSubscribe then attrText "ask".toList "subscribe".toList else [] := by
    split
    · rfl
    · rfl
  delta itemAttrs
  rw [itemMarkup, Markup.print, printAttrs_some, printAttrs_optional, printAttrs_some, hprintAsk, hjid, hsub, hask, hquote,
    hend, escapeAttr_quote]
  simp only [attrText, quote_subscription h, List.append_assoc, List.cons_append, List.nil_append]

/-! ## The texts of the replies -/

section
variable {name id domain fullJID : Str}

theorem quote_errType (r : Refusal) : quote r.errType = r.errType := by
  cases r
  all_goals decide

theorem result_open : ("<iq type='result'" : Str) = '<' :: ("iq".toList ++ attrText "type".toList "result".toList) := by
  decide

theorem quote_mark : ("'" : Str) = ['\''] := by decide

theorem to_mark : (" to='" : Str) = ' ' :: ("to".toList ++ ['=', '\'']) := by decide

theorem from_mark : (" from='" : Str) = ' ' :: ("from".toList ++ ['=', '\'']) := by decide

theorem text_refused {r : Refusal} {m : Markup} (hm : (Reply.refused name id domain fullJID r).markup = some m) :
    (Reply.refused name id domain fullJID r).text = m.print := by
  have herror : (" type='error'" : Str) = attrText "type".toList "error".toList := by decide
  have hinner : ("><error type='" : Str) = '>' :: '<' :: ("error".toList ++ ' ' :: ("type".toList ++ ['=', '\''])) := by
    decide
  have hmark : ("'><" : Str) = ['\'', '>', '<'] := by decide
  have hend : (" xmlns='urn:ietf:params:xml:ns:xmpp-stanzas'/></error></" : Str) =
      printAttrs [("xmlns".toList, "urn:ietf:params:xml:ns:xmpp-stanzas".toList)] ++
        '/' :: '>' :: '<' :: '/' :: ("error".toList ++ ['>', '<', '/']) := by decide
  have hlast : (">" : Str) = ['>'] := by decide
  have htype : printAttrs [("type".toList, r.errType)] = attrText "type".toList r.errType := List.append_nil _
  have hnil : printAttrs (given []) = [] := rfl
  cases hm
  change '<' :: name ++ (" type='error'" : Str) ++ optAttr "id" id ++ (" from='" : Str) ++ escapeAttr domain ++ ("'" : Str) ++
    optAttr "to" fullJID ++ ("><error type='" : Str) ++ r.errType ++ ("'><" : Str) ++ r.condition ++
    (" xmlns='urn:ietf:params:xml:ns:xmpp-stanzas'/></error></" : Str) ++ name ++ (">" : Str) = _
  rw [print_one, print_one, print_empty, openTag, openTag, closeTag, closeTag, printAttrs_some, printAttrs_optional, printAttrs_some, printAttrs_optional, hnil, htype, herror, hinner, hmark, hend, hlast,
    from_mark, quote_mark, escapeAttr_quote]
  simp only [attrText, quote_errType, List.append_assoc, List.cons_append, List.nil_append]

theorem text_bound {m : Markup} (hm : (Reply.bound id fullJID).markup = some m) :
    (Reply.bound id fullJID).text = m.print := by
  have hopen : ("><bind xmlns='urn:ietf:params:xml:ns:xmpp-bind'><jid>" : Str) =
      '>' :: (openTag "bind".toList [("xmlns".toList, nsBind)] ++ openTag "jid".toList []) := by decide
  have hclose : ("</jid></bind></iq>" : Str) = closeTag "jid".toList ++ (closeTag "bind".toList ++ closeTag "iq".toList) := by
    decide
  have hiq : openTag "iq".toList (given [("type".toList, some "result".toList), ("id".toList, optional id)]) =
      '<' :: ("iq".toList ++ (attrText "type".toList "result".toList ++ (optAttr "id".toList id ++ ['>']))) := by
    rw [openTag, printAttrs_some, printAttrs_optional]
    simp [printAttrs, given]
  cases hm
  change ("<iq type='result'" : Str) ++ optAttr "id" id ++ ("><bind xmlns='urn:ietf:params:xml:ns:xmpp-bind'><jid>" : Str) ++
    escapeText fullJID ++ ("</jid></bind></iq>" : Str) = _
  rw [print_one, print_one, print_one, print_text, hiq, result_open, hopen, hclose, escapeText_escape]
  simp only [List.append_assoc, List.cons_append, List.nil_append]

theorem text_empty {m : Markup} (hm : (Reply.empty id).markup = some m) : (Reply.empty id).text = m.print := by
  have hend : ("/>" : Str) = ['/', '>'] := by decide
  have hnil : printAttrs (given []) = [] := rfl
  cases hm
  change ("<iq type='result'" : Str) ++ optAttr "id" id ++ ("/>" : Str) = _
  rw [Markup.print, printAttrs_some, printAttrs_optional, hnil, result_open, hend]
  simp only [List.append_assoc, List.cons_append, List.nil_append]

theorem printAttrs_given_nil : printAttrs (given []) = [] := rfl

/-- The end of the replies that hold a roster. -/
theorem roster_marks : ("'><query xmlns='jabber:iq:roster'>" : Str) =
      '\'' :: '>' :: openTag "query".toList [("xmlns".toList, nsRoster)] ∧
    ("</query></iq>" : Str) = closeTag "query".toList ++ closeTag "iq".toList := by decide

theorem print_rosterMarkup {contacts : List Item} (h : ∀ i ∈ contacts, i.subscription ∈ sentSubscriptions) :
    (rosterMarkup contacts).print = openTag "query".toList [("xmlns".toList, nsRoster)] ++
      (contacts.flatMap itemAttrs ++ closeTag "query".toList) := by
  have hitems : contacts.flatMap itemAttrs = contacts.flatMap fun i => (itemMarkup i).print :=
    List.flatMap_congr fun i hi => itemAttrs_eq (h i hi)
  rw [rosterMarkup, print_element, printAll_map, hitems]

theorem text_roster {contacts : List Item} (h : ∀ i ∈ contacts, i.subscription ∈ sentSubscriptions) {m : Markup}
    (hm : (Reply.roster id fullJID contacts).markup = some m) : (Reply.roster id fullJID contacts).text = m.print := by
  cases hm
  change ("<iq type='result'" : Str) ++ optAttr "id" id ++ (" to='" : Str) ++ escapeAttr fullJID ++
    ("'><query xmlns='jabber:iq:roster'>" : Str) ++ contacts.flatMap itemAttrs ++ ("</query></iq>" : Str) = _
  rw [print_one, print_rosterMarkup h, openTag, printAttrs_some, printAttrs_optional, printAttrs_some, printAttrs_given_nil,
    result_open, roster_marks.1, roster_marks.2, to_mark, escapeAttr_quote]
  simp only [attrText, List.append_assoc, List.cons_append, List.nil_append]

theorem text_push {i : Item} (hid : quote id = id) (h : i.subscription ∈ sentSubscriptions) {m : Markup}
    (hm : (Reply.push id fullJID i).markup = some m) : (Reply.push id fullJID i).text = m.print := by
  have hopen : ("<iq type='set' id='" : Str) = '<' :: ("iq".toList ++ (attrText "type".toList "set".toList ++
      ' ' :: ("id".toList ++ ['=', '\'']))) := by decide
  have hto : ("' to='" : Str) = '\'' :: ' ' :: ("to".toList ++ ['=', '\'']) := by decide
  have hitem : [i].flatMap itemAttrs = itemAttrs i := List.append_nil _
  have hlisted : ∀ j ∈ [i], j.subscription ∈ sentSubscriptions := List.forall_mem_singleton.mpr h
  have hprint := print_rosterMarkup hlisted
  cases hm
  change ("<iq type='set' id='" : Str) ++ id ++ ("' to='" : Str) ++ escapeAttr fullJID ++
    ("'><query xmlns='jabber:iq:roster'>" : Str) ++ itemAttrs i ++ ("</query></iq>" : Str) = _
  rw [print_one, hprint, hitem, openTag, printAttrs_some, printAttrs_some, printAttrs_some, printAttrs_given_nil, hopen,
    roster_marks.1, roster_marks.2, hto, escapeAttr_quote]
  simp only [attrText, hid, List.append_assoc, List.cons_append, List.nil_append]

/-! ## Discovery -/

/-- The front of both replies. -/
theorem disco_open : ("<iq type='result' from='" : Str) = '<' :: ("iq".toList ++ (attrText "type".toList "result".toList ++
    ' ' :: ("from".toList ++ ['=', '\'']))) := by decide

theorem disco_to : ("' to='" : Str) = '\'' :: ' ' :: ("to".toList ++ ['=', '\'']) := by decide

def discoText (domain fullJID id content : Str) : Str :=
  ("<iq type='result' from='" : Str) ++ domain ++ ("' to='" : Str) ++ escapeAttr fullJID ++ ("'" : Str) ++ optAttr "id" id ++
    (">" : Str) ++ content ++ ("</iq>" : Str)

def discoAttrs (domain fullJID id : Str) : List (Str × Option Str) :=
  [("type".toList, some "result".toList), ("from".toList, some domain), ("to".toList, some fullJID), ("id".toList, optional id)]

/-- The reply is an element if the domain needs no escaping. -/
theorem discoText_print (h : Unescaped domain) (content : Markup) :
    discoText domain fullJID id content.print =
      (Markup.element "iq".toList (given (discoAttrs domain fullJID id)) [content]).print := by
  have hend : (">" : Str) = ['>'] := by decide
  have hclose : ("</iq>" : Str) = closeTag "iq".toList := by decide
  delta discoText
  rw [print_one, openTag, discoAttrs, printAttrs_some, printAttrs_some, printAttrs_some, printAttrs_optional,
    printAttrs_given_nil, disco_open, disco_to, quote_mark, hend, hclose, escapeAttr_quote]
  simp only [attrText, quote_unescaped h, List.append_assoc, List.cons_append, List.nil_append]

theorem isName_literals : WellNamed ["iq".toList, "type".toList, "from".toList, "to".toList, "id".toList] :=
  wellNamed_of_all (by decide)

theorem printRaw_two (a b : Str × Str) : printRaw [a, b] =
    ' ' :: (a.1 ++ '=' :: '\'' :: (a.2 ++ '\'' :: ' ' :: (b.1 ++ '=' :: '\'' :: (b.2 ++ ['\''])))) := by
  simp [printRaw]

/-- Read as it is due, the reply shows that the domain needs no escaping. -/
theorem unescaped_of_discoText {content : Str} {name : Str} {children : List Tree}
    (h : readElement (discoText domain fullJID id content) =
      some (.element name (readable (uniformAttrs (given (discoAttrs domain fullJID id)))) children)) : Unescaped domain := by
  obtain ⟨rest, hrest⟩ : ∃ rest, discoText domain fullJID id content =
      '<' :: ("iq".toList ++ (printRaw [("type".toList, "result".toList), ("from".toList, domain)] ++ rest)) := by
    refine ⟨' ' :: ("to".toList ++ '=' :: '\'' :: (quote fullJID ++ '\'' :: (optAttr "id" id ++ (">" : Str) ++ content ++
      ("</iq>" : Str)))), ?_⟩
    have hresult : quote "result".toList = "result".toList := by decide
    delta discoText
    rw [disco_open, disco_to, quote_mark, escapeAttr_quote, printRaw_two]
    simp only [attrText, hresult, List.append_assoc, List.cons_append, List.nil_append]
  have hnames := isName_literals.1
  rw [hrest] at h
  have hread := unescaped_of_readElement (l := readable (uniformAttrs (given [("to".toList, some fullJID),
    ("id".toList, optional id)]))) (hnames _ (by simp))
    (List.forall_mem_cons.mpr ⟨hnames _ (by simp), List.forall_mem_singleton.mpr (hnames _ (by simp))⟩) h
  exact hread.1 ("from".toList, domain) (by simp)

/-! ## Registration -/

section
variable {l : List (Str × Option Str)} {value : Str}

def rawText (name value : Str) : Str := ' ' :: (name ++ '=' :: '\'' :: (value ++ ['\'']))

theorem printRaw_some : printRaw (given ((name, some value) :: l)) = rawText name value ++ printRaw (given l) := rfl

theorem printRaw_optional : printRaw (given ((name, optional value) :: l)) =
    (if value = [] then [] else rawText name value) ++ printRaw (given l) := by
  unfold optional
  split
  · rfl
  · rfl

end

def registerAttrs (id domain fullJID : Str) : List (Str × Option Str) :=
  [("type".toList, some "result".toList), ("id".toList, optional id), ("from".toList, some domain), ("to".toList, optional fullJID)]

theorem registerNames : WellNamed ["type".toList, "id".toList, "from".toList, "to".toList] :=
  wellNamed_of_all (by decide)

/-- A start tag that another bracket follows is not read. -/
theorem registerAttrs_unread (rest name' : Str) (children : List Tree) :
    readElement ('<' :: ("iq".toList ++ (printRaw (given (registerAttrs id domain fullJID)) ++ '<' :: rest))) ≠
      some (.element name' (readable (uniformAttrs (given (registerAttrs id domain fullJID)))) children) := by
  have hwell : WellNamed ((registerAttrs id domain fullJID).map Prod.fst) := registerNames
  have hattrs := names_of_wellNamed (wellNamed_given hwell)
  have hcons : given (registerAttrs id domain fullJID) = ("type".toList, "result".toList) ::
      given [("id".toList, optional id), ("from".toList, some domain), ("to".toList, optional fullJID)] := rfl
  have hiq : IsName "iq".toList := isName_literals.1 _ (by simp)
  rw [hcons] at hattrs ⊢
  exact readElement_bracket hiq hattrs

theorem rawText_eq (front : Str) (hfront : front = ' ' :: (name ++ ['=', '\''])) (value : Str) :
    front ++ value ++ ("'" : Str) = rawText name value := by
  rw [hfront, quote_mark, rawText]
  simp

theorem register_front : ("<iq type='result'" : Str) ++ (if id = [] then [] else (" id='" : Str) ++ id ++ ("'" : Str)) ++
    (" from='" : Str) ++ domain ++ ("'" : Str) ++ (if fullJID = [] then [] else (" to='" : Str) ++ fullJID ++ ("'" : Str)) =
      '<' :: ("iq".toList ++ printRaw (given (registerAttrs id domain fullJID))) := by
  have hid : (" id='" : Str) ++ id ++ ("'" : Str) = rawText "id".toList id := rawText_eq _ (by decide) id
  have hfrom : (" from='" : Str) ++ domain ++ ("'" : Str) = rawText "from".toList domain := rawText_eq _ from_mark domain
  have hto : (" to='" : Str) ++ fullJID ++ ("'" : Str) = rawText "to".toList fullJID := rawText_eq _ to_mark fullJID
  have hresult : quote "result".toList = "result".toList := by decide
  have hopen : ("<iq type='result'" : Str) = '<' :: ("iq".toList ++ rawText "type".toList "result".toList) := by
    decide
  have hnil : printRaw (given []) = [] := rfl
  rw [registerAttrs, printRaw_some, printRaw_optional, printRaw_some, printRaw_optional, hnil, hid, hto, hopen, ← hfrom]
  simp only [List.append_assoc, List.cons_append, List.append_nil]

theorem registered_unread : ¬Reads (Reply.registered id domain fullJID).text (.registered id domain fullJID) := by
  intro h
  have hread := h _ rfl
  have htext : (Reply.registered id domain fullJID).text =
      '<' :: ("iq".toList ++ (printRaw (given (registerAttrs id domain fullJID)) ++ '<' :: "/iq>".toList)) := by
    have hclose : ("</iq>" : Str) = '<' :: "/iq>".toList := by decide
    rw [← List.append_assoc, ← List.cons_append, ← register_front, ← hclose]
    rfl
  rw [htext] at hread
  exact registerAttrs_unread _ _ _ hread

theorem form_unread : ¬Reads (Reply.form id domain).text (.form id domain) := by
  intro h
  have hread := h _ rfl
  have hquery : ("<query xmlns='jabber:iq:register'><instructions>Choose a username and password.</instructions>" : Str) =
      '<' :: "query xmlns='jabber:iq:register'><instructions>Choose a username and password.</instructions>".toList := by
    decide
  have hfront : ("<iq type='result'" : Str) ++ (if id = [] then [] else (" id='" : Str) ++ id ++ ("'" : Str)) ++
      (" from='" : Str) ++ domain ++ ("'" : Str) ++ (if ([] : Str) = [] then [] else (" to='" : Str) ++ [] ++ ("'" : Str)) =
        '<' :: ("iq".toList ++ printRaw (given (registerAttrs id domain []))) := register_front
  rw [if_pos rfl, List.append_nil] at hfront
  have htext : (Reply.form id domain).text = '<' :: ("iq".toList ++ (printRaw (given (registerAttrs id domain [])) ++
      (("<query xmlns='jabber:iq:register'><instructions>Choose a username and password.</instructions>" : Str) ++
        ("<username/><password/></query></iq>" : Str)))) := by
    rw [← List.append_assoc, ← List.append_assoc, ← List.cons_append, ← List.cons_append, ← hfront]
    rfl
  rw [htext, hquery, List.cons_append] at hread
  exact registerAttrs_unread _ _ _ hread

end

/-! ## Which replies are read as they are due -/

/-- The strings in a reply can be written, the domain in a discovery reply needs no
escaping, and the reply is not one of the registration path. -/
def Reply.Plain : Reply → Prop
  | .refused _ id domain fullJID _ => LegalText id ∧ LegalText domain ∧ LegalText fullJID
  | .bound id fullJID => LegalText id ∧ LegalText fullJID
  | .empty id => LegalText id
  | .roster id fullJID contacts => LegalText id ∧ LegalText fullJID ∧ ∀ i ∈ contacts, LegalText i.jid ∧ LegalText i.name
  | .push _ fullJID i => LegalText fullJID ∧ LegalText i.jid ∧ LegalText i.name
  | .discoInfo domain fullJID id => Unescaped domain ∧ LegalText domain ∧ LegalText fullJID ∧ LegalText id
  | .discoItems domain fullJID id => Unescaped domain ∧ LegalText domain ∧ LegalText fullJID ∧ LegalText id
  | .form _ _ => False
  | .registered _ _ _ => False
  | .streamError => True

/-- What holds of every reply that is due. -/
def Reply.Formed : Reply → Prop
  | .refused name _ _ _ _ => IsName name
  | .roster _ _ contacts => ∀ i ∈ contacts, i.subscription ∈ sentSubscriptions
  | .push id _ i => (∀ c ∈ id, c.isAlphanum = true) ∧ i.subscription ∈ sentSubscriptions
  | _ => True

section
variable {name id domain fullJID : Str}

theorem legal_given_nil : (∀ a ∈ given ([] : List (Str × Option Str)), LegalText a.2) ↔ True := by simp [given]

theorem legal_alphanum {s : Str} (h : ∀ c ∈ s, c.isAlphanum = true) : LegalText s := by
  intro c hc
  apply isLegal_of_isNameChar
  have hchar := h c hc
  simp only [Char.isAlphanum, Bool.or_eq_true] at hchar
  rcases hchar with hchar | hchar
  · simp [XmlReader.isNameChar, XmlReader.isNameStart, hchar]
  · simp [XmlReader.isNameChar, hchar]

theorem isName_iq : IsName "iq".toList := isName_literals.1 _ (by simp)

theorem isName_query : IsName "query".toList := isName_of_all (by decide)

theorem wellNamed_xmlns : WellNamed ["xmlns".toList] := wellNamed_of_all (by decide)

theorem legal_type : LegalText "result".toList ∧ LegalText "set".toList ∧ LegalText "error".toList :=
  ⟨legal_of_all (by decide), legal_of_all (by decide), legal_of_all (by decide)⟩

/-- A reply that is written as an element is read as it is due if its strings can be written. -/
theorem reads_iff_legal {r : Reply} {m : Markup} (hm : r.markup = some m) (htext : r.text = m.print) (hs : Sound m) :
    Reads r.text r ↔ m.Legal := by
  rw [← hs.reads_iff, ← htext]
  constructor
  · intro h
    exact h m hm
  · intro h m' hm'
    rw [hm] at hm'
    cases hm'
    exact h

theorem condition_sound (r : Refusal) : IsName r.condition ∧ LegalText r.errType := by
  cases r
  all_goals exact ⟨isName_of_all (by decide), legal_of_all (by decide)⟩

theorem refused_reads_iff {r : Refusal} (hname : IsName name) :
    Reads (Reply.refused name id domain fullJID r).text (.refused name id domain fullJID r) ↔
      LegalText id ∧ LegalText domain ∧ LegalText fullJID := by
  have hwell : WellNamed ["type".toList, "id".toList, "from".toList, "to".toList] := registerNames
  have htype : WellNamed ["type".toList] := wellNamed_of_all (by decide)
  have hinner : Sound (.element "error".toList [("type".toList, r.errType)]
      [.empty r.condition [("xmlns".toList, "urn:ietf:params:xml:ns:xmpp-stanzas".toList)]]) :=
    sound_element (isName_of_all (by decide)) htype
      (List.forall_mem_singleton.mpr (sound_empty (condition_sound r).1 wellNamed_xmlns))
  have hlegal : (Markup.element "error".toList [("type".toList, r.errType)]
      [.empty r.condition [("xmlns".toList, "urn:ietf:params:xml:ns:xmpp-stanzas".toList)]]).Legal :=
    ⟨List.forall_mem_singleton.mpr (condition_sound r).2,
      legalAll_one.mpr (List.forall_mem_singleton.mpr (legal_of_all (by decide)))⟩
  rw [reads_iff_legal rfl (text_refused rfl)
    (sound_element hname (wellNamed_given hwell) (List.forall_mem_singleton.mpr hinner)), Markup.Legal, legalAll_one,
    legal_some, legal_optional, legal_some, legal_optional, legal_given_nil]
  simp only [legal_type.2.2, hlegal, true_and, and_true]

theorem resultNames : WellNamed ["type".toList, "id".toList] := wellNamed_of_all (by decide)

theorem bound_reads_iff : Reads (Reply.bound id fullJID).text (.bound id fullJID) ↔ LegalText id ∧ LegalText fullJID := by
  have hnil : WellNamed (List.map Prod.fst ([] : List (Str × Str))) := ⟨by simp, List.nodup_nil⟩
  have hjid : Sound (.element "jid".toList [] [.text fullJID]) := sound_text (isName_of_all (by decide)) hnil fullJID
  have hbind : Sound (.element "bind".toList [("xmlns".toList, nsBind)] [.element "jid".toList [] [.text fullJID]]) :=
    sound_element (isName_of_all (by decide)) wellNamed_xmlns (List.forall_mem_singleton.mpr hjid)
  have hns : LegalText nsBind := legal_of_all (by decide)
  rw [reads_iff_legal rfl (text_bound rfl)
    (sound_element isName_iq (wellNamed_given resultNames) (List.forall_mem_singleton.mpr hbind)), Markup.Legal,
    legalAll_one, legal_some, legal_optional, legal_given_nil, Markup.Legal, legalAll_one, Markup.Legal, legalAll_one,
    Markup.Legal, List.forall_mem_singleton]
  have hempty : ∀ a ∈ ([] : List (Str × Str)), LegalText a.2 := List.forall_mem_nil _
  simp only [legal_type.1, hns, true_and, and_true, and_iff_right hempty]

theorem empty_reads_iff : Reads (Reply.empty id).text (.empty id) ↔ LegalText id := by
  rw [reads_iff_legal rfl (text_empty rfl) (sound_empty isName_iq (wellNamed_given resultNames)), Markup.Legal, legal_some,
    legal_optional, legal_given_nil]
  simp only [legal_type.1, true_and, and_true]

theorem sound_itemMarkup (i : Item) : Sound (itemMarkup i) := by
  have hwell : WellNamed ["jid".toList, "name".toList, "subscription".toList, "ask".toList] := wellNamed_of_all (by decide)
  exact sound_empty (isName_of_all (by decide)) (wellNamed_given hwell)

theorem sound_rosterMarkup (contacts : List Item) : Sound (rosterMarkup contacts) := by
  have hwell : WellNamed ([("xmlns".toList, nsRoster)].map Prod.fst) := wellNamed_xmlns
  refine sound_element isName_query hwell ?_
  intro m hm
  obtain ⟨i, -, rfl⟩ := List.mem_map.mp hm
  exact sound_itemMarkup i

theorem legal_itemMarkup {i : Item} (h : i.subscription ∈ sentSubscriptions) :
    (itemMarkup i).Legal ↔ LegalText i.jid ∧ LegalText i.name := by
  have hsub : LegalText i.subscription := by
    have hall : ∀ t ∈ sentSubscriptions, t.all XmlReader.isLegal = true := by decide
    exact legal_of_all (hall _ h)
  have hask : ∀ a ∈ given [("ask".toList, if i.askSubscribe then some "subscribe".toList else none)], LegalText a.2 := by
    split
    · exact List.forall_mem_singleton.mpr (legal_of_all (by decide))
    · simp [given]
  rw [itemMarkup, Markup.Legal, legal_some, legal_optional, legal_some]
  simp only [hsub, true_and]
  rw [and_iff_left hask]

theorem legal_rosterMarkup {contacts : List Item} (h : ∀ i ∈ contacts, i.subscription ∈ sentSubscriptions) :
    (rosterMarkup contacts).Legal ↔ ∀ i ∈ contacts, LegalText i.jid ∧ LegalText i.name := by
  have hns : ∀ a ∈ [("xmlns".toList, nsRoster)], LegalText a.2 := List.forall_mem_singleton.mpr (legal_of_all (by decide))
  rw [rosterMarkup, Markup.Legal, legalAll_iff, and_iff_right hns, List.forall_mem_map]
  exact forall₂_congr fun i hi => legal_itemMarkup (h i hi)

theorem roster_reads_iff {contacts : List Item} (h : ∀ i ∈ contacts, i.subscription ∈ sentSubscriptions) :
    Reads (Reply.roster id fullJID contacts).text (.roster id fullJID contacts) ↔
      LegalText id ∧ LegalText fullJID ∧ ∀ i ∈ contacts, LegalText i.jid ∧ LegalText i.name := by
  have hwell : WellNamed ["type".toList, "id".toList, "to".toList] := wellNamed_of_all (by decide)
  rw [reads_iff_legal rfl (text_roster h rfl)
    (sound_element isName_iq (wellNamed_given hwell) (List.forall_mem_singleton.mpr (sound_rosterMarkup contacts))),
    Markup.Legal, legalAll_one, legal_some, legal_optional, legal_some, legal_given_nil, legal_rosterMarkup h]
  simp only [legal_type.1, true_and, and_true, and_assoc]

theorem push_reads_iff {i : Item} (hid : ∀ c ∈ id, c.isAlphanum = true) (h : i.subscription ∈ sentSubscriptions) :
    Reads (Reply.push id fullJID i).text (.push id fullJID i) ↔ LegalText fullJID ∧ LegalText i.jid ∧ LegalText i.name := by
  have hwell : WellNamed ["type".toList, "id".toList, "to".toList] := wellNamed_of_all (by decide)
  have hone : ∀ j ∈ [i], j.subscription ∈ sentSubscriptions := List.forall_mem_singleton.mpr h
  rw [reads_iff_legal rfl (text_push (quote_alphanum hid) h rfl)
    (sound_element isName_iq (wellNamed_given hwell) (List.forall_mem_singleton.mpr (sound_rosterMarkup [i]))),
    Markup.Legal, legalAll_one, legal_some, legal_some, legal_some, legal_given_nil, legal_rosterMarkup hone,
    List.forall_mem_singleton]
  simp only [legal_type.2.1, legal_alphanum hid, true_and, and_true]

theorem discoNames : WellNamed ["type".toList, "from".toList, "to".toList, "id".toList] := wellNamed_of_all (by decide)

/-- A discovery reply with given content. -/
theorem disco_reads_iff {r : Reply} {content : Markup}
    (hm : r.markup = some (.element "iq".toList (given (discoAttrs domain fullJID id)) [content]))
    (htext : r.text = discoText domain fullJID id content.print) (hs : Sound content) (hlegal : content.Legal) :
    Reads r.text r ↔ Unescaped domain ∧ LegalText domain ∧ LegalText fullJID ∧ LegalText id := by
  have hwell : WellNamed ((discoAttrs domain fullJID id).map Prod.fst) := discoNames
  have hsound : Sound (.element "iq".toList (given (discoAttrs domain fullJID id)) [content]) :=
    sound_element isName_iq (wellNamed_given hwell) (List.forall_mem_singleton.mpr hs)
  have hstrings : (Markup.element "iq".toList (given (discoAttrs domain fullJID id)) [content]).Legal ↔
      LegalText domain ∧ LegalText fullJID ∧ LegalText id := by
    rw [Markup.Legal, legalAll_one, discoAttrs, legal_some, legal_some, legal_some, legal_optional, legal_given_nil]
    simp only [legal_type.1, hlegal, true_and, and_true]
  have hreads : Unescaped domain → (Reads r.text r ↔ LegalText domain ∧ LegalText fullJID ∧ LegalText id) := by
    intro hdomain
    rw [reads_iff_legal hm (htext.trans (discoText_print hdomain content)) hsound, hstrings]
  constructor
  · intro h
    have hread := h _ hm
    rw [htext] at hread
    have hdomain := unescaped_of_discoText hread
    exact ⟨hdomain, (hreads hdomain).mp h⟩
  · intro h
    exact (hreads h.1).mpr h.2

theorem infoMarkup_sound : Sound infoMarkup ∧ infoMarkup.Legal := by
  have hwell : WellNamed ([("xmlns".toList, nsDiscoInfo)].map Prod.fst) := wellNamed_xmlns
  have hidentity : WellNamed ["category".toList, "type".toList, "name".toList] := wellNamed_of_all (by decide)
  have hfeature : WellNamed ["var".toList] := wellNamed_of_all (by decide)
  constructor
  · refine sound_element isName_query hwell (List.forall_mem_cons.mpr ⟨?_, ?_⟩)
    · exact sound_empty (isName_of_all (by decide)) hidentity
    · intro m hm
      obtain ⟨f, -, rfl⟩ := List.mem_map.mp hm
      exact sound_empty (isName_of_all (by decide)) hfeature
  · have hns : ∀ a ∈ [("xmlns".toList, nsDiscoInfo)], LegalText a.2 := List.forall_mem_singleton.mpr (legal_of_all (by decide))
    have hfeatures : ∀ f ∈ discoFeatures, f.all XmlReader.isLegal = true := by decide
    have hvalues : ∀ a ∈ [("category".toList, "server".toList), ("type".toList, "im".toList), ("name".toList, "xmppd".toList)],
        a.2.all XmlReader.isLegal = true := by decide
    refine ⟨hns, legalAll_iff.mpr (List.forall_mem_cons.mpr ⟨fun a ha => legal_of_all (hvalues a ha), ?_⟩)⟩
    intro m hm
    obtain ⟨f, hf, rfl⟩ := List.mem_map.mp hm
    exact List.forall_mem_singleton.mpr (legal_of_all (hfeatures f hf))

theorem print_infoMarkup : infoMarkup.print = ("<query xmlns='http://jabber.org/protocol/disco#info'>" : Str) ++
    ("<identity category='server' type='im' name='xmppd'/>" : Str) ++
    (discoFeatures.flatMap fun f => ("<feature var='" : Str) ++ escapeAttr f ++ ("'/>" : Str)) ++ ("</query>" : Str) := by
  have hfeature : ∀ f : Str, (Markup.empty "feature".toList [("var".toList, f)]).print =
      ("<feature var='" : Str) ++ escapeAttr f ++ ("'/>" : Str) := by
    intro f
    have hopen : ("<feature var='" : Str) = '<' :: ("feature".toList ++ ' ' :: ("var".toList ++ ['=', '\''])) := rfl
    have hend : ("'/>" : Str) = ['\'', '/', '>'] := rfl
    have hattr : printAttrs [("var".toList, f)] = attrText "var".toList f := List.append_nil _
    rw [print_empty, hattr, hopen, hend, escapeAttr_quote]
    simp only [attrText, List.append_assoc, List.cons_append, List.nil_append]
  have hopen : openTag "query".toList [("xmlns".toList, nsDiscoInfo)] =
      ("<query xmlns='http://jabber.org/protocol/disco#info'>" : Str) := by decide
  have hidentity : (Markup.empty "identity".toList [("category".toList, "server".toList), ("type".toList, "im".toList),
      ("name".toList, "xmppd".toList)]).print = ("<identity category='server' type='im' name='xmppd'/>" : Str) := by decide
  have hclose : closeTag "query".toList = ("</query>" : Str) := by decide
  rw [infoMarkup, print_element, printAll, printAll_map, hopen, hidentity, hclose]
  simp only [hfeature, List.append_assoc]

theorem discoInfo_reads_iff : Reads (Reply.discoInfo domain fullJID id).text (.discoInfo domain fullJID id) ↔
    Unescaped domain ∧ LegalText domain ∧ LegalText fullJID ∧ LegalText id := by
  refine disco_reads_iff rfl ?_ infoMarkup_sound.1 infoMarkup_sound.2
  rw [print_infoMarkup]
  rfl

theorem discoItems_reads_iff : Reads (Reply.discoItems domain fullJID id).text (.discoItems domain fullJID id) ↔
    Unescaped domain ∧ LegalText domain ∧ LegalText fullJID ∧ LegalText id := by
  have hsound : Sound (.empty "query".toList [("xmlns".toList, nsDiscoItems)]) := sound_empty isName_query wellNamed_xmlns
  have hlegal : (Markup.empty "query".toList [("xmlns".toList, nsDiscoItems)]).Legal :=
    List.forall_mem_singleton.mpr (legal_of_all (by decide))
  have hprint : (Markup.empty "query".toList [("xmlns".toList, nsDiscoItems)]).print =
      ("<query xmlns='http://jabber.org/protocol/disco#items'/>" : Str) := by decide
  refine disco_reads_iff rfl ?_ hsound hlegal
  rw [hprint]
  rfl

/-- The text of a reply is read as the element that is due if and only if the reply is a plain one. -/
theorem reads_iff {r : Reply} (hr : r.Formed) : Reads r.text r ↔ r.Plain := by
  cases r with
  | refused name id domain fullJID r => exact refused_reads_iff hr
  | bound id fullJID => exact bound_reads_iff
  | empty id => exact empty_reads_iff
  | roster id fullJID contacts => exact roster_reads_iff hr
  | push id fullJID i => exact push_reads_iff hr.1 hr.2
  | discoInfo domain fullJID id => exact discoInfo_reads_iff
  | discoItems domain fullJID id => exact discoItems_reads_iff
  | form id domain => exact iff_of_false form_unread not_false
  | registered id domain fullJID => exact iff_of_false registered_unread not_false
  | streamError => exact iff_of_true (fun m hm => nomatch hm) trivial

end

/-! ## The replies that are due -/

section
variable {A : Answers} {domain : Str} {self : ℕ} {s : Session} {node : XmlNode}

theorem mem_updateGo {jid : Str} {f : Item → Item} {l : List Item} {i : Item} (h : i ∈ Roster.update.go jid f l) :
    i ∈ l ∨ ∃ j ∈ l, i = f j := by
  induction l with
  | nil => cases h
  | cons j l ih =>
      rw [Roster.update.go] at h
      split at h
      · rcases List.mem_cons.mp h with rfl | h
        · exact Or.inr ⟨j, List.mem_cons_self, rfl⟩
        · exact Or.inl (List.mem_cons_of_mem j h)
      · rcases List.mem_cons.mp h with rfl | h
        · exact Or.inl List.mem_cons_self
        · rcases ih h with h | ⟨k, hk, rfl⟩
          · exact Or.inl (List.mem_cons_of_mem j h)
          · exact Or.inr ⟨k, List.mem_cons_of_mem j hk, rfl⟩

theorem subscription_addOrUpdate {r : Roster} {jid name subscription : Str} {ask : Bool}
    (hr : ∀ i ∈ r.items, i.subscription ∈ subscriptions) (hsub : subscription ∈ subscriptions) :
    ∀ i ∈ (r.addOrUpdate jid name subscription ask).items, i.subscription ∈ subscriptions := by
  intro i hi
  unfold Roster.addOrUpdate at hi
  split at hi
  · rcases mem_updateGo hi with hi | ⟨j, hj, rfl⟩
    · exact hr i hi
    · dsimp only
      split
      · exact hr j hj
      · exact hsub
  · rcases List.mem_append.mp hi with hi | hi
    · exact hr i hi
    · rw [List.mem_singleton.mp hi]
      dsimp only
      split
      · exact List.mem_cons_self
      · exact hsub

theorem subscription_setRosterItem {r : Roster} {jid name : Str} (hr : ∀ i ∈ r.items, i.subscription ∈ subscriptions) :
    ∀ i ∈ (setRosterItem r jid name).items, i.subscription ∈ subscriptions := by
  unfold setRosterItem
  split
  · exact subscription_addOrUpdate hr List.mem_cons_self
  · next i hfind => exact subscription_addOrUpdate hr (hr i (List.mem_of_find?_eq_some hfind))

theorem subscription_currentRoster : ∀ i ∈ (currentRoster A self s).items, i.subscription ∈ subscriptions := by
  unfold currentRoster
  split
  · exact A.cached self
  · exact A.stored s.jidLocal

theorem formed_whenBound {replies : List Reply} (hname : IsName node.name) (h : ∀ r ∈ replies, r.Formed) :
    ∀ r ∈ whenBound s node replies, r.Formed := by
  unfold whenBound
  split
  · exact h
  · exact List.forall_mem_singleton.mpr hname

theorem formed_dueRoster (hname : IsName node.name) : ∀ r ∈ dueRoster A self s node, r.Formed := by
  unfold dueRoster
  split
  · exact List.forall_mem_singleton.mpr fun i hi => List.mem_cons_of_mem _ (subscription_currentRoster i hi)
  split
  · split
    · exact List.forall_mem_singleton.mpr hname
    · next item hitem =>
      dsimp only
      split
      · exact List.forall_mem_singleton.mpr hname
      split
      · exact List.forall_mem_cons.mpr ⟨trivial, List.forall_mem_singleton.mpr ⟨A.pushID, List.mem_cons_self⟩⟩
      · refine List.forall_mem_cons.mpr ⟨trivial, ?_⟩
        split
        · next i hfind =>
          have hsub := subscription_setRosterItem subscription_currentRoster i (List.mem_of_find?_eq_some hfind)
          exact List.forall_mem_singleton.mpr ⟨A.pushID, List.mem_cons_of_mem _ hsub⟩
        · exact List.forall_mem_nil _
  · exact List.forall_mem_singleton.mpr hname

theorem formed_dueRegister (hname : IsName node.name) : (dueRegister A s node).Formed := by
  have hrefused : ∀ r, (refusal s node r).Formed := fun _ => hname
  have hcreated : ∀ c, (dueCreated s node c).Formed := by
    intro c
    cases c with
    | ok => exact trivial
    | conflict => exact hrefused _
    | invalidUsername => exact hrefused _
    | failed => exact hrefused _
  have hset : ∀ query, (dueSet A s node query).Formed := by
    intro query
    unfold dueSet
    split
    · split
      · exact hrefused _
      · exact trivial
    split
    · exact hrefused _
    split
    · exact hcreated _
    split
    · exact hrefused _
    split
    · exact trivial
    · exact hrefused _
  unfold dueRegister
  split
  · exact trivial
  split
  · split
    · exact hrefused _
    · exact hset _
  · exact hrefused _

theorem formed_due (hname : IsName node.name) (path : Path) : ∀ r ∈ due A domain self s node path, r.Formed := by
  cases path with
  | bind =>
      have hkick : ∀ b : Bool, ∀ r ∈ (if b = true then [Reply.streamError] else []), r.Formed := by
        intro b
        cases b with
        | true => exact List.forall_mem_singleton.mpr trivial
        | false => exact List.forall_mem_nil _
      change ∀ r ∈ dueBind A s node, r.Formed
      unfold dueBind
      split
      · exact List.forall_mem_singleton.mpr hname
      · exact List.forall_mem_append.mpr ⟨hkick _, List.forall_mem_singleton.mpr trivial⟩
  | session => exact List.forall_mem_singleton.mpr trivial
  | roster => exact formed_whenBound hname (formed_dueRoster hname)
  | discoInfo => exact formed_whenBound hname (List.forall_mem_singleton.mpr trivial)
  | discoItems => exact formed_whenBound hname (List.forall_mem_singleton.mpr trivial)
  | register => exact List.forall_mem_singleton.mpr (formed_dueRegister hname)
  | error r => exact List.forall_mem_singleton.mpr hname

end

/-- On every path the texts that are sent are read as the elements that are due if and only
if the replies that are due are plain ones. -/
theorem replies_read_iff (A : Answers) (domain : Str) (self : ℕ) (s : Session) (node : XmlNode) (hname : IsName node.name)
    (path : Path) :
    List.Forall₂ Reads (sent A domain self s node path) (due A domain self s node path) ↔
      ∀ r ∈ due A domain self s node path, r.Plain := by
  rw [sent_eq, List.forall₂_map_left_iff, List.forall₂_same]
  exact forall₂_congr fun r hr => reads_iff (formed_due hname path r hr)

/-- Answers where the registry is empty, rosters hold one contact and nothing fails. -/
def exampleAnswer : (c : Call) → Result c
  | .find _ => none
  | .register _ => none
  | .unregister => ()
  | .allSessions => []
  | .peek _ => { jidDomain := "localhost" }
  | .send _ _ => ()
  | .close _ => ()
  | .lock _ => ()
  | .unlock _ => ()
  | .roster _ => { items := [⟨"bob@localhost", "Bob & Co", "both", false⟩], loaded := true }
  | .setRoster _ _ => ()
  | .load _ => {}
  | .save _ _ => ()
  | .userExists _ => true
  | .checkPassword _ _ => true
  | .create _ _ => .ok
  | .changePassword _ _ => true
  | .delete _ => ()
  | .mkdirAll _ => ()
  | .readDir _ => none
  | .readFile _ _ => none
  | .writeFile _ _ _ => ()
  | .remove _ _ => ()
  | .generateID _ => "0a1b2c3d"
  | .now => "2024-01-01T00:00:00Z"
  | .pushID => "rp1"

def exampleAnswers : Answers where
  answer := exampleAnswer
  cached := fun _ => List.forall_mem_singleton.mpr (by decide)
  stored := fun _ => List.forall_mem_nil _
  pushID := List.all_eq_true.mp (by decide)

def exampleSession : Session :=
  { jidLocal := "alice", jidDomain := "localhost", jidResource := "o'hara", state := .bound, authenticated := true }

/-- A request of the roster whose identifier holds a mark. -/
def rosterRequest : XmlNode :=
  .mk "iq" "jabber:client" [⟨"type", [], "get"⟩, ⟨"id", [], "r<1"⟩] [.mk "query" "jabber:iq:roster" [] [] []] []

theorem roster_reply_read : List.Forall₂ Reads (sent exampleAnswers "localhost" 0 exampleSession rosterRequest .roster)
    (due exampleAnswers "localhost" 0 exampleSession rosterRequest .roster) := by
  refine (replies_read_iff exampleAnswers "localhost" 0 exampleSession rosterRequest (isName_of_all (by decide)) .roster).mpr ?_
  refine List.forall_mem_singleton.mpr ⟨legal_of_all (by decide), legal_of_all (by decide), ?_⟩
  exact List.forall_mem_singleton.mpr ⟨legal_of_all (by decide), legal_of_all (by decide)⟩

/-- A change of the password. -/
def passwordRequest : XmlNode :=
  .mk "iq" "jabber:client" [⟨"type", [], "set"⟩, ⟨"id", [], "r1"⟩]
    [.mk "query" "jabber:iq:register" []
      [.mk "username" "jabber:iq:register" [] [] "alice", .mk "password" "jabber:iq:register" [] [] "secret"] []] []

/-- The answer to a change of the password is not an element. -/
theorem password_reply_unread :
    ¬List.Forall₂ Reads (sent exampleAnswers "localhost" 0 exampleSession passwordRequest .register)
      (due exampleAnswers "localhost" 0 exampleSession passwordRequest .register) := by
  intro h
  have hdue : due exampleAnswers "localhost" 0 exampleSession passwordRequest .register =
      [.registered "r1".toList "localhost".toList exampleSession.fullJID] := rfl
  rw [sent_eq, List.forall₂_map_left_iff, List.forall₂_same, hdue] at h
  exact registered_unread (h _ List.mem_cons_self)

end Xmppd.GoReplies
