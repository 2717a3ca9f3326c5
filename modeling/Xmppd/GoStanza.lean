import Xmppd.GoPresence

/-!
# Routing in the Go server

Authentication, registration, discovery, stream headers, the router and the loop
of a session. The gate before authentication looks at one of the six session
states only. The decoder is not modelled: the loop takes the elements that
`ReadStanza` returns.
-/
namespace Xmppd.GoStanza
open CStrings GoXml Programs GoSession

def nsRegister : Str := "jabber:iq:register"
def nsBind : Str := "urn:ietf:params:xml:ns:xmpp-bind"
def nsSession : Str := "urn:ietf:params:xml:ns:xmpp-session"
def nsRoster : Str := "jabber:iq:roster"
def nsDiscoInfo : Str := "http://jabber.org/protocol/disco#info"
def nsDiscoItems : Str := "http://jabber.org/protocol/disco#items"
def saslNS : Str := "urn:ietf:params:xml:ns:xmpp-sasl"

def base64Digit (c : Char) : Option ℕ :=
  if 'A' ≤ c ∧ c ≤ 'Z' then some (c.toNat - 'A'.toNat)
  else if 'a' ≤ c ∧ c ≤ 'z' then some (c.toNat - 'a'.toNat + 26)
  else if '0' ≤ c ∧ c ≤ '9' then some (c.toNat - '0'.toNat + 52)
  else if c = '+' then some 62
  else if c = '/' then some 63
  else none

/-- The bytes of padded groups of four digits. -/
def decodeQuanta : Str → Option Str
  | [] => some []
  | [a, b, '=', '='] => do
      let x ← base64Digit a
      let y ← base64Digit b
      some [Char.ofNat (x * 4 + y / 16)]
  | [a, b, c, '='] => do
      let x ← base64Digit a
      let y ← base64Digit b
      let z ← base64Digit c
      some [Char.ofNat (x * 4 + y / 16), Char.ofNat (y % 16 * 16 + z / 4)]
  | a :: b :: c :: d :: rest => do
      let x ← base64Digit a
      let y ← base64Digit b
      let z ← base64Digit c
      let u ← base64Digit d
      let more ← decodeQuanta rest
      some (Char.ofNat (x * 4 + y / 16) :: Char.ofNat (y % 16 * 16 + z / 4) :: Char.ofNat (z % 4 * 64 + u) :: more)
  | _ => none

/-- `base64.StdEncoding.DecodeString`, which passes over line ends. -/
def decodeString (s : Str) : Option Str := decodeQuanta (s.filter fun c => c ≠ '\n' ∧ c ≠ '\r')

/-- `parseSASLPlain`. -/
def parseSASLPlain (b : Str) : Option (Str × Str) :=
  match b.dropWhile (· ≠ '\x00') with
  | [] => none
  | _ :: rest =>
      match rest.dropWhile (· ≠ '\x00') with
      | [] => none
      | _ :: passwd =>
          let authcid := rest.takeWhile (· ≠ '\x00')
          if authcid = [] ∨ passwd = [] then none else some (authcid, passwd)

def isSpace (c : Char) : Bool :=
  c = ' ' ∨ c = '\t' ∨ c = '\n' ∨ c = '\r' ∨ c.toNat = 11 ∨ c.toNat = 12 ∨ c.toNat = 133 ∨ c.toNat = 160

/-- `strings.TrimSpace`. -/
def trimSpace (s : Str) : Str := ((s.dropWhile isSpace).reverse.dropWhile isSpace).reverse

/-- The name and the password of a payload. -/
def credentials (text : Str) : Option (Str × Str) := (decodeString (trimSpace text)).bind parseSASLPlain

/-- `HandleSASL`. -/
def handleSASL (self : ℕ) (s : Session) (node : XmlNode) : Handler (Session × RouteResult) := do
  if (node.attr "mechanism").map Char.toLower ≠ "plain" then
    sendText self (("<failure xmlns='" : Str) ++ saslNS ++ ("'><invalid-mechanism/></failure>" : Str))
    pure (s, .ok)
  else
    match credentials node.text with
    | none =>
        sendText self (("<failure xmlns='" : Str) ++ saslNS ++ ("'><not-authorized/></failure>" : Str))
        pure (s, .ok)
    | some (authcid, passwd) =>
        let ok ← checkPassword authcid passwd
        if ok then
          sendText self (("<success xmlns='" : Str) ++ saslNS ++ ("'/>" : Str))
          pure ({ s with jidLocal := authcid, authenticated := true, state := .authenticated }, .restartStream)
        else
          sendText self (("<failure xmlns='" : Str) ++ saslNS ++ ("'><not-authorized/></failure>" : Str))
          pure (s, .ok)

/-- `buildResultIQ`, which escapes nothing. -/
def buildResultIQ (s : Session) (id : Str) (includeTo : Bool) : Str :=
  ("<iq type='result'" : Str) ++ (if id = [] then [] else (" id='" : Str) ++ id ++ ("'" : Str)) ++
    (" from='" : Str) ++ s.jidDomain ++ ("'" : Str) ++
    (if includeTo ∧ s.fullJID ≠ [] then (" to='" : Str) ++ s.fullJID ++ ("'" : Str) else [])

def childText (n : XmlNode) (name : Str) : Str := ((n.findChild name).map XmlNode.text).getD []

/-- `handleSet` of the registration package. -/
def registerSet (self : ℕ) (s : Session) (node : XmlNode) (id : Str) : Handler RouteResult := do
  match node.firstChild with
  | none =>
      sendStanzaError self s node "modify" "bad-request"
      pure .ok
  | some query =>
      if (query.findChild "remove").isSome then
        if !s.authenticated then
          sendStanzaError self s node "cancel" "not-allowed"
          pure .ok
        else
          sendText self (buildResultIQ s id true ++ ("</iq>" : Str))
          delete s.jidLocal
          pure .close
      else if childText query "username" = [] ∨ childText query "password" = [] then
        sendStanzaError self s node "modify" "bad-request"
        pure .ok
      else if !s.authenticated then
        let created ← create (childText query "username") (childText query "password")
        match created with
        | .ok =>
            sendText self (buildResultIQ s id false ++ ("</iq>" : Str))
            pure .ok
        | .conflict =>
            sendStanzaError self s node "cancel" "conflict"
            pure .ok
        | .invalidUsername =>
            sendStanzaError self s node "modify" "not-acceptable"
            pure .ok
        | .failed =>
            sendStanzaError self s node "wait" "internal-server-error"
            pure .ok
      else if childText query "username" ≠ s.jidLocal then
        sendStanzaError self s node "cancel" "not-allowed"
        pure .ok
      else
        let ok ← changePassword (childText query "username") (childText query "password")
        if ok then
          sendText self (buildResultIQ s id true ++ ("</iq>" : Str))
          pure .ok
        else
          sendStanzaError self s node "wait" "internal-server-error"
          pure .ok

/-- `HandleIQ` of the registration package. -/
def registerHandleIQ (self : ℕ) (s : Session) (node : XmlNode) : Handler RouteResult := do
  if node.attr "type" = "get" then
    sendText self (buildResultIQ s (node.attr "id") false ++
      ("<query xmlns='jabber:iq:register'><instructions>Choose a username and password.</instructions>" : Str) ++
      ("<username/><password/></query></iq>" : Str))
    pure .ok
  else if node.attr "type" = "set" then registerSet self s node (node.attr "id")
  else
    sendStanzaError self s node "cancel" "bad-request"
    pure .ok

def discoFeatures : List Str :=
  ["http://jabber.org/protocol/disco#info", "http://jabber.org/protocol/disco#items", "jabber:iq:roster",
    "jabber:iq:register", "urn:xmpp:delay"]

/-- The reply of both discovery handlers, around the given content. -/
def discoReply (domain : Str) (self : ℕ) (s : Session) (node : XmlNode) (content : Str) : Handler RouteResult := do
  sendText self (("<iq type='result' from='" : Str) ++ domain ++ ("' to='" : Str) ++ escapeAttr s.fullJID ++
    ("'" : Str) ++ optAttr "id" (node.attr "id") ++ (">" : Str) ++ content ++ ("</iq>" : Str))
  pure .ok

/-- `HandleInfo`. -/
def handleInfo (domain : Str) (self : ℕ) (s : Session) (node : XmlNode) : Handler RouteResult :=
  discoReply domain self s node (("<query xmlns='http://jabber.org/protocol/disco#info'>" : Str) ++
    ("<identity category='server' type='im' name='xmppd'/>" : Str) ++
    (discoFeatures.flatMap fun f => ("<feature var='" : Str) ++ escapeAttr f ++ ("'/>" : Str)) ++ ("</query>" : Str))

/-- `HandleItems`. -/
def handleItems (domain : Str) (self : ℕ) (s : Session) (node : XmlNode) : Handler RouteResult :=
  discoReply domain self s node ("<query xmlns='http://jabber.org/protocol/disco#items'/>" : Str)

/-- `HandleOpen`. -/
def handleOpen (domain : Str) (self : ℕ) (s : Session) (node : XmlNode) : Handler (Session × RouteResult) := do
  let dest := node.attr "to"
  if dest ≠ [] ∧ dest ≠ domain then
    sendError self "host-unknown"
    pure (s, .close)
  else
    let id ← generateID 16
    sendText self (("<?xml version='1.0'?><stream:stream from='" : Str) ++ domain ++ ("' id='" : Str) ++ id ++
      ("' xmlns='jabber:client' xmlns:stream='http://etherx.jabber.org/streams' version='1.0'>" : Str))
    sendText self (if s.authenticated
      then ("<stream:features><bind xmlns='urn:ietf:params:xml:ns:xmpp-bind'/>" : Str) ++
        ("<session xmlns='urn:ietf:params:xml:ns:xmpp-session'><optional/></session></stream:features>" : Str)
      else ("<stream:features><mechanisms xmlns='urn:ietf:params:xml:ns:xmpp-sasl'>" : Str) ++
        ("<mechanism>PLAIN</mechanism></mechanisms>" : Str) ++
        ("<register xmlns='http://jabber.org/features/iq-register'/></stream:features>" : Str))
    pure ({ s with state := .streamOpened }, .ok)

/-- The resource a bind request names. -/
def requestedResource (node : XmlNode) : Str :=
  (((node.firstChild.bind fun b => b.findChild "resource").map XmlNode.text)).getD []

/-- The conflict check of `handleBind`. -/
def kick (old : Option ℕ) : Handler Unit := do
  match old with
  | some t =>
      sendError t "conflict"
      close t
  | none => pure ()

/-- The end of `handleBind`, once the resource is known. -/
def bindResource (self : ℕ) (s : Session) (id : Str) : Handler Session := do
  let old ← register s.bareJID
  kick old
  sendText self (("<iq type='result'" : Str) ++ optAttr "id" id ++
    ("><bind xmlns='urn:ietf:params:xml:ns:xmpp-bind'><jid>" : Str) ++ escapeText s.fullJID ++
    ("</jid></bind></iq>" : Str))
  pure s

/-- `handleBind`. -/
def handleBind (self : ℕ) (s : Session) (node : XmlNode) : Handler (Session × RouteResult) := do
  if s.state ≠ .authenticated ∧ s.state ≠ .streamOpened then
    sendStanzaError self s node "cancel" "not-allowed"
    pure (s, .ok)
  else if requestedResource node = [] then
    let resource ← generateID 8
    let s ← bindResource self { s with jidResource := resource, state := .bound } (node.attr "id")
    pure (s, .ok)
  else
    let s ← bindResource self { s with jidResource := requestedResource node, state := .bound } (node.attr "id")
    pure (s, .ok)

def emptyResult (id : Str) : Str := ("<iq type='result'" : Str) ++ optAttr "id" id ++ ("/>" : Str)

/-- `handleSessionIQ`, which looks at no state. -/
def handleSessionIQ (self : ℕ) (s : Session) (node : XmlNode) : Handler (Session × RouteResult) := do
  sendText self (emptyResult (node.attr "id"))
  pure ({ s with state := .sessionActive }, .ok)

/-- The item of a roster set. -/
def setItem (node : XmlNode) : Option XmlNode := node.firstChild.bind fun q => q.findChild "item"

/-- The roster after a set of an item that stays: an item that is there keeps its
subscription. -/
def setRosterItem (r : Roster) (jid name : Str) : Roster :=
  match r.find jid with
  | none => r.addOrUpdate jid name "none" false
  | some i => r.addOrUpdate jid name i.subscription i.askSubscribe

/-- `handleRosterIQ`. -/
def handleRosterIQ (self : ℕ) (s : Session) (node : XmlNode) : Handler RouteResult := do
  let r ← ensureLoaded self s.jidLocal
  if node.attr "type" = "get" then
    sendText self (("<iq type='result'" : Str) ++ optAttr "id" (node.attr "id") ++ (" to='" : Str) ++
      escapeAttr s.fullJID ++ ("'><query xmlns='jabber:iq:roster'>" : Str) ++ r.items.flatMap itemAttrs ++
      ("</query></iq>" : Str))
    pure .ok
  else if node.attr "type" = "set" then
    match setItem node with
    | none =>
        sendStanzaError self s node "modify" "bad-request"
        pure .ok
    | some item =>
        let jid := item.attr "jid"
        if jid = [] then
          sendStanzaError self s node "modify" "bad-request"
          pure .ok
        else if item.attr "subscription" = "remove" then
          let r := r.remove jid
          setRoster self r
          save s.jidLocal r
          sendText self (emptyResult (node.attr "id"))
          push self s.fullJID ⟨jid, [], "remove", false⟩
          pure .ok
        else
          let r := setRosterItem r jid (item.attr "name")
          setRoster self r
          save s.jidLocal r
          sendText self (emptyResult (node.attr "id"))
          match r.find jid with
          | some i =>
              push self s.fullJID i
              pure .ok
          | none => pure .ok
  else
    sendStanzaError self s node "cancel" "feature-not-implemented"
    pure .ok

/-- The namespace of the first child element. -/
def childNS (node : XmlNode) : Str := (node.firstChild.map XmlNode.ns).getD []

/-- Forwarding of an `iq` to the session of another user, if there is one. -/
def forward (s : Session) (node : XmlNode) : Handler Bool := do
  let session ← findByBareJID (bareJID (node.attr "to"))
  match session with
  | some t =>
      send t (.node (setAttr node "from" s.fullJID))
      pure true
  | none => pure false

/-- Requests that are refused unless the session is bound. -/
def whenActive (self : ℕ) (s : Session) (node : XmlNode) (h : Handler RouteResult) : Handler (Session × RouteResult) := do
  if s.isActive then
    let r ← h
    pure (s, r)
  else
    sendStanzaError self s node "cancel" "not-allowed"
    pure (s, .ok)

/-- `handleIQ`. -/
def handleIQ (domain : Str) (self : ℕ) (s : Session) (node : XmlNode) : Handler (Session × RouteResult) := do
  let dest := node.attr "to"
  if node.attr "type" = "result" ∨ node.attr "type" = "error" then
    if isServerJID dest domain then pure (s, .ok)
    else
      let _ ← forward s node
      pure (s, .ok)
  else if childNS node = nsBind then handleBind self s node
  else if childNS node = nsSession then handleSessionIQ self s node
  else if childNS node = nsRoster then whenActive self s node (handleRosterIQ self s node)
  else if childNS node = nsRegister then
    let r ← registerHandleIQ self s node
    pure (s, r)
  else if childNS node = nsDiscoInfo then whenActive self s node (handleInfo domain self s node)
  else if childNS node = nsDiscoItems then whenActive self s node (handleItems domain self s node)
  else if !isServerJID dest domain ∧ s.isActive then
    let sent ← forward s node
    if sent then pure (s, .ok)
    else
      sendStanzaError self s node "cancel" "service-unavailable"
      pure (s, .ok)
  else
    sendStanzaError self s node "cancel" "service-unavailable"
    pure (s, .ok)

/-- What the gate lets an unauthenticated session do. -/
def routeBeforeAuth (self : ℕ) (s : Session) (node : XmlNode) : Handler (Session × RouteResult) := do
  if node.name = "auth" then handleSASL self s node
  else if node.name = "iq" then
    if childNS node = nsRegister then
      let r ← registerHandleIQ self s node
      pure (s, r)
    else
      sendStanzaError self s node "cancel" "not-allowed"
      pure (s, .ok)
  else
    sendError self "not-authorized"
    pure (s, .close)

/-- `Route`. -/
def route (domain : Str) (self : ℕ) (s : Session) (node : XmlNode) : Handler (Session × RouteResult) := do
  if s.state = .streamOpened ∧ !s.authenticated then routeBeforeAuth self s node
  else if node.name = "iq" then handleIQ domain self s node
  else if node.name = "message" then
    if s.isActive then
      let r ← GoMessage.handle self domain s node
      pure (s, r)
    else
      sendError self "not-authorized"
      pure (s, .close)
  else if node.name = "presence" then
    if s.isActive then GoPresence.handle self s node
    else
      sendError self "not-authorized"
      pure (s, .close)
  else
    sendError self "unsupported-stanza-type"
    pure (s, .close)

/-- The handling of one element by `sessionLoop`. -/
def dispatch (domain : Str) (self : ℕ) (s : Session) (node : XmlNode) : Handler (Session × RouteResult) :=
  if node.isStreamOpen then handleOpen domain self s node else route domain self s node

/-! ## Handlers that only answer -/

section
variable {P : Call → Prop} {domain : Str} {self : ℕ} {s : Session} {n : XmlNode}

theorem ensures_discoReply (hself : ∀ x, P (.send self (.text x))) {content : Str} {Q : RouteResult → Prop} :
    Program.Ensures P (discoReply domain self s n content) Q ↔ Q .ok := by
  simp only [discoReply, Program.ensures_bind, ensures_sendText, Program.ensures_pure, hself, true_and]

theorem ensures_handleSessionIQ (hself : ∀ x, P (.send self (.text x))) {Q : Session × RouteResult → Prop} :
    Program.Ensures P (handleSessionIQ self s n) Q ↔ Q ({ s with state := .sessionActive }, .ok) := by
  simp only [handleSessionIQ, Program.ensures_bind, ensures_sendText, Program.ensures_pure, hself, true_and]

theorem ensures_whenActive (hself : ∀ x, P (.send self (.text x))) {h : Handler RouteResult}
    {Q : Session × RouteResult → Prop} (hh : s.isActive = true → Program.Ensures P h fun r => Q (s, r))
    (hrefused : Q (s, .ok)) : Program.Ensures P (whenActive self s n h) Q := by
  unfold whenActive
  split
  · next hactive =>
    rw [Program.ensures_bind]
    exact hh hactive
  · rw [Program.ensures_bind, ensures_sendStanzaError hself]
    exact hrefused

theorem ensures_handleOpen (hself : ∀ x, P (.send self (.text x))) (hid : P (.generateID 16))
    {Q : Session × RouteResult → Prop} (hrefused : Q (s, .close)) (hopen : Q ({ s with state := .streamOpened }, .ok)) :
    Program.Ensures P (handleOpen domain self s n) Q := by
  unfold handleOpen
  dsimp only
  split
  · rw [Program.ensures_bind, ensures_sendError hself]
    exact hrefused
  · simp only [Program.ensures_bind, ensures_generateID, ensures_sendText, Program.ensures_pure]
    exact ⟨hid, fun _ => ⟨hself _, hself _, hopen⟩⟩

end

/-- The deferred calls of `sessionLoop`. -/
def leave (self : ℕ) (s : Session) : Handler Unit := do
  unregister
  let _ ← GoPresence.broadcastUnavailable self s
  close self

/-- `sessionLoop`, on the elements that are read before the connection fails. -/
def sessionLoop (domain : Str) (self : ℕ) : Session → List XmlNode → Handler Unit
  | s, [] => leave self s
  | s, n :: ns => do
      let x ← dispatch domain self s n
      if x.2 = .close then leave self x.1 else sessionLoop domain self x.1 ns

end Xmppd.GoStanza
