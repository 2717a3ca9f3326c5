import Xmppd.Auth

/-!
# Stanza routing

The gate before authentication looks at one of the six session states only. All
other states fall through to the routing for authenticated sessions, where each
branch has its own test of the state or none.
-/
namespace Xmppd.Stanza
open CStrings FileTree LibXml Util ServerState User Roster Message Presence Streams Auth

/-- `is_server_jid`. -/
def isServerJid (cfg : Config) (dest : Str) : Bool := dest = [] ∨ dest = cfg.domain.str

def discoInfoNs : Str := "http://jabber.org/protocol/disco#info"
def discoItemsNs : Str := "http://jabber.org/protocol/disco#items"

def discoFeatures : List Str :=
  ["http://jabber.org/protocol/disco#info", "http://jabber.org/protocol/disco#items",
   "jabber:iq:roster", "jabber:iq:register", "urn:xmpp:delay"]

/-- The reply of both discovery handlers, around the given content. -/
def discoReply (srv : Server) (i : ℕ) (stanza : Node) (ns : Str) (children : List Node) : Server :=
  srv.stanzaSend i (elem "iq" ([attr "type" "result", attr "from" srv.cfg.domain.str,
    attr "to" (srv.sess i).fullJid.str] ++ optAttr "id" (stanza.getProp "id"))
    [.element "query" ns [] children])

/-- `disco_handle_info`. -/
def discoHandleInfo (srv : Server) (i : ℕ) (stanza : Node) : Server :=
  discoReply srv i stanza discoInfoNs
    (.element "identity" discoInfoNs
        [attr "category" "server", attr "type" "im", attr "name" "xmppd"] [] ::
      discoFeatures.map fun f => .element "feature" discoInfoNs [attr "var" f] [])

/-- `disco_handle_items`. -/
def discoHandleItems (srv : Server) (i : ℕ) (stanza : Node) : Server :=
  discoReply srv i stanza discoItemsNs []

/-- The namespace of the first child element. -/
def childNs (stanza : Node) : Str := (stanza.firstElement.map Node.ns).getD []

/-- The session another user's address leads to, whatever the parser returned. -/
def routeTarget (srv : Server) (o : Oracle) (dest : Str) : Option ℕ :=
  srv.sessionFindByJid (jidParse (o.stack 0) dest).jid.bare.str

/-- `handle_iq` on a result or an error. -/
def routeReply (srv : Server) (i : ℕ) (o : Oracle) (stanza : Node) : Server :=
  let dest := stanza.prop "to"
  if isServerJid srv.cfg dest then srv else
    match routeTarget srv o dest with
    | some target => srv.stanzaSend target (stanza.setProp "from" (srv.sess i).fullJid.str)
    | none => srv

/-- `handle_iq` on a request in no namespace the server knows. -/
def routeUnknown (srv : Server) (i : ℕ) (o : Oracle) (stanza : Node) : Server :=
  let dest := stanza.prop "to"
  if !isServerJid srv.cfg dest ∧ (srv.sess i).isActive then
    match routeTarget srv o dest with
    | some target => srv.stanzaSend target (stanza.setProp "from" (srv.sess i).fullJid.str)
    | none => srv.stanzaSendError i stanza "cancel" "service-unavailable"
  else srv.stanzaSendError i stanza "cancel" "service-unavailable"

/-- Requests that are refused unless the session is bound. -/
def whenActive (srv : Server) (i : ℕ) (stanza : Node) (srv' : Server) : Server :=
  if (srv.sess i).isActive then srv' else srv.stanzaSendError i stanza "cancel" "not-allowed"

/-- `handle_iq`. -/
def handleIq (srv : Server) (i : ℕ) (o : Oracle) (stanza : Node) : Server :=
  let type := stanza.prop "type"
  if type = "result" ∨ type = "error" then routeReply srv i o stanza
  else if childNs stanza = bindNs then sessionHandleBind srv i o stanza
  else if childNs stanza = sessionNs then sessionHandleSessionIq srv i stanza
  else if childNs stanza = rosterNs then whenActive srv i stanza (rosterHandleIq srv i o stanza)
  else if childNs stanza = discoInfoNs then whenActive srv i stanza (discoHandleInfo srv i stanza)
  else if childNs stanza = discoItemsNs then whenActive srv i stanza (discoHandleItems srv i stanza)
  else if childNs stanza = registerNs then registerHandleIq srv i o stanza
  else routeUnknown srv i o stanza

def saslNs : Str := "urn:ietf:params:xml:ns:xmpp-sasl"

/-- What the gate lets an unauthenticated session do. -/
def routeBeforeAuth (srv : Server) (i : ℕ) (o : Oracle) (stanza : Node) : Server :=
  if stanza.name = "auth" ∧ stanza.ns = saslNs then authHandleSasl srv i stanza
  else if stanza.name = "iq" then
    if childNs stanza = registerNs then registerHandleIq srv i o stanza
    else srv.stanzaSendError i stanza "cancel" "not-allowed"
  else streamSendError srv i o "not-authorized"

/-- `stanza_route`. -/
def stanzaRoute (srv : Server) (i : ℕ) (o : Oracle) (stanza : Node) : Server :=
  if (srv.sess i).state = .streamOpened ∧ !(srv.sess i).authenticated then
    routeBeforeAuth srv i o stanza
  else if stanza.name = "iq" then handleIq srv i o stanza
  else if stanza.name = "message" then
    if (srv.sess i).isActive then handleMessage srv i o stanza
    else streamSendError srv i o "not-authorized"
  else if stanza.name = "presence" then
    if (srv.sess i).isActive then handlePresence srv i o stanza
    else streamSendError srv i o "not-authorized"
  else streamSendError srv i o "unsupported-stanza-type"

section
variable {srv : Server} {i : ℕ} {stanza : Node}

/-- A bound session is past the gate. -/
theorem not_gated (ha : (srv.sess i).isActive = true) :
    ¬((srv.sess i).state = .streamOpened ∧ (!(srv.sess i).authenticated) = true) := by
  rintro ⟨hs, -⟩
  rw [Session.isActive, hs] at ha
  exact absurd ha (by decide)

theorem stanzaRoute_message (ha : (srv.sess i).isActive = true) (hname : stanza.name = "message") (o : Oracle) :
    stanzaRoute srv i o stanza = handleMessage srv i o stanza := by
  unfold stanzaRoute
  rw [if_neg (not_gated ha), hname, if_neg (by decide), if_pos rfl, if_pos ha]

theorem stanzaRoute_presence (ha : (srv.sess i).isActive = true) (hname : stanza.name = "presence") (o : Oracle) :
    stanzaRoute srv i o stanza = handlePresence srv i o stanza := by
  unfold stanzaRoute
  rw [if_neg (not_gated ha), hname, if_neg (by decide), if_neg (by decide), if_pos rfl, if_pos ha]

/-- A presence stanza without a type. -/
theorem stanzaRoute_initial (ha : (srv.sess i).isActive = true) (hname : stanza.name = "presence")
    (htype : stanza.prop "type" = []) (o : Oracle) : stanzaRoute srv i o stanza = presenceHandleAvailable srv i o stanza := by
  rw [stanzaRoute_presence ha hname]
  unfold handlePresence
  rw [if_pos htype]

end

end Xmppd.Stanza
