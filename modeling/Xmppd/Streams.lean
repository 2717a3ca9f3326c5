import Xmppd.Presence

/-!
# Streams, teardown and resource binding

A stream error or a stream end that is raised while the parser is on the call
stack only marks the session; the teardown happens when the chunk has been
parsed. A session whose parser is not running is torn down at once, which is how
a bind removes the session it conflicts with.
-/
namespace Xmppd.Streams
open CStrings FileTree LibXml Util ServerState Roster Presence

/-- `session_teardown`. -/
def sessionTeardown (srv : Server) (i : ℕ) (o : Oracle) : Server :=
  if !srv.Live i ∨ (srv.sess i).state = .disconnected then srv else
    let srv := if (srv.sess i).available ∨ (srv.sess i).initialPresenceSent
      then presenceBroadcastUnavailable srv i o else srv
    (srv.modify i fun s => { s with state := .disconnected }).serverRemoveSession i

/-- The end of a session, deferred while its parser runs. -/
def teardownOrDefer (srv : Server) (i : ℕ) (o : Oracle) : Server :=
  if (srv.sess i).inXmlParse then srv.modify i fun s => { s with teardownPending := true }
  else sessionTeardown srv i o

/-- `stream_send_error`. -/
def streamSendError (srv : Server) (i : ℕ) (o : Oracle) (condition : Str) : Server :=
  let srv := srv.sessionWrite i (.raw (("<stream:error><" : Str) ++ condition ++
    (" xmlns='urn:ietf:params:xml:ns:xmpp-streams'/></stream:error></stream:stream>" : Str)))
  teardownOrDefer srv i o

/-- `stream_handle_close`. -/
def streamHandleClose (srv : Server) (i : ℕ) (o : Oracle) : Server :=
  teardownOrDefer (srv.sessionWrite i (.raw "</stream:stream>")) i o

def streamHeader (domain id : Str) : Str :=
  ("<?xml version='1.0'?><stream:stream from='" : Str) ++ domain ++ ("' id='" : Str) ++ id ++
    ("' xmlns='jabber:client' xmlns:stream='http://etherx.jabber.org/streams' version='1.0'>" : Str)

def featuresBind : Str :=
  ("<stream:features><bind xmlns='urn:ietf:params:xml:ns:xmpp-bind'/>" : Str) ++
    ("<session xmlns='urn:ietf:params:xml:ns:xmpp-session'><optional/></session></stream:features>" : Str)

def featuresAuth : Str :=
  ("<stream:features><mechanisms xmlns='urn:ietf:params:xml:ns:xmpp-sasl'>" : Str) ++
    ("<mechanism>PLAIN</mechanism></mechanisms>" : Str) ++
    ("<register xmlns='http://jabber.org/features/iq-register'/></stream:features>" : Str)

/-- `stream_handle_open`. -/
def streamHandleOpen (srv : Server) (i : ℕ) (o : Oracle) (dest : Str) : Server :=
  if dest ≠ srv.cfg.domain.str then streamSendError srv i o "host-unknown"
  else
    let srv := srv.sessionWrite i (.raw (streamHeader srv.cfg.domain.str (o.ident 0)))
    let srv := srv.sessionWrite i
      (.raw (if (srv.sess i).authenticated then featuresBind else featuresAuth))
    srv.modify i fun s => { s with state := .streamOpened }

/-- The resource a bind request asks for, or a generated one. -/
def requestedResource (o : Oracle) (stanza : Node) : Buf 256 :=
  match (stanza.findChild "bind").bind fun b => b.findChild "resource" with
  | some r => snprintf 256 r.content
  | none => snprintf 256 (o.ident 0)

def bindNs : Str := "urn:ietf:params:xml:ns:xmpp-bind"
def sessionNs : Str := "urn:ietf:params:xml:ns:xmpp-session"

/-- The conflict check of a bind: the session found for the own address is
ended, unless the search finds the binding session itself. -/
def kickConflict (srv : Server) (i : ℕ) (o : Oracle) : Server :=
  match srv.sessionFindByJid (srv.sess i).bareJid.str with
  | some existing => if existing = i then srv else streamSendError srv existing o "conflict"
  | none => srv

/-- `session_handle_bind`. -/
def sessionHandleBind (srv : Server) (i : ℕ) (o : Oracle) (stanza : Node) : Server :=
  if (srv.sess i).state ≠ .authenticated ∧ (srv.sess i).state ≠ .streamOpened then
    srv.stanzaSendError i stanza "cancel" "not-allowed"
  else
    let srv := kickConflict srv i o
    let srv := srv.modify i fun s =>
      { s with jidResource := requestedResource o stanza, state := .bound }
    srv.stanzaSend i (resultIq stanza
      [.element "bind" bindNs [] [.element "jid" bindNs [] [.text (srv.sess i).fullJid.str]]] [])

/-- `session_handle_session_iq`, which looks at no state. -/
def sessionHandleSessionIq (srv : Server) (i : ℕ) (stanza : Node) : Server :=
  let srv := srv.modify i fun s => { s with state := .sessionActive }
  srv.stanzaSend i (resultIq stanza [] [])

end Xmppd.Streams
