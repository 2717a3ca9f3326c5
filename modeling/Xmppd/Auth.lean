import Xmppd.Streams

/-!
# Authentication and registration

Both run before a session is authenticated. Authentication sets the identity of
the session and asks for a fresh parser; registration creates an account, and
for an authenticated session changes the password or removes the account.
-/
namespace Xmppd.Auth
open CStrings FileTree LibXml Util ServerState User

def saslFailure (condition : Str) : Out :=
  .raw (("<failure xmlns='urn:ietf:params:xml:ns:xmpp-sasl'><" : Str) ++ condition ++
    ("/></failure>" : Str))

/-- The two scanning loops over the decoded payload: what follows the first zero
byte up to the next, and what follows that one up to the next. -/
def splitPlain (decoded : Str) : Option (Str × Str) :=
  let afterZid := (decoded.dropWhile (· ≠ '\x00')).drop 1
  if afterZid = [] then none else
    let afterCid := (afterZid.dropWhile (· ≠ '\x00')).drop 1
    if afterCid = [] then none else
      some (afterZid.takeWhile (· ≠ '\x00'), afterCid.takeWhile (· ≠ '\x00'))

/-- The credentials of an `<auth>` element, or the failure it is answered with. -/
def credentials (stanza : Node) : Except Str (Str × Str) :=
  if stanza.getProp "mechanism" ≠ some "PLAIN" then .error "invalid-mechanism"
  else if stanza.content = [] then .error "not-authorized"
  else
    match base64Decode stanza.content with
    | none => .error "not-authorized"
    | some decoded =>
        if decoded.length < 3 then .error "not-authorized" else
          match splitPlain decoded with
          | none => .error "not-authorized"
          | some c => .ok c

/-- `auth_handle_sasl`. -/
def authHandleSasl (srv : Server) (i : ℕ) (stanza : Node) : Server :=
  match credentials stanza with
  | .error condition => srv.sessionWrite i (saslFailure condition)
  | .ok (authcid, passwd) =>
      if !userCheckPassword srv authcid passwd then
        srv.sessionWrite i (saslFailure "not-authorized")
      else
        let srv := srv.modify i fun s =>
          { s with
            jidLocal := snprintf 256 authcid
            jidDomain := srv.cfg.domain
            authenticated := true
            state := .authenticated }
        let srv := srv.sessionWrite i (.raw "<success xmlns='urn:ietf:params:xml:ns:xmpp-sasl'/>")
        srv.modify i fun s => { s with parserResetPending := true }

def registerNs : Str := "jabber:iq:register"

/-- `send_result_iq`. -/
def sendResultIq (srv : Server) (i : ℕ) (id : Str) (includeTo : Bool) : Server :=
  srv.stanzaSend i (elem "iq" ([attr "type" "result"] ++
    (if id = [] then [] else [attr "id" id]) ++ [attr "from" srv.cfg.domain.str] ++
    (if includeTo then [attr "to" (srv.sess i).fullJid.str] else [])) [])

/-- The registration form. -/
def registerForm (srv : Server) (i : ℕ) (id : Str) : Node :=
  elem "iq" ([attr "type" "result"] ++ (if id = [] then [] else [attr "id" id]) ++
    [attr "from" srv.cfg.domain.str] ++
    (if (srv.sess i).authenticated then [attr "to" (srv.sess i).fullJid.str] else []))
    [.element "query" registerNs []
      [.element "instructions" registerNs [] [.text "Choose a username and password."],
       .element "username" registerNs [] [], .element "password" registerNs [] []]]

/-- The content of the last child element of this name. -/
def lastContent (query : Node) (name : Str) : Option Str :=
  ((query.children.filter fun (n : Node) => n.isElement ∧ n.name = name).getLast?).map Node.content

/-- Account creation as `register_handle_iq` answers it. -/
def registerCreate (srv : Server) (i : ℕ) (o : Oracle) (stanza : Node) (uname pw : Str) : Server :=
  let r := userCreate srv o uname pw
  if r.2 = 0 then sendResultIq r.1 i (stanza.prop "id") false
  else if r.2 = -1 then r.1.stanzaSendError i stanza "cancel" "conflict"
  else if r.2 = -2 then r.1.stanzaSendError i stanza "modify" "not-acceptable"
  else r.1.stanzaSendError i stanza "wait" "internal-server-error"

/-- The `set` branch of `register_handle_iq`. -/
def registerSet (srv : Server) (i : ℕ) (o : Oracle) (stanza : Node) : Server :=
  let query := stanza.firstElement.getD (.text [])
  if (query.findChild "remove").isSome then
    if !(srv.sess i).authenticated then srv.stanzaSendError i stanza "cancel" "not-allowed"
    else
      let srv := sendResultIq srv i (stanza.prop "id") true
      let srv := userDelete srv (srv.sess i).jidLocal.str
      srv.modify i fun s => { s with teardownPending := true }
  else
    let uname := (lastContent query "username").getD []
    let pw := (lastContent query "password").getD []
    if uname = [] ∨ pw = [] then srv.stanzaSendError i stanza "modify" "bad-request"
    else if !(srv.sess i).authenticated then registerCreate srv i o stanza uname pw
    else if uname ≠ (srv.sess i).jidLocal.str then
      srv.stanzaSendError i stanza "cancel" "not-allowed"
    else
      let r := userChangePassword srv uname pw
      if r.2 = 0 then sendResultIq r.1 i (stanza.prop "id") true
      else r.1.stanzaSendError i stanza "wait" "internal-server-error"

/-- `register_handle_iq`. -/
def registerHandleIq (srv : Server) (i : ℕ) (o : Oracle) (stanza : Node) : Server :=
  if stanza.prop "type" = "get" then srv.stanzaSend i (registerForm srv i (stanza.prop "id"))
  else if stanza.prop "type" = "set" then registerSet srv i o stanza
  else srv.stanzaSendError i stanza "cancel" "bad-request"

end Xmppd.Auth
