import Xmppd.EventLoop

/-!
# The example installation

The configuration file that comes with the server, a data directory as the
account tool leaves it, and the events of a client that logs in.
-/
namespace Xmppd.Installation
open CStrings FileTree LibXml Util ServerState User Streams Stanza EventLoop

/-- The domain and the data directory of `xmppd.conf.example`. -/
def exampleConfig : Config := ⟨snprintf 256 "localhost", snprintf 1024 "./data", []⟩

/-- What `useradd` makes below the data directory. -/
def useradd (account : Str × Str) : List (Path × Entry Content) :=
  [([("data" : Str), account.1], .dir),
   ([("data" : Str), account.1, "user.conf"], .file (passwordLine account.2)),
   ([("data" : Str), account.1, "roster.xml"], .file emptyRoster),
   ([("data" : Str), account.1, "offline"], .dir)]

def dataDirectory (accounts : List (Str × Str)) : FileTree.Tree Content :=
  { entries := ([("data" : Str)], .dir) :: accounts.flatMap useradd }

def exampleAccounts : List (Str × Str) := [("alice", "pa"), ("bob", "pb"), ("carol", "pc")]

def exampleServer : Server := Server.init exampleConfig (dataDirectory exampleAccounts)

def exampleOracle : Oracle where
  ident _ := "0a1b2c3d"
  stack _ := Jid.cleared
  stamp := "2024-01-01T00:00:00Z"
  failMkdir := false
  failConf := false
  failRoster := false
  failOffline := false

/-- One read of connection `i`. -/
def chunk (i : ℕ) (events : List Sax) : List Step :=
  .beginRead i :: (events.map (Step.sax i exampleOracle) ++ [.endRead i exampleOracle])

def streamHeaderTo (dest : Str) : Sax :=
  .startElement "stream" "http://etherx.jabber.org/streams" [attr "to" dest]

def authPlain (payload : Str) : List Sax :=
  [.startElement "auth" saslNs [attr "mechanism" "PLAIN"], .characters payload, .endElement]

/-- An empty element in an `iq` request. -/
def iqRequest (type name ns : Str) : List Sax :=
  [.startElement "iq" "jabber:client" [attr "type" type, attr "id" "1"],
   .startElement name ns [], .endElement, .endElement]

/-- A roster set with one item. -/
def rosterSet (attrs : List Attr) : List Sax :=
  [.startElement "iq" "jabber:client" [attr "type" "set", attr "id" "1"],
   .startElement "query" "jabber:iq:roster" [], .startElement "item" "jabber:iq:roster" attrs,
   .endElement, .endElement, .endElement]

def emptyStanza (name : Str) (attrs : List Attr) : List Sax :=
  [.startElement name "jabber:client" attrs, .endElement]

/-- Authentication in one read, and resource binding on the new stream in the next. -/
def login (i : ℕ) (payload : Str) : List Step :=
  chunk i (streamHeaderTo "localhost" :: authPlain payload) ++
    chunk i (streamHeaderTo "localhost" :: iqRequest "set" "bind" bindNs)

def alicePlain : Str := "AGFsaWNlAHBh"
def bobPlain : Str := "AGJvYgBwYg=="

end Xmppd.Installation
