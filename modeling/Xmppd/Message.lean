import Xmppd.User

/-!
# Messages and the offline store

A message to a connected user is written to the session found for the bare
address; otherwise it becomes a numbered file in the user's `offline`
directory, one above the largest number `atoi` reads off the names there.
Initial presence delivers and removes the files in name order.
-/
namespace Xmppd.Message
open CStrings FileTree LibXml Util ServerState User

/-- A 64-bit integer cut to an `int`, where that is positive. -/
def toInt (n : ℕ) : ℕ := if n % 2 ^ 32 < 2 ^ 31 then n % 2 ^ 32 else 0

/-- `atoi` on a file name, as far as it can exceed a maximum that starts at zero. The
number is clamped to 64 bits and then cut. -/
def atoi (s : Str) : ℕ :=
  let s := s.dropWhile isSpace
  let digits (s : Str) : ℕ :=
    (s.takeWhile Char.isDigit).foldl (fun n c => 10*n + (c.toNat - '0'.toNat)) 0
  match s with
  | '-' :: s => toInt (2 ^ 64 - min (digits s) (2 ^ 63))
  | '+' :: s => toInt (min (digits s) (2 ^ 63 - 1))
  | s => toInt (min (digits s) (2 ^ 63 - 1))

/-- `"%04d"`. -/
def pad4 (n : ℕ) : Str :=
  let d := Nat.toDigits 10 n
  List.replicate (4 - d.length) '0' ++ d

def offlineDir (cfg : Config) (username : Str) : Str := userPath cfg username "offline"

def maxSeq (names : List Str) : ℕ := names.foldl (fun m n => max m (atoi n)) 0

/-- `"%04d"` of the number after the largest one, an `int` that wraps around. -/
def nextSeq (names : List Str) : Str := if maxSeq names + 1 < 2 ^ 31 then pad4 (maxSeq names + 1) else "-2147483648"

def delayNode (cfg : Config) (o : Oracle) : Node :=
  .element "delay" "urn:xmpp:delay" [attr "from" cfg.domain.str, attr "stamp" o.stamp] []

/-- `message_store_offline`. -/
def messageStoreOffline (srv : Server) (o : Oracle) (username : Str) (stanza : Node) : Server :=
  let dir := offlineDir srv.cfg username
  let srv := (mkdir srv dir).getD srv
  let seq := nextSeq (listDir srv dir)
  let xml := stanza.addChild (delayNode srv.cfg o)
  (writeFile srv (fileIn dir (seq ++ (".xml" : Str))) (.xml xml)).getD srv

/-- `handle_message`. -/
def handleMessage (srv : Server) (i : ℕ) (o : Oracle) (stanza : Node) : Server :=
  let p := jidParse (o.stack 0) (stanza.prop "to")
  if !p.ok ∨ p.jid.localpart.str = [] then srv.stanzaSendError i stanza "modify" "jid-malformed"
  else if p.jid.domain ≠ srv.cfg.domain then srv.stanzaSendError i stanza "cancel" "item-not-found"
  else if !userExists srv p.jid.localpart.str then
    srv.stanzaSendError i stanza "cancel" "item-not-found"
  else
    let stanza := stanza.setProp "from" (srv.sess i).fullJid.str
    match srv.sessionFindByJid p.jid.bare.str with
    | some target => srv.stanzaSend target stanza
    | none =>
        if stanza.getProp "type" = some "error" then srv
        else messageStoreOffline srv o p.jid.localpart.str stanza

/-- One pass of the inner exchange loop: the smallest name comes to the front. -/
def exchange (x : Str) : List Str → Str × List Str
  | [] => (x, [])
  | y :: ys =>
      if y < x then ((exchange y ys).1, x :: (exchange y ys).2)
      else ((exchange x ys).1, y :: (exchange x ys).2)

/-- The outer exchange loop, with the remaining count as its measure. -/
def sortNames : ℕ → List Str → List Str
  | n+1, x :: xs => (exchange x xs).1 :: sortNames n (exchange x xs).2
  | _, xs => xs

/-- The names collected into `filenames[256][64]`. -/
def offlineNames (srv : Server) (dir : Str) : List Str :=
  (((listDir srv dir).filter fun n => 5 ≤ n.length ∧ n.drop (n.length - 4) = (".xml" : Str)).take 256).map
    fun n => (snprintf 64 n).str

/-- Sending one stored message; a file that is not XML is only removed. -/
def deliverOne (i : ℕ) (dir : Str) (srv : Server) (name : Str) : Server :=
  let path := fileIn dir name
  match readFile srv path with
  | some (.xml root) => unlink (srv.stanzaSend i root) path
  | _ => unlink srv path

/-- `message_deliver_offline`. -/
def messageDeliverOffline (srv : Server) (i : ℕ) : Server :=
  let dir := offlineDir srv.cfg (srv.sess i).jidLocal.str
  let names := offlineNames srv dir
  (sortNames names.length names).foldl (deliverOne i dir) srv

end Xmppd.Message
