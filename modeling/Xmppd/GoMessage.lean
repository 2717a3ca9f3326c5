import Mathlib.Data.Char
import Mathlib.Data.List.Lex
import Mathlib.Data.Nat.Digits.Defs
import Xmppd.GoSession

/-!
# Messages in the Go server

Routing of a message, storing it for a user who is away, and delivery of what
was stored. The number of a stored message is one more than the largest number
in the directory at the time the directory is listed.
-/
namespace Xmppd.GoMessage
open CStrings GoXml Programs GoSession

/-- The number `Sscanf` with `%d.xml` reads from a name: a sign and decimal
digits after blanks, and zero where there is none, it is negative or it is too
large. -/
def scanSeq (name : Str) : ℕ :=
  let digits :=
    match name.dropWhile Char.isWhitespace with
    | '+' :: rest => rest.takeWhile Char.isDigit
    | s => s.takeWhile Char.isDigit
  let n := digits.foldl (fun n c => 10 * n + (c.toNat - '0'.toNat)) 0
  if n < 2 ^ 63 then n else 0

def maxSeq (names : List Str) : ℕ := names.foldl (fun m name => if m < scanSeq name then scanSeq name else m) 0

/-- `%04d.xml`. -/
def seqName (n : ℕ) : Str :=
  let digits := Nat.toDigits 10 n
  List.replicate (4 - digits.length) '0' ++ digits ++ (".xml" : Str)

/-- The name for the number after this one, as a 64-bit integer. -/
def nextName (seq : ℕ) : Str := if seq + 1 < 2 ^ 63 then seqName (seq + 1) else "-9223372036854775808.xml"

def delay (domain stamp : Str) : XmlNode :=
  .mk "delay" "urn:xmpp:delay" [⟨"from", [], domain⟩, ⟨"stamp", [], stamp⟩] [] []

/-- `storeOffline`. -/
def storeOffline (domain username : Str) (node : XmlNode) : Handler Unit := do
  mkdirAll username
  let entries ← readDir username
  let seq := maxSeq ((entries.getD []).map Prod.fst)
  let stamp ← now
  writeFile username (nextName seq) (.node (node.addChild (delay domain stamp)))

/-- `Handle` of the message package. -/
def handle (self : ℕ) (domain : Str) (s : Session) (node : XmlNode) : Handler RouteResult := do
  let msgType : Str := if node.attr "type" = [] then "normal" else node.attr "type"
  let target := splitBareJID (node.attr "to")
  if target.1 = [] then
    sendStanzaError self s node "modify" "jid-malformed"
    pure .ok
  else if target.2 ≠ domain then
    sendStanzaError self s node "cancel" "item-not-found"
    pure .ok
  else
    let found ← userExists target.1
    if !found then
      sendStanzaError self s node "cancel" "item-not-found"
      pure .ok
    else
      let node := setAttr node "from" s.fullJID
      let session ← findByBareJID (target.1 ++ '@' :: target.2)
      match session with
      | some t =>
          send t (.node node)
          pure .ok
      | none =>
          if msgType ≠ "error" then
            storeOffline domain target.1 node
            pure .ok
          else pure .ok

/-- The files of a listing that are delivered, in order. -/
def deliverable (entries : List (Str × Bool)) : List Str :=
  ((entries.filter fun e => !e.2 ∧ (".xml" : Str) <:+ e.1).map Prod.fst).mergeSort fun a b => a ≤ b

/-- One round of the loop of `DeliverOffline`. -/
def deliverFile (self : ℕ) (user name : Str) : Handler Unit := do
  let data ← readFile user name
  match data with
  | none => remove user name
  | some data =>
      sendText self data
      remove user name

/-- `DeliverOffline`. -/
def deliverOffline (self : ℕ) (user : Str) : Handler Unit := do
  let entries ← readDir user
  match entries with
  | none => pure ()
  | some entries => (deliverable entries).forM (deliverFile self user)

theorem ensures_deliverOffline {P : Call → Prop} {self : ℕ} {user : Str} {Q : Unit → Prop} (hdir : P (.readDir user))
    (hread : ∀ name, P (.readFile user name)) (hremove : ∀ name, P (.remove user name))
    (hself : ∀ x, P (.send self (.text x))) (hQ : Q ()) : Program.Ensures P (deliverOffline self user) Q := by
  simp only [deliverOffline, Program.ensures_bind, ensures_readDir]
  refine ⟨hdir, ?_⟩
  intro entries
  cases entries with
  | none => exact hQ
  | some entries =>
      apply Program.ensures_forM
      · intro name _
        simp only [deliverFile, Program.ensures_bind, ensures_readFile]
        refine ⟨hread name, ?_⟩
        intro data
        cases data with
        | none => exact ensures_remove.mpr ⟨hremove name, trivial⟩
        | some data =>
            simp only [Program.ensures_bind, ensures_sendText, ensures_remove]
            exact ⟨hself data, hremove name, trivial⟩
      · exact hQ

end Xmppd.GoMessage
