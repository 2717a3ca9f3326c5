import Xmppd.GoXml
import Xmppd.Programs

/-!
# Sessions and calls of the Go server

A handler runs in the goroutine of one session. The fields of that session which
no other goroutine writes are passed through the handlers. Everything shared is
reached by calls: the registry, the cached rosters, the connections and the data
directory. A call is one step of the goroutine.
-/
namespace Xmppd.GoSession
open CStrings GoXml Programs Program

inductive State where
  | connected | streamOpened | authenticated | bound | sessionActive | disconnected
deriving DecidableEq, Repr

inductive RouteResult where
  | ok | restartStream | close
deriving DecidableEq, Repr

structure Session where
  jidLocal : Str := []
  jidDomain : Str
  jidResource : Str := []
  state : State := .connected
  authenticated : Bool := false
  available : Bool := false
  initialPresenceSent : Bool := false
  presenceStanza : Option XmlNode := none

namespace Session

/-- `BareJID`. -/
def bareJID (s : Session) : Str := if s.jidLocal = [] then [] else s.jidLocal ++ '@' :: s.jidDomain

/-- `FullJID`. -/
def fullJID (s : Session) : Str :=
  if s.jidLocal = [] then []
  else if s.jidResource = [] then s.bareJID
  else s.bareJID ++ '/' :: s.jidResource

/-- The two states in which messages and presence are routed. -/
def isActive (s : Session) : Bool := s.state = .sessionActive ∨ s.state = .bound

end Session

structure Item where
  jid : Str
  name : Str
  subscription : Str
  askSubscribe : Bool
deriving DecidableEq, Repr

structure Roster where
  items : List Item := []
  loaded : Bool := false
deriving DecidableEq, Repr

/-- `SubHasFrom`. -/
def subHasFrom (sub : Str) : Bool := sub = "from" ∨ sub = "both"

/-- `SubHasTo`. -/
def subHasTo (sub : Str) : Bool := sub = "to" ∨ sub = "both"

namespace Roster

/-- `Find`. -/
def find (r : Roster) (jid : Str) : Option Item := r.items.find? fun i => i.jid = jid

/-- Writing through the pointer that `Find` returns. -/
def update (r : Roster) (jid : Str) (f : Item → Item) : Roster :=
  { r with items := go r.items }
where
  go : List Item → List Item
    | [] => []
    | i :: is => if i.jid = jid then f i :: is else i :: go is

/-- `AddOrUpdate`. -/
def addOrUpdate (r : Roster) (jid name subscription : Str) (ask : Bool) : Roster :=
  match r.find jid with
  | some _ =>
      r.update jid fun i =>
        { i with
          name := if name = [] then i.name else name
          subscription := if subscription = [] then i.subscription else subscription
          askSubscribe := ask }
  | none =>
      { r with items := r.items ++ [⟨jid, name, if subscription = [] then "none" else subscription, ask⟩] }

/-- `Remove`. -/
def remove (r : Roster) (jid : Str) : Roster := { r with items := r.items.eraseP fun i => i.jid = jid }

end Roster

/-- What is sent or stored: literal text, or an element that is serialized. -/
inductive Data where
  | text (s : Str)
  | node (n : XmlNode)

def Data.str : Data → Str
  | .text s => s
  | .node n => n.serialize

/-- What the handlers ask for. A roster file, an offline directory and an
account are named by their user. -/
inductive Call where
  | find (jid : Str)
  | register (jid : Str)
  | unregister
  | allSessions
  | peek (t : ℕ)
  | send (t : ℕ) (d : Data)
  | close (t : ℕ)
  | lock (t : ℕ)
  | unlock (t : ℕ)
  | roster (t : ℕ)
  | setRoster (t : ℕ) (r : Roster)
  | load (user : Str)
  | save (user : Str) (r : Roster)
  | userExists (user : Str)
  | checkPassword (user password : Str)
  | create (user password : Str)
  | changePassword (user password : Str)
  | delete (user : Str)
  | mkdirAll (user : Str)
  | readDir (user : Str)
  | readFile (user name : Str)
  | writeFile (user name : Str) (d : Data)
  | remove (user name : Str)
  | generateID (n : ℕ)
  | now
  | pushID

/-- What `user.Create` reports. -/
inductive Created where
  | ok | conflict | invalidUsername | failed
deriving DecidableEq, Repr

/-- The answer to a call: a session or none, the sessions, the fields of another
session, a roster, whether a test or an operation succeeded, the entries of a
directory with whether they are directories, the content of a file. -/
@[reducible] def Result : Call → Type
  | .find _ => Option ℕ
  | .register _ => Option ℕ
  | .allSessions => List ℕ
  | .peek _ => Session
  | .roster _ => Roster
  | .load _ => Roster
  | .userExists _ => Bool
  | .checkPassword _ _ => Bool
  | .create _ _ => Created
  | .changePassword _ _ => Bool
  | .readDir _ => Option (List (Str × Bool))
  | .readFile _ _ => Option Str
  | .generateID _ => Str
  | .now => Str
  | .pushID => Str
  | _ => Unit

abbrev Handler (A : Type) := Program Call Result A

/-! ## The calls as programs -/

def findByBareJID (jid : Str) : Handler (Option ℕ) := perform (Call.find jid)

def register (jid : Str) : Handler (Option ℕ) := perform (Call.register jid)

def allSessions : Handler (List ℕ) := perform (Call.allSessions)

def peek (t : ℕ) : Handler Session := perform (Call.peek t)

def send (t : ℕ) (d : Data) : Handler Unit := perform (Call.send t d)

def close (t : ℕ) : Handler Unit := perform (Call.close t)

def lock (t : ℕ) : Handler Unit := perform (Call.lock t)

def unlock (t : ℕ) : Handler Unit := perform (Call.unlock t)

def rosterOf (t : ℕ) : Handler Roster := perform (Call.roster t)

def setRoster (t : ℕ) (r : Roster) : Handler Unit := perform (Call.setRoster t r)

def load (user : Str) : Handler Roster := perform (Call.load user)

def save (user : Str) (r : Roster) : Handler Unit := perform (Call.save user r)

def userExists (user : Str) : Handler Bool := perform (Call.userExists user)

def checkPassword (user password : Str) : Handler Bool := perform (Call.checkPassword user password)

def create (user password : Str) : Handler Created := perform (Call.create user password)

def changePassword (user password : Str) : Handler Bool := perform (Call.changePassword user password)

def delete (user : Str) : Handler Unit := perform (Call.delete user)

def mkdirAll (user : Str) : Handler Unit := perform (Call.mkdirAll user)

def readDir (user : Str) : Handler (Option (List (Str × Bool))) := perform (Call.readDir user)

def readFile (user name : Str) : Handler (Option Str) := perform (Call.readFile user name)

def writeFile (user name : Str) (d : Data) : Handler Unit := perform (Call.writeFile user name d)

def remove (user name : Str) : Handler Unit := perform (Call.remove user name)

def generateID (n : ℕ) : Handler Str := perform (Call.generateID n)

def now : Handler Str := perform (Call.now)

def pushID : Handler Str := perform (Call.pushID)

def unregister : Handler Unit := perform (Call.unregister)

section
variable {P : Call → Prop}

@[simp] theorem ensures_findByBareJID {jid : Str} {Q : Option ℕ → Prop} :
    Ensures P (findByBareJID jid) Q ↔ P (.find jid) ∧ ∀ r, Q r := Iff.rfl

@[simp] theorem ensures_register {jid : Str} {Q : Option ℕ → Prop} :
    Ensures P (register jid) Q ↔ P (.register jid) ∧ ∀ r, Q r := Iff.rfl

@[simp] theorem ensures_allSessions {Q : List ℕ → Prop} :
    Ensures P allSessions Q ↔ P .allSessions ∧ ∀ r, Q r := Iff.rfl

@[simp] theorem ensures_peek {t : ℕ} {Q : Session → Prop} :
    Ensures P (peek t) Q ↔ P (.peek t) ∧ ∀ r, Q r := Iff.rfl

@[simp] theorem ensures_send {t : ℕ} {d : Data} {Q : Unit → Prop} :
    Ensures P (send t d) Q ↔ P (.send t d) ∧ Q () := ⟨fun h => ⟨h.1, h.2 ()⟩, fun h => ⟨h.1, fun _ => h.2⟩⟩

@[simp] theorem ensures_close {t : ℕ} {Q : Unit → Prop} :
    Ensures P (close t) Q ↔ P (.close t) ∧ Q () := ⟨fun h => ⟨h.1, h.2 ()⟩, fun h => ⟨h.1, fun _ => h.2⟩⟩

@[simp] theorem ensures_lock {t : ℕ} {Q : Unit → Prop} :
    Ensures P (lock t) Q ↔ P (.lock t) ∧ Q () := ⟨fun h => ⟨h.1, h.2 ()⟩, fun h => ⟨h.1, fun _ => h.2⟩⟩

@[simp] theorem ensures_unlock {t : ℕ} {Q : Unit → Prop} :
    Ensures P (unlock t) Q ↔ P (.unlock t) ∧ Q () := ⟨fun h => ⟨h.1, h.2 ()⟩, fun h => ⟨h.1, fun _ => h.2⟩⟩

@[simp] theorem ensures_rosterOf {t : ℕ} {Q : Roster → Prop} :
    Ensures P (rosterOf t) Q ↔ P (.roster t) ∧ ∀ r, Q r := Iff.rfl

@[simp] theorem ensures_setRoster {t : ℕ} {r : Roster} {Q : Unit → Prop} :
    Ensures P (setRoster t r) Q ↔ P (.setRoster t r) ∧ Q () := ⟨fun h => ⟨h.1, h.2 ()⟩, fun h => ⟨h.1, fun _ => h.2⟩⟩

@[simp] theorem ensures_load {user : Str} {Q : Roster → Prop} :
    Ensures P (load user) Q ↔ P (.load user) ∧ ∀ r, Q r := Iff.rfl

@[simp] theorem ensures_save {user : Str} {r : Roster} {Q : Unit → Prop} :
    Ensures P (save user r) Q ↔ P (.save user r) ∧ Q () := ⟨fun h => ⟨h.1, h.2 ()⟩, fun h => ⟨h.1, fun _ => h.2⟩⟩

@[simp] theorem ensures_userExists {user : Str} {Q : Bool → Prop} :
    Ensures P (userExists user) Q ↔ P (.userExists user) ∧ ∀ r, Q r := Iff.rfl

@[simp] theorem ensures_checkPassword {user password : Str} {Q : Bool → Prop} :
    Ensures P (checkPassword user password) Q ↔ P (.checkPassword user password) ∧ ∀ r, Q r := Iff.rfl

@[simp] theorem ensures_create {user password : Str} {Q : Created → Prop} :
    Ensures P (create user password) Q ↔ P (.create user password) ∧ ∀ r, Q r := Iff.rfl

@[simp] theorem ensures_changePassword {user password : Str} {Q : Bool → Prop} :
    Ensures P (changePassword user password) Q ↔ P (.changePassword user password) ∧ ∀ r, Q r := Iff.rfl

@[simp] theorem ensures_delete {user : Str} {Q : Unit → Prop} :
    Ensures P (delete user) Q ↔ P (.delete user) ∧ Q () := ⟨fun h => ⟨h.1, h.2 ()⟩, fun h => ⟨h.1, fun _ => h.2⟩⟩

@[simp] theorem ensures_mkdirAll {user : Str} {Q : Unit → Prop} :
    Ensures P (mkdirAll user) Q ↔ P (.mkdirAll user) ∧ Q () := ⟨fun h => ⟨h.1, h.2 ()⟩, fun h => ⟨h.1, fun _ => h.2⟩⟩

@[simp] theorem ensures_readDir {user : Str} {Q : Option (List (Str × Bool)) → Prop} :
    Ensures P (readDir user) Q ↔ P (.readDir user) ∧ ∀ r, Q r := Iff.rfl

@[simp] theorem ensures_readFile {user name : Str} {Q : Option Str → Prop} :
    Ensures P (readFile user name) Q ↔ P (.readFile user name) ∧ ∀ r, Q r := Iff.rfl

@[simp] theorem ensures_writeFile {user name : Str} {d : Data} {Q : Unit → Prop} :
    Ensures P (writeFile user name d) Q ↔ P (.writeFile user name d) ∧ Q () := ⟨fun h => ⟨h.1, h.2 ()⟩, fun h => ⟨h.1, fun _ => h.2⟩⟩

@[simp] theorem ensures_remove {user name : Str} {Q : Unit → Prop} :
    Ensures P (remove user name) Q ↔ P (.remove user name) ∧ Q () := ⟨fun h => ⟨h.1, h.2 ()⟩, fun h => ⟨h.1, fun _ => h.2⟩⟩

@[simp] theorem ensures_generateID {n : ℕ} {Q : Str → Prop} :
    Ensures P (generateID n) Q ↔ P (.generateID n) ∧ ∀ r, Q r := Iff.rfl

@[simp] theorem ensures_now {Q : Str → Prop} :
    Ensures P now Q ↔ P .now ∧ ∀ r, Q r := Iff.rfl

@[simp] theorem ensures_pushID {Q : Str → Prop} :
    Ensures P pushID Q ↔ P .pushID ∧ ∀ r, Q r := Iff.rfl

@[simp] theorem ensures_unregister {Q : Unit → Prop} :
    Ensures P unregister Q ↔ P .unregister ∧ Q () := ⟨fun h => ⟨h.1, h.2 ()⟩, fun h => ⟨h.1, fun _ => h.2⟩⟩

end

/-- `Send` of a literal text. -/
def sendText (t : ℕ) (s : Str) : Handler Unit := send t (.text s)

/-- `bareJID` of the handlers: the part before the first slash. -/
def bareJID (jid : Str) : Str := jid.takeWhile (· ≠ '/')

/-- `localPart`. -/
def localPart (jid : Str) : Str := jid.takeWhile (· ≠ '@')

/-- `splitBareJID`. -/
def splitBareJID (jid : Str) : Str × Str :=
  let bare := bareJID jid
  if '@' ∈ bare ∧ localPart bare ≠ [] then (localPart bare, bare.drop ((localPart bare).length + 1)) else ([], bare)

/-- `isServerJID`. -/
def isServerJID (jid domain : Str) : Bool := jid = [] ∨ jid = domain

/-- An attribute in a formatted text, left out where its value is empty. -/
def optAttr (name value : Str) : Str :=
  if value = [] then [] else ' ' :: name ++ ("='" : Str) ++ escapeAttr value ++ ['\'']

/-- `SendStanzaError`. -/
def sendStanzaError (self : ℕ) (s : Session) (original : XmlNode) (errType condition : Str) : Handler Unit :=
  sendText self ('<' :: original.name ++ (" type='error'" : Str) ++ optAttr "id" (original.attr "id") ++
    (" from='" : Str) ++ escapeAttr s.jidDomain ++ ("'" : Str) ++ optAttr "to" s.fullJID ++
    ("><error type='" : Str) ++ errType ++ ("'><" : Str) ++ condition ++
    (" xmlns='urn:ietf:params:xml:ns:xmpp-stanzas'/></error></" : Str) ++ original.name ++ (">" : Str))

/-- `stream.SendError`. -/
def sendError (t : ℕ) (condition : Str) : Handler Unit :=
  sendText t (("<stream:error><" : Str) ++ condition ++
    (" xmlns='urn:ietf:params:xml:ns:xmpp-streams'/></stream:error></stream:stream>" : Str))

/-- The roster of the own session, read from its file at first use. -/
def ensureLoaded (self : ℕ) (user : Str) : Handler Roster := do
  let r ← rosterOf self
  if r.loaded then pure r
  else
    let r ← load user
    setRoster self r
    pure r

def itemAttrs (i : Item) : Str :=
  ("<item jid='" : Str) ++ escapeAttr i.jid ++ ("'" : Str) ++ optAttr "name" i.name ++
    (" subscription='" : Str) ++ i.subscription ++ ("'" : Str) ++
    (if i.askSubscribe then (" ask='subscribe'" : Str) else []) ++ ("/>" : Str)

/-- `roster.Push`. -/
def push (t : ℕ) (fullJID : Str) (i : Item) : Handler Unit := do
  let id ← pushID
  sendText t (("<iq type='set' id='" : Str) ++ id ++ ("' to='" : Str) ++ escapeAttr fullJID ++
    ("'><query xmlns='jabber:iq:roster'>" : Str) ++ itemAttrs i ++ ("</query></iq>" : Str))

/-! ## Calls of the helpers -/

section
variable {P : Call → Prop} {t : ℕ}

theorem ensures_sendText {s : Str} {Q : Unit → Prop} :
    Ensures P (sendText t s) Q ↔ P (.send t (.text s)) ∧ Q () := ensures_send

theorem ensures_sendStanzaError {s : Session} {n : XmlNode} {errType condition : Str} {Q : Unit → Prop}
    (h : ∀ x, P (.send t (.text x))) : Ensures P (sendStanzaError t s n errType condition) Q ↔ Q () := by
  rw [sendStanzaError, ensures_sendText]
  exact and_iff_right (h _)

theorem ensures_sendError {condition : Str} {Q : Unit → Prop} (h : ∀ x, P (.send t (.text x))) :
    Ensures P (sendError t condition) Q ↔ Q () := by
  rw [sendError, ensures_sendText]
  exact and_iff_right (h _)

theorem ensures_push {fullJID : Str} {i : Item} {Q : Unit → Prop} (h : ∀ x, P (.send t (.text x)))
    (hid : P .pushID) : Ensures P (push t fullJID i) Q ↔ Q () := by
  simp only [push, ensures_bind, ensures_pushID, ensures_sendText, hid, h, true_and, forall_const]

theorem ensures_ensureLoaded {user : Str} {Q : Roster → Prop} (hr : P (.roster t)) (hl : P (.load user))
    (hs : ∀ r, P (.setRoster t r)) (hQ : ∀ r, Q r) : Ensures P (ensureLoaded t user) Q := by
  simp only [ensureLoaded, ensures_bind, ensures_rosterOf]
  refine ⟨hr, ?_⟩
  intro r
  split
  · exact hQ r
  · simp only [ensures_bind, ensures_load, ensures_setRoster, ensures_pure]
    exact ⟨hl, fun r => ⟨hs r, hQ r⟩⟩

end

end Xmppd.GoSession
