import Xmppd.Roster
import Xmppd.Message

/-!
# Presence

Available presence is broadcast to the contacts the sender's own roster grants,
and the presence of the contacts the sender's roster subscribes to is read
back. The four subscription stanzas each change the sender's roster and then
the target's, where the target's roster is the cache of the session found for
the target address if that session has loaded it, and the file named by the
target's localpart otherwise. No handler looks at the return value of the
address parser.
-/
namespace Xmppd.Presence
open CStrings FileTree LibXml Util ServerState User Roster Message

/-- `sub_has_to`. -/
def subHasTo (sub : Str) : Bool := sub = "to" ∨ sub = "both"

/-- `sub_has_from`. -/
def subHasFrom (sub : Str) : Bool := sub = "from" ∨ sub = "both"

/-- A loop over the roster; the address buffers are declared in its body, so
iteration `k` starts on whatever they hold then. -/
def rosterLoop (stack : ℕ → Jid) (body : Jid → Server → RosterItem → Server) :
    ℕ → List RosterItem → Server → Server
  | _, [], srv => srv
  | k, item :: items, srv => rosterLoop stack body (k+1) items (body (stack k) srv item)

/-- The session a roster item leads to. -/
def contactOf (srv : Server) (buf : Jid) (item : RosterItem) : Option ℕ :=
  srv.sessionFindByJid (jidParse buf item.jid.str).jid.bare.str

/-- The broadcast loop of `presence_handle_available`. -/
def sendToContact (pres : Node) (buf : Jid) (srv : Server) (item : RosterItem) : Server :=
  if subHasFrom item.subscription.str then
    match contactOf srv buf item with
    | some contact => srv.stanzaSend contact pres
    | none => srv
  else srv

/-- The loop that collects the presence of the contacts. -/
def receiveFromContact (i : ℕ) (buf : Jid) (srv : Server) (item : RosterItem) : Server :=
  if subHasTo item.subscription.str then
    match contactOf srv buf item with
    | some contact =>
        match (srv.sess contact).available, (srv.sess contact).presenceStanza with
        | true, some pres => srv.stanzaSend i pres
        | _, _ => srv
    | none => srv
  else srv

def subNode (type src dest : Str) : Node :=
  elem "presence" [attr "type" type, attr "from" src, attr "to" dest] []

/-- `presence_redeliver_pending_subscribes`: only sessions with a loaded roster are scanned. -/
def redeliverPending (i : ℕ) (srv : Server) (other : Session) : Server :=
  if other.id = i ∨ other.jidLocal.str = [] ∨ !other.roster.loaded then srv else
    other.roster.items.foldl (fun srv item =>
      if item.askSubscribe ∧ item.jid = (srv.sess i).bareJid then
        srv.stanzaSend i (subNode "subscribe" other.bareJid.str (srv.sess i).bareJid.str)
      else srv) srv

def presenceRedeliverPendingSubscribes (srv : Server) (i : ℕ) : Server :=
  srv.sessions.foldl (redeliverPending i) srv

/-- The two loops of `presence_handle_available`. -/
def exchangePresence (srv : Server) (i : ℕ) (o : Oracle) (pres : Node) : Server :=
  let items := (srv.sess i).roster.items
  let srv := rosterLoop (fun k => o.stack (2*k)) (sendToContact pres) 0 items srv
  rosterLoop (fun k => o.stack (2*k+1)) (receiveFromContact i) 0 items srv

/-- What follows the loops on initial presence. -/
def deliverInitial (srv : Server) (i : ℕ) : Server :=
  let srv := srv.modify i fun s => { s with initialPresenceSent := true }
  let srv := messageDeliverOffline srv i
  presenceRedeliverPendingSubscribes srv i

/-- `presence_handle_available`. -/
def presenceHandleAvailable (srv : Server) (i : ℕ) (o : Oracle) (stanza : Node) : Server :=
  let isInitial := !(srv.sess i).available
  let pres := stanza.setProp "from" (srv.sess i).fullJid.str
  let srv := srv.modify i fun s => { s with available := true, presenceStanza := some pres }
  let srv := ensureRoster srv i
  let srv := exchangePresence srv i o pres
  if isInitial then deliverInitial srv i else srv

def unavailableNode (src : Str) : Node :=
  elem "presence" [attr "type" "unavailable", attr "from" src] []

/-- The loop of `presence_broadcast_unavailable`, which skips the session itself. -/
def sendUnavailable (i : ℕ) (pres : Node) (buf : Jid) (srv : Server) (item : RosterItem) : Server :=
  if subHasFrom item.subscription.str then
    match contactOf srv buf item with
    | some contact => if contact = i then srv else srv.stanzaSend contact pres
    | none => srv
  else srv

/-- `presence_broadcast_unavailable`. -/
def presenceBroadcastUnavailable (srv : Server) (i : ℕ) (o : Oracle) : Server :=
  if !(srv.sess i).available ∧ !(srv.sess i).initialPresenceSent then srv else
    let pres := unavailableNode (srv.sess i).fullJid.str
    let srv := ensureRoster srv i
    let srv := rosterLoop o.stack (sendUnavailable i pres) 0 (srv.sess i).roster.items srv
    srv.modify i fun s => { s with available := false }

/-- `presence_handle_unavailable`. -/
def presenceHandleUnavailable (srv : Server) (i : ℕ) (o : Oracle) : Server :=
  (presenceBroadcastUnavailable srv i o).modify i fun s => { s with available := false }

/-- The two-way comparison every subscription change consists of. -/
def moveSub (a a' b b' : Str) (item : RosterItem) : RosterItem :=
  if item.subscription.str = a then { item with subscription := snprintf 16 a' }
  else if item.subscription.str = b then { item with subscription := snprintf 16 b' }
  else item

def grantFrom : RosterItem → RosterItem := moveSub "none" "from" "to" "both"
def grantTo : RosterItem → RosterItem := moveSub "none" "to" "from" "both"
def dropTo : RosterItem → RosterItem := moveSub "to" "none" "both" "from"
def dropFrom : RosterItem → RosterItem := moveSub "from" "none" "both" "to"

def setAsk (ask : Bool) (item : RosterItem) : RosterItem := { item with askSubscribe := ask }

/-- The sender's side of `subscribe`. -/
def requestItem (bare : Str) (r : Roster) : Roster :=
  match rosterFindItem r bare with
  | some _ => rosterEdit r bare (setAsk true)
  | none => rosterAddItem r bare none (some "none") true

/-- The sender's side of `subscribed`. -/
def approveItem (bare : Str) (r : Roster) : Roster :=
  match rosterFindItem r bare with
  | some _ => rosterEdit r bare grantFrom
  | none => rosterAddItem r bare none (some "from") false

@[simp] theorem requestItem_loaded (bare : Str) (r : Roster) : (requestItem bare r).loaded = r.loaded := by
  unfold requestItem
  split <;> simp

@[simp] theorem approveItem_loaded (bare : Str) (r : Roster) : (approveItem bare r).loaded = r.loaded := by
  unfold approveItem
  split <;> simp

/-- The session found for an address, where its roster is loaded. -/
def loadedSession (srv : Server) (target : Option ℕ) : Option ℕ :=
  target.filter fun t => (srv.sess t).roster.loaded

/-- `presence_handle_subscribe`. -/
def presenceHandleSubscribe (srv : Server) (i : ℕ) (o : Oracle) (dest : Str) : Server :=
  let bare := (jidParse (o.stack 0) dest).jid.bare.str
  let srv := ensureRoster srv i
  let srv := modifyRoster srv i (requestItem bare)
  let srv := rosterSave srv i
  match rosterFindItem (srv.sess i).roster bare with
  | none => srv.crash
  | some item =>
      let srv := rosterPush srv i (o.ident 0) item
      match srv.sessionFindByJid bare with
      | some target => srv.stanzaSend target (subNode "subscribe" (srv.sess i).bareJid.str bare)
      | none => srv

/-- The target's side of `subscribed`, on the cache or on the file; the roster is
saved whether or not it has an item for the sender. -/
def grantTarget (srv : Server) (o : Oracle) (target : Option ℕ) (localpart senderBare : Str) : Server :=
  let update (r : Roster) : Roster := rosterEdit r senderBare (setAsk false ∘ grantTo)
  match loadedSession srv target with
  | some t =>
      let found := rosterFindItem (srv.sess t).roster senderBare
      let srv := modifyRoster srv t update
      let srv := rosterSave srv t
      match found with
      | some item => rosterPush srv t (o.ident 1) (setAsk false (grantTo item))
      | none => srv
  | none => rosterSaveForUser srv localpart (update (rosterLoadForUser srv localpart))

/-- The notifications of `subscribed`. -/
def notifySubscribed (srv : Server) (i : ℕ) (target : Option ℕ) (senderBare targetBare : Str) : Server :=
  match target with
  | some t =>
      let srv := match (srv.sess i).available, (srv.sess i).presenceStanza with
        | true, some pres => srv.stanzaSend t pres
        | _, _ => srv
      srv.stanzaSend t (subNode "subscribed" senderBare targetBare)
  | none => srv

/-- `presence_handle_subscribed`. -/
def presenceHandleSubscribed (srv : Server) (i : ℕ) (o : Oracle) (dest : Str) : Server :=
  let jid := (jidParse (o.stack 0) dest).jid
  let targetBare := jid.bare.str
  let senderBare := (srv.sess i).bareJid.str
  let srv := ensureRoster srv i
  let srv := modifyRoster srv i (approveItem targetBare)
  let srv := rosterSave srv i
  match rosterFindItem (srv.sess i).roster targetBare with
  | none => srv.crash
  | some item =>
      let srv := rosterPush srv i (o.ident 0) item
      let target := srv.sessionFindByJid targetBare
      let srv := grantTarget srv o target jid.localpart.str senderBare
      notifySubscribed srv i target senderBare targetBare

/-- A change to an existing item of a loaded roster, saved and pushed. -/
def withdrawAt (srv : Server) (i : ℕ) (id jid : Str) (f : RosterItem → RosterItem) : Server :=
  match rosterFindItem (srv.sess i).roster jid with
  | some item =>
      let srv := modifyRoster srv i fun r => rosterEdit r jid f
      let srv := rosterSave srv i
      rosterPush srv i id (f item)
  | none => srv

/-- The target's side of `unsubscribe` and `unsubscribed`: an existing item is
changed in the cache or on file, and the notifications go out only where the
target's roster is loaded. -/
def withdrawTarget (type : Str) (theirs : RosterItem → RosterItem) (srv : Server) (i : ℕ) (o : Oracle)
    (jid : Jid) : Server :=
  let senderBare := (srv.sess i).bareJid.str
  match loadedSession srv (srv.sessionFindByJid jid.bare.str) with
  | some t =>
      let srv := withdrawAt srv t (o.ident 1) senderBare theirs
      let srv := srv.stanzaSend t (subNode type senderBare jid.bare.str)
      if (srv.sess i).available then
        srv.stanzaSend t (unavailableNode (srv.sess i).fullJid.str)
      else srv
  | none =>
      let r := rosterLoadForUser srv jid.localpart.str
      match rosterFindItem r senderBare with
      | some _ => rosterSaveForUser srv jid.localpart.str (rosterEdit r senderBare theirs)
      | none => srv

/-- The common body of `presence_handle_unsubscribe` and
`presence_handle_unsubscribed`. -/
def withdraw (type : Str) (own theirs : RosterItem → RosterItem)
    (srv : Server) (i : ℕ) (o : Oracle) (dest : Str) : Server :=
  let jid := (jidParse (o.stack 0) dest).jid
  let srv := ensureRoster srv i
  let srv := withdrawAt srv i (o.ident 0) jid.bare.str own
  withdrawTarget type theirs srv i o jid

/-- `presence_handle_unsubscribe`. -/
def presenceHandleUnsubscribe : Server → ℕ → Oracle → Str → Server :=
  withdraw "unsubscribe" (setAsk false ∘ dropTo) dropFrom

/-- `presence_handle_unsubscribed`. -/
def presenceHandleUnsubscribed : Server → ℕ → Oracle → Str → Server :=
  withdraw "unsubscribed" dropFrom (setAsk false ∘ dropTo)

/-- `handle_presence`. -/
def handlePresence (srv : Server) (i : ℕ) (o : Oracle) (stanza : Node) : Server :=
  let type := stanza.prop "type"
  let dest := stanza.prop "to"
  if type = [] then presenceHandleAvailable srv i o stanza
  else if type = "unavailable" then presenceHandleUnavailable srv i o
  else if type = "subscribe" then presenceHandleSubscribe srv i o dest
  else if type = "subscribed" then presenceHandleSubscribed srv i o dest
  else if type = "unsubscribe" then presenceHandleUnsubscribe srv i o dest
  else if type = "unsubscribed" then presenceHandleUnsubscribed srv i o dest
  else srv

end Xmppd.Presence
