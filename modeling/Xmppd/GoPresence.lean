import Xmppd.GoMessage

/-!
# Presence in the Go server

Broadcasts go out one contact at a time: the contact is looked up and the stanza
is sent to the session found. A subscription change edits the sender's roster,
then the roster of the other user, in that user's session if there is one and in
the file if there is none.
-/
namespace Xmppd.GoPresence
open CStrings GoXml Programs Program GoSession

def unavailableFrom (fullJID : Str) : Str :=
  ("<presence type='unavailable' from='" : Str) ++ escapeAttr fullJID ++ ("'/>" : Str)

def notice (type senderBare targetBare : Str) : Str :=
  ("<presence type='" : Str) ++ type ++ ("' from='" : Str) ++ escapeAttr senderBare ++ ("' to='" : Str) ++
    escapeAttr targetBare ++ ("'/>" : Str)

/-- The contacts a user's presence is shown to, and those whose presence is shown. -/
def watchers (r : Roster) : List Str := (r.items.filter fun i => subHasFrom i.subscription).map fun i => bareJID i.jid

def watched (r : Roster) : List Str := (r.items.filter fun i => subHasTo i.subscription).map fun i => bareJID i.jid

/-- One round of the loop of `BroadcastUnavailable`. -/
def sendUnavailable (self : ℕ) (fullJID contact : Str) : Handler Unit := do
  let session ← findByBareJID contact
  match session with
  | some t => if t ≠ self then sendText t (unavailableFrom fullJID) else pure ()
  | none => pure ()

/-- `BroadcastUnavailable`. -/
def broadcastUnavailable (self : ℕ) (s : Session) : Handler Session := do
  if !s.available ∧ !s.initialPresenceSent then pure s
  else if s.jidLocal = [] then pure s
  else
    let r ← ensureLoaded self s.jidLocal
    (watchers r).forM (sendUnavailable self s.fullJID)
    pure { s with available := false }

/-- One round of the first loop of `handleAvailable`. -/
def sendAvailable (pres : XmlNode) (contact : Str) : Handler Unit := do
  let session ← findByBareJID contact
  match session with
  | some t => send t (.node pres)
  | none => pure ()

/-- One round of the second loop of `handleAvailable`. -/
def receiveAvailable (self : ℕ) (contact : Str) : Handler Unit := do
  let session ← findByBareJID contact
  match session with
  | some t =>
      let c ← peek t
      match c.available, c.presenceStanza with
      | true, some pres => send self (.node pres)
      | _, _ => pure ()
  | none => pure ()

/-- The requests in one session's roster that are aimed at the own address. -/
def pendingFrom (ourBare : Str) (other : Session) (r : Roster) : List Str :=
  if other.jidLocal = [] ∨ !r.loaded then []
  else (r.items.filter fun i => i.askSubscribe ∧ bareJID i.jid = ourBare).map fun _ => other.bareJID

/-- `RedeliverPendingSubscribes`. -/
def redeliverPendingSubscribes (self : ℕ) (s : Session) : Handler Unit := do
  let all ← allSessions
  all.forM fun t =>
    if t = self then pure ()
    else do
      let other ← peek t
      let r ← rosterOf t
      (pendingFrom s.bareJID other r).forM fun sender => sendText self (notice "subscribe" sender s.bareJID)

/-- `handleAvailable`. -/
def handleAvailable (self : ℕ) (s : Session) (node : XmlNode) : Handler Session := do
  let isInitial := !s.available
  let pres := clonePresence node s.fullJID
  let s := { s with available := true, presenceStanza := some pres }
  let r ← ensureLoaded self s.jidLocal
  (watchers r).forM (sendAvailable pres)
  let r ← rosterOf self
  (watched r).forM (receiveAvailable self)
  if isInitial then
    let s := { s with initialPresenceSent := true }
    GoMessage.deliverOffline self s.jidLocal
    redeliverPendingSubscribes self s
    pure s
  else pure s

/-- What presence leaves of a session as it is. -/
def standing (s : Session) : Str × Str × Str × State × Bool := (s.jidLocal, s.jidDomain, s.jidResource, s.state, s.authenticated)

/-! ## Calls of the broadcasts -/

section
variable {P : Call → Prop} {self : ℕ} {s : Session}

theorem ensures_broadcastUnavailable {Q : Session → Prop} (hroster : P (.roster self)) (hload : P (.load s.jidLocal))
    (hset : ∀ r, P (.setRoster self r)) (hfind : ∀ j, P (.find j))
    (hsend : ∀ t, P (.send t (.text (unavailableFrom s.fullJID)))) (hQ : ∀ s', standing s' = standing s → Q s') :
    Ensures P (broadcastUnavailable self s) Q := by
  unfold broadcastUnavailable
  split
  · exact hQ s rfl
  · split
    · exact hQ s rfl
    · rw [ensures_bind]
      apply ensures_ensureLoaded hroster hload hset
      intro r
      rw [ensures_bind]
      apply ensures_forM
      · intro contact _
        simp only [sendUnavailable, ensures_bind, ensures_findByBareJID]
        refine ⟨hfind contact, ?_⟩
        intro session
        cases session with
        | none => trivial
        | some t =>
            dsimp only
            split
            · exact ensures_sendText.mpr ⟨hsend t, trivial⟩
            · trivial
      · exact hQ _ rfl

theorem ensures_receiveAvailable {contact : Str} (hfind : ∀ j, P (.find j)) (hpeek : ∀ t, P (.peek t))
    (hself : ∀ d, P (.send self d)) : Ensures P (receiveAvailable self contact) fun _ => True := by
  simp only [receiveAvailable, ensures_bind, ensures_findByBareJID]
  refine ⟨hfind contact, ?_⟩
  intro session
  cases session with
  | none => trivial
  | some t =>
      simp only [ensures_bind, ensures_peek]
      refine ⟨hpeek t, ?_⟩
      intro c
      split
      · exact ensures_send.mpr ⟨hself _, trivial⟩
      · trivial

theorem ensures_redeliverPendingSubscribes {Q : Unit → Prop} (hall : P .allSessions) (hpeek : ∀ t, P (.peek t))
    (hroster : ∀ t, P (.roster t)) (hself : ∀ d, P (.send self d)) (hQ : Q ()) :
    Ensures P (redeliverPendingSubscribes self s) Q := by
  simp only [redeliverPendingSubscribes, ensures_bind, ensures_allSessions]
  refine ⟨hall, ?_⟩
  intro all
  apply ensures_forM
  · intro t _
    split
    · trivial
    · simp only [ensures_bind, ensures_peek, ensures_rosterOf]
      refine ⟨hpeek t, fun other => ⟨hroster t, fun r => ?_⟩⟩
      apply ensures_forM
      · intro sender _
        exact ensures_sendText.mpr ⟨hself _, trivial⟩
      · trivial
  · exact hQ

theorem ensures_handleAvailable {node : XmlNode} {Q : Session → Prop} (hroster : ∀ t, P (.roster t))
    (hload : P (.load s.jidLocal)) (hset : ∀ r, P (.setRoster self r)) (hfind : ∀ j, P (.find j))
    (hshow : ∀ t, P (.send t (.node (clonePresence node s.fullJID)))) (hself : ∀ d, P (.send self d))
    (hpeek : ∀ t, P (.peek t)) (hall : P .allSessions) (hdir : P (.readDir s.jidLocal))
    (hread : ∀ name, P (.readFile s.jidLocal name)) (hremove : ∀ name, P (.remove s.jidLocal name))
    (hQ : ∀ s', standing s' = standing s → Q s') :
    Ensures P (handleAvailable self s node) Q := by
  unfold handleAvailable
  dsimp only
  rw [ensures_bind]
  apply ensures_ensureLoaded (hroster self) hload hset
  intro r
  rw [ensures_bind]
  apply ensures_forM
  · intro contact _
    simp only [sendAvailable, ensures_bind, ensures_findByBareJID]
    refine ⟨hfind contact, ?_⟩
    intro session
    cases session with
    | none => trivial
    | some t => exact ensures_send.mpr ⟨hshow t, trivial⟩
  · simp only [ensures_bind, ensures_rosterOf]
    refine ⟨hroster self, ?_⟩
    intro r
    apply ensures_forM
    · intro contact _
      exact ensures_receiveAvailable hfind hpeek hself
    · split
      · simp only [ensures_bind, ensures_pure]
        apply GoMessage.ensures_deliverOffline hdir hread hremove fun x => hself _
        exact ensures_redeliverPendingSubscribes hall hpeek hroster hself (hQ _ rfl)
      · exact hQ _ rfl

end

/-- A change of the subscription of one item, by a table, and of its pending mark. -/
def turn (table : List (Str × Str)) (clearAsk : Bool) (i : Item) : Item :=
  { i with
    subscription := ((table.find? fun x => x.1 = i.subscription).map Prod.snd).getD i.subscription
    askSubscribe := if clearAsk then false else i.askSubscribe }

def gainTo : List (Str × Str) := [("none", "to"), ("from", "both")]
def gainFrom : List (Str × Str) := [("none", "from"), ("to", "both")]
def loseTo : List (Str × Str) := [("to", "none"), ("both", "from")]
def loseFrom : List (Str × Str) := [("from", "none"), ("both", "to")]

/-- `modifyDiskRoster`. -/
def modifyDiskRoster (user : Str) (f : Roster → Roster) : Handler Unit := do
  let r ← load user
  save user (f r)

/-- The roster of another session, read from its file at first use, under its lock. -/
def lockedRoster (t : ℕ) (user : Str) : Handler Roster := do
  lock t
  ensureLoaded t user

/-- `handleSubscribe`. -/
def handleSubscribe (self : ℕ) (s : Session) (dest : Str) : Handler Unit := do
  let targetBare := bareJID dest
  let r ← ensureLoaded self s.jidLocal
  let r :=
    match r.find targetBare with
    | none => r.addOrUpdate targetBare [] "none" true
    | some _ => r.update targetBare fun i => { i with askSubscribe := true }
  setRoster self r
  save s.jidLocal r
  match r.find targetBare with
  | some item => push self s.fullJID item
  | none => pure ()
  let session ← findByBareJID targetBare
  match session with
  | some t => sendText t (notice "subscribe" s.bareJID targetBare)
  | none => pure ()

/-- The other user's side of `handleSubscribed`, where he has a session. -/
def approveOnline (s : Session) (targetBare : Str) (t : ℕ) : Handler Unit := do
  let targetLocal := localPart targetBare
  let r ← lockedRoster t targetLocal
  let r := r.update s.bareJID (turn gainTo true)
  setRoster t r
  save targetLocal r
  match r.find s.bareJID with
  | some item => do
      let other ← peek t
      push t other.fullJID item
  | none => pure ()
  unlock t
  match s.available, s.presenceStanza with
  | true, some pres => send t (.node pres)
  | _, _ => pure ()
  sendText t (notice "subscribed" s.bareJID targetBare)

/-- `handleSubscribed`. -/
def handleSubscribed (self : ℕ) (s : Session) (dest : Str) : Handler Unit := do
  let targetBare := bareJID dest
  let r ← ensureLoaded self s.jidLocal
  let r :=
    match r.find targetBare with
    | none => r.addOrUpdate targetBare [] "from" false
    | some _ => r.update targetBare (turn gainFrom false)
  setRoster self r
  save s.jidLocal r
  match r.find targetBare with
  | some item => push self s.fullJID item
  | none => pure ()
  let session ← findByBareJID targetBare
  match session with
  | some t => approveOnline s targetBare t
  | none => modifyDiskRoster (localPart targetBare) fun r => r.update s.bareJID (turn gainTo true)

/-- The sender's side of a cancellation: an item that is there is changed. -/
def cancelOwn (self : ℕ) (s : Session) (targetBare : Str) (change : Item → Item) : Handler Unit := do
  let r ← ensureLoaded self s.jidLocal
  match r.find targetBare with
  | none => pure ()
  | some _ =>
      let r := r.update targetBare change
      setRoster self r
      save s.jidLocal r
      match r.find targetBare with
      | some item => push self s.fullJID item
      | none => pure ()

/-- The other user's side of a cancellation, where he has a session. -/
def cancelOnline (s : Session) (targetBare : Str) (t : ℕ) (type : Str) (change : Item → Item) : Handler Unit := do
  let targetLocal := localPart targetBare
  let r ← lockedRoster t targetLocal
  match r.find s.bareJID with
  | none => pure ()
  | some _ =>
      let r := r.update s.bareJID change
      setRoster t r
      save targetLocal r
      match r.find s.bareJID with
      | some item => do
          let other ← peek t
          push t other.fullJID item
      | none => pure ()
  unlock t
  sendText t (notice type s.bareJID targetBare)
  if s.available then sendText t (unavailableFrom s.fullJID) else pure ()

/-- Both cancellations: the sender's item and the other user's item change. -/
def cancel (self : ℕ) (s : Session) (dest type : Str) (own other : Item → Item) : Handler Unit := do
  let targetBare := bareJID dest
  cancelOwn self s targetBare own
  let session ← findByBareJID targetBare
  match session with
  | some t => cancelOnline s targetBare t type other
  | none => modifyDiskRoster (localPart targetBare) fun r => r.update s.bareJID other

/-- `handleUnsubscribe`. -/
def handleUnsubscribe (self : ℕ) (s : Session) (dest : Str) : Handler Unit :=
  cancel self s dest "unsubscribe" (turn loseTo true) (turn loseFrom false)

/-- `handleUnsubscribed`. -/
def handleUnsubscribed (self : ℕ) (s : Session) (dest : Str) : Handler Unit :=
  cancel self s dest "unsubscribed" (turn loseFrom false) (turn loseTo true)

/-- `Handle` of the presence package. -/
def handle (self : ℕ) (s : Session) (node : XmlNode) : Handler (Session × RouteResult) := do
  let dest := node.attr "to"
  let type := node.attr "type"
  if type = [] then
    let s ← handleAvailable self s node
    pure (s, .ok)
  else if type = "unavailable" then
    let s ← broadcastUnavailable self s
    pure (s, .ok)
  else if type = "subscribe" then
    handleSubscribe self s dest
    pure (s, .ok)
  else if type = "subscribed" then
    handleSubscribed self s dest
    pure (s, .ok)
  else if type = "unsubscribe" then
    handleUnsubscribe self s dest
    pure (s, .ok)
  else if type = "unsubscribed" then
    handleUnsubscribed self s dest
    pure (s, .ok)
  else pure (s, .ok)

end Xmppd.GoPresence
