import Xmppd.GoStanza
import Xmppd.GoWorld

/-!
# The authentication gate of the Go server

Before authentication a connection may create an account and read what the server
sends to it. The router looks for this in one of the six session states, the one
after the stream header. Without a header the replies to other users pass, and the
request for a session makes the connection active with no user name. From the first
header on the gate holds, whatever is sent.
-/
namespace Xmppd.GoAuthGate
open CStrings GoXml Programs Program GoSession GoPresence GoStanza

/-- Calls that reach no other session and no file but those of a new account. -/
def Confined (self : ℕ) : Call → Prop
  | .send t _ => t = self
  | .save _ _ | .mkdirAll _ | .writeFile _ _ _ | .remove _ _ | .delete _ | .changePassword _ _ => False
  | _ => True

/-- While the session is not authenticated, the handling of each element is
confined, whatever the answers. -/
def Gate (domain : Str) (self : ℕ) : Session → List XmlNode → Prop
  | _, [] => True
  | s, n :: ns =>
      (s.authenticated = false → Ensures (Confined self) (dispatch domain self s n) fun _ => True) ∧
        Ensures (fun _ => True) (dispatch domain self s n) fun x => x.2 ≠ .close → Gate domain self x.1 ns

def IsReply (n : XmlNode) : Prop := n.attr "type" = "result" ∨ n.attr "type" = "error"

instance (n : XmlNode) : Decidable (IsReply n) := inferInstanceAs (Decidable (_ ∨ _))

/-- Elements that get through without a header, by the state of the session. -/
inductive Crosses (domain : Str) (n : XmlNode) : State → Prop
  | reply (st : State) : n.name = "iq" → IsReply n → isServerJID (n.attr "to") domain = false → Crosses domain n st
  | message : n.name = "message" → (splitBareJID (n.attr "to")).1 ≠ [] → (splitBareJID (n.attr "to")).2 = domain →
      Crosses domain n .sessionActive
  | presence : n.name = "presence" →
      n.attr "type" ∈ ([[], "subscribe", "subscribed", "unsubscribe", "unsubscribed"] : List Str) →
      Crosses domain n .sessionActive
  | rosterSet {item : XmlNode} : n.name = "iq" → childNS n = nsRoster → n.attr "type" = "set" → setItem n = some item →
      item.attr "jid" ≠ [] → Crosses domain n .sessionActive
  | request : n.name = "iq" → ¬IsReply n →
      childNS n ∉ [nsBind, nsSession, nsRoster, nsRegister, nsDiscoInfo, nsDiscoItems] →
      isServerJID (n.attr "to") domain = false → Crosses domain n .sessionActive

/-- The state after an element other than a header, unless the connection is closed. -/
def follow (st : State) (n : XmlNode) : Option State :=
  if n.name = "iq" then some (if ¬IsReply n ∧ childNS n = nsSession then .sessionActive else st)
  else if st = .sessionActive ∧ (n.name = "message" ∨ n.name = "presence") then some st
  else none

/-- No element gets through before the first header. -/
def Clear (domain : Str) : State → List XmlNode → Prop
  | _, [] => True
  | st, n :: ns =>
      n.isStreamOpen = true ∨ ¬Crosses domain n st ∧ ∀ st', follow st n = some st' → Clear domain st' ns

section
variable {domain : Str} {self : ℕ} {s : Session} {n : XmlNode}

/-! ## Authentication stays -/

theorem bindResource_value {id : Str} {Q : Session → Prop} (hQ : Q s) :
    Ensures (fun _ => True) (bindResource self s id) Q := by
  apply ensures_then
  intro old
  apply ensures_then
  intro _
  apply ensures_then
  intro _
  exact hQ

theorem handleBind_authenticated (h : s.authenticated = true) :
    Ensures (fun _ => True) (handleBind self s n) fun x => x.1.authenticated = true := by
  unfold handleBind
  split
  · exact ensures_then _ fun _ => h
  · split
    · apply ensures_then
      intro resource
      rw [ensures_bind]
      apply bindResource_value
      exact h
    · rw [ensures_bind]
      apply bindResource_value
      exact h

theorem broadcastUnavailable_authenticated (h : s.authenticated = true) :
    Ensures (fun _ => True) (broadcastUnavailable self s) fun s' => s'.authenticated = true := by
  apply ensures_broadcastUnavailable trivial trivial (fun _ => trivial) (fun _ => trivial) fun _ => trivial
  intro s' hs'
  simp only [standing, Prod.mk.injEq] at hs'
  rw [hs'.2.2.2.2, h]

theorem handleAvailable_authenticated (h : s.authenticated = true) :
    Ensures (fun _ => True) (handleAvailable self s n) fun s' => s'.authenticated = true := by
  apply ensures_handleAvailable (fun _ => trivial) trivial (fun _ => trivial) (fun _ => trivial) (fun _ => trivial)
    (fun _ => trivial) (fun _ => trivial) trivial trivial (fun _ => trivial) fun _ => trivial
  intro s' hs'
  simp only [standing, Prod.mk.injEq] at hs'
  rw [hs'.2.2.2.2, h]

theorem presence_authenticated (h : s.authenticated = true) :
    Ensures (fun _ => True) (GoPresence.handle self s n) fun x => x.1.authenticated = true := by
  unfold GoPresence.handle
  dsimp only
  split
  · rw [ensures_bind]
    exact handleAvailable_authenticated h
  · split
    · rw [ensures_bind]
      exact broadcastUnavailable_authenticated h
    · repeat' split
      all_goals first
        | exact ensures_then _ fun _ => h
        | exact h

theorem whenActive_authenticated (h : s.authenticated = true) (p : Handler RouteResult) :
    Ensures (fun _ => True) (whenActive self s n p) fun x => x.1.authenticated = true := by
  unfold whenActive
  split
  · exact ensures_then _ fun _ => h
  · exact ensures_then _ fun _ => h

theorem handleIQ_authenticated (h : s.authenticated = true) :
    Ensures (fun _ => True) (handleIQ domain self s n) fun x => x.1.authenticated = true := by
  unfold handleIQ
  dsimp only
  split
  · split
    · exact h
    · exact ensures_then _ fun _ => h
  · split
    · exact handleBind_authenticated h
    · split
      · exact ensures_then _ fun _ => h
      · split
        · exact whenActive_authenticated h _
        · split
          · exact ensures_then _ fun _ => h
          · split
            · exact whenActive_authenticated h _
            · split
              · exact whenActive_authenticated h _
              · split
                · apply ensures_then
                  intro sent
                  split
                  · exact h
                  · exact ensures_then _ fun _ => h
                · exact ensures_then _ fun _ => h

theorem dispatch_authenticated (h : s.authenticated = true) :
    Ensures (fun _ => True) (dispatch domain self s n) fun x => x.1.authenticated = true := by
  unfold dispatch
  split
  · exact ensures_handleOpen (fun _ => trivial) trivial h h
  · have hgate : ¬(s.state = .streamOpened ∧ (!s.authenticated) = true) := by
      rw [h]
      simp
    unfold route
    rw [if_neg hgate]
    split
    · exact handleIQ_authenticated h
    · split
      · split
        · exact ensures_then _ fun _ => h
        · exact ensures_then _ fun _ => h
      · split
        · split
          · exact presence_authenticated h
          · exact ensures_then _ fun _ => h
        · exact ensures_then _ fun _ => h

theorem gate_authenticated {ns : List XmlNode} (h : s.authenticated = true) : Gate domain self s ns := by
  induction ns generalizing s with
  | nil => trivial
  | cons n ns ih =>
      constructor
      · intro hno
        rw [h] at hno
        cases hno
      · exact dispatch_authenticated h |>.mono (fun _ => id) fun x hx _ => ih hx

/-! ## After a header -/

theorem confined_self (x : Str) : Confined self (.send self (.text x)) := rfl

theorem refuse_confined {A : Type} {errType condition : Str} {a : A} {Q : A → Prop} (hQ : Q a) :
    Ensures (Confined self) (sendStanzaError self s n errType condition >>= fun _ => pure a) Q := by
  rw [ensures_bind, ensures_sendStanzaError confined_self]
  exact hQ

theorem sendText_confined {A : Type} {x : Str} {a : A} {Q : A → Prop} (hQ : Q a) :
    Ensures (Confined self) (sendText self x >>= fun _ => pure a) Q := by
  rw [ensures_bind, ensures_sendText]
  exact ⟨confined_self x, hQ⟩

theorem registerSet_confined (h : s.authenticated = false) {id : Str} {Q : RouteResult → Prop} (hQ : Q .ok) :
    Ensures (Confined self) (registerSet self s n id) Q := by
  have hno : (!s.authenticated) = true := by
    rw [h]
    rfl
  unfold registerSet
  split
  · exact refuse_confined hQ
  · split
    · exact refuse_confined hQ
    · split
      · exact refuse_confined hQ
      · rw [ensures_bind, ensures_create]
        refine ⟨trivial, ?_⟩
        intro created
        cases created with
        | ok => exact sendText_confined hQ
        | conflict => exact refuse_confined hQ
        | invalidUsername => exact refuse_confined hQ
        | failed => exact refuse_confined hQ

theorem registerHandleIQ_confined (h : s.authenticated = false) {Q : RouteResult → Prop} (hQ : Q .ok) :
    Ensures (Confined self) (registerHandleIQ self s n) Q := by
  unfold registerHandleIQ
  split
  · exact sendText_confined hQ
  · split
    · exact registerSet_confined h hQ
    · exact refuse_confined hQ

theorem handleSASL_confined :
    Ensures (Confined self) (handleSASL self s n) fun x => x.1 = s ∨ x.1.authenticated = true := by
  unfold handleSASL
  split
  · exact sendText_confined (Or.inl rfl)
  · split
    · exact sendText_confined (Or.inl rfl)
    · rw [ensures_bind, ensures_checkPassword]
      refine ⟨trivial, ?_⟩
      intro ok
      split
      · exact sendText_confined (Or.inr rfl)
      · exact sendText_confined (Or.inl rfl)

/-- The gate is in force, or it is not needed. -/
def Behind (s : Session) : Prop := s.authenticated = true ∨ s.state = .streamOpened

theorem handleOpen_confined :
    Ensures (Confined self) (handleOpen domain self s n) fun x => x.2 ≠ .close → Behind x.1 :=
  ensures_handleOpen confined_self trivial (fun h => absurd rfl h) fun _ => Or.inr rfl

theorem routeBeforeAuth_confined (ha : s.authenticated = false) (hs : s.state = .streamOpened) :
    Ensures (Confined self) (routeBeforeAuth self s n) fun x => Behind x.1 := by
  unfold routeBeforeAuth
  split
  · apply handleSASL_confined.mono (fun _ => id)
    intro x hx
    rcases hx with hx | hx
    · rw [hx]
      exact Or.inr hs
    · exact Or.inl hx
  · split
    · split
      · rw [ensures_bind]
        exact registerHandleIQ_confined ha (Or.inr hs)
      · exact refuse_confined (Or.inr hs)
    · rw [ensures_bind, ensures_sendError confined_self]
      exact Or.inr hs

theorem dispatch_behind (ha : s.authenticated = false) (hs : s.state = .streamOpened) :
    Ensures (Confined self) (dispatch domain self s n) fun x => x.2 ≠ .close → Behind x.1 := by
  unfold dispatch
  split
  · exact handleOpen_confined
  · unfold route
    rw [if_pos ⟨hs, by rw [ha]; rfl⟩]
    exact (routeBeforeAuth_confined ha hs).mono (fun _ => id) fun x hx _ => hx

/-- An element whose handling is confined and after which the gate holds for the rest. -/
theorem gate_cons {ns : List XmlNode}
    (h : Ensures (Confined self) (dispatch domain self s n) fun x => x.2 ≠ .close → Gate domain self x.1 ns) :
    Gate domain self s (n :: ns) :=
  ⟨fun _ => h.mono (fun _ => id) fun _ _ => trivial, h.mono (fun _ _ => trivial) fun _ => id⟩

theorem gate_behind {ns : List XmlNode} (h : Behind s) : Gate domain self s ns := by
  induction ns generalizing s with
  | nil => trivial
  | cons n ns ih =>
      by_cases ha : s.authenticated = true
      · exact gate_authenticated ha
      · have hno := Bool.eq_false_iff.mpr ha
        have hs := h.resolve_left ha
        apply gate_cons
        exact (dispatch_behind hno hs).mono (fun _ => id) fun x hx hopen => ih (hx hopen)

/-! ## Before the first header -/

/-- A session that has sent no header and is in this state. -/
structure Waiting (st : State) (s : Session) : Prop where
  authenticated : s.authenticated = false
  user : s.jidLocal = []
  state : s.state = st
  early : st = .connected ∨ st = .sessionActive

/-- What an element leaves behind. -/
def After (st : State) (n : XmlNode) (x : Session × RouteResult) : Prop :=
  match follow st n with
  | some st' => x.2 = .ok ∧ Waiting st' x.1
  | none => x.2 = .close

variable {st : State}

theorem follow_iq (h : n.name = "iq") (hsession : ¬(¬IsReply n ∧ childNS n = nsSession)) : follow st n = some st := by
  rw [follow, if_pos h, if_neg hsession]

theorem after_same (hs : Waiting st s) (h : follow st n = some st) : After st n (s, .ok) := by
  rw [After, h]
  exact ⟨rfl, hs⟩

theorem Waiting.isActive_iff (h : Waiting st s) : s.isActive = true ↔ st = .sessionActive := by
  rw [Session.isActive, h.state]
  rcases h.early with rfl | rfl
  · decide
  · decide

theorem Waiting.not_opened (h : Waiting st s) : ¬(s.state = .streamOpened ∧ (!s.authenticated) = true) := by
  rw [h.state]
  intro hopened
  rcases h.early with he | he
  · rw [he] at hopened
    cases hopened.1
  · rw [he] at hopened
    cases hopened.1

theorem handleRosterIQ_confined (h : ∀ item, n.attr "type" = "set" → setItem n = some item → item.attr "jid" = [])
    {Q : RouteResult → Prop} (hQ : Q .ok) : Ensures (Confined self) (handleRosterIQ self s n) Q := by
  unfold handleRosterIQ
  rw [ensures_bind]
  apply ensures_ensureLoaded trivial trivial (fun _ => trivial)
  intro r
  split
  · exact sendText_confined hQ
  · split
    · next hset =>
      split
      · exact refuse_confined hQ
      · next item hitem =>
        dsimp only
        rw [if_pos (h item hset hitem)]
        exact refuse_confined hQ
    · exact refuse_confined hQ

theorem handleIQ_confined (hs : Waiting st s) (hname : n.name = "iq") (h : ¬Crosses domain n st) :
    Ensures (Confined self) (handleIQ domain self s n) (After st n) := by
  unfold handleIQ
  dsimp only
  split
  · next hreply =>
    have hsame : After st n (s, .ok) := after_same hs (follow_iq hname fun hx => hx.1 hreply)
    split
    · exact hsame
    · next hserver => exact absurd (Crosses.reply st hname hreply (Bool.eq_false_iff.mpr hserver)) h
  · next hrequest =>
    split
    · next hbind =>
      have hsame : After st n (s, .ok) := after_same hs (follow_iq hname fun hx => by
        have hne := hx.2
        rw [hbind] at hne
        revert hne
        decide)
      unfold handleBind
      rw [hs.state, if_pos (by rcases hs.early with rfl | rfl <;> decide)]
      exact refuse_confined hsame
    · next hbind =>
      split
      · next hsession =>
        rw [ensures_handleSessionIQ confined_self, After, follow, if_pos hname, if_pos ⟨hrequest, hsession⟩]
        exact ⟨rfl, hs.authenticated, hs.user, rfl, Or.inr rfl⟩
      · next hsession =>
        have hsame : After st n (s, .ok) := after_same hs (follow_iq hname fun hx => hsession hx.2)
        split
        · next hroster =>
          apply ensures_whenActive confined_self
          · intro hactive
            have hst := hs.isActive_iff.mp hactive
            apply handleRosterIQ_confined
            · intro item hset hitem
              by_contra hjid
              rw [hst] at h
              exact h (.rosterSet hname hroster hset hitem hjid)
            · exact hsame
          · exact hsame
        · next hroster =>
          split
          · rw [ensures_bind]
            exact registerHandleIQ_confined hs.authenticated hsame
          · next hregister =>
            split
            · apply ensures_whenActive confined_self
              · exact fun _ => (ensures_discoReply confined_self).mpr hsame
              · exact hsame
            · next hinfo =>
              split
              · apply ensures_whenActive confined_self
                · exact fun _ => (ensures_discoReply confined_self).mpr hsame
                · exact hsame
              · next hitems =>
                split
                · next hforward =>
                  have hserver : isServerJID (n.attr "to") domain = false := by simpa using hforward.1
                  have hst := hs.isActive_iff.mp hforward.2
                  rw [hst] at h
                  apply absurd (Crosses.request hname hrequest _ hserver) h
                  simp [hbind, hsession, hroster, hregister, hinfo, hitems]
                · exact refuse_confined hsame

theorem message_confined (h : ¬((splitBareJID (n.attr "to")).1 ≠ [] ∧ (splitBareJID (n.attr "to")).2 = domain))
    {Q : RouteResult → Prop} (hQ : Q .ok) : Ensures (Confined self) (GoMessage.handle self domain s n) Q := by
  unfold GoMessage.handle
  dsimp only
  split
  · exact refuse_confined hQ
  · next hlocal =>
    split
    · exact refuse_confined hQ
    · next hdomain => exact absurd ⟨hlocal, not_not.mp hdomain⟩ h

theorem presence_confined (huser : s.jidLocal = [])
    (h : n.attr "type" ∉ ([[], "subscribe", "subscribed", "unsubscribe", "unsubscribed"] : List Str))
    {Q : Session × RouteResult → Prop} (hQ : Q (s, .ok)) : Ensures (Confined self) (GoPresence.handle self s n) Q := by
  simp only [List.mem_cons, List.not_mem_nil, or_false, not_or] at h
  obtain ⟨havailable, hsubscribe, hsubscribed, hunsubscribe, hunsubscribed⟩ := h
  unfold GoPresence.handle
  dsimp only
  rw [if_neg havailable, if_neg hsubscribe, if_neg hsubscribed, if_neg hunsubscribe, if_neg hunsubscribed]
  split
  · rw [ensures_bind]
    unfold broadcastUnavailable
    split
    · exact hQ
    · exact hQ
  · exact hQ

/-- An element that does not get through is handled in private. -/
theorem dispatch_confined (hs : Waiting st s) (hopen : ¬n.isStreamOpen = true) (h : ¬Crosses domain n st) :
    Ensures (Confined self) (dispatch domain self s n) (After st n) := by
  unfold dispatch
  rw [if_neg hopen]
  unfold route
  rw [if_neg hs.not_opened]
  split
  · next hname => exact handleIQ_confined hs hname h
  · next hiq =>
    have hclose : ¬(st = .sessionActive ∧ (n.name = "message" ∨ n.name = "presence")) → After st n (s, .close) := by
      intro hx
      rw [After, follow, if_neg hiq, if_neg hx]
    have hsame : st = .sessionActive ∧ (n.name = "message" ∨ n.name = "presence") → After st n (s, .ok) := by
      intro hx
      apply after_same hs
      rw [follow, if_neg hiq, if_pos hx]
    split
    · next hname =>
      split
      · next hactive =>
        have hst := hs.isActive_iff.mp hactive
        rw [ensures_bind]
        apply message_confined
        · intro hto
          rw [hst] at h
          exact h (.message hname hto.1 hto.2)
        · exact hsame ⟨hst, Or.inl hname⟩
      · next hactive =>
        rw [ensures_bind, ensures_sendError confined_self]
        apply hclose
        intro hx
        exact hactive (hs.isActive_iff.mpr hx.1)
    · next hmessage =>
      split
      · next hname =>
        split
        · next hactive =>
          have hst := hs.isActive_iff.mp hactive
          apply presence_confined hs.user
          · intro htype
            rw [hst] at h
            exact h (.presence hname htype)
          · exact hsame ⟨hst, Or.inr hname⟩
        · next hactive =>
          rw [ensures_bind, ensures_sendError confined_self]
          apply hclose
          intro hx
          exact hactive (hs.isActive_iff.mpr hx.1)
      · next hpresence =>
        rw [ensures_bind, ensures_sendError confined_self]
        apply hclose
        intro hx
        rcases hx.2 with hm | hp
        · exact hmessage hm
        · exact hpresence hp

/-! ## Elements that get through -/

theorem ensureLoaded_answer {P : Call → Prop} {t : ℕ} {user : Str} {Q : Roster → Prop}
    (h : Ensures P (ensureLoaded t user) Q) {r : Roster} (hr : r.loaded = true) : Q r := by
  simp only [ensureLoaded, ensures_bind, ensures_rosterOf] at h
  have hanswer := h.2 r
  rw [if_pos hr] at hanswer
  exact hanswer

theorem forward_escapes {Q : Bool → Prop} : ¬Ensures (Confined self) (forward s n) Q := by
  intro h
  simp only [forward, ensures_bind, ensures_findByBareJID] at h
  have hsend : self + 1 = self := (h.2 (some (self + 1))).1
  omega

theorem message_escapes (hlocal : (splitBareJID (n.attr "to")).1 ≠ []) (hdomain : (splitBareJID (n.attr "to")).2 = domain)
    {Q : RouteResult → Prop} : ¬Ensures (Confined self) (GoMessage.handle self domain s n) Q := by
  intro h
  unfold GoMessage.handle at h
  dsimp only at h
  rw [if_neg hlocal, if_neg (not_not.mpr hdomain), ensures_bind, ensures_userExists] at h
  have hfound := h.2 true
  rw [if_neg (by decide), ensures_bind, ensures_findByBareJID] at hfound
  have hsend : self + 1 = self := (hfound.2 (some (self + 1))).1
  omega

theorem handleAvailable_escapes {Q : Session → Prop} : ¬Ensures (Confined self) (handleAvailable self s n) Q := by
  intro h
  unfold handleAvailable at h
  dsimp only at h
  rw [ensures_bind] at h
  have hr := @ensureLoaded_answer _ _ _ _ h { items := [⟨"b", [], "from", false⟩], loaded := true } rfl
  rw [ensures_bind] at hr
  have hsend : self + 1 = self := (hr.2 (some (self + 1))).1
  omega

theorem handleSubscribe_escapes {dest : Str} {Q : Unit → Prop} :
    ¬Ensures (Confined self) (handleSubscribe self s dest) Q := by
  intro h
  unfold handleSubscribe at h
  dsimp only at h
  rw [ensures_bind] at h
  have hr := @ensureLoaded_answer _ _ _ _ h { loaded := true } rfl
  rw [ensures_bind, ensures_setRoster, ensures_bind, ensures_save] at hr
  exact hr.2.1

theorem handleSubscribed_escapes {dest : Str} {Q : Unit → Prop} :
    ¬Ensures (Confined self) (handleSubscribed self s dest) Q := by
  intro h
  unfold handleSubscribed at h
  dsimp only at h
  rw [ensures_bind] at h
  have hr := @ensureLoaded_answer _ _ _ _ h { loaded := true } rfl
  rw [ensures_bind, ensures_setRoster, ensures_bind, ensures_save] at hr
  exact hr.2.1

theorem cancelOnline_escapes {targetBare type : Str} {t : ℕ} (ht : t ≠ self) {change : Item → Item} {Q : Unit → Prop} :
    ¬Ensures (Confined self) (cancelOnline s targetBare t type change) Q := by
  intro h
  simp only [cancelOnline, lockedRoster, ensures_bind, ensures_lock] at h
  have hr := @ensureLoaded_answer _ _ _ _ h.2 { loaded := true } rfl
  exact ht (hr.2 ()).1

theorem cancel_escapes {dest type : Str} {own other : Item → Item} {Q : Unit → Prop} :
    ¬Ensures (Confined self) (cancel self s dest type own other) Q := by
  intro h
  simp only [cancel, cancelOwn, ensures_bind] at h
  have hr := @ensureLoaded_answer _ _ _ _ h { loaded := true } rfl
  have honline : Ensures (Confined self) (cancelOnline s (bareJID dest) (self + 1) type other) Q :=
    hr.2 (some (self + 1))
  exact cancelOnline_escapes (Nat.succ_ne_self self) honline

theorem presence_escapes (h : n.attr "type" ∈ ([[], "subscribe", "subscribed", "unsubscribe", "unsubscribed"] : List Str))
    {Q : Session × RouteResult → Prop} : ¬Ensures (Confined self) (GoPresence.handle self s n) Q := by
  intro he
  simp only [List.mem_cons, List.not_mem_nil, or_false] at h
  unfold GoPresence.handle at he
  dsimp only at he
  rcases h with h | h | h | h | h
  all_goals rw [h] at he
  · rw [if_pos rfl, ensures_bind] at he
    exact handleAvailable_escapes he
  · rw [if_neg (by decide), if_neg (by decide), if_pos rfl, ensures_bind] at he
    exact handleSubscribe_escapes he
  · rw [if_neg (by decide), if_neg (by decide), if_neg (by decide), if_pos rfl, ensures_bind] at he
    exact handleSubscribed_escapes he
  · rw [if_neg (by decide), if_neg (by decide), if_neg (by decide), if_neg (by decide), if_pos rfl, ensures_bind] at he
    exact cancel_escapes he
  · rw [if_neg (by decide), if_neg (by decide), if_neg (by decide), if_neg (by decide), if_neg (by decide), if_pos rfl,
      ensures_bind] at he
    exact cancel_escapes he

theorem handleRosterIQ_escapes {item : XmlNode} (htype : n.attr "type" = "set") (hitem : setItem n = some item)
    (hjid : item.attr "jid" ≠ []) {Q : RouteResult → Prop} : ¬Ensures (Confined self) (handleRosterIQ self s n) Q := by
  intro h
  unfold handleRosterIQ at h
  rw [ensures_bind] at h
  have hr := @ensureLoaded_answer _ _ _ _ h { loaded := true } rfl
  rw [htype, if_neg (by decide), if_pos rfl, hitem] at hr
  dsimp only at hr
  rw [if_neg hjid] at hr
  split at hr
  · rw [ensures_bind, ensures_setRoster, ensures_bind, ensures_save] at hr
    exact hr.2.1
  · rw [ensures_bind, ensures_setRoster, ensures_bind, ensures_save] at hr
    exact hr.2.1

theorem handleIQ_escapes (hs : Waiting st s) (hname : n.name = "iq") (h : Crosses domain n st)
    {Q : Session × RouteResult → Prop} : ¬Ensures (Confined self) (handleIQ domain self s n) Q := by
  intro he
  unfold handleIQ at he
  dsimp only at he
  cases h with
  | reply _ _ hreply hserver =>
      unfold IsReply at hreply
      rw [if_pos hreply, hserver, if_neg (by decide), ensures_bind] at he
      exact forward_escapes he
  | message hmessage _ _ =>
      rw [hname] at hmessage
      cases hmessage
  | presence hpresence _ =>
      rw [hname] at hpresence
      cases hpresence
  | rosterSet _ hroster htype hitem hjid =>
      rw [htype, if_neg (by decide), hroster, if_neg (by decide), if_neg (by decide), if_pos rfl] at he
      unfold whenActive at he
      rw [if_pos (hs.isActive_iff.mpr rfl), ensures_bind] at he
      exact handleRosterIQ_escapes htype hitem hjid he
  | request _ hrequest hns hserver =>
      simp only [List.mem_cons, List.not_mem_nil, or_false, not_or] at hns
      obtain ⟨hbind, hsession, hroster, hregister, hinfo, hitems⟩ := hns
      unfold IsReply at hrequest
      rw [if_neg hrequest, if_neg hbind, if_neg hsession, if_neg hroster, if_neg hregister, if_neg hinfo, if_neg hitems,
        hserver, if_pos ⟨rfl, hs.isActive_iff.mpr rfl⟩, ensures_bind] at he
      exact forward_escapes he

/-- An element that gets through reaches another session or a file, for some answers. -/
theorem dispatch_escapes (hs : Waiting st s) (hopen : ¬n.isStreamOpen = true) (h : Crosses domain n st)
    {Q : Session × RouteResult → Prop} : ¬Ensures (Confined self) (dispatch domain self s n) Q := by
  intro he
  unfold dispatch at he
  rw [if_neg hopen] at he
  unfold route at he
  rw [if_neg hs.not_opened] at he
  by_cases hname : n.name = "iq"
  · rw [if_pos hname] at he
    exact handleIQ_escapes hs hname h he
  · rw [if_neg hname] at he
    cases h with
    | reply _ hiq _ _ => exact hname hiq
    | message hmessage hlocal hdomain =>
        rw [if_pos hmessage, if_pos (hs.isActive_iff.mpr rfl), ensures_bind] at he
        exact message_escapes hlocal hdomain he
    | presence hpresence htype =>
        rw [hpresence, if_neg (by decide), if_pos rfl, if_pos (hs.isActive_iff.mpr rfl)] at he
        exact presence_escapes htype he
    | rosterSet hiq _ _ _ _ => exact hname hiq
    | request hiq _ _ _ => exact hname hiq

/-! ## Whole connections -/

theorem gate_iff_clear (hs : Waiting st s) (ns : List XmlNode) : Gate domain self s ns ↔ Clear domain st ns := by
  induction ns generalizing st s with
  | nil => exact Iff.rfl
  | cons n ns ih =>
      by_cases hopen : n.isStreamOpen = true
      · constructor
        · exact fun _ => Or.inl hopen
        · intro _
          apply gate_cons
          unfold dispatch
          rw [if_pos hopen]
          exact handleOpen_confined.mono (fun _ => id) fun x hx hc => gate_behind (hx hc)
      · by_cases hcross : Crosses domain n st
        · constructor
          · intro h
            exact absurd (h.1 hs.authenticated) (dispatch_escapes hs hopen hcross)
          · intro h
            rcases h with h | h
            · exact absurd h hopen
            · exact absurd hcross h.1
        · have hafter := @dispatch_confined domain self s n st hs hopen hcross
          constructor
          · intro h
            refine Or.inr ⟨hcross, ?_⟩
            intro st' hst'
            obtain ⟨x, hx, hnext⟩ := hafter.exists_value (GoWorld.plainOutside 0) h.2
            rw [After, hst'] at hx
            exact (ih hx.2).mp (hnext (by rw [hx.1]; decide))
          · intro h
            rcases h with h | ⟨_, h⟩
            · exact absurd h hopen
            · apply gate_cons
              apply hafter.mono (fun _ => id)
              intro x hx hc
              unfold After at hx
              split at hx
              · next st' hst' => exact (ih hx.2).mpr (h st' hst')
              · exact absurd hx hc

end

/-- The gate holds for a new connection exactly if none of its elements before the
first header is one of those that get through. -/
theorem gate_holds_iff (domain : Str) (self : ℕ) (ns : List XmlNode) :
    Gate domain self { jidDomain := domain } ns ↔ Clear domain .connected ns :=
  gate_iff_clear ⟨rfl, rfl, rfl, Or.inl rfl⟩ ns

/-- A reply to another user, with no header before it. -/
def strayReply : XmlNode := .mk "iq" [] [⟨"type", [], "result"⟩, ⟨"to", [], "b@x"⟩] [] []

theorem strayReply_escapes : ¬∀ (domain : Str) (self : ℕ) (ns : List XmlNode), Gate domain self { jidDomain := domain } ns := by
  intro h
  have hgate := (h "x" 0 [strayReply]).1 rfl
  have hsend : (1 : ℕ) = 0 := (hgate.2 (some 1)).1
  cases hsend

end Xmppd.GoAuthGate
