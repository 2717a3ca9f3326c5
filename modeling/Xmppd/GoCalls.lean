import Xmppd.GoStanza

/-!
# Calls of the handlers

Only a bind enters a session into the registry or closes a connection, and only the end of
a session takes one out of the registry. A text is the conflict error in a bind, or if that
is what was stored for a user. The calls of all other handlers are plain.
-/
namespace Xmppd.GoCalls
open CStrings GoXml Programs Program GoSession GoPresence GoStanza

/-- What `SendError` sends for a conflict. -/
def conflictError : Str :=
  ("<stream:error><" : Str) ++ ("conflict" : Str) ++
    (" xmlns='urn:ietf:params:xml:ns:xmpp-streams'/></stream:error></stream:stream>" : Str)

/-- Calls that leave the registry and the connections as they are. -/
def Plain : Call → Prop
  | .register _ => False
  | .unregister => False
  | .close _ => False
  | .send _ (.text x) => x ≠ conflictError
  | _ => True

section
variable {domain : Str} {self : ℕ} {s : Session} {n : XmlNode}

/-! ## Texts -/

/-- A text that starts in another way. -/
theorem plain_text {t : ℕ} (pre : Str) {x : Str} (hx : x.take pre.length = pre)
    (h : conflictError.take pre.length ≠ pre) : Plain (.send t (.text x)) := by
  rintro rfl
  exact h hx

theorem plain_notice {t : ℕ} {type a b : Str} : Plain (.send t (.text (notice type a b))) :=
  plain_text "<p" rfl (by decide)

theorem plain_unavailable {t : ℕ} {fullJID : Str} : Plain (.send t (.text (unavailableFrom fullJID))) :=
  plain_text "<p" rfl (by decide)

/-- An error for a stanza has a type, which the conflict error has not. -/
theorem plain_stanzaError {t : ℕ} {a b : Str} : Plain (.send t (.text ('<' :: a ++ ((" type='error'" : Str) ++ b)))) := by
  intro h
  have hmem : 'y' ∈ '<' :: a ++ ((" type='error'" : Str) ++ b) :=
    List.mem_append_right ('<' :: a) (List.mem_append_left b (by decide))
  rw [h] at hmem
  revert hmem
  decide

/-! ## Parts of handlers -/

section
variable {A : Type} {Q : A → Prop}

theorem call_plain {c : Call} {f : Result c → Handler A} (hc : Plain c) (hf : ∀ r, Ensures Plain (f r) Q) :
    Ensures Plain (perform c >>= f) Q :=
  ensures_seq (p := perform c) ⟨hc, fun _ => trivial⟩ hf

theorem sendText_plain {t : ℕ} {x : Str} {f : Unit → Handler A} (hx : Plain (.send t (.text x)))
    (hf : Ensures Plain (f ()) Q) : Ensures Plain (sendText t x >>= f) Q := by
  rw [ensures_bind, ensures_sendText]
  exact ⟨hx, hf⟩

theorem refuse_plain {errType condition : Str} {f : Unit → Handler A} (hf : Ensures Plain (f ()) Q) :
    Ensures Plain (sendStanzaError self s n errType condition >>= f) Q := by
  apply sendText_plain _ hf
  simp only [List.append_assoc]
  exact plain_stanzaError

/-- The change of a roster, and what is done where it is stored. -/
theorem store_plain {t : ℕ} {user : Str} {r : Roster} {rest : Handler A} (h : Ensures Plain rest Q) :
    Ensures Plain (setRoster t r >>= fun _ => save user r >>= fun _ => rest) Q :=
  call_plain trivial fun _ => call_plain trivial fun _ => h

end

theorem ensureLoaded_plain {t : ℕ} {user : Str} : Ensures Plain (ensureLoaded t user) fun _ => True :=
  ensures_ensureLoaded trivial trivial (fun _ => trivial) fun _ => trivial

theorem push_plain {t : ℕ} {fullJID : Str} {i : Item} : Ensures Plain (push t fullJID i) fun _ => True := by
  refine call_plain trivial ?_
  intro id
  exact ensures_sendText.mpr ⟨plain_text "<i" rfl (by decide), trivial⟩

theorem modifyDiskRoster_plain {user : Str} {f : Roster → Roster} : Ensures Plain (modifyDiskRoster user f) fun _ => True :=
  call_plain trivial fun _ => call_plain trivial fun _ => trivial

theorem lockedRoster_plain {t : ℕ} {user : Str} : Ensures Plain (lockedRoster t user) fun _ => True :=
  call_plain trivial fun _ => ensureLoaded_plain

/-- What is done with the session found for an address. -/
theorem lookup_plain {bare : Str} {f : Option ℕ → Handler Unit} (hnone : Ensures Plain (f none) fun _ => True)
    (hsome : ∀ t, Ensures Plain (f (some t)) fun _ => True) : Ensures Plain (findByBareJID bare >>= f) fun _ => True := by
  refine call_plain trivial ?_
  intro session
  cases session with
  | none => exact hnone
  | some t => exact hsome t

theorem notice_plain {t : ℕ} {type a b : Str} : Ensures Plain (sendText t (notice type a b)) fun _ => True :=
  ensures_sendText.mpr ⟨plain_notice, trivial⟩

/-! ## Presence -/

theorem handleSubscribe_plain {dest : Str} : Ensures Plain (handleSubscribe self s dest) fun _ => True := by
  unfold handleSubscribe
  apply ensures_seq ensureLoaded_plain
  intro r
  apply store_plain
  dsimp only
  split
  · apply ensures_seq push_plain
    intro _
    exact lookup_plain trivial fun t => notice_plain
  · exact lookup_plain trivial fun t => notice_plain

theorem approveOnline_plain {targetBare : Str} {t : ℕ} : Ensures Plain (approveOnline s targetBare t) fun _ => True := by
  unfold approveOnline
  apply ensures_seq lockedRoster_plain
  intro r
  apply store_plain
  dsimp only
  split
  · refine call_plain trivial ?_
    intro _
    apply ensures_seq push_plain
    intro _
    refine call_plain trivial ?_
    intro _
    split
    · exact call_plain trivial fun _ => notice_plain
    · exact notice_plain
  · refine call_plain trivial ?_
    intro _
    split
    · exact call_plain trivial fun _ => notice_plain
    · exact notice_plain

theorem handleSubscribed_plain {dest : Str} : Ensures Plain (handleSubscribed self s dest) fun _ => True := by
  unfold handleSubscribed
  apply ensures_seq ensureLoaded_plain
  intro r
  apply store_plain
  dsimp only
  split
  · apply ensures_seq push_plain
    intro _
    exact lookup_plain modifyDiskRoster_plain fun t => approveOnline_plain
  · exact lookup_plain modifyDiskRoster_plain fun t => approveOnline_plain

theorem cancelOwn_plain {targetBare : Str} {change : Item → Item} :
    Ensures Plain (cancelOwn self s targetBare change) fun _ => True := by
  unfold cancelOwn
  apply ensures_seq ensureLoaded_plain
  intro r
  split
  · trivial
  · apply store_plain
    split
    · exact push_plain
    · trivial

theorem cancelOnline_plain {targetBare type : Str} {t : ℕ} {change : Item → Item} :
    Ensures Plain (cancelOnline s targetBare t type change) fun _ => True := by
  have hunlock : Ensures Plain (do
      unlock t
      sendText t (notice type s.bareJID targetBare)
      if s.available then sendText t (unavailableFrom s.fullJID) else pure ()) fun _ => True := by
    refine call_plain trivial ?_
    intro _
    apply sendText_plain plain_notice
    split
    · exact ensures_sendText.mpr ⟨plain_unavailable, trivial⟩
    · trivial
  unfold cancelOnline
  apply ensures_seq lockedRoster_plain
  intro r
  dsimp only
  split
  · exact hunlock
  · apply store_plain
    split
    · exact call_plain trivial fun _ => ensures_seq push_plain fun _ => hunlock
    · exact hunlock

theorem cancel_plain {dest type : Str} {own other : Item → Item} :
    Ensures Plain (cancel self s dest type own other) fun _ => True := by
  apply ensures_seq cancelOwn_plain
  intro _
  exact lookup_plain modifyDiskRoster_plain fun t => cancelOnline_plain

theorem broadcastUnavailable_plain {Q : Session → Prop} (hQ : ∀ s', standing s' = standing s → Q s') :
    Ensures Plain (broadcastUnavailable self s) Q :=
  ensures_broadcastUnavailable trivial trivial (fun _ => trivial) (fun _ => trivial) (fun _ => plain_unavailable) hQ

/-- Presence that does not say that the session is available. -/
theorem presence_plain (h : n.attr "type" ≠ []) {Q : Session × RouteResult → Prop}
    (hQ : ∀ s', standing s' = standing s → Q (s', .ok)) : Ensures Plain (GoPresence.handle self s n) Q := by
  unfold GoPresence.handle
  dsimp only
  rw [if_neg h]
  split
  · rw [ensures_bind]
    exact broadcastUnavailable_plain hQ
  split
  · exact ensures_seq handleSubscribe_plain fun _ => hQ s rfl
  split
  · exact ensures_seq handleSubscribed_plain fun _ => hQ s rfl
  split
  · exact ensures_seq cancel_plain fun _ => hQ s rfl
  split
  · exact ensures_seq cancel_plain fun _ => hQ s rfl
  · exact hQ s rfl

theorem sendAvailable_plain {pres : XmlNode} {contact : Str} : Ensures Plain (sendAvailable pres contact) fun _ => True := by
  unfold sendAvailable
  exact lookup_plain trivial fun _ => ⟨trivial, fun _ => trivial⟩

theorem receiveAvailable_plain {contact : Str} : Ensures Plain (receiveAvailable self contact) fun _ => True := by
  unfold receiveAvailable
  refine lookup_plain trivial ?_
  intro t
  refine call_plain trivial ?_
  intro c
  split
  · exact ⟨trivial, fun _ => trivial⟩
  · trivial

theorem redeliverPendingSubscribes_plain : Ensures Plain (redeliverPendingSubscribes self s) fun _ => True := by
  refine call_plain trivial ?_
  intro all
  apply ensures_forM _ trivial
  intro t _
  split
  · trivial
  · refine call_plain trivial ?_
    intro other
    refine call_plain trivial ?_
    intro r
    exact ensures_forM (fun _ _ => notice_plain) trivial

/-! ## Messages -/

theorem storeOffline_plain {user : Str} : Ensures Plain (GoMessage.storeOffline domain user n) fun _ => True := by
  refine call_plain trivial ?_
  intro _
  refine call_plain trivial ?_
  intro entries
  refine call_plain trivial ?_
  intro stamp
  exact call_plain trivial fun _ => trivial

theorem message_plain : Ensures Plain (GoMessage.handle self domain s n) fun _ => True := by
  unfold GoMessage.handle
  dsimp only
  split
  · exact refuse_plain trivial
  split
  · exact refuse_plain trivial
  refine call_plain trivial ?_
  intro found
  split
  · exact refuse_plain trivial
  refine call_plain trivial ?_
  intro session
  cases session with
  | some t => exact call_plain trivial fun _ => trivial
  | none =>
      dsimp only
      split_ifs
      · exact ensures_seq storeOffline_plain fun _ => trivial
      · trivial
      · exact ensures_seq storeOffline_plain fun _ => trivial
      · trivial

/-! ## Queries -/

theorem plain_result {t : ℕ} {id rest : Str} {includeTo : Bool} :
    Plain (.send t (.text (buildResultIQ s id includeTo ++ rest))) := by
  unfold buildResultIQ
  exact plain_text "<i" rfl (by decide)

theorem registerSet_plain {id : Str} : Ensures Plain (registerSet self s n id) fun _ => True := by
  unfold registerSet
  split
  · exact refuse_plain trivial
  split
  · split
    · exact refuse_plain trivial
    · exact sendText_plain plain_result (call_plain trivial fun _ => trivial)
  split
  · exact refuse_plain trivial
  split
  · refine call_plain trivial ?_
    intro created
    cases created with
    | ok => exact sendText_plain plain_result trivial
    | conflict => exact refuse_plain trivial
    | invalidUsername => exact refuse_plain trivial
    | failed => exact refuse_plain trivial
  split
  · exact refuse_plain trivial
  · refine call_plain trivial ?_
    intro ok
    split
    · exact sendText_plain plain_result trivial
    · exact refuse_plain trivial

theorem registerHandleIQ_plain : Ensures Plain (registerHandleIQ self s n) fun _ => True := by
  unfold registerHandleIQ
  split
  · refine sendText_plain ?_ trivial
    rw [List.append_assoc]
    exact plain_result
  split
  · exact registerSet_plain
  · exact refuse_plain trivial

theorem handleRosterIQ_plain : Ensures Plain (handleRosterIQ self s n) fun _ => True := by
  unfold handleRosterIQ
  apply ensures_seq ensureLoaded_plain
  intro r
  split
  · exact sendText_plain (plain_text "<i" rfl (by decide)) trivial
  split
  · split
    · exact refuse_plain trivial
    · dsimp only
      split
      · exact refuse_plain trivial
      split
      · apply store_plain
        exact sendText_plain (plain_text "<i" rfl (by decide)) (ensures_seq push_plain fun _ => trivial)
      · apply store_plain
        apply sendText_plain (plain_text "<i" rfl (by decide))
        split
        · exact ensures_seq push_plain fun _ => trivial
        · trivial
  · exact refuse_plain trivial

theorem discoReply_plain {content : Str} : Ensures Plain (discoReply domain self s n content) fun _ => True :=
  sendText_plain (plain_text "<i" rfl (by decide)) trivial

theorem forward_plain : Ensures Plain (forward s n) fun _ => True := by
  refine call_plain trivial ?_
  intro session
  cases session with
  | none => trivial
  | some t => exact call_plain trivial fun _ => trivial

/-! ## Elements -/

theorem handleSASL_plain : Ensures Plain (handleSASL self s n) fun _ => True := by
  unfold handleSASL
  split
  · exact sendText_plain (plain_text "<f" rfl (by decide)) trivial
  split
  · exact sendText_plain (plain_text "<f" rfl (by decide)) trivial
  · refine call_plain trivial ?_
    intro ok
    split
    · exact sendText_plain (plain_text "<su" rfl (by decide)) trivial
    · exact sendText_plain (plain_text "<f" rfl (by decide)) trivial

theorem handleOpen_plain : Ensures Plain (handleOpen domain self s n) fun _ => True := by
  unfold handleOpen
  dsimp only
  split
  · exact sendText_plain (plain_text "<stream:error><h" rfl (by decide)) trivial
  · refine call_plain trivial ?_
    intro id
    apply sendText_plain (plain_text "<?" rfl (by decide))
    split
    · exact sendText_plain (plain_text "<stream:f" rfl (by decide)) trivial
    · exact sendText_plain (plain_text "<stream:f" rfl (by decide)) trivial

theorem unauthorized_plain : Ensures Plain (sendError self "not-authorized" >>= fun _ => pure (s, RouteResult.close)) fun _ => True :=
  sendText_plain (plain_text "<stream:error><n" rfl (by decide)) trivial

theorem routeBeforeAuth_plain : Ensures Plain (routeBeforeAuth self s n) fun _ => True := by
  unfold routeBeforeAuth
  split
  · exact handleSASL_plain
  split
  · split
    · exact ensures_seq registerHandleIQ_plain fun _ => trivial
    · exact refuse_plain trivial
  · exact unauthorized_plain

theorem handleSessionIQ_plain : Ensures Plain (handleSessionIQ self s n) fun _ => True :=
  sendText_plain (plain_text "<i" rfl (by decide)) trivial

theorem whenActive_plain {h : Handler RouteResult} (hh : Ensures Plain h fun _ => True) :
    Ensures Plain (whenActive self s n h) fun _ => True := by
  unfold whenActive
  split
  · exact ensures_seq hh fun _ => trivial
  · exact refuse_plain trivial

/-- A request that is handed to `handleBind`, and not refused there. -/
def Binds (s : Session) (n : XmlNode) : Prop :=
  n.isStreamOpen = false ∧ ¬(s.state = .streamOpened ∧ s.authenticated = false) ∧ n.name = "iq" ∧
    ¬(n.attr "type" = "result" ∨ n.attr "type" = "error") ∧ childNS n = nsBind ∧
    (s.state = .authenticated ∨ s.state = .streamOpened)

instance (s : Session) (n : XmlNode) : Decidable (Binds s n) := inferInstanceAs (Decidable (_ ∧ _))

/-- The handling of a bind. -/
def bindNew (self : ℕ) (s : Session) (node : XmlNode) (resource : Str) : Handler (Session × RouteResult) := do
  let s ← bindResource self { s with jidResource := resource, state := .bound } (node.attr "id")
  pure (s, .ok)

theorem dispatch_binds (h : Binds s n) :
    dispatch domain self s n =
      if requestedResource n = [] then generateID 8 >>= bindNew self s n else bindNew self s n (requestedResource n) := by
  obtain ⟨hopen, hgate, hname, hrequest, hns, hstate⟩ := h
  have hpast : ¬(s.state = .streamOpened ∧ !s.authenticated) := by simpa using hgate
  have hadmitted : ¬(s.state ≠ .authenticated ∧ s.state ≠ .streamOpened) := by
    rintro ⟨ha, ho⟩
    exact hstate.elim ha ho
  rw [dispatch, hopen, if_neg Bool.false_ne_true, route, if_neg hpast, if_pos hname, handleIQ,
    if_neg hrequest, if_pos hns, handleBind, if_neg hadmitted]
  rfl

/-- Elements other than a bind and the announcement of a session. -/
theorem dispatch_plain (hbind : ¬Binds s n) (hpresence : ¬(n.name = "presence" ∧ n.attr "type" = [])) :
    Ensures Plain (dispatch domain self s n) fun _ => True := by
  unfold dispatch
  split
  · exact handleOpen_plain
  next hopen =>
  unfold route
  split
  · exact routeBeforeAuth_plain
  next hgate =>
  split
  · next hname =>
    unfold handleIQ
    dsimp only
    split
    · split
      · trivial
      · exact ensures_seq forward_plain fun _ => trivial
    next hrequest =>
    split
    · next hns =>
      have hrefused : s.state ≠ .authenticated ∧ s.state ≠ .streamOpened := by
        by_contra hadmitted
        apply hbind
        refine ⟨Bool.eq_false_iff.mpr hopen, by simpa using hgate, hname, hrequest, hns, ?_⟩
        by_contra hstate
        exact hadmitted (not_or.mp hstate)
      unfold handleBind
      rw [if_pos hrefused]
      exact refuse_plain trivial
    split
    · exact handleSessionIQ_plain
    split
    · exact whenActive_plain handleRosterIQ_plain
    split
    · exact ensures_seq registerHandleIQ_plain fun _ => trivial
    split
    · exact whenActive_plain discoReply_plain
    split
    · exact whenActive_plain discoReply_plain
    split
    · apply ensures_seq forward_plain
      intro sent
      split
      · trivial
      · exact refuse_plain trivial
    · exact refuse_plain trivial
  split
  · split
    · exact ensures_seq message_plain fun _ => trivial
    · exact unauthorized_plain
  split
  · next hname =>
    split
    · exact presence_plain (fun htype => hpresence ⟨hname, htype⟩) fun _ _ => trivial
    · exact unauthorized_plain
  · exact sendText_plain (plain_text "<stream:error><u" rfl (by decide)) trivial

end

end Xmppd.GoCalls
