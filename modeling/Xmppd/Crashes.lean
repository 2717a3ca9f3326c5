import Mathlib.Data.List.Induction
import Xmppd.Outputs
import Xmppd.Revisions
import Xmppd.RosterPushes

/-!
# Requests and approvals with a full roster

`roster_add_item` leaves a full roster as it is, and the handlers of `subscribe` and `subscribed`
read the item they have just added. Nowhere else does the server read through a pointer that a
search of a roster may leave null, so it is a request or an approval that ends it, and it does
whenever the roster is full and has no item for the address.
-/
namespace Xmppd.Crashes
open CStrings FileTree LibXml Util ServerState User Roster Message Presence Streams Auth Stanza EventLoop
open Frames Evolution Confinement RosterPushes Revisions

/-! ## Handlers that go on -/

section
variable (srv : Server) (i : ℕ) (o : Oracle) (stanza : Node)

theorem crashed_of_filesOnly {a b : Server} (h : FilesOnly a b) : b.crashed = a.crashed := by
  obtain ⟨t, rfl⟩ := h
  rfl

theorem crashed_foldl {α : Type} {f : Server → α → Server} (hf : ∀ srv x, (f srv x).crashed = srv.crashed) (l : List α) :
    ∀ srv, (l.foldl f srv).crashed = srv.crashed := by
  induction l with
  | nil => exact fun _ => rfl
  | cons x xs ih => exact fun srv => (ih _).trans (hf srv x)

@[simp] theorem crashed_sessionWrite (x : Out) : (srv.sessionWrite i x).crashed = srv.crashed := rfl

@[simp] theorem crashed_stanzaSend (n : Node) : (srv.stanzaSend i n).crashed = srv.crashed := rfl

@[simp] theorem crashed_stanzaSendError (n : Node) (t c : Str) : (srv.stanzaSendError i n t c).crashed = srv.crashed := rfl

@[simp] theorem crashed_ensureRoster : (ensureRoster srv i).crashed = srv.crashed := by
  unfold ensureRoster
  split <;> rfl

@[simp] theorem crashed_modifyRoster (f : Roster → Roster) : (modifyRoster srv i f).crashed = srv.crashed := rfl

@[simp] theorem crashed_rosterSaveForUser (username : Str) (r : Roster) :
    (rosterSaveForUser srv username r).crashed = srv.crashed :=
  crashed_of_filesOnly (filesOnly_rosterSaveForUser srv username r)

@[simp] theorem crashed_rosterSave : (rosterSave srv i).crashed = srv.crashed :=
  crashed_rosterSaveForUser srv _ _

@[simp] theorem crashed_rosterPush (id : Str) (item : RosterItem) : (rosterPush srv i id item).crashed = srv.crashed := rfl

theorem crashed_rosterLoop {stack : ℕ → Jid} {body : Jid → Server → RosterItem → Server}
    (hbody : ∀ buf srv item, (body buf srv item).crashed = srv.crashed) (items : List RosterItem) :
    ∀ k srv, (rosterLoop stack body k items srv).crashed = srv.crashed := by
  induction items with
  | nil => exact fun _ _ => rfl
  | cons item items ih => exact fun k srv => (ih (k+1) _).trans (hbody _ srv item)

/-! ## Rosters and presence -/

@[simp] theorem crashed_rosterHandleIq : (rosterHandleIq srv i o stanza).crashed = srv.crashed := by
  unfold rosterHandleIq
  dsimp only
  split
  · simp
  split
  · split
    · simp
    split
    · simp
    split
    · simp
    · split <;> simp
  · simp

@[simp] theorem crashed_presenceBroadcastUnavailable : (presenceBroadcastUnavailable srv i o).crashed = srv.crashed := by
  have hbody : ∀ pres buf srv item, (sendUnavailable i pres buf srv item).crashed = srv.crashed := by
    intro pres buf srv item
    unfold sendUnavailable
    split
    · split
      · split <;> rfl
      · rfl
    · rfl
  unfold presenceBroadcastUnavailable
  split
  · rfl
  · dsimp only
    rw [Server.modify_crashed, crashed_rosterLoop (hbody _), crashed_ensureRoster]

theorem crashed_exchangePresence (pres : Node) : (exchangePresence srv i o pres).crashed = srv.crashed := by
  have hsend : ∀ buf srv item, (sendToContact pres buf srv item).crashed = srv.crashed := by
    intro buf srv item
    unfold sendToContact
    split
    · split <;> rfl
    · rfl
  have hreceive : ∀ buf srv item, (receiveFromContact i buf srv item).crashed = srv.crashed := by
    intro buf srv item
    unfold receiveFromContact
    split
    · split
      · split <;> rfl
      · rfl
    · rfl
  unfold exchangePresence
  dsimp only
  rw [crashed_rosterLoop hreceive, crashed_rosterLoop hsend]

theorem crashed_messageDeliverOffline : (messageDeliverOffline srv i).crashed = srv.crashed := by
  refine crashed_foldl ?_ _ srv
  intro srv name
  unfold deliverOne
  dsimp only
  split
  · exact (crashed_of_filesOnly (filesOnly_unlink (srv.stanzaSend i _) _)).trans rfl
  · exact crashed_of_filesOnly (filesOnly_unlink srv _)

theorem crashed_redeliver : (presenceRedeliverPendingSubscribes srv i).crashed = srv.crashed := by
  refine crashed_foldl ?_ _ srv
  intro srv other
  unfold redeliverPending
  split
  · rfl
  · refine crashed_foldl ?_ _ srv
    intro srv item
    split <;> rfl

@[simp] theorem crashed_presenceHandleAvailable : (presenceHandleAvailable srv i o stanza).crashed = srv.crashed := by
  unfold presenceHandleAvailable
  dsimp only
  split
  · unfold deliverInitial
    dsimp only
    rw [crashed_redeliver, crashed_messageDeliverOffline, Server.modify_crashed, crashed_exchangePresence,
      crashed_ensureRoster, Server.modify_crashed]
  · rw [crashed_exchangePresence, crashed_ensureRoster, Server.modify_crashed]

@[simp] theorem crashed_grantTarget (target : Option ℕ) (localpart bare : Str) :
    (grantTarget srv o target localpart bare).crashed = srv.crashed := by
  unfold grantTarget
  dsimp only
  split
  · split <;> simp
  · simp

@[simp] theorem crashed_notifySubscribed (target : Option ℕ) (own other : Str) :
    (notifySubscribed srv i target own other).crashed = srv.crashed := by
  unfold notifySubscribed
  split
  · dsimp only
    split <;> rfl
  · rfl

@[simp] theorem crashed_withdrawAt (id jid : Str) (f : RosterItem → RosterItem) :
    (withdrawAt srv i id jid f).crashed = srv.crashed := by
  unfold withdrawAt
  split <;> simp

@[simp] theorem crashed_withdraw (type : Str) (own theirs : RosterItem → RosterItem) (dest : Str) :
    (withdraw type own theirs srv i o dest).crashed = srv.crashed := by
  unfold withdraw withdrawTarget
  dsimp only
  split
  · split <;> simp
  · split <;> simp

/-! ## Streams, accounts and messages -/

@[simp] theorem crashed_sessionTeardown : (sessionTeardown srv i o).crashed = srv.crashed := by
  unfold sessionTeardown
  split
  · rfl
  · change (if _ then _ else _ : Server).crashed = _
    split
    · exact crashed_presenceBroadcastUnavailable srv i o
    · rfl

@[simp] theorem crashed_teardownOrDefer : (teardownOrDefer srv i o).crashed = srv.crashed := by
  unfold teardownOrDefer
  split
  · rfl
  · exact crashed_sessionTeardown srv i o

@[simp] theorem crashed_streamSendError (condition : Str) : (streamSendError srv i o condition).crashed = srv.crashed :=
  crashed_teardownOrDefer _ i o

@[simp] theorem crashed_streamHandleClose : (streamHandleClose srv i o).crashed = srv.crashed :=
  crashed_teardownOrDefer _ i o

@[simp] theorem crashed_streamHandleOpen (dest : Str) : (streamHandleOpen srv i o dest).crashed = srv.crashed := by
  unfold streamHandleOpen
  split
  · exact crashed_streamSendError srv i o _
  · rfl

@[simp] theorem crashed_sessionHandleBind : (sessionHandleBind srv i o stanza).crashed = srv.crashed := by
  have hkick : (kickConflict srv i o).crashed = srv.crashed := by
    unfold kickConflict
    split
    · split
      · rfl
      · exact crashed_streamSendError srv _ o _
    · rfl
  unfold sessionHandleBind
  split
  · rfl
  · exact hkick

@[simp] theorem crashed_authHandleSasl : (authHandleSasl srv i stanza).crashed = srv.crashed := by
  unfold authHandleSasl
  split
  · rfl
  · split <;> rfl

@[simp] theorem crashed_registerHandleIq : (registerHandleIq srv i o stanza).crashed = srv.crashed := by
  have hdelete : ∀ srv username, (userDelete srv username).crashed = srv.crashed :=
    fun srv username => crashed_of_filesOnly (filesOnly_userDelete srv username)
  have hcreate := fun username password => crashed_of_filesOnly (userCreate_filesOnly srv o username password)
  have hchange := fun username password => crashed_of_filesOnly (filesOnly_userChangePassword srv username password)
  unfold registerHandleIq
  split
  · rfl
  split
  · unfold registerSet
    dsimp only
    split
    · split
      · rfl
      · exact hdelete _ _
    split
    · rfl
    split
    · unfold registerCreate
      dsimp only
      split
      · exact hcreate _ _
      split
      · exact hcreate _ _
      split
      · exact hcreate _ _
      · exact hcreate _ _
    split
    · rfl
    split
    · exact hchange _ _
    · exact hchange _ _
  · rfl

@[simp] theorem crashed_handleMessage : (handleMessage srv i o stanza).crashed = srv.crashed := by
  have hstore : ∀ username n, (messageStoreOffline srv o username n).crashed = srv.crashed := by
    intro username n
    exact (crashed_of_filesOnly (filesOnly_writeFile_getD _ _ _)).trans (crashed_of_filesOnly (filesOnly_mkdir_getD srv _))
  unfold handleMessage
  dsimp only
  split
  · rfl
  split
  · rfl
  split
  · rfl
  split
  · rfl
  split
  · rfl
  · exact hstore _ _

@[simp] theorem crashed_handleIq : (handleIq srv i o stanza).crashed = srv.crashed := by
  have hguard : ∀ a : Server, a.crashed = srv.crashed → (whenActive srv i stanza a).crashed = srv.crashed := by
    intro a ha
    unfold whenActive
    split
    · exact ha
    · rfl
  unfold handleIq
  dsimp only
  split
  · unfold routeReply
    dsimp only
    split
    · rfl
    · split <;> rfl
  split
  · exact crashed_sessionHandleBind srv i o stanza
  split
  · rfl
  split
  · exact hguard _ (crashed_rosterHandleIq srv i o stanza)
  split
  · exact hguard _ rfl
  split
  · exact hguard _ rfl
  split
  · exact crashed_registerHandleIq srv i o stanza
  · unfold routeUnknown
    dsimp only
    split
    · split <;> rfl
    · rfl

end

/-! ## Requests and approvals -/

/-- The sender asks for presence or grants it, and his roster is full and has no item for the address. -/
def Fatal (srv : Server) (i : ℕ) (o : Oracle) (stanza : Node) : Prop :=
  (srv.sess i).isActive = true ∧ stanza.name = "presence" ∧
    (stanza.prop "type" = "subscribe" ∨ stanza.prop "type" = "subscribed") ∧
    ¬Room srv i (jidParse (o.stack 0) (stanza.prop "to")).jid.bare.str

instance (srv : Server) (i : ℕ) (o : Oracle) (stanza : Node) : Decidable (Fatal srv i o stanza) :=
  inferInstanceAs (Decidable (_ ∧ _ ∧ _ ∧ ¬(_ ∨ _)))

section
variable {srv : Server} {i : ℕ} (o : Oracle)

theorem crashed_subscribe (hl : srv.Live i) (dest : Str) : (presenceHandleSubscribe srv i o dest).crashed = true ↔
    srv.crashed = true ∨ ¬Room srv i (jidParse (o.stack 0) dest).jid.bare.str := by
  have hsaved := roster_ensured hl (requestItem (jidParse (o.stack 0) dest).jid.bare.str)
  have hfound := find_requestItem (ownRoster srv i) (jidParse (o.stack 0) dest).jid.bare
  unfold presenceHandleSubscribe Room
  dsimp only
  rw [hsaved, ← hfound]
  cases rosterFindItem (requestItem (jidParse (o.stack 0) dest).jid.bare.str (ownRoster srv i))
      (jidParse (o.stack 0) dest).jid.bare.str with
  | none => simp [Server.crash]
  | some item =>
      dsimp only
      split <;> simp

theorem crashed_subscribed (hl : srv.Live i) (dest : Str) : (presenceHandleSubscribed srv i o dest).crashed = true ↔
    srv.crashed = true ∨ ¬Room srv i (jidParse (o.stack 0) dest).jid.bare.str := by
  have hsaved := roster_ensured hl (approveItem (jidParse (o.stack 0) dest).jid.bare.str)
  have hfound := find_approveItem_iff (ownRoster srv i) (jidParse (o.stack 0) dest).jid.bare
  unfold presenceHandleSubscribed Room
  dsimp only
  rw [hsaved, ← hfound]
  cases rosterFindItem (approveItem (jidParse (o.stack 0) dest).jid.bare.str (ownRoster srv i))
      (jidParse (o.stack 0) dest).jid.bare.str with
  | none => simp [Server.crash]
  | some item => simp

theorem crashed_handlePresence (ha : (srv.sess i).isActive = true) {stanza : Node} (hname : stanza.name = "presence") :
    (handlePresence srv i o stanza).crashed = true ↔ srv.crashed = true ∨ Fatal srv i o stanza := by
  have hl := Server.live_of_isActive ha
  unfold handlePresence Fatal
  dsimp only
  by_cases hask : stanza.prop "type" = "subscribe"
  · rw [if_neg (by rw [hask]; decide), if_neg (by rw [hask]; decide), if_pos hask, crashed_subscribe o hl]
    exact or_congr_right ⟨fun h => ⟨ha, hname, .inl hask, h⟩, fun h => h.2.2.2⟩
  by_cases happrove : stanza.prop "type" = "subscribed"
  · rw [if_neg (by rw [happrove]; decide), if_neg (by rw [happrove]; decide), if_neg hask, if_pos happrove,
      crashed_subscribed o hl]
    exact or_congr_right ⟨fun h => ⟨ha, hname, .inr happrove, h⟩, fun h => h.2.2.2⟩
  · rw [if_neg hask, if_neg happrove]
    have hother : ¬((srv.sess i).isActive = true ∧ stanza.name = "presence" ∧
        (stanza.prop "type" = "subscribe" ∨ stanza.prop "type" = "subscribed") ∧
        ¬Room srv i (jidParse (o.stack 0) (stanza.prop "to")).jid.bare.str) :=
      fun h => h.2.2.1.elim hask happrove
    rw [or_iff_left hother]
    unfold presenceHandleUnavailable presenceHandleUnsubscribe presenceHandleUnsubscribed
    split
    · rw [crashed_presenceHandleAvailable]
    split
    · rw [Server.modify_crashed, crashed_presenceBroadcastUnavailable]
    split
    · rw [crashed_withdraw]
    split
    · rw [crashed_withdraw]
    · rfl

theorem crashed_stanzaRoute (stanza : Node) :
    (stanzaRoute srv i o stanza).crashed = true ↔ srv.crashed = true ∨ Fatal srv i o stanza := by
  by_cases hon : (srv.sess i).isActive = true ∧ stanza.name = "presence"
  · rw [stanzaRoute_presence hon.1 hon.2]
    exact crashed_handlePresence o hon.1 hon.2
  · have hother : ¬Fatal srv i o stanza := fun h => hon ⟨h.1, h.2.1⟩
    rw [or_iff_left hother]
    suffices h : (stanzaRoute srv i o stanza).crashed = srv.crashed by rw [h]
    unfold stanzaRoute
    split
    · unfold routeBeforeAuth
      split
      · exact crashed_authHandleSasl srv i stanza
      split
      · split
        · exact crashed_registerHandleIq srv i o stanza
        · rfl
      · exact crashed_streamSendError srv i o _
    split
    · exact crashed_handleIq srv i o stanza
    split
    · split
      · exact crashed_handleMessage srv i o stanza
      · exact crashed_streamSendError srv i o _
    split
    · next hname =>
      rw [if_neg fun ha => hon ⟨ha, hname⟩]
      exact crashed_streamSendError srv i o _
    · exact crashed_streamSendError srv i o _

end

example : (stanzaRoute crowded 0 Installation.exampleOracle
    (elem "presence" [attr "type" "subscribe", attr "to" "bob@localhost"] [])).crashed = true := by decide +kernel

/-! ## Runs -/

/-- The position of the parser is nothing to the handlers. -/
theorem fatal_addDepth {srv : Server} {i : ℕ} {o : Oracle} {stanza : Node} (d : ℤ) :
    Fatal (addDepth srv i d) i o stanza ↔ Fatal srv i o stanza := by
  have hactive : ((addDepth srv i d).sess i).isActive = (srv.sess i).isActive :=
    Server.sess_modify_congr Session.isActive srv i i _ fun _ => rfl
  have hroster : ownRoster (addDepth srv i d) i = ownRoster srv i := Outputs.ownRoster_modify srv i i fun _ => rfl
  unfold Fatal Room
  rw [hactive, hroster]

theorem crashed_unrouted {srv : Server} {e : Step} (h : routes srv e = none) : (step srv e).crashed = srv.crashed := by
  unfold step
  split
  · rfl
  next hrun =>
  cases e with
  | accept =>
      dsimp only
      split
      · unfold Server.serverAccept
        split <;> rfl
      · rfl
  | hangup i o =>
      dsimp only
      split
      · exact crashed_sessionTeardown srv i o
      · rfl
  | beginRead i =>
      dsimp only
      split <;> rfl
  | sax i o e =>
      dsimp only
      split
      · next hparsing =>
        cases e with
        | startElement name uri attrs =>
            change (onStartElementNs srv i o name uri attrs).crashed = _
            unfold onStartElementNs
            dsimp only
            split
            · exact crashed_streamHandleOpen (addDepth srv i 1) i o _
            · rfl
        | endElement =>
            have hnone : dispatched (srv.sess i) = none := by
              have hroutes : routes srv (.sax i o .endElement) = (dispatched (srv.sess i)).map fun stanza => (i, o, stanza) :=
                if_pos ⟨Bool.eq_false_iff.mpr hrun, hparsing⟩
              rw [hroutes, Option.map_eq_none_iff] at h
              exact h
            change (onEndElementNs srv i o).crashed = _
            obtain he | he | he := onEndElementNs_cases srv i o (live_of_parsing hparsing) hnone
            · rw [he]
              exact crashed_streamHandleClose (addDepth srv i (-1)) i o
            · rw [he]
              rfl
            · rw [he]
              rfl
        | characters text => rfl
        | error => exact crashed_teardownOrDefer srv i o
      · rfl
  | endRead i o =>
      dsimp only
      split
      · unfold endChunk
        dsimp only
        split
        · exact crashed_sessionTeardown (srv.modify i closeChunk) i o
        · rfl
      · rfl

theorem crashed_step (srv : Server) (e : Step) : (step srv e).crashed = true ↔
    srv.crashed = true ∨ ∃ i o stanza, routes srv e = some (i, o, stanza) ∧ Fatal srv i o stanza := by
  cases hroutes : routes srv e with
  | none =>
      rw [crashed_unrouted hroutes]
      simp
  | some r =>
      obtain ⟨i, o, stanza⟩ := r
      rw [step_routes hroutes, Server.modify_crashed, crashed_stanzaRoute, fatal_addDepth]
      simp [addDepth]

/-- In every run the server has read through a null pointer exactly if a stanza of the run asked for presence or
granted it while the roster of its sender was full and had no item for the address. -/
theorem crashes_iff (cfg : Config) (files : FileTree.Tree Content) (steps : List Step) :
    (run (Server.init cfg files) steps).crashed = true ↔
      ∃ earlier e later i o stanza, steps = earlier ++ e :: later ∧
        routes (run (Server.init cfg files) earlier) e = some (i, o, stanza) ∧
        Fatal (run (Server.init cfg files) earlier) i o stanza := by
  induction steps using List.reverseRecOn with
  | nil => simp [run, Server.init]
  | append_singleton steps e ih =>
      have hlast : run (Server.init cfg files) (steps ++ [e]) = step (run (Server.init cfg files) steps) e := by
        simp [run]
      rw [hlast, crashed_step, ih]
      constructor
      · rintro (⟨earlier, e', later, i, o, stanza, rfl, hroutes, hfatal⟩ | ⟨i, o, stanza, hroutes, hfatal⟩)
        · exact ⟨earlier, e', later ++ [e], i, o, stanza, by simp, hroutes, hfatal⟩
        · exact ⟨steps, e, [], i, o, stanza, rfl, hroutes, hfatal⟩
      · rintro ⟨earlier, e', later, i, o, stanza, hsteps, hroutes, hfatal⟩
        obtain rfl | ⟨later, d, rfl⟩ := List.eq_nil_or_concat' later
        · obtain ⟨rfl, he⟩ := List.append_inj' hsteps rfl
          cases he
          exact .inr ⟨i, o, stanza, hroutes, hfatal⟩
        · rw [← List.cons_append, ← List.append_assoc] at hsteps
          obtain ⟨rfl, -⟩ := List.append_inj' hsteps rfl
          exact .inl ⟨earlier, e', later, i, o, stanza, rfl, hroutes, hfatal⟩

end Xmppd.Crashes
