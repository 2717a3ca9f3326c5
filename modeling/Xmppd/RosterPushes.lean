import Xmppd.Confinement
import Xmppd.Entries

/-!
# What is pushed

The handlers of the four subscription stanzas, with `roster_push` as a parameter.
What a push would do with an item that is not in the roster of its session makes no
difference to them, except where the roster of the sender is full and has no item
for the other side: the item that was just added is then not found, and the null
pointer is pushed.
-/
namespace Xmppd.RosterPushes
open CStrings LibXml Util ServerState Roster Presence RosterItems RosterStore Frames Entries Confinement Installation

/-- A session, an identifier and the item, which may be missing. -/
abbrev Push := Server → ℕ → Str → Option RosterItem → Server

/-- `roster_push`, which reads through the pointer. -/
def push : Push
  | srv, i, id, some item => rosterPush srv i id item
  | srv, _, _, none => srv.crash

inductive Kind where
  | subscribe | subscribed | unsubscribe | unsubscribed
deriving DecidableEq, Repr

section
variable (push : Push)

def subscribeBy (srv : Server) (i : ℕ) (o : Oracle) (dest : Str) : Server :=
  let bare := (jidParse (o.stack 0) dest).jid.bare.str
  let srv := ensureRoster srv i
  let srv := modifyRoster srv i (requestItem bare)
  let srv := rosterSave srv i
  match rosterFindItem (srv.sess i).roster bare with
  | none => push srv i (o.ident 0) none
  | some item =>
      let srv := push srv i (o.ident 0) (some item)
      match srv.sessionFindByJid bare with
      | some target => srv.stanzaSend target (subNode "subscribe" (srv.sess i).bareJid.str bare)
      | none => srv

def grantTargetBy (srv : Server) (o : Oracle) (target : Option ℕ) (localpart senderBare : Str) : Server :=
  let update (r : Roster) : Roster := rosterEdit r senderBare (setAsk false ∘ grantTo)
  match loadedSession srv target with
  | some t =>
      let found := rosterFindItem (srv.sess t).roster senderBare
      let srv := modifyRoster srv t update
      let srv := rosterSave srv t
      match found with
      | some item => push srv t (o.ident 1) (some (setAsk false (grantTo item)))
      | none => srv
  | none => rosterSaveForUser srv localpart (update (rosterLoadForUser srv localpart))

def subscribedBy (srv : Server) (i : ℕ) (o : Oracle) (dest : Str) : Server :=
  let jid := (jidParse (o.stack 0) dest).jid
  let targetBare := jid.bare.str
  let senderBare := (srv.sess i).bareJid.str
  let srv := ensureRoster srv i
  let srv := modifyRoster srv i (approveItem targetBare)
  let srv := rosterSave srv i
  match rosterFindItem (srv.sess i).roster targetBare with
  | none => push srv i (o.ident 0) none
  | some item =>
      let srv := push srv i (o.ident 0) (some item)
      let target := srv.sessionFindByJid targetBare
      let srv := grantTargetBy push srv o target jid.localpart.str senderBare
      notifySubscribed srv i target senderBare targetBare

def withdrawAtBy (srv : Server) (i : ℕ) (id jid : Str) (f : RosterItem → RosterItem) : Server :=
  match rosterFindItem (srv.sess i).roster jid with
  | some item =>
      let srv := modifyRoster srv i fun r => rosterEdit r jid f
      let srv := rosterSave srv i
      push srv i id (some (f item))
  | none => srv

def withdrawTargetBy (type : Str) (theirs : RosterItem → RosterItem) (srv : Server) (i : ℕ) (o : Oracle)
    (jid : Jid) : Server :=
  let senderBare := (srv.sess i).bareJid.str
  match loadedSession srv (srv.sessionFindByJid jid.bare.str) with
  | some t =>
      let srv := withdrawAtBy push srv t (o.ident 1) senderBare theirs
      let srv := srv.stanzaSend t (subNode type senderBare jid.bare.str)
      if (srv.sess i).available then
        srv.stanzaSend t (unavailableNode (srv.sess i).fullJid.str)
      else srv
  | none =>
      let r := rosterLoadForUser srv jid.localpart.str
      match rosterFindItem r senderBare with
      | some _ => rosterSaveForUser srv jid.localpart.str (rosterEdit r senderBare theirs)
      | none => srv

def withdrawBy (type : Str) (own theirs : RosterItem → RosterItem) (srv : Server) (i : ℕ) (o : Oracle) (dest : Str) : Server :=
  let jid := (jidParse (o.stack 0) dest).jid
  let srv := ensureRoster srv i
  let srv := withdrawAtBy push srv i (o.ident 0) jid.bare.str own
  withdrawTargetBy push type theirs srv i o jid

/-- The handler of a subscription stanza, given what it uses to push. -/
def handleBy : Kind → Server → ℕ → Oracle → Str → Server
  | .subscribe => subscribeBy push
  | .subscribed => subscribedBy push
  | .unsubscribe => withdrawBy push "unsubscribe" (setAsk false ∘ dropTo) dropFrom
  | .unsubscribed => withdrawBy push "unsubscribed" dropFrom (setAsk false ∘ dropTo)

end

/-- The handler of a subscription stanza. -/
def handle : Kind → Server → ℕ → Oracle → Str → Server
  | .subscribe => presenceHandleSubscribe
  | .subscribed => presenceHandleSubscribed
  | .unsubscribe => presenceHandleUnsubscribe
  | .unsubscribed => presenceHandleUnsubscribed

/-- With `roster_push` for the parameter they are the handlers. -/
theorem handleBy_push (k : Kind) (srv : Server) (i : ℕ) (o : Oracle) (dest : Str) :
    handleBy push k srv i o dest = handle k srv i o dest := by
  cases k <;> rfl

/-- Both treat an item alike that is in the roster of its session. -/
def Agree (p q : Push) : Prop :=
  ∀ srv i id item, item ∈ (srv.sess i).roster.items → p srv i id (some item) = q srv i id (some item)

/-- Only items in the roster of their session are pushed. -/
def OwnOnly (h : Push → Server) : Prop := ∀ p q, Agree p q → h p = h q

section
variable {srv : Server} {i : ℕ} {o : Oracle} {p q : Push}

/-- The roster of a session that has an item is that of an entry of the table. -/
theorem live_of_find {bare : Str} {item : RosterItem} (h : rosterFindItem (srv.sess i).roster bare = some item) : srv.Live i := by
  by_contra hl
  rw [Server.sess_of_not_live hl] at h
  cases h

theorem roster_edited (hl : srv.Live i) (f : Roster → Roster) :
    ((rosterSave (modifyRoster srv i f) i).sess i).roster = f (srv.sess i).roster := by
  rw [Server.sess, rosterSave, rosterSaveForUser_sessions]
  exact modifyRoster_roster hl f

theorem out_ensureRoster (srv : Server) (i t : ℕ) : ((ensureRoster srv i).sess t).out = (srv.sess t).out := by
  unfold ensureRoster
  split
  · rfl
  · exact Server.sess_modify_congr Session.out srv i t _ fun _ => rfl

/-- A roster changed and saved leaves the outputs alone. -/
theorem out_editSave (srv : Server) (i t : ℕ) (f : Roster → Roster) :
    ((rosterSave (modifyRoster srv i f) i).sess t).out = (srv.sess t).out := by
  rw [Server.sess, rosterSave, rosterSaveForUser_sessions]
  exact Server.sess_modify_congr Session.out srv i t _ fun _ => rfl

/-- An item that was found is in the roster as it is changed. -/
theorem mem_edited {bare : Str} {item : RosterItem} (f : RosterItem → RosterItem) (hf : KeepsJid f)
    (h : rosterFindItem (srv.sess i).roster bare = some item) :
    f item ∈ ((rosterSave (modifyRoster srv i fun r => rosterEdit r bare f) i).sess i).roster.items := by
  have hfind : rosterFindItem (rosterEdit (srv.sess i).roster bare f) bare = some (f item) := by
    rw [find_rosterEdit_self _ hf, h]
    rfl
  rw [roster_edited (live_of_find h)]
  exact List.mem_of_find?_eq_some hfind

theorem withdrawAtBy_congr (h : Agree p q) (id bare : Str) {f : RosterItem → RosterItem} (hf : KeepsJid f) :
    withdrawAtBy p srv i id bare f = withdrawAtBy q srv i id bare f := by
  unfold withdrawAtBy
  cases hfind : rosterFindItem (srv.sess i).roster bare with
  | none => rfl
  | some item => exact h _ _ _ _ (mem_edited f hf hfind)

theorem withdrawTargetBy_congr (h : Agree p q) (type : Str) {theirs : RosterItem → RosterItem} (hf : KeepsJid theirs) (jid : Jid) :
    withdrawTargetBy p type theirs srv i o jid = withdrawTargetBy q type theirs srv i o jid := by
  unfold withdrawTargetBy
  cases loadedSession srv (srv.sessionFindByJid jid.bare.str) with
  | none => rfl
  | some t =>
      dsimp only
      rw [withdrawAtBy_congr h _ _ hf]

theorem ownOnly_withdraw (type : Str) {own theirs : RosterItem → RosterItem} (hown : KeepsJid own) (htheirs : KeepsJid theirs)
    (dest : Str) : OwnOnly fun p => withdrawBy p type own theirs srv i o dest := by
  intro p q h
  unfold withdrawBy
  dsimp only
  rw [withdrawAtBy_congr h _ _ hown, withdrawTargetBy_congr h type htheirs]

theorem grantTargetBy_congr (h : Agree p q) (target : Option ℕ) (localpart senderBare : Str) :
    grantTargetBy p srv o target localpart senderBare = grantTargetBy q srv o target localpart senderBare := by
  unfold grantTargetBy
  cases loadedSession srv target with
  | none => rfl
  | some t =>
      dsimp only
      cases hfind : rosterFindItem (srv.sess t).roster senderBare with
      | none => rfl
      | some item => exact h _ _ _ _ (mem_edited _ (.comp (keepsJid_setAsk false) moves_grantTo.jid) hfind)

/-- The roster of the sender has an item for the other side, or room for one. -/
def Room (srv : Server) (i : ℕ) (bare : Str) : Prop :=
  (ownRoster srv i).items.length < maxRosterItems ∨ (rosterFindItem (ownRoster srv i) bare).isSome

/-- The item that was added is found exactly if there was room for it. -/
theorem find_added {r : Roster} {bare : Buf 512} {sub : Option Str} {ask : Bool} (hn : rosterFindItem r bare.str = none) :
    (rosterFindItem (rosterAddItem r bare.str none sub ask) bare.str).isSome ↔ r.items.length < maxRosterItems := by
  by_cases hb : r.items.length < maxRosterItems
  · have hfind : rosterFindItem (rosterAddItem r bare.str none sub ask) bare.str = some (newItem bare.str none sub ask) := by
      rw [rosterFindItem, rosterAddItem_items hn hb, find_append]
      unfold rosterFindItem at hn
      rw [hn]
      simp [newItem]
    rw [hfind]
    exact iff_of_true rfl hb
  · rw [rosterAddItem_full hn hb, hn]
    exact iff_of_false (by decide) hb

theorem find_requestItem (r : Roster) (bare : Buf 512) :
    (rosterFindItem (requestItem bare.str r) bare.str).isSome ↔
      r.items.length < maxRosterItems ∨ (rosterFindItem r bare.str).isSome := by
  unfold requestItem
  cases hfind : rosterFindItem r bare.str with
  | some item =>
      dsimp only
      rw [find_rosterEdit_self r (keepsJid_setAsk true), hfind]
      simp
  | none =>
      dsimp only
      rw [find_added hfind]
      simp

theorem find_approveItem_iff (r : Roster) (bare : Buf 512) :
    (rosterFindItem (approveItem bare.str r) bare.str).isSome ↔
      r.items.length < maxRosterItems ∨ (rosterFindItem r bare.str).isSome := by
  unfold approveItem
  cases hfind : rosterFindItem r bare.str with
  | some item =>
      dsimp only
      rw [find_rosterEdit_self r moves_grantFrom.jid, hfind]
      simp
  | none =>
      dsimp only
      rw [find_added hfind]
      simp

/-- The roster of the sender once its own side is done. -/
theorem roster_ensured (hl : srv.Live i) (f : Roster → Roster) :
    ((rosterSave (modifyRoster (ensureRoster srv i) i f) i).sess i).roster = f (ownRoster srv i) :=
  ((Own.ensure hl).edit hl f).roster

/-- A push that says whether it has been given an item. -/
def flagged (b : Bool) : Push
  | srv, _, _, some _ => srv
  | srv, _, _, none => { srv with crashed := b }

theorem agree_flagged : Agree (flagged true) (flagged false) := fun _ _ _ _ _ => rfl

theorem flagged_none (srv : Server) (i : ℕ) (id : Str) : flagged true srv i id none ≠ flagged false srv i id none :=
  fun h => Bool.noConfusion (congrArg Server.crashed h)

section
variable (hl : srv.Live i) (o : Oracle) {dest : Str} {jid : Jid} (hjid : (jidParse (o.stack 0) dest).jid = jid)
include hl hjid

theorem ownOnly_subscribe_iff : OwnOnly (fun p => subscribeBy p srv i o dest) ↔ Room srv i jid.bare.str := by
  rw [Room, ← find_requestItem, ← roster_ensured hl (requestItem jid.bare.str)]
  unfold subscribeBy OwnOnly
  dsimp only
  rw [hjid]
  cases hfind : rosterFindItem
      ((rosterSave (modifyRoster (ensureRoster srv i) i (requestItem jid.bare.str)) i).sess i).roster jid.bare.str with
  | none => exact iff_of_false (fun h => flagged_none _ _ _ (h _ _ agree_flagged)) (by simp)
  | some item =>
      refine iff_of_true ?_ rfl
      intro p q h
      dsimp only
      rw [h _ _ _ _ (List.mem_of_find?_eq_some hfind)]

theorem ownOnly_subscribed_iff : OwnOnly (fun p => subscribedBy p srv i o dest) ↔ Room srv i jid.bare.str := by
  rw [Room, ← find_approveItem_iff, ← roster_ensured hl (approveItem jid.bare.str)]
  unfold subscribedBy OwnOnly
  dsimp only
  rw [hjid]
  cases hfind : rosterFindItem
      ((rosterSave (modifyRoster (ensureRoster srv i) i (approveItem jid.bare.str)) i).sess i).roster jid.bare.str with
  | none => exact iff_of_false (fun h => flagged_none _ _ _ (h _ _ agree_flagged)) (by simp)
  | some item =>
      refine iff_of_true ?_ rfl
      intro p q h
      dsimp only
      rw [h _ _ _ _ (List.mem_of_find?_eq_some hfind), grantTargetBy_congr h]

end

/-! ## What the roster has afterwards -/

/-- The roster of the session has an item at the address. -/
def Listed (srv : Server) (i : ℕ) (bare : Str) : Prop := (rosterFindItem (srv.sess i).roster bare).isSome

theorem Listed.silent {a b : Server} {bare : Str} (h : Silent a b) : Listed b i bare ↔ Listed a i bare := by
  unfold Listed
  rw [h.get Session.roster (fun _ => rfl) i]

/-- The other side of an approval changes items, and adds and removes none. -/
theorem listed_grantTarget {a : Server} (target : Option ℕ) (localpart senderBare bare : Str) :
    Listed (grantTarget a o target localpart senderBare) i bare ↔ Listed a i bare := by
  unfold grantTarget
  cases hload : loadedSession a target with
  | none =>
      dsimp only
      unfold Listed
      rw [Server.sess, rosterSaveForUser_sessions]
      rfl
  | some t =>
      have hedit : Listed (rosterSave (modifyRoster a t fun r => rosterEdit r senderBare (setAsk false ∘ grantTo)) t) i bare ↔
          Listed a i bare := by
        unfold Listed
        by_cases hi : i = t
        · rw [hi]
          have hloaded := (Option.filter_eq_some_iff.mp hload).2
          have hlive : a.Live t := by
            by_contra hnot
            rw [Server.sess_of_not_live hnot] at hloaded
            cases hloaded
          rw [roster_edited hlive, find_isSome_rosterEdit (.comp (keepsJid_setAsk false) moves_grantTo.jid)]
        · rw [Server.sess, rosterSave, rosterSaveForUser_sessions]
          change (rosterFindItem ((modifyRoster a t _).sess i).roster bare).isSome = true ↔ _
          rw [modifyRoster, Server.sess_modify_of_ne _ _ _ _ hi]
      dsimp only
      split
      · rw [Listed.silent (silent_rosterPush _ t _ _)]
        exact hedit
      · exact hedit

section
variable (hl : srv.Live i) (o : Oracle) {dest : Str} {jid : Jid} (hjid : (jidParse (o.stack 0) dest).jid = jid)
include hl hjid

theorem listed_subscribe (h : Room srv i jid.bare.str) : Listed (presenceHandleSubscribe srv i o dest) i jid.bare.str := by
  have hown := (Own.ensure hl).edit hl (requestItem jid.bare.str)
  rw [Room, ← find_requestItem] at h
  have hlisted : Listed (rosterSave (modifyRoster (ensureRoster srv i) i (requestItem jid.bare.str)) i) i jid.bare.str := by
    rw [Listed, hown.roster]
    exact h
  unfold presenceHandleSubscribe
  dsimp only
  rw [hjid]
  split
  · exact (Listed.silent (.crash _)).mpr hlisted
  · have hpushed := fun item => (Listed.silent (silent_rosterPush _ i (o.ident 0) item)).mpr hlisted
    split
    · exact (Listed.silent (.stanzaSend _ _ _)).mpr (hpushed _)
    · exact hpushed _

theorem listed_subscribed (h : Room srv i jid.bare.str) : Listed (presenceHandleSubscribed srv i o dest) i jid.bare.str := by
  have hown := (Own.ensure hl).edit hl (approveItem jid.bare.str)
  rw [Room, ← find_approveItem_iff] at h
  have hlisted : Listed (rosterSave (modifyRoster (ensureRoster srv i) i (approveItem jid.bare.str)) i) i jid.bare.str := by
    rw [Listed, hown.roster]
    exact h
  unfold presenceHandleSubscribed
  dsimp only
  rw [hjid]
  split
  · exact (Listed.silent (.crash _)).mpr hlisted
  · rw [Listed.silent (silent_notifySubscribed _ i _ _ _), listed_grantTarget, Listed.silent (silent_rosterPush _ i (o.ident 0) _)]
    exact hlisted

end

/-- A subscription stanza pushes items of the roster only, and leaves an item for the other
side, exactly if the sender asks or approves with an item or room for one. -/
theorem pushes_own_iff (hl : srv.Live i) (o : Oracle) (dest : Str) (k : Kind) :
    (OwnOnly (fun p => handleBy p k srv i o dest) ∧
        (k = .subscribe ∨ k = .subscribed → Listed (handle k srv i o dest) i (jidParse (o.stack 0) dest).jid.bare.str)) ↔
      (k = .subscribe ∨ k = .subscribed → Room srv i (jidParse (o.stack 0) dest).jid.bare.str) := by
  cases k with
  | subscribe =>
      have hown := ownOnly_subscribe_iff hl o (Eq.refl (jidParse (o.stack 0) dest).jid)
      constructor
      · exact fun h _ => hown.mp h.1
      · intro h
        have hroom := h (.inl rfl)
        exact ⟨hown.mpr hroom, fun _ => listed_subscribe hl o rfl hroom⟩
  | subscribed =>
      have hown := ownOnly_subscribed_iff hl o (Eq.refl (jidParse (o.stack 0) dest).jid)
      constructor
      · exact fun h _ => hown.mp h.1
      · intro h
        have hroom := h (.inr rfl)
        exact ⟨hown.mpr hroom, fun _ => listed_subscribed hl o rfl hroom⟩
  | unsubscribe =>
      have hown : OwnOnly fun p => handleBy p .unsubscribe srv i o dest :=
        ownOnly_withdraw _ (.comp (keepsJid_setAsk false) moves_dropTo.jid) moves_dropFrom.jid dest
      exact iff_of_true ⟨hown, by simp⟩ (by simp)
  | unsubscribed =>
      have hown : OwnOnly fun p => handleBy p .unsubscribed srv i o dest :=
        ownOnly_withdraw _ moves_dropFrom.jid (.comp (keepsJid_setAsk false) moves_dropTo.jid) dest
      exact iff_of_true ⟨hown, by simp⟩ (by simp)

end

/-! ## A full roster -/

/-- The contacts `0@localhost` to `127@localhost`. -/
def manyContacts : Roster where
  items := (List.range maxRosterItems).map fun n => newItem (Nat.toDigits 10 n ++ ("@localhost" : Str)) none none false
  bound := by simp
  loaded := true

def crowded : Server := modifyRoster aliceBound 0 fun _ => manyContacts

set_option maxRecDepth 20000 in
/-- Alice, who has no contacts, asks for the presence of bob. -/
theorem request_pushed :
    OwnOnly (fun p => handleBy p .subscribe aliceBound 0 exampleOracle "bob@localhost") ∧
      (Kind.subscribe = .subscribe ∨ Kind.subscribe = .subscribed →
        Listed (handle .subscribe aliceBound 0 exampleOracle "bob@localhost") 0
          (jidParse (exampleOracle.stack 0) "bob@localhost").jid.bare.str) :=
  (pushes_own_iff (by decide +kernel) exampleOracle "bob@localhost" .subscribe).mpr fun _ => .inl (by decide +kernel)

set_option maxRecDepth 20000 in
/-- With 128 other contacts the null pointer is pushed. -/
theorem full_roster_pushed :
    ¬∀ (srv : Server) (i : ℕ) (o : Oracle) (dest : Str) (k : Kind), srv.Live i → (srv.sess i).roster.loaded = true →
      OwnOnly (fun p => handleBy p k srv i o dest) ∧
        (k = .subscribe ∨ k = .subscribed → Listed (handle k srv i o dest) i (jidParse (o.stack 0) dest).jid.bare.str) := by
  intro h
  have hl : crowded.Live 0 := by decide +kernel
  have hroom := (pushes_own_iff hl exampleOracle "bob@localhost" .subscribe).mp
    (h crowded 0 exampleOracle "bob@localhost" .subscribe hl (by decide +kernel)) (.inl rfl)
  exact absurd hroom (by unfold Room; decide +kernel)

end Xmppd.RosterPushes
