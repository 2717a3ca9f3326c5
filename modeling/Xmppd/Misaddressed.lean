import Xmppd.SubscriptionEffects
import Xmppd.Recipients

/-!
# A bad address

No handler of a subscription stanza looks at what the address parser returns, and
none compares the domain with its own. Whatever is left in the arrays is looked up,
added to the roster of the sender and used as the name of a file. A stanza changes
nothing only where its changes have been made before.
-/
namespace Xmppd.Misaddressed
open CStrings FileTree LibXml Util ServerState User Roster Message Presence Stanza Frames RosterStore RosterItems Entries
open Confinement Installation MessageFate Outputs Recipients RosterPushes SubscriptionEffects

/-! ## The changes of items -/

/-- The change to the item of the sender. -/
def ownChange : Kind → RosterItem → RosterItem
  | .subscribe => setAsk true
  | .subscribed => grantFrom
  | .unsubscribe => setAsk false ∘ dropTo
  | .unsubscribed => dropFrom

/-- The change to the item of the other side. -/
def otherChange : Kind → RosterItem → RosterItem
  | .subscribe => id
  | .subscribed => setAsk false ∘ grantTo
  | .unsubscribe => dropFrom
  | .unsubscribed => setAsk false ∘ dropTo

def OwnSettled : Kind → RosterItem → Prop
  | .subscribe, item => item.askSubscribe = true
  | .subscribed, item => item.subscription.str ≠ "none" ∧ item.subscription.str ≠ "to"
  | .unsubscribe, item => item.askSubscribe = false ∧ item.subscription.str ≠ "to" ∧ item.subscription.str ≠ "both"
  | .unsubscribed, item => item.subscription.str ≠ "from" ∧ item.subscription.str ≠ "both"

def OtherSettled : Kind → RosterItem → Prop
  | .subscribe, _ => True
  | .subscribed, item => item.askSubscribe = false ∧ item.subscription.str ≠ "none" ∧ item.subscription.str ≠ "from"
  | .unsubscribe, item => item.subscription.str ≠ "from" ∧ item.subscription.str ≠ "both"
  | .unsubscribed, item => item.askSubscribe = false ∧ item.subscription.str ≠ "to" ∧ item.subscription.str ≠ "both"

theorem keepsJid_ownChange (k : Kind) : KeepsJid (ownChange k) := by
  cases k with
  | subscribe => exact keepsJid_setAsk true
  | subscribed => exact moves_grantFrom.jid
  | unsubscribe => exact (keepsJid_setAsk false).comp moves_dropTo.jid
  | unsubscribed => exact moves_dropFrom.jid

theorem keepsJid_otherChange (k : Kind) : KeepsJid (otherChange k) := by
  cases k with
  | subscribe => exact fun _ => rfl
  | subscribed => exact (keepsJid_setAsk false).comp moves_grantTo.jid
  | unsubscribe => exact moves_dropFrom.jid
  | unsubscribed => exact (keepsJid_setAsk false).comp moves_dropTo.jid

section
variable {a a' b b' : Str} {item : RosterItem}

theorem setAsk_eq_self_iff (ask : Bool) : setAsk ask item = item ↔ item.askSubscribe = ask := by
  constructor
  · intro h
    rw [← h]
    rfl
  · intro h
    rw [← h]
    rfl

theorem moveSub_eq_self_iff (ha : a'.take 15 ≠ a) (hb : b'.take 15 ≠ b) :
    moveSub a a' b b' item = item ↔ item.subscription.str ≠ a ∧ item.subscription.str ≠ b := by
  constructor
  · intro h
    have hsub := moveSub_str a a' b b' item
    rw [h] at hsub
    constructor
    · intro hs
      rw [if_pos hs, hs] at hsub
      exact ha hsub.symm
    · intro hs
      by_cases hsa : item.subscription.str = a
      · rw [if_pos hsa, hsa] at hsub
        exact ha hsub.symm
      · rw [if_neg hsa, if_pos hs, hs] at hsub
        exact hb hsub.symm
  · intro h
    unfold moveSub
    rw [if_neg h.1, if_neg h.2]

theorem setAsk_moveSub_eq_self_iff (ha : a'.take 15 ≠ a) (hb : b'.take 15 ≠ b) (ask : Bool) :
    (setAsk ask ∘ moveSub a a' b b') item = item ↔
      item.askSubscribe = ask ∧ item.subscription.str ≠ a ∧ item.subscription.str ≠ b := by
  rw [← moveSub_eq_self_iff ha hb, ← setAsk_eq_self_iff]
  constructor
  · intro h
    have hask : item.askSubscribe = ask := by
      rw [← h]
      rfl
    have hmove : setAsk ask (moveSub a a' b b' item) = moveSub a a' b b' item :=
      (setAsk_eq_self_iff ask).mpr ((moveSub_ask a a' b b' item).trans hask)
    exact ⟨(setAsk_eq_self_iff ask).mpr hask, hmove.symm.trans h⟩
  · intro h
    rw [Function.comp, h.2, h.1]

theorem ownChange_eq_self_iff (k : Kind) : ownChange k item = item ↔ OwnSettled k item := by
  cases k with
  | subscribe => exact setAsk_eq_self_iff true
  | subscribed => exact moveSub_eq_self_iff (by decide) (by decide)
  | unsubscribe => exact setAsk_moveSub_eq_self_iff (by decide) (by decide) false
  | unsubscribed => exact moveSub_eq_self_iff (by decide) (by decide)

theorem otherChange_eq_self_iff (k : Kind) : otherChange k item = item ↔ OtherSettled k item := by
  cases k with
  | subscribe => exact iff_of_true rfl trivial
  | subscribed => exact setAsk_moveSub_eq_self_iff (by decide) (by decide) false
  | unsubscribe => exact moveSub_eq_self_iff (by decide) (by decide)
  | unsubscribed => exact setAsk_moveSub_eq_self_iff (by decide) (by decide) false

/-- A subscription after one move. -/
def moved (a a' b b' sub : Str) : Str := if sub = a then a'.take 15 else if sub = b then b'.take 15 else sub

theorem rests_of_moved {c c' d d' sub : Str} (ha : moved c c' d d' (moved a a' b b' a) ≠ a)
    (hb : moved c c' d d' (moved a a' b b' b) ≠ b) (h : moved c c' d d' (moved a a' b b' sub) = sub) : sub ≠ a ∧ sub ≠ b := by
  constructor
  · intro hs
    rw [hs] at h
    exact ha h
  · intro hs
    rw [hs] at h
    exact hb h

theorem moveSub_twice {c c' d d' : Str} {x : RosterItem}
    (hx : x.subscription.str = (moveSub a a' b b' item).subscription.str) :
    (moveSub c c' d d' x).subscription.str = moved c c' d d' (moved a a' b b' item.subscription.str) := by
  have hmove : ∀ p p' q q' (y : RosterItem), (moveSub p p' q q' y).subscription.str = moved p p' q q' y.subscription.str := moveSub_str
  rw [hmove, hx, hmove]

/-- The second change of an item takes back no part of the first. -/
theorem ownSettled_of_both {k : Kind} (h : otherChange k (ownChange k item) = item) : OwnSettled k item := by
  have hsub := congrArg (fun x : RosterItem => x.subscription.str) h
  have hask := congrArg RosterItem.askSubscribe h
  cases k with
  | subscribe => exact hask.symm
  | subscribed => exact rests_of_moved (by decide) (by decide) ((moveSub_twice rfl).symm.trans hsub)
  | unsubscribe =>
      have hkept := moveSub_ask "from" "none" "both" "to" (setAsk false (dropTo item))
      have htwice := @moveSub_twice "to" "none" "both" "from" item "from" "none" "both" "to" (setAsk false (dropTo item)) rfl
      exact ⟨hask.symm.trans hkept, rests_of_moved (by decide) (by decide) (htwice.symm.trans hsub)⟩
  | unsubscribed => exact rests_of_moved (by decide) (by decide) ((moveSub_twice rfl).symm.trans hsub)

theorem changes_eq_self_iff (k : Kind) : otherChange k (ownChange k item) = item ↔ OwnSettled k item ∧ OtherSettled k item := by
  constructor
  · intro h
    have hown := ownSettled_of_both h
    rw [(ownChange_eq_self_iff k).mpr hown] at h
    exact ⟨hown, (otherChange_eq_self_iff k).mp h⟩
  · intro h
    rw [(ownChange_eq_self_iff k).mpr h.1, (otherChange_eq_self_iff k).mpr h.2]

end

/-! ## The rosters of the two sides -/

section
variable {r : Roster} {k : Kind}

/-- The item that is added where there is none. -/
def addition : Kind → Option (Str × Bool)
  | .subscribe => some ("none", true)
  | .subscribed => some ("from", false)
  | .unsubscribe => none
  | .unsubscribed => none

def Adds (k : Kind) : Prop := (addition k).isSome = true

/-- The own side of the handlers. -/
def ownEdit (k : Kind) (bare : Str) (r : Roster) : Roster :=
  match rosterFindItem r bare with
  | some _ => rosterEdit r bare (ownChange k)
  | none =>
      match addition k with
      | some (sub, ask) => rosterAddItem r bare none (some sub) ask
      | none => r

/-- The own side has nothing to change and nothing to add. -/
structure OwnIdle (k : Kind) (r : Roster) (bare : Str) : Prop where
  settled : ∀ item, rosterFindItem r bare = some item → OwnSettled k item
  full : Adds k → rosterFindItem r bare = none → ¬r.items.length < maxRosterItems

@[simp] theorem ownEdit_loaded (k : Kind) (bare : Str) (r : Roster) : (ownEdit k bare r).loaded = r.loaded := by
  unfold ownEdit
  split
  · rfl
  · split
    · exact rosterAddItem_loaded _ _ _ _ _
    · rfl

theorem ownEdit_found {bare : Str} {item : RosterItem} (h : rosterFindItem r bare = some item) :
    ownEdit k bare r = rosterEdit r bare (ownChange k) := by
  unfold ownEdit
  rw [h]

/-- Where there is no item and none is added, the own side changes nothing. -/
theorem ownEdit_none {bare : Str} (h : rosterFindItem r bare = none) (hfull : Adds k → ¬r.items.length < maxRosterItems) :
    ownEdit k bare r = r := by
  unfold ownEdit
  rw [h]
  unfold Adds at hfull
  cases hadd : addition k with
  | none => rfl
  | some x =>
      rw [hadd] at hfull
      exact rosterAddItem_full h (hfull rfl)

/-- An item that is added makes the roster longer. -/
theorem length_ownEdit {bare : Str} (h : rosterFindItem r bare = none) (ha : Adds k) (hroom : r.items.length < maxRosterItems) :
    (ownEdit k bare r).items.length = r.items.length + 1 := by
  obtain ⟨x, hx⟩ := Option.isSome_iff_exists.mp ha
  unfold ownEdit
  rw [h, hx]
  dsimp only
  rw [rosterAddItem_items h hroom, List.length_append, List.length_singleton]

theorem length_rosterEdit (bare : Str) (f : RosterItem → RosterItem) : (rosterEdit r bare f).items.length = r.items.length :=
  editItem_length bare f r.items

/-- The own side and then the other side of the handler, on one roster. -/
theorem edits_eq_self_iff (bare : Str) : rosterEdit (ownEdit k bare r) bare (otherChange k) = r ↔
    OwnIdle k r bare ∧ ∀ item, rosterFindItem r bare = some item → OtherSettled k item := by
  cases hfind : rosterFindItem r bare with
  | some item =>
      have hown : rosterFindItem (rosterEdit r bare (ownChange k)) bare = some (ownChange k item) := by
        rw [find_rosterEdit_self r (keepsJid_ownChange k), hfind]
        rfl
      have hother : rosterFindItem (rosterEdit (rosterEdit r bare (ownChange k)) bare (otherChange k)) bare =
          some (otherChange k (ownChange k item)) := by
        rw [find_rosterEdit_self _ (keepsJid_otherChange k), hown]
        rfl
      rw [ownEdit_found hfind]
      constructor
      · intro h
        rw [h, hfind] at hother
        have hboth := (changes_eq_self_iff k).mp (Option.some.inj hother).symm
        refine ⟨⟨?_, ?_⟩, ?_⟩
        · intro x hx
          rw [hfind] at hx
          exact Option.some.inj hx ▸ hboth.1
        · intro _ hnone
          rw [hfind] at hnone
          cases hnone
        · intro x hx
          exact Option.some.inj hx ▸ hboth.2
      · intro h
        have hsame : rosterEdit r bare (ownChange k) = r :=
          (rosterEdit_eq_self_iff _ (keepsJid_ownChange k)).mpr fun x hx => (ownChange_eq_self_iff k).mpr (h.1.settled x hx)
        rw [hsame]
        refine (rosterEdit_eq_self_iff _ (keepsJid_otherChange k)).mpr fun x hx => (otherChange_eq_self_iff k).mpr (h.2 x ?_)
        rw [← hx, hfind]
  | none =>
      by_cases hroom : Adds k ∧ r.items.length < maxRosterItems
      · constructor
        · intro h
          have hlen := congrArg (fun r : Roster => r.items.length) h
          rw [length_rosterEdit, length_ownEdit hfind hroom.1 hroom.2] at hlen
          omega
        · exact fun h => absurd hroom.2 (h.1.full hroom.1 hfind)
      · have hfull : Adds k → ¬r.items.length < maxRosterItems := fun ha hlt => hroom ⟨ha, hlt⟩
        rw [ownEdit_none hfind hfull]
        refine iff_of_true (rosterEdit_of_find_none r hfind) ⟨⟨?_, fun ha _ => hfull ha⟩, fun x hx => by cases hx⟩
        intro x hx
        rw [hfind] at hx
        cases hx

theorem ownEdit_eq_self_iff (bare : Str) : ownEdit k bare r = r ↔ OwnIdle k r bare := by
  cases hfind : rosterFindItem r bare with
  | some item =>
      rw [ownEdit_found hfind, rosterEdit_eq_self_iff _ (keepsJid_ownChange k)]
      constructor
      · intro h
        refine ⟨fun x hx => (ownChange_eq_self_iff k).mp (h x hx), ?_⟩
        intro _ hnone
        rw [hfind] at hnone
        cases hnone
      · exact fun h x hx => (ownChange_eq_self_iff k).mpr (h.settled x hx)
  | none =>
      constructor
      · intro h
        refine ⟨?_, ?_⟩
        · intro x hx
          rw [hfind] at hx
          cases hx
        · intro ha _ hroom
          have hlen := length_ownEdit hfind ha hroom
          rw [h] at hlen
          omega
      · exact fun h => ownEdit_none hfind fun ha => h.full ha hfind

end

/-! ## The state before -/

section
variable (k : Kind) (srv : Server) (i : ℕ) (saved : Prop) (jid : Jid)

/-- The own roster is in its file, or a save would fail. -/
def OwnStored : Prop := Stored srv (srv.sess i).jidLocal.str (ownRoster srv i)

/-- The own roster has just been written to the file that the localpart leads to. -/
def OwnFile : Prop :=
  saved ∧ Saves srv (srv.sess i).jidLocal.str ∧ rosterFile srv (srv.sess i).jidLocal.str = rosterFile srv jid.localpart.str

/-- The file of the other side has nothing to change. Where it is the file of the
sender, it has the own roster as the other side changes that. -/
structure FileIdle : Prop where
  same : OwnFile srv i saved jid →
    rosterLoadForUser srv (srv.sess i).jidLocal.str = rosterEdit (ownRoster srv i) (srv.sess i).bareJid.str (otherChange k)
  stored : ¬OwnFile srv i saved jid → saved → OwnStored srv i
  settled : ¬OwnFile srv i saved jid → Saves srv jid.localpart.str → ∀ item,
    rosterFindItem (rosterLoadForUser srv jid.localpart.str) (srv.sess i).bareJid.str = some item → OtherSettled k item

/-- The session that is written to. -/
def reached : Option ℕ :=
  match k with
  | .subscribe => srv.sessionFindByJid jid.bare.str
  | .subscribed => srv.sessionFindByJid jid.bare.str
  | .unsubscribe => host srv i jid
  | .unsubscribed => host srv i jid

/-- The other side has nothing to change, and is not told. -/
def OtherIdle : Prop :=
  match reached k srv i jid with
  | some t => t = i ∧ (saved → OwnStored srv i) ∧
      ∀ item, rosterFindItem (ownRoster srv i) jid.bare.str = some item → OtherSettled k item
  | none => if k = .subscribe then OwnStored srv i else FileIdle k srv i saved jid

/-- Neither side has anything to change. -/
def Idle : Prop :=
  OwnIdle k (ownRoster srv i) jid.bare.str ∧
    match rosterFindItem (ownRoster srv i) jid.bare.str with
    | none => if (addition k).isSome then OwnStored srv i else OtherIdle k srv i False jid
    | some _ => OtherIdle k srv i True jid

end

/-- No roster has changed, in a cache or in a file, and nothing is queued for the others. -/
structure Untouched (srv : Server) (i : ℕ) (srv' : Server) : Prop where
  cached : ∀ t, ownRoster srv' t = ownRoster srv t
  stored : ∀ u, rosterLoadForUser srv' u = rosterLoadForUser srv u
  silent : ∀ t, t ≠ i → (srv'.sess t).out = (srv.sess t).out

section
variable {k : Kind} {srv a b : Server} {i : ℕ} {own : Roster} {disk : Str → Roster} {saved : Prop} {jid : Jid}

theorem untouched_stage (h : Stage srv i own disk a) (hr : own.loaded = true) :
    Untouched srv i a ↔ own = ownRoster srv i ∧ disk = rosterLoadForUser srv := by
  have hown : ownRoster a i = own := by
    rw [ownRoster, h.own, if_pos hr]
  constructor
  · intro hsame
    refine ⟨?_, ?_⟩
    · rw [← hown, hsame.cached]
    · funext u
      rw [← h.disk, hsame.stored]
  · intro hsame
    refine ⟨?_, ?_, h.quiet⟩
    · intro t
      by_cases ht : t = i
      · rw [ht, hown, hsame.1]
      · have hname : (a.sess t).jidLocal = (srv.sess t).jidLocal := h.steady.get Session.jidLocal (fun _ => rfl) t
        rw [ownRoster, ownRoster, h.others t ht, hname, h.disk, hsame.2]
    · intro u
      rw [h.disk, hsame.2]

/-- Another session is written to. -/
theorem touched_of_longer {t : ℕ} (ht : t ≠ i) (h : (srv.sess t).out.length < (b.sess t).out.length) : ¬Untouched srv i b := by
  intro hsame
  rw [hsame.silent t ht] at h
  exact lt_irrefl _ h

/-- What the two saves leave, where the other side is a file. -/
theorem fileIdle_iff (k : Kind) :
    afterSave srv jid.localpart.str
        (rosterEdit (afterSave srv (srv.sess i).jidLocal.str (ownRoster srv i) (rosterLoadForUser srv) jid.localpart.str)
          (srv.sess i).bareJid.str (otherChange k))
        (afterSave srv (srv.sess i).jidLocal.str (ownRoster srv i) (rosterLoadForUser srv)) = rosterLoadForUser srv ↔
      FileIdle k srv i True jid := by
  have hedit : Stored srv jid.localpart.str (rosterEdit (rosterLoadForUser srv jid.localpart.str) (srv.sess i).bareJid.str
      (otherChange k)) ↔ (Saves srv jid.localpart.str → ∀ item,
        rosterFindItem (rosterLoadForUser srv jid.localpart.str) (srv.sess i).bareJid.str = some item → OtherSettled k item) := by
    unfold Stored
    rw [eq_comm (a := rosterLoadForUser srv jid.localpart.str), rosterEdit_eq_self_iff _ (keepsJid_otherChange k)]
    simp only [otherChange_eq_self_iff]
  by_cases hsame : OwnFile srv i True jid
  · obtain ⟨-, hsaves, hfile⟩ := hsame
    have hloaded : afterSave srv (srv.sess i).jidLocal.str (ownRoster srv i) (rosterLoadForUser srv) jid.localpart.str =
        ownRoster srv i := if_pos ⟨hsaves, hfile.symm⟩
    rw [hloaded, afterSave_hidden hfile, afterSave_unchanged_iff]
    unfold Stored
    rw [load_congr hfile.symm]
    constructor
    · intro h
      refine ⟨fun _ => h ((saves_congr hfile).mp hsaves), ?_, ?_⟩
      · exact fun hnot => absurd ⟨trivial, hsaves, hfile⟩ hnot
      · exact fun hnot => absurd ⟨trivial, hsaves, hfile⟩ hnot
    · exact fun h _ => h.same ⟨trivial, hsaves, hfile⟩
  · have hloaded : afterSave srv (srv.sess i).jidLocal.str (ownRoster srv i) (rosterLoadForUser srv) jid.localpart.str =
        rosterLoadForUser srv jid.localpart.str := if_neg fun h => hsame ⟨trivial, h.1, h.2.symm⟩
    rw [hloaded, afterSaves_unchanged_iff, hedit]
    constructor
    · intro h
      refine ⟨fun hown => absurd hown hsame, fun _ _ => ?_, fun _ => h.2⟩
      intro hsaves
      exact h.1 (fun hfile => hsame ⟨trivial, hsaves, hfile⟩) hsaves
    · exact fun h => ⟨fun _ => h.stored hsame trivial, h.settled hsame⟩

/-- The same where nothing was saved before. -/
theorem fileIdle_unsaved_iff (k : Kind) :
    afterSave srv jid.localpart.str
        (rosterEdit (rosterLoadForUser srv jid.localpart.str) (srv.sess i).bareJid.str (otherChange k)) (rosterLoadForUser srv) =
        rosterLoadForUser srv ↔
      FileIdle k srv i False jid := by
  rw [afterSave_unchanged_iff]
  unfold Stored
  rw [eq_comm (a := rosterLoadForUser srv jid.localpart.str), rosterEdit_eq_self_iff _ (keepsJid_otherChange k)]
  simp only [otherChange_eq_self_iff]
  constructor
  · exact fun h => ⟨fun hown => hown.1.elim, fun _ hf => hf.elim, fun _ => h⟩
  · exact fun h => h.settled fun hown => hown.1

/-! ## The state before, case by case -/

theorem own_saved_iff : (ownEdit k jid.bare.str (ownRoster srv i) = ownRoster srv i ∧
      afterSave srv (srv.sess i).jidLocal.str (ownEdit k jid.bare.str (ownRoster srv i)) (rosterLoadForUser srv) =
        rosterLoadForUser srv) ↔ OwnIdle k (ownRoster srv i) jid.bare.str ∧ OwnStored srv i := by
  rw [← ownEdit_eq_self_iff, OwnStored, ← afterSave_unchanged_iff]
  constructor
  · intro h
    have hdisk := h.2
    rw [h.1] at hdisk
    exact ⟨h.1, hdisk⟩
  · intro h
    rw [h.1]
    exact ⟨rfl, h.2⟩

/-- The item that is pushed was there before, where nothing changes. -/
theorem idle_iff_found {item : RosterItem}
    (hfind : rosterFindItem (ownEdit k jid.bare.str (ownRoster srv i)) jid.bare.str = some item) :
    Idle k srv i jid ↔ OwnIdle k (ownRoster srv i) jid.bare.str ∧ OtherIdle k srv i True jid := by
  unfold Idle
  constructor
  · intro h
    have hsame := (ownEdit_eq_self_iff jid.bare.str).mpr h.1
    rw [hsame] at hfind
    rw [hfind] at h
    exact h
  · intro h
    have hsame := (ownEdit_eq_self_iff jid.bare.str).mpr h.1
    rw [hsame] at hfind
    rw [hfind]
    exact h

theorem idle_iff_missing (hfind : rosterFindItem (ownRoster srv i) jid.bare.str = none) :
    Idle k srv i jid ↔ OwnIdle k (ownRoster srv i) jid.bare.str ∧
      if (addition k).isSome then OwnStored srv i else OtherIdle k srv i False jid := by
  unfold Idle
  rw [hfind]

/-- What is found once the own side is done. -/
theorem find_ownEdit_none (hfind : rosterFindItem (ownEdit k jid.bare.str (ownRoster srv i)) jid.bare.str = none) :
    rosterFindItem (ownRoster srv i) jid.bare.str = none := by
  cases hown : rosterFindItem (ownRoster srv i) jid.bare.str with
  | none => rfl
  | some item =>
      rw [ownEdit_found hown, find_rosterEdit_self _ (keepsJid_ownChange k), hown] at hfind
      cases hfind

theorem otherIdle_none (h : reached k srv i jid = none) :
    OtherIdle k srv i saved jid ↔ if k = .subscribe then OwnStored srv i else FileIdle k srv i saved jid := by
  unfold OtherIdle
  rw [h]

theorem otherIdle_some {t : ℕ} (h : reached k srv i jid = some t) :
    OtherIdle k srv i saved jid ↔ t = i ∧ (saved → OwnStored srv i) ∧
      ∀ item, rosterFindItem (ownRoster srv i) jid.bare.str = some item → OtherSettled k item := by
  unfold OtherIdle
  rw [h]

/-! ## The handlers -/

theorem longer_send {t : ℕ} (ht : a.Live t) (n : Node) : (a.sess t).out.length < ((a.stanzaSend t n).sess t).out.length := by
  rw [out_stanzaSend ht, List.length_append, List.length_singleton]
  omega

theorem length_of_writes {P : ℕ → Out → Prop} {t : ℕ} (h : Writes P a b) (ht : b.Live t) :
    (a.sess t).out.length ≤ (b.sess t).out.length := by
  obtain ⟨added, hout, -⟩ := h.out t ht
  rw [hout, List.length_append]
  omega

theorem untouched_send (h : Stage srv i own disk a) (hr : own.loaded = true) {t : ℕ} (ht : srv.Live t) (n : Node) :
    Untouched srv i (a.stanzaSend t n) ↔ t = i ∧ own = ownRoster srv i ∧ disk = rosterLoadForUser srv := by
  by_cases hi : t = i
  · rw [hi, untouched_stage (h.send n) hr]
    exact (and_iff_right rfl).symm
  · refine iff_of_false (touched_of_longer hi ?_) fun hsame => hi hsame.1
    rw [← h.quiet t hi]
    exact longer_send ((h.live t).mpr ht) n

/-- Both sides are the roster of the sender, which is saved after each. -/
theorem both_saved_iff : (rosterEdit (ownEdit k jid.bare.str (ownRoster srv i)) jid.bare.str (otherChange k) = ownRoster srv i ∧
      afterSave srv (srv.sess i).jidLocal.str (rosterEdit (ownEdit k jid.bare.str (ownRoster srv i)) jid.bare.str (otherChange k))
        (afterSave srv (srv.sess i).jidLocal.str (ownEdit k jid.bare.str (ownRoster srv i)) (rosterLoadForUser srv)) =
        rosterLoadForUser srv) ↔
    OwnIdle k (ownRoster srv i) jid.bare.str ∧ OwnStored srv i ∧
      ∀ item, rosterFindItem (ownRoster srv i) jid.bare.str = some item → OtherSettled k item := by
  have hedits := @edits_eq_self_iff (ownRoster srv i) k jid.bare.str
  rw [afterSave_hidden rfl]
  constructor
  · intro h
    have hdisk := h.2
    rw [h.1, afterSave_unchanged_iff] at hdisk
    have hsettled := hedits.mp h.1
    exact ⟨hsettled.1, hdisk, hsettled.2⟩
  · intro h
    have hsame := hedits.mpr ⟨h.1, h.2.2⟩
    rw [hsame, afterSave_unchanged_iff]
    exact ⟨rfl, h.2.1⟩

theorem loaded_afterSave {name v : Str} {r : Roster} (hr : r.loaded = true) :
    (afterSave srv name r (rosterLoadForUser srv) v).loaded = true := by
  unfold afterSave
  split
  · exact hr
  · rfl

/-- Nobody is found for the address, and the approval goes to a file. -/
theorem granted_file_iff (o : Oracle) (hr : (ownEdit .subscribed jid.bare.str (ownRoster srv i)).loaded = true)
    (h : Stage srv i (ownEdit .subscribed jid.bare.str (ownRoster srv i))
      (afterSave srv (srv.sess i).jidLocal.str (ownEdit .subscribed jid.bare.str (ownRoster srv i)) (rosterLoadForUser srv)) a) :
    Untouched srv i (grantTarget a o none jid.localpart.str (srv.sess i).bareJid.str) ↔
      OwnIdle .subscribed (ownRoster srv i) jid.bare.str ∧ FileIdle .subscribed srv i True jid := by
  have hfile := h.saveForUser jid.localpart.str (r := rosterEdit (rosterLoadForUser a jid.localpart.str)
    (srv.sess i).bareJid.str (otherChange .subscribed)) (by rw [rosterEdit_loaded, h.disk]; exact loaded_afterSave hr)
  have hgrant : grantTarget a o none jid.localpart.str (srv.sess i).bareJid.str = rosterSaveForUser a jid.localpart.str
      (rosterEdit (rosterLoadForUser a jid.localpart.str) (srv.sess i).bareJid.str (otherChange .subscribed)) := rfl
  rw [hgrant, untouched_stage hfile hr, h.disk, ← ownEdit_eq_self_iff]
  constructor
  · intro hsame
    have hdisk := hsame.2
    rw [hsame.1, fileIdle_iff] at hdisk
    exact ⟨hsame.1, hdisk⟩
  · intro hidle
    rw [hidle.1, fileIdle_iff]
    exact ⟨rfl, hidle.2⟩

theorem not_idle_of_added (hk : Adds k) (hown : rosterFindItem (ownRoster srv i) jid.bare.str = none)
    (hroom : (ownRoster srv i).items.length < maxRosterItems) : ¬Idle k srv i jid :=
  fun h => h.1.full hk hown hroom

/-- A withdrawal between two sides that have no item for one another. -/
theorem idle_of_stranger (hk : addition k = none) (hsub : k ≠ .subscribe)
    (hown : rosterFindItem (ownRoster srv i) jid.bare.str = none) (hreached : reached k srv i jid = none)
    (hother : rosterFindItem (rosterLoadForUser srv jid.localpart.str) (srv.sess i).bareJid.str = none) : Idle k srv i jid := by
  rw [idle_iff_missing hown, hk, Option.isSome_none, if_neg Bool.false_ne_true, otherIdle_none hreached, if_neg hsub]
  refine ⟨⟨?_, ?_⟩, fun h => h.1.elim, fun _ hf => hf.elim, ?_⟩
  · intro item hfind
    rw [hown] at hfind
    cases hfind
  · intro ha
    rw [Adds, hk] at ha
    cases ha
  · intro _ _ item hfind
    rw [hother] at hfind
    cases hfind

/-- The session found for the address is that of the sender. -/
theorem granted_self (hl : srv.Live i) (o : Oracle) (hr : own.loaded = true) (h : Stage srv i own disk a)
    (localpart bare src dest : Str) :
    Stage srv i (rosterEdit own bare (otherChange .subscribed))
      (afterSave srv (srv.sess i).jidLocal.str (rosterEdit own bare (otherChange .subscribed)) disk)
      (notifySubscribed (grantTarget a o (some i) localpart bare) i (some i) src dest) := by
  have hedit := h.edit hl (f := fun r => rosterEdit r bare (otherChange .subscribed)) hr
  have hhost : loadedSession a (some i) = some i := by
    rw [loadedSession, Option.filter_some, h.own, hr]
    rfl
  have hgrant : Stage srv i (rosterEdit own bare (otherChange .subscribed))
      (afterSave srv (srv.sess i).jidLocal.str (rosterEdit own bare (otherChange .subscribed)) disk)
      (grantTarget a o (some i) localpart bare) := by
    unfold grantTarget
    rw [hhost]
    dsimp only
    split
    · exact hedit.push _ _
    · exact hedit
  unfold notifySubscribed
  dsimp only
  split
  · exact (hgrant.send _).send _
  · exact hgrant.send _

theorem longer_granted {t : ℕ} (ht : a.Live t) (o : Oracle) (localpart bare src dest : Str) :
    (a.sess t).out.length < ((notifySubscribed (grantTarget a o (some t) localpart bare) i (some t) src dest).sess t).out.length := by
  have hgrant := @grantTarget_writes (fun _ _ => True) o (some t) (fun _ _ _ => trivial) a localpart bare
  have hlive : (grantTarget a o (some t) localpart bare).Live t := ((steady_grantTarget a o (some t) localpart bare).live t).mpr ht
  have hle := length_of_writes hgrant hlive
  apply lt_of_le_of_lt hle
  unfold notifySubscribed
  dsimp only
  split
  · exact (longer_send hlive _).trans (longer_send ((Silent.stanzaSend _ t _).steady.live t |>.mpr hlive) _)
  · exact longer_send hlive _

theorem afterSave_congr {disk : Str → Roster} (h : ∀ u v, rosterFile srv u = rosterFile srv v → disk u = disk v) (name : Str)
    (r : Roster) {u v : Str} (hfile : rosterFile srv u = rosterFile srv v) :
    afterSave srv name r disk u = afterSave srv name r disk v := by
  unfold afterSave
  rw [hfile, h u v hfile]

/-- What was read is written. -/
theorem afterSave_read {disk : Str → Roster} (h : ∀ u v, rosterFile srv u = rosterFile srv v → disk u = disk v) (name : Str) :
    afterSave srv name (disk name) disk = disk := by
  funext v
  unfold afterSave
  split
  · next hv => exact (h v name hv.2).symm
  · rfl

/-- Nobody with a roster is found for the address, and the withdrawal goes to a file. -/
theorem withdrawn_file (o : Oracle) (type : Str) (hr : own.loaded = true) (h : Stage srv i own disk a)
    (hload : ∀ v, (disk v).loaded = true) (hcongr : ∀ u v, rosterFile srv u = rosterFile srv v → disk u = disk v)
    (hhost : host srv i jid = none) :
    Stage srv i own
      (afterSave srv jid.localpart.str (rosterEdit (disk jid.localpart.str) (srv.sess i).bareJid.str (otherChange k)) disk)
      (withdrawTarget type (otherChange k) a i o jid) := by
  unfold withdrawTarget
  rw [h.target, h.host hr, hhost, h.bareJid]
  dsimp only
  rw [h.disk]
  cases hfind : rosterFindItem (disk jid.localpart.str) (srv.sess i).bareJid.str with
  | some item => exact h.saveForUser jid.localpart.str (hload jid.localpart.str)
  | none =>
      rw [rosterEdit_of_find_none _ hfind, afterSave_read hcongr]
      exact h

/-- The notices of a withdrawal that the sender gets himself. -/
theorem withdrawn_notices (o : Oracle) (type : Str) (hr : own.loaded = true) (h : Stage srv i own disk a)
    (hhost : host srv i jid = some i) {own' : Roster} {disk' : Str → Roster}
    (hat : Stage srv i own' disk' (withdrawAt a i (o.ident 1) (srv.sess i).bareJid.str (otherChange k))) :
    Stage srv i own' disk' (withdrawTarget type (otherChange k) a i o jid) := by
  unfold withdrawTarget
  rw [h.target, h.host hr, hhost, h.bareJid]
  dsimp only
  split
  · exact (hat.send _).send _
  · exact hat.send _

theorem longer_withdrawn {t : ℕ} (o : Oracle) (type : Str) (theirs : RosterItem → RosterItem) (ht : srv.Live t)
    (hr : own.loaded = true) (h : Stage srv i own disk a) (hhost : host srv i jid = some t) (hi : t ≠ i) :
    (srv.sess t).out.length < ((withdrawTarget type theirs a i o jid).sess t).out.length := by
  have hfound : loadedSession a (a.sessionFindByJid jid.bare.str) = some t := by
    rw [h.target, h.host hr, hhost]
  rw [out_withdrawTarget ((h.live t).mpr ht) hfound, h.quiet t hi]
  simp only [List.length_append, List.length_cons]
  omega

section
variable (hl : srv.Live i) (o : Oracle) {dest : Str} (hjid : (jidParse (o.stack 0) dest).jid = jid)
include hl hjid

/-- A withdrawal by a sender who has an item for the address. -/
theorem withdraw_untouched_found (hreached : reached k srv i jid = host srv i jid) (hk : k ≠ .subscribe) (type : Str)
    {item : RosterItem} (hfind : rosterFindItem (ownRoster srv i) jid.bare.str = some item) :
    Untouched srv i (withdraw type (ownChange k) (otherChange k) srv i o dest) ↔ Idle k srv i jid := by
  have hload := ownRoster_loaded srv i
  have hloaded : (ownEdit k jid.bare.str (ownRoster srv i)).loaded = true := by
    rw [ownEdit_loaded]
    exact hload
  have hown := (Stage.ensure hl).withdrawAt_found hl hload (o.ident 0) (f := ownChange k) hfind
  have hitem : rosterFindItem (ownEdit k jid.bare.str (ownRoster srv i)) jid.bare.str = some (ownChange k item) := by
    rw [ownEdit_found hfind, find_rosterEdit_self _ (keepsJid_ownChange k), hfind]
    rfl
  unfold withdraw
  dsimp only
  rw [hjid, idle_iff_found hitem]
  rw [← ownEdit_found hfind] at hown
  generalize withdrawAt _ i (o.ident 0) jid.bare.str (ownChange k) = a at hown ⊢
  cases hhost : host srv i jid with
  | none =>
      have hfile := withdrawn_file (k := k) o type hloaded hown (fun v => loaded_afterSave hloaded)
        (fun u v => afterSave_congr (fun u v => load_congr) _ _) hhost
      rw [otherIdle_none (hreached.trans hhost), if_neg hk, untouched_stage hfile hloaded, ← ownEdit_eq_self_iff]
      constructor
      · intro hsame
        have hdisk := hsame.2
        rw [hsame.1, fileIdle_iff] at hdisk
        exact ⟨hsame.1, hdisk⟩
      · intro hidle
        rw [hidle.1, fileIdle_iff]
        exact ⟨rfl, hidle.2⟩
  | some t =>
      rw [otherIdle_some (hreached.trans hhost)]
      by_cases hi : t = i
      · rw [hi] at hhost ⊢
        have hself := Server.bareJid_of_found (host_eq_some_iff.mp hhost).1
        have hfound : rosterFindItem (ownEdit k jid.bare.str (ownRoster srv i)) (srv.sess i).bareJid.str =
            some (ownChange k item) := by rw [hself, hitem]
        have hat := hown.withdrawAt_found hl hloaded (o.ident 1) (f := otherChange k) hfound
        rw [untouched_stage (withdrawn_notices o type hloaded hown hhost hat) hloaded, hself, both_saved_iff]
        constructor
        · exact fun h => ⟨h.1, rfl, fun _ => h.2.1, h.2.2⟩
        · exact fun h => ⟨h.1, h.2.2.1 trivial, h.2.2.2⟩
      · have hlive := Server.sessionFindByJid_live (host_eq_some_iff.mp hhost).1
        exact iff_of_false (touched_of_longer hi (longer_withdrawn o type _ hlive hloaded hown hhost hi)) fun h => hi h.2.1

/-- A withdrawal by a sender who has none. -/
theorem withdraw_untouched_missing (hreached : reached k srv i jid = host srv i jid) (hk : addition k = none) (type : Str)
    (hfind : rosterFindItem (ownRoster srv i) jid.bare.str = none) :
    Untouched srv i (withdraw type (ownChange k) (otherChange k) srv i o dest) ↔ Idle k srv i jid := by
  have hload := ownRoster_loaded srv i
  have hown := Stage.ensure hl
  have hadds : ¬Adds k := by
    unfold Adds
    rw [hk]
    exact Bool.false_ne_true
  have hidle : OwnIdle k (ownRoster srv i) jid.bare.str := by
    refine ⟨?_, fun ha => absurd ha hadds⟩
    intro x hx
    rw [hfind] at hx
    cases hx
  unfold withdraw
  dsimp only
  rw [hjid, idle_iff_missing hfind, hk, hown.withdrawAt_none hfind, and_iff_right hidle, Option.isSome_none,
    if_neg Bool.false_ne_true]
  cases hhost : host srv i jid with
  | none =>
      have hfile := withdrawn_file (k := k) o type hload hown (fun _ => rfl) (fun u v => load_congr) hhost
      have hsub : k ≠ .subscribe := by
        rintro rfl
        cases hk
      rw [otherIdle_none (hreached.trans hhost), if_neg hsub, untouched_stage hfile hload, fileIdle_unsaved_iff]
      exact and_iff_right rfl
  | some t =>
      rw [otherIdle_some (hreached.trans hhost)]
      by_cases hi : t = i
      · rw [hi] at hhost ⊢
        have hmissing : rosterFindItem (ownRoster srv i) (srv.sess i).bareJid.str = none := by
          rw [Server.bareJid_of_found (host_eq_some_iff.mp hhost).1, hfind]
        have hat : Stage srv i (ownRoster srv i) (rosterLoadForUser srv)
            (withdrawAt (ensureRoster srv i) i (o.ident 1) (srv.sess i).bareJid.str (otherChange k)) := by
          rw [hown.withdrawAt_none hmissing]
          exact hown
        refine iff_of_true ((untouched_stage (withdrawn_notices o type hload hown hhost hat) hload).mpr ⟨rfl, rfl⟩)
          ⟨rfl, fun hf => hf.elim, ?_⟩
        intro x hx
        rw [hfind] at hx
        cases hx
      · have hlive := Server.sessionFindByJid_live (host_eq_some_iff.mp hhost).1
        exact iff_of_false (touched_of_longer hi (longer_withdrawn o type _ hlive hload hown hhost hi)) fun h => hi h.1

theorem withdraw_untouched_iff (hreached : reached k srv i jid = host srv i jid) (hk : addition k = none) (type : Str) :
    Untouched srv i (withdraw type (ownChange k) (otherChange k) srv i o dest) ↔ Idle k srv i jid := by
  cases hfind : rosterFindItem (ownRoster srv i) jid.bare.str with
  | none => exact withdraw_untouched_missing hl o hjid hreached hk type hfind
  | some item =>
      have hsub : k ≠ .subscribe := by
        rintro rfl
        cases hk
      exact withdraw_untouched_found hl o hjid hreached hsub type hfind

theorem subscribe_untouched_iff : Untouched srv i (presenceHandleSubscribe srv i o dest) ↔ Idle .subscribe srv i jid := by
  have hloaded : (ownEdit .subscribe jid.bare.str (ownRoster srv i)).loaded = true := by
    rw [ownEdit_loaded]
    exact ownRoster_loaded srv i
  have hown := (Stage.ensure hl).edit hl (f := ownEdit .subscribe jid.bare.str) hloaded
  have hedit : requestItem jid.bare.str = ownEdit .subscribe jid.bare.str := rfl
  unfold presenceHandleSubscribe
  dsimp only
  rw [hjid, hedit, hown.own]
  cases hfind : rosterFindItem (ownEdit .subscribe jid.bare.str (ownRoster srv i)) jid.bare.str with
  | none =>
      rw [idle_iff_missing (find_ownEdit_none hfind)]
      exact (untouched_stage hown.crash hloaded).trans own_saved_iff
  | some item =>
      have hpushed := hown.push (o.ident 0) item
      rw [idle_iff_found hfind]
      dsimp only
      rw [hpushed.target]
      cases ht : srv.sessionFindByJid jid.bare.str with
      | none =>
          have hreached : reached .subscribe srv i jid = none := ht
          rw [otherIdle_none hreached]
          exact (untouched_stage hpushed hloaded).trans own_saved_iff
      | some t =>
          have hreached : reached .subscribe srv i jid = some t := ht
          rw [otherIdle_some hreached]
          dsimp only
          rw [untouched_send hpushed hloaded (Server.sessionFindByJid_live ht), own_saved_iff]
          constructor
          · exact fun h => ⟨h.2.1, h.1, fun _ => h.2.2, fun _ _ => trivial⟩
          · exact fun h => ⟨h.2.1, h.1, h.2.2.1 trivial⟩

theorem subscribed_untouched_iff : Untouched srv i (presenceHandleSubscribed srv i o dest) ↔ Idle .subscribed srv i jid := by
  have hloaded : (ownEdit .subscribed jid.bare.str (ownRoster srv i)).loaded = true := by
    rw [ownEdit_loaded]
    exact ownRoster_loaded srv i
  have hown := (Stage.ensure hl).edit hl (f := ownEdit .subscribed jid.bare.str) hloaded
  have hedit : approveItem jid.bare.str = ownEdit .subscribed jid.bare.str := rfl
  unfold presenceHandleSubscribed
  dsimp only
  rw [hjid, hedit, hown.own]
  cases hfind : rosterFindItem (ownEdit .subscribed jid.bare.str (ownRoster srv i)) jid.bare.str with
  | none =>
      rw [idle_iff_missing (find_ownEdit_none hfind)]
      exact (untouched_stage hown.crash hloaded).trans own_saved_iff
  | some item =>
      have hpushed := hown.push (o.ident 0) item
      rw [idle_iff_found hfind]
      dsimp only
      rw [hpushed.target]
      generalize rosterPush _ i (o.ident 0) item = a at hpushed ⊢
      cases ht : srv.sessionFindByJid jid.bare.str with
      | none =>
          have hreached : reached .subscribed srv i jid = none := ht
          rw [otherIdle_none hreached]
          exact granted_file_iff o hloaded hpushed
      | some t =>
          have hreached : reached .subscribed srv i jid = some t := ht
          have hlive := Server.sessionFindByJid_live ht
          rw [otherIdle_some hreached]
          by_cases hi : t = i
          · rw [hi] at ht ⊢
            rw [Server.bareJid_of_found ht, untouched_stage (granted_self hl o hloaded hpushed _ _ _ _) hloaded, both_saved_iff]
            constructor
            · exact fun h => ⟨h.1, rfl, fun _ => h.2.1, h.2.2⟩
            · exact fun h => ⟨h.1, h.2.2.1 trivial, h.2.2.2⟩
          · refine iff_of_false (touched_of_longer hi ?_) fun h => hi h.2.1
            rw [← hpushed.quiet t hi]
            exact longer_granted ((hpushed.live t).mpr hlive) o _ _ _ _

theorem handle_untouched_iff (k : Kind) : Untouched srv i (handle k srv i o dest) ↔ Idle k srv i jid := by
  cases k with
  | subscribe => exact subscribe_untouched_iff hl o hjid
  | subscribed => exact subscribed_untouched_iff hl o hjid
  | unsubscribe =>
      have hsame : handle .unsubscribe srv i o dest =
          withdraw "unsubscribe" (ownChange .unsubscribe) (otherChange .unsubscribe) srv i o dest := rfl
      rw [hsame]
      exact withdraw_untouched_iff (k := .unsubscribe) hl o hjid rfl rfl _
  | unsubscribed =>
      have hsame : handle .unsubscribed srv i o dest =
          withdraw "unsubscribed" (ownChange .unsubscribed) (otherChange .unsubscribed) srv i o dest := rfl
      rw [hsame]
      exact withdraw_untouched_iff (k := .unsubscribed) hl o hjid rfl rfl _

end

end

/-- The parser fails on the address, or it names no account of this server. -/
def BadAddress (srv : Server) (o : Oracle) (stanza : Node) : Prop :=
  (jidParse (o.stack 0) (stanza.prop "to")).ok = false ∨ (addressee o stanza).localpart.str = [] ∨
    (addressee o stanza).domain ≠ srv.cfg.domain

def withdrawalFrom (dest : Str) : Node := elem "presence" [attr "type" "unsubscribe", attr "to" dest] []

end Xmppd.Misaddressed
