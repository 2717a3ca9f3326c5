import Xmppd.Presence

/-!
# Finding items after a change

The handlers find an item by its address, and every change keeps the address of
the item it changes. A change at one address is therefore invisible at every
other, and at its own address it is the change of the item found there.
-/
namespace Xmppd.RosterItems
open CStrings LibXml Util ServerState Roster Presence

/-- A change that keeps the address of the item. -/
def KeepsJid (f : RosterItem → RosterItem) : Prop := ∀ i, (f i).jid = i.jid

theorem keepsJid_moveSub (a a' b b' : Str) : KeepsJid (moveSub a a' b b') := by
  intro i
  unfold moveSub
  split_ifs <;> rfl

theorem keepsJid_setAsk (ask : Bool) : KeepsJid (setAsk ask) := fun _ => rfl

theorem KeepsJid.comp {f g : RosterItem → RosterItem} (hf : KeepsJid f) (hg : KeepsJid g) :
    KeepsJid (f ∘ g) := fun i => (hf (g i)).trans (hg i)

section
variable (r : Roster) {jid other : Str} {f : RosterItem → RosterItem}

theorem find_rosterEdit_self (hf : KeepsJid f) :
    rosterFindItem (rosterEdit r jid f) jid = (rosterFindItem r jid).map f := by
  unfold rosterFindItem rosterEdit
  dsimp only
  induction r.items with
  | nil => rfl
  | cons i is ih =>
      by_cases hi : i.jid.str = jid
      · simp [editItem, hi, hf i]
      · simpa [editItem, hi] using ih

theorem find_rosterEdit_of_ne (hf : KeepsJid f) (hne : other ≠ jid) :
    rosterFindItem (rosterEdit r jid f) other = rosterFindItem r other := by
  unfold rosterFindItem rosterEdit
  dsimp only
  induction r.items with
  | nil => rfl
  | cons i is ih =>
      by_cases hi : i.jid.str = jid
      · have hn : i.jid.str ≠ other := fun h => hne (h.symm.trans hi)
        simp [editItem, hi, hf i, Ne.symm hne]
      · by_cases ho : i.jid.str = other
        · simp [editItem, ho, hne]
        · simpa [editItem, hi, ho] using ih

/-- A change is known by what it does to the item found. -/
theorem rosterEdit_congr {g : RosterItem → RosterItem}
    (h : ∀ i, rosterFindItem r jid = some i → f i = g i) : rosterEdit r jid f = rosterEdit r jid g := by
  refine Roster.ext ?_ rfl
  unfold rosterFindItem at h
  unfold rosterEdit
  dsimp only
  generalize r.items = items at h ⊢
  induction items with
  | nil => rfl
  | cons i is ih =>
      unfold editItem
      split_ifs with hi
      · rw [h i (by simp [hi])]
      · rw [ih (by simpa [hi] using h)]

theorem editItem_id (items : List RosterItem) : editItem jid id items = items := by
  induction items with
  | nil => rfl
  | cons i is ih =>
      unfold editItem
      split_ifs
      · rfl
      · rw [ih]

/-- A change that leaves the item found as it is leaves the roster as it is. -/
theorem rosterEdit_eq_self (h : ∀ i, rosterFindItem r jid = some i → f i = i) : rosterEdit r jid f = r := by
  rw [rosterEdit_congr r (g := id) h]
  exact Roster.ext (editItem_id r.items) rfl

theorem rosterEdit_eq_self_iff (hf : KeepsJid f) :
    rosterEdit r jid f = r ↔ ∀ item, rosterFindItem r jid = some item → f item = item := by
  constructor
  · intro h item hfind
    have hself : rosterFindItem (rosterEdit r jid f) jid = (rosterFindItem r jid).map f := find_rosterEdit_self r hf
    rw [h, hfind] at hself
    exact (Option.some.inj hself).symm
  · exact rosterEdit_eq_self r

theorem rosterEdit_of_find_none (h : rosterFindItem r jid = none) : rosterEdit r jid f = r :=
  rosterEdit_eq_self r fun i hi => by rw [h] at hi; cases hi

end

/-! ## Added items -/

/-- The item `roster_add_item` appends. -/
def newItem (jid : Str) (name subscription : Option Str) (ask : Bool) : RosterItem :=
  ⟨snprintf 512 jid, (name.map (snprintf 256)).getD Buf.empty, snprintf 16 (subscription.getD "none"), ask⟩

section
variable {r : Roster} {jid : Str} {name subscription : Option Str} {ask : Bool}

theorem rosterAddItem_items (hn : rosterFindItem r jid = none) (hb : r.items.length < maxRosterItems) :
    (rosterAddItem r jid name subscription ask).items = r.items ++ [newItem jid name subscription ask] := by
  unfold rosterAddItem
  rw [hn]
  dsimp only
  rw [dif_pos hb]
  rfl

theorem rosterAddItem_full (hn : rosterFindItem r jid = none) (hb : ¬r.items.length < maxRosterItems) :
    rosterAddItem r jid name subscription ask = r := by
  unfold rosterAddItem
  rw [hn]
  dsimp only
  rw [dif_neg hb]

theorem find_append (items : List RosterItem) (i : RosterItem) (c : Str) :
    (items ++ [i]).find? (fun x => x.jid.str = c) =
      (items.find? fun x => x.jid.str = c).or (if i.jid.str = c then some i else none) := by
  rw [List.find?_append]
  congr 1
  by_cases h : i.jid.str = c <;> simp [h]

theorem find_rosterAddItem_of_ne (hn : rosterFindItem r jid = none) {other : Str}
    (hne : other ≠ (snprintf 512 jid).str) :
    rosterFindItem (rosterAddItem r jid name subscription ask) other = rosterFindItem r other := by
  by_cases hb : r.items.length < maxRosterItems
  · unfold rosterFindItem
    rw [rosterAddItem_items hn hb, find_append]
    have : (newItem jid name subscription ask).jid.str ≠ other := Ne.symm hne
    simp [this]
  · rw [rosterAddItem_full hn hb]

end

/-! ## The sender's side of a request and of an approval -/

section
variable (r : Roster) (bare : Buf 512) {other : Str}

theorem find_requestItem_of_ne (hne : other ≠ bare.str) :
    rosterFindItem (requestItem bare.str r) other = rosterFindItem r other := by
  unfold requestItem
  split
  · exact find_rosterEdit_of_ne r (keepsJid_setAsk true) hne
  · rename_i hn
    exact find_rosterAddItem_of_ne hn (by simpa using hne)

theorem find_approveItem_of_ne (hne : other ≠ bare.str) :
    rosterFindItem (approveItem bare.str r) other = rosterFindItem r other := by
  unfold approveItem
  split
  · exact find_rosterEdit_of_ne r (keepsJid_moveSub _ _ _ _) hne
  · rename_i hn
    exact find_rosterAddItem_of_ne hn (by simpa using hne)

end

end Xmppd.RosterItems
