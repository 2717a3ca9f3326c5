import Xmppd.RosterItems
import Xmppd.Grants

/-!
# Rosters as pages of a ledger

The subscription attribute has four values, and in each the two directions can
be read off. The handlers change the first item with an address; a later item
with the same address comes only from an address cut to its array, and has no
direction. A roster is therefore a page with one entry for every address, and
each change of a roster is a change of one entry.
-/
namespace Xmppd.Entries
open CStrings LibXml Util ServerState Roster Presence RosterItems Grants

/-- The subscription is one of the four values. -/
def Regular (item : RosterItem) : Prop :=
  item.subscription.str = "none" ∨ item.subscription.str = "to" ∨
    item.subscription.str = "from" ∨ item.subscription.str = "both"

def linkOf (item : RosterItem) : Link :=
  ⟨subHasTo item.subscription.str, subHasFrom item.subscription.str⟩

/-- What the roster says about an address. -/
def entry (r : Roster) (bare : Str) : Option Link := (rosterFindItem r bare).map linkOf

/-- Every item is regular, of the items with one address only the first has a
direction, and it has one only at the addresses where there may be one. -/
structure Tidy (P : Buf 512 → Prop) (r : Roster) : Prop where
  regular : ∀ item ∈ r.items, Regular item
  first : r.items.Pairwise fun x y => x.jid = y.jid → linkOf y = Link.bare
  placed : ∀ item ∈ r.items, linkOf item ≠ Link.bare → P item.jid

/-- A change of an item that keeps its address, and changes its link by `g`. -/
structure Moves (f : RosterItem → RosterItem) (g : Link → Link) : Prop where
  jid : KeepsJid f
  regular : ∀ item, Regular item → Regular (f item)
  link : ∀ item, Regular item → linkOf (f item) = g (linkOf item)

theorem linkOf_eq {item : RosterItem} {sub : Str} (h : item.subscription.str = sub) :
    linkOf item = ⟨subHasTo sub, subHasFrom sub⟩ := by rw [linkOf, h]

theorem moveSub_str (a a' b b' : Str) (item : RosterItem) :
    (moveSub a a' b b' item).subscription.str =
      if item.subscription.str = a then a'.take 15
      else if item.subscription.str = b then b'.take 15 else item.subscription.str := by
  unfold moveSub
  split_ifs <;> rfl

theorem moveSub_ask (a a' b b' : Str) (item : RosterItem) : (moveSub a a' b b' item).askSubscribe = item.askSubscribe := by
  unfold moveSub
  split_ifs <;> rfl

/-- A subscription change is determined by what it does to the four values. -/
theorem moves_moveSub {a a' b b' : Str} {g : Link → Link} (hr : ∀ sub : Str,
    (sub = "none" ∨ sub = "to" ∨ sub = "from" ∨ sub = "both") →
      let sub' := if sub = a then a'.take 15 else if sub = b then b'.take 15 else sub
      (sub' = "none" ∨ sub' = "to" ∨ sub' = "from" ∨ sub' = "both") ∧
        (⟨subHasTo sub', subHasFrom sub'⟩ : Link) = g ⟨subHasTo sub, subHasFrom sub⟩) :
    Moves (moveSub a a' b b') g where
  jid := keepsJid_moveSub a a' b b'
  regular item h := by
    have := (hr _ h).1
    rwa [← moveSub_str] at this
  link item h := by
    have := (hr _ h).2
    rwa [← moveSub_str] at this

theorem moves_grantFrom : Moves grantFrom (setAdmits true) := by
  apply moves_moveSub
  rintro sub (rfl | rfl | rfl | rfl) <;> decide

theorem moves_grantTo : Moves grantTo (setFollows true) := by
  apply moves_moveSub
  rintro sub (rfl | rfl | rfl | rfl) <;> decide

theorem moves_dropTo : Moves dropTo (setFollows false) := by
  apply moves_moveSub
  rintro sub (rfl | rfl | rfl | rfl) <;> decide

theorem moves_dropFrom : Moves dropFrom (setAdmits false) := by
  apply moves_moveSub
  rintro sub (rfl | rfl | rfl | rfl) <;> decide

theorem moves_setAsk (ask : Bool) : Moves (setAsk ask) id :=
  ⟨keepsJid_setAsk ask, fun _ h => h, fun _ _ => rfl⟩

theorem Moves.ask {f : RosterItem → RosterItem} {g : Link → Link} (h : Moves f g) (ask : Bool) :
    Moves (setAsk ask ∘ f) g :=
  ⟨(keepsJid_setAsk ask).comp h.jid, h.regular, h.link⟩

/-! ## Changing an item -/

theorem mem_editItem {jid : Str} {f : RosterItem → RosterItem} {items : List RosterItem} {x : RosterItem}
    (h : x ∈ editItem jid f items) : x ∈ items ∨ ∃ y ∈ items, y.jid.str = jid ∧ x = f y := by
  induction items with
  | nil => cases h
  | cons i is ih =>
      unfold editItem at h
      split_ifs at h with hi
      · rcases List.mem_cons.mp h with h | h
        · exact Or.inr ⟨i, by simp, hi, h⟩
        · exact Or.inl (by simp [h])
      · rcases List.mem_cons.mp h with h | h
        · exact Or.inl (by simp [h])
        · rcases ih h with h | ⟨y, hy, hj, hx⟩
          · exact Or.inl (by simp [h])
          · exact Or.inr ⟨y, by simp [hy], hj, hx⟩

theorem pairwise_editItem {jid : Str} {f : RosterItem → RosterItem} (hf : KeepsJid f)
    {items : List RosterItem} (h : items.Pairwise fun x y => x.jid = y.jid → linkOf y = Link.bare) :
    (editItem jid f items).Pairwise fun x y => x.jid = y.jid → linkOf y = Link.bare := by
  induction items with
  | nil => exact .nil
  | cons i is ih =>
      obtain ⟨hi, his⟩ := List.pairwise_cons.mp h
      unfold editItem
      split_ifs with hj
      · refine List.pairwise_cons.mpr ⟨?_, his⟩
        intro y hy
        rw [hf i]
        exact hi y hy
      · refine List.pairwise_cons.mpr ⟨?_, ih his⟩
        intro y hy he
        rcases mem_editItem hy with hy | ⟨z, -, hz, rfl⟩
        · exact hi y hy he
        · rw [hf z] at he
          exact absurd (by rw [he]; exact hz) hj

section
variable {P : Buf 512 → Prop} {r : Roster} (ht : Tidy P r)
include ht

/-- A direction is added only where there may be one. -/
theorem Tidy.edit {f : RosterItem → RosterItem} {g : Link → Link} (hf : Moves f g) (jid : Str)
    (hg : g Link.bare = Link.bare ∨ ∀ b : Buf 512, b.str = jid → P b) : Tidy P (rosterEdit r jid f) := by
  constructor
  · intro item hi
    rcases mem_editItem hi with hi | ⟨y, hy, -, rfl⟩
    · exact ht.regular item hi
    · exact hf.regular y (ht.regular y hy)
  · exact pairwise_editItem hf.jid ht.first
  · intro item hi hl
    rcases mem_editItem hi with hi | ⟨y, hy, hj, rfl⟩
    · exact ht.placed item hi hl
    · rw [hf.jid y]
      rcases hg with hg | hg
      · refine ht.placed y hy fun hb => hl ?_
        rw [hf.link y (ht.regular y hy), hb, hg]
      · exact hg _ hj

theorem entry_edit {f : RosterItem → RosterItem} {g : Link → Link} (hf : Moves f g) (jid bare : Str) :
    entry (rosterEdit r jid f) bare = if bare = jid then (entry r bare).map g else entry r bare := by
  unfold entry
  split_ifs with h
  · rw [h, find_rosterEdit_self r hf.jid, Option.map_map, Option.map_map]
    cases hi : rosterFindItem r jid with
    | none => rfl
    | some item => exact congrArg some (hf.link item (ht.regular item (List.mem_of_find?_eq_some hi)))
  · rw [find_rosterEdit_of_ne r hf.jid h]

/-- The first item with an address speaks for all of them. -/
theorem Tidy.entry_of_mem {item : RosterItem} (hi : item ∈ r.items) (hl : linkOf item ≠ Link.bare) :
    entry r item.jid.str = some (linkOf item) := by
  unfold entry rosterFindItem
  have hp := ht.first
  generalize r.items = items at hi hp
  induction items with
  | nil => cases hi
  | cons x xs ih =>
      obtain ⟨hx, hxs⟩ := List.pairwise_cons.mp hp
      rcases List.mem_cons.mp hi with rfl | hi
      · simp
      · have hne : x.jid.str ≠ item.jid.str := fun he => hl (hx item hi (Buf.ext he))
        simpa [hne] using ih hi hxs

/-! ## Adding an item -/

theorem tidy_append {item : RosterItem} (hr : Regular item)
    (hf : linkOf item = Link.bare ∨ rosterFindItem r item.jid.str = none ∧ P item.jid) {r' : Roster}
    (he : r'.items = r.items ++ [item]) : Tidy P r' := by
  constructor
  · intro x hx
    rw [he] at hx
    rcases List.mem_append.mp hx with hx | hx
    · exact ht.regular x hx
    · rw [List.mem_singleton.mp hx]
      exact hr
  · rw [he, List.pairwise_append]
    refine ⟨ht.first, List.pairwise_singleton _ _, ?_⟩
    intro x hx y hy hj
    rw [List.mem_singleton.mp hy] at hj ⊢
    refine hf.resolve_right ?_
    rintro ⟨hn, -⟩
    have := List.find?_eq_none.mp hn x hx
    simp [hj] at this
  · intro x hx hl
    rw [he] at hx
    rcases List.mem_append.mp hx with hx | hx
    · exact ht.placed x hx hl
    · rw [List.mem_singleton.mp hx] at hl ⊢
      exact (hf.resolve_left hl).2

omit ht in
theorem entry_append {item : RosterItem} {r' : Roster} (he : r'.items = r.items ++ [item]) (bare : Str) :
    entry r' bare =
      if bare = item.jid.str then some ((entry r bare).getD (linkOf item)) else entry r bare := by
  unfold entry rosterFindItem
  rw [he, find_append]
  by_cases h : bare = item.jid.str
  · rw [if_pos h, if_pos h.symm]
    cases r.items.find? fun x => x.jid.str = bare <;> rfl
  · rw [if_neg h, if_neg (Ne.symm h), Option.or_none]

theorem tidy_requestItem (bare : Buf 512) : Tidy P (requestItem bare.str r) := by
  unfold requestItem
  split
  · exact ht.edit (moves_setAsk true) _ (Or.inl rfl)
  · rename_i hn
    by_cases hb : r.items.length < maxRosterItems
    · exact tidy_append ht (Or.inl rfl) (Or.inl rfl) (rosterAddItem_items hn hb)
    · rw [rosterAddItem_full hn hb]
      exact ht

theorem entry_requestItem (hb : r.items.length < maxRosterItems) (bare : Buf 512) (other : Str) :
    entry (requestItem bare.str r) other =
      if other = bare.str then some ((entry r other).getD .bare) else entry r other := by
  unfold requestItem
  split
  · rename_i item hi
    rw [entry_edit ht (moves_setAsk true)]
    split_ifs with h
    · rw [h, entry, hi]
      rfl
    · rfl
  · rename_i hn
    rw [entry_append (rosterAddItem_items hn hb)]
    simp only [newItem, snprintf_buf]
    rfl

theorem tidy_approveItem (bare : Buf 512) (hp : P bare) : Tidy P (approveItem bare.str r) := by
  unfold approveItem
  split
  · exact ht.edit moves_grantFrom _ (Or.inr fun b hb => Buf.ext hb ▸ hp)
  · rename_i hn
    by_cases hb : r.items.length < maxRosterItems
    · refine tidy_append ht (Or.inr (Or.inr (Or.inl rfl))) (Or.inr ?_) (rosterAddItem_items hn hb)
      simpa only [newItem, snprintf_buf] using ⟨hn, hp⟩
    · rw [rosterAddItem_full hn hb]
      exact ht

theorem entry_approveItem (hb : r.items.length < maxRosterItems) (bare : Buf 512) (other : Str) :
    entry (approveItem bare.str r) other =
      if other = bare.str then some (setAdmits true ((entry r other).getD .bare)) else entry r other := by
  unfold approveItem
  split
  · rename_i item hi
    rw [entry_edit ht moves_grantFrom]
    split_ifs with h
    · rw [h, entry, hi]
      rfl
    · rfl
  · rename_i hn
    rw [entry_append (rosterAddItem_items hn hb)]
    simp only [newItem, snprintf_buf]
    split_ifs with h
    · rw [h, entry, hn]
      rfl
    · rfl

omit ht in
/-- After the sender's side of an approval there is an item. -/
theorem find_approveItem (hb : r.items.length < maxRosterItems) (bare : Buf 512) :
    rosterFindItem (approveItem bare.str r) bare.str ≠ none := by
  unfold approveItem
  split
  · rename_i item hi
    rw [find_rosterEdit_self r moves_grantFrom.jid, hi]
    simp
  · rename_i hn
    rw [rosterFindItem, rosterAddItem_items hn hb, find_append]
    simp [newItem]

/-! ## Roster sets -/

omit ht in
/-- An update keeps the subscription the item has. -/
theorem updateItem_some {jid : Str} {item : RosterItem} (name : Option Str) (hi : rosterFindItem r jid = some item) :
    ∃ f, Moves f id ∧ updateItem jid name r = rosterEdit r jid f := by
  refine ⟨fun x => if x.subscription = item.subscription then
    { x with name := (name.map (snprintf 256)).getD x.name, askSubscribe := item.askSubscribe } else x, ?_, ?_⟩
  · refine ⟨?_, ?_, ?_⟩
    · intro x
      dsimp only
      split_ifs <;> rfl
    · intro x hx
      split_ifs <;> exact hx
    · intro x hx
      split_ifs <;> rfl
  · unfold updateItem rosterAddItem
    simp only [hi]
    refine rosterEdit_congr r ?_
    intro x hx
    obtain rfl := Option.some.inj (hi.symm.trans hx)
    simp

theorem tidy_updateItem (jid : Str) (name : Option Str) : Tidy P (updateItem jid name r) := by
  cases hi : rosterFindItem r jid with
  | some item =>
      obtain ⟨f, hf, he⟩ := updateItem_some name hi
      rw [he]
      exact ht.edit hf jid (Or.inl rfl)
  | none =>
      rw [updateItem, hi]
      dsimp only
      by_cases hb : r.items.length < maxRosterItems
      · exact tidy_append ht (Or.inl rfl) (Or.inl rfl) (rosterAddItem_items hi hb)
      · rw [rosterAddItem_full hi hb]
        exact ht

theorem entry_updateItem (hb : r.items.length < maxRosterItems) (jid : Str) (name : Option Str) (bare : Str) :
    entry (updateItem jid name r) bare =
      if bare = (snprintf 512 jid).str then some ((entry r bare).getD .bare) else entry r bare := by
  cases hi : rosterFindItem r jid with
  | some item =>
      obtain ⟨f, hf, he⟩ := updateItem_some name hi
      have hj : item.jid.str = jid := by simpa using List.find?_some hi
      rw [he, entry_edit ht hf, ← hj, snprintf_buf]
      split_ifs with h
      · rw [h, entry, hj, hi]
        rfl
      · rfl
  | none =>
      rw [updateItem, hi]
      dsimp only
      rw [entry_append (rosterAddItem_items hi hb)]
      rfl

theorem tidy_rosterRemoveItem (jid : Str) : Tidy P (rosterRemoveItem r jid) :=
  ⟨fun item hi => ht.regular item (List.mem_of_mem_eraseP hi), ht.first.sublist List.eraseP_sublist,
    fun item hi => ht.placed item (List.mem_of_mem_eraseP hi)⟩

/-- What is left at the address has no direction. -/
theorem entry_rosterRemoveItem (jid bare : Str) :
    entry (rosterRemoveItem r jid) bare = entry r bare ∧ bare ≠ jid ∨
      bare = jid ∧ (entry (rosterRemoveItem r jid) bare = none ∨
        entry (rosterRemoveItem r jid) bare = some .bare) := by
  unfold entry rosterFindItem rosterRemoveItem
  dsimp only
  by_cases hb : bare = jid
  · right
    refine ⟨hb, ?_⟩
    subst hb
    have hp := ht.first
    generalize r.items = items at hp
    induction items with
    | nil => exact Or.inl rfl
    | cons x xs ih =>
        obtain ⟨hx, hxs⟩ := List.pairwise_cons.mp hp
        by_cases hj : x.jid.str = bare
        · rw [List.eraseP_cons_of_pos (by simpa using hj)]
          cases hf : xs.find? fun i => i.jid.str = bare with
          | none => exact Or.inl rfl
          | some y =>
              have hy : y.jid.str = bare := by simpa using List.find?_some hf
              have hm := List.mem_of_find?_eq_some hf
              exact Or.inr (congrArg some (hx y hm (Buf.ext (hj.trans hy.symm))))
        · rw [List.eraseP_cons_of_neg (by simpa using hj)]
          simpa [hj] using ih hxs
  · left
    refine ⟨?_, hb⟩
    congr 1
    generalize r.items = items
    induction items with
    | nil => rfl
    | cons x xs ih =>
        by_cases hj : x.jid.str = jid
        · have hn : x.jid.str ≠ bare := fun he => hb (he.symm.trans hj)
          rw [List.eraseP_cons_of_pos (by simpa using hj), List.find?_cons_of_neg (by simpa using hn)]
        · rw [List.eraseP_cons_of_neg (by simpa using hj)]
          by_cases hk : x.jid.str = bare
          · simp [hk]
          · simpa [hk] using ih

end

end Xmppd.Entries
