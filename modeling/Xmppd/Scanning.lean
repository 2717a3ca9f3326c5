import Mathlib.Data.List.Basic
import Mathlib.Data.List.DropRight

/-!
# Scanning an array by an index

A loop that moves an index forward as long as the elements there satisfy a
condition stops at what the list operations call the end of a prefix. A loop that
moves back from the end of a piece and clears what it passes leaves the piece
without its last elements, and does not look at the first one.
-/
namespace Xmppd.Scanning
variable {α : Type}

/-- `while (i < n && p(l[i])) i++`. -/
def advance (p : α → Bool) (l : List α) (i : ℕ) : ℕ :=
  if h : i < l.length then
    if p l[i] then advance p l (i+1) else i
  else i
termination_by l.length - i

section
variable (p : α → Bool) (l : List α) (i : ℕ)

theorem advance_eq : advance p l i = i + ((l.drop i).takeWhile p).length := by
  fun_induction advance p l i with
  | case1 i h hp ih =>
      rw [ih, List.drop_eq_getElem_cons h, List.takeWhile_cons, if_pos hp, List.length_cons]
      omega
  | case2 i h hp =>
      rw [List.drop_eq_getElem_cons h, List.takeWhile_cons, if_neg hp]
      rfl
  | case3 i h =>
      rw [List.drop_of_length_le (by omega)]
      rfl

theorem le_advance : i ≤ advance p l i := by
  rw [advance_eq]
  omega

theorem advance_le (h : i ≤ l.length) : advance p l i ≤ l.length := by
  have hle := (List.takeWhile_prefix p (l := l.drop i)).length_le
  rw [List.length_drop] at hle
  rw [advance_eq]
  omega

/-- What is left behind the index. -/
theorem drop_advance : l.drop (advance p l i) = (l.drop i).dropWhile p := by
  rw [advance_eq, ← List.drop_drop]
  generalize l.drop i = r
  induction r with
  | nil => rfl
  | cons x xs ih =>
      cases hp : p x with
      | true => simpa [hp] using ih
      | false => simp [hp]

/-- What the index has passed. -/
theorem slice_advance : (l.take (advance p l i)).drop i = (l.drop i).takeWhile p := by
  rw [advance_eq, ← List.take_drop]
  exact (List.prefix_iff_eq_take.mp (List.takeWhile_prefix p)).symm

end

/-- The index passes what satisfies the condition, up to an element that does not. -/
theorem advance_append {p : α → Bool} {l w r : List α} (hw : ∀ x ∈ w, p x = true) (hr : ∀ x ∈ r.head?, p x = false) :
    advance p (l ++ w ++ r) l.length = l.length + w.length := by
  have hstop : r.takeWhile p = [] := by
    cases r with
    | nil => rfl
    | cons x xs => simp [hr x rfl]
  rw [advance_eq, List.append_assoc, List.drop_left, List.takeWhile_append_of_pos hw, hstop, List.append_nil]

theorem head?_dropWhile (p : α → Bool) (l : List α) : ∀ x ∈ (l.dropWhile p).head?, p x = false := by
  intro x hx
  have h := List.head?_dropWhile_not p l
  rw [Option.mem_def.mp hx] at h
  exact h

theorem dropWhile_congr {p q : α → Bool} {l : List α} (h : ∀ x ∈ l, p x = q x) : l.dropWhile p = l.dropWhile q := by
  induction l with
  | nil => rfl
  | cons x xs ih =>
      rw [List.dropWhile_cons, List.dropWhile_cons, h x List.mem_cons_self, ih fun y hy => h y (List.mem_cons_of_mem x hy)]

theorem takeWhile_congr {p q : α → Bool} {l : List α} (h : ∀ x ∈ l, p x = q x) : l.takeWhile p = l.takeWhile q := by
  induction l with
  | nil => rfl
  | cons x xs ih =>
      rw [List.takeWhile_cons, List.takeWhile_cons, h x List.mem_cons_self, ih fun y hy => h y (List.mem_cons_of_mem x hy)]

theorem rdropWhile_congr {p q : α → Bool} {l : List α} (h : ∀ x ∈ l, p x = q x) : l.rdropWhile p = l.rdropWhile q := by
  rw [List.rdropWhile, List.rdropWhile, dropWhile_congr fun x hx => h x (List.mem_reverse.mp hx)]

section
variable [DecidableEq α] {c : α} {k v s : List α}

theorem all_ne (hk : c ∉ k) : ∀ x ∈ k, decide (x ≠ c) = true := by
  intro x hx
  apply decide_eq_true
  intro he
  exact hk (he ▸ hx)

theorem takeWhile_ne (hk : c ∉ k) : (k ++ c :: v).takeWhile (· ≠ c) = k := by
  rw [List.takeWhile_append_of_pos (all_ne hk)]
  simp

theorem dropWhile_ne (hk : c ∉ k) : (k ++ c :: v).dropWhile (· ≠ c) = c :: v := by
  rw [List.dropWhile_append_of_pos (all_ne hk)]
  simp

theorem findIdx?_ne (hk : c ∉ k) : (k ++ c :: v).findIdx? (· == c) = some k.length := by
  induction k with
  | nil => simp [List.findIdx?_cons]
  | cons x xs ih =>
      have hx : x ≠ c := fun he => hk (he ▸ List.mem_cons_self)
      simp [List.findIdx?_cons, hx, ih fun hm => hk (List.mem_cons_of_mem x hm)]

theorem findIdx?_ne_none (hs : c ∉ s) : s.findIdx? (· == c) = none := by
  rw [List.findIdx?_eq_none_iff]
  intro x hx
  exact beq_false_of_ne fun he => hs (he ▸ hx)

theorem takeWhile_ne_self (hs : c ∉ s) : s.takeWhile (· ≠ c) = s := List.takeWhile_eq_self_iff.mpr (all_ne hs)

theorem dropWhile_ne_nil (hs : c ∉ s) : s.dropWhile (· ≠ c) = [] := List.dropWhile_eq_nil_iff.mpr (all_ne hs)

end

/-- The element at which the index stops is replaced by the terminator. -/
theorem set_advance {p : α → Bool} {z : α} (hz : p z = false) (l : List α) :
    ∃ post, (l ++ [z]).set (advance p (l ++ [z]) 0) z = l.takeWhile p ++ z :: post := by
  have hsplit : l ++ [z] = [] ++ l.takeWhile p ++ (l.dropWhile p ++ [z]) := by
    rw [List.nil_append, ← List.append_assoc, List.takeWhile_append_dropWhile]
  have hhead := head?_dropWhile p l
  generalize l.dropWhile p = rest at hsplit hhead
  have hstop : ∀ x ∈ (rest ++ [z]).head?, p x = false := by
    cases rest with
    | nil => simpa using hz
    | cons x xs => exact hhead
  rw [hsplit, ← @List.length_nil α, advance_append (fun x hx => List.mem_takeWhile_imp hx) hstop, List.length_nil,
    Nat.zero_add, List.nil_append, List.set_append_right _ _ (le_refl _), Nat.sub_self]
  cases rest with
  | nil => exact ⟨[], rfl⟩
  | cons x xs => exact ⟨xs ++ [z], rfl⟩

/-- `while (e > start && p(l[e])) l[e--] = z`, the index given as the end of the piece. -/
def clearBack (p : α → Bool) (z : α) (start : ℕ) : ℕ → List α → List α
  | 0, l => l
  | e+1, l =>
      match l[e]? with
      | some x => if start < e ∧ p x then clearBack p z start e (l.set e z) else l
      | none => l

/-- The piece without its last elements, of which the first one stays. -/
def trimBack (p : α → Bool) : List α → List α
  | [] => []
  | x :: xs => x :: xs.rdropWhile p

section
variable {p : α → Bool} {z x : α}

theorem rdropWhile_cons (hx : p x = false) (xs : List α) : (x :: xs).rdropWhile p = x :: xs.rdropWhile p := by
  induction xs using List.reverseRecOn with
  | nil => simp [List.rdropWhile_singleton, hx]
  | append_singleton ys y ih =>
      rw [← List.cons_append]
      cases hy : p y with
      | true => rw [List.rdropWhile_concat_pos _ _ _ hy, List.rdropWhile_concat_pos _ _ _ hy, ih]
      | false => rw [List.rdropWhile_concat_neg _ _ _ (by simp [hy]), List.rdropWhile_concat_neg _ _ _ (by simp [hy]), List.cons_append]

/-- Nothing is taken from before an element that stays. -/
theorem rdropWhile_append_cons (hx : p x = false) (k v : List α) :
    (k ++ x :: v).rdropWhile p = k ++ x :: v.rdropWhile p := by
  rw [List.rdropWhile, List.reverse_append, List.reverse_cons, List.append_assoc, List.dropWhile_append]
  split
  · rename_i hall
    rw [List.isEmpty_iff] at hall
    have hv : v.rdropWhile p = [] := by rw [List.rdropWhile, hall, List.reverse_nil]
    simp [hv, hx]
  · simp [List.rdropWhile]

/-- Both ends can be trimmed in either order. -/
theorem dropWhile_rdropWhile (p : α → Bool) (v : List α) : (v.rdropWhile p).dropWhile p = (v.dropWhile p).rdropWhile p := by
  have hhead := head?_dropWhile p v
  have hspaces : ∀ x ∈ v.takeWhile p, p x = true := fun x hx => List.mem_takeWhile_imp hx
  rw [← List.takeWhile_append_dropWhile (p := p) (l := v)]
  generalize v.takeWhile p = spaces at hspaces
  generalize v.dropWhile p = w at hhead
  cases w with
  | nil =>
      have hnone : spaces.rdropWhile p = [] := List.rdropWhile_eq_nil_iff.mpr hspaces
      have hdrop : spaces.dropWhile p = [] := List.dropWhile_eq_nil_iff.mpr hspaces
      simp [hnone, hdrop]
  | cons y ys =>
      have hy := hhead y rfl
      rw [rdropWhile_append_cons hy, List.dropWhile_append_of_pos hspaces, List.dropWhile_append_of_pos hspaces,
        List.dropWhile_cons_of_neg (by simp [hy]), List.dropWhile_cons_of_neg (by simp [hy]), rdropWhile_cons hy]

theorem trimBack_eq {w : List α} (h : ∀ x ∈ w.head?, p x = false) : trimBack p w = w.rdropWhile p := by
  cases w with
  | nil => rfl
  | cons x xs => exact (rdropWhile_cons (h x rfl) xs).symm

theorem clearBack_short {start stop : ℕ} (h : stop ≤ start + 1) (l : List α) : clearBack p z start stop l = l := by
  cases stop with
  | zero => rfl
  | succ e =>
      unfold clearBack
      split
      · rw [if_neg (by omega)]
      · rfl

theorem clearBack_cons (pre xs post : List α) :
    clearBack p z pre.length (pre.length + (x :: xs).length) (pre ++ (x :: xs) ++ post) =
      pre ++ trimBack p (x :: xs) ++ (List.replicate (xs.length - (xs.rdropWhile p).length) z ++ post) := by
  induction xs using List.reverseRecOn generalizing post with
  | nil =>
      rw [clearBack_short (by simp)]
      simp [trimBack]
  | append_singleton ys y ih =>
      have hstop : pre.length + (x :: (ys ++ [y])).length = (pre.length + (x :: ys).length) + 1 := by simp; omega
      have hlist : pre ++ (x :: (ys ++ [y])) ++ post = (pre ++ (x :: ys)) ++ y :: post := by simp
      have hget : ((pre ++ (x :: ys)) ++ y :: post)[pre.length + (x :: ys).length]? = some y := by
        rw [← List.length_append, List.getElem?_append_right (le_refl _), Nat.sub_self]
        rfl
      have hset : ((pre ++ (x :: ys)) ++ y :: post).set (pre.length + (x :: ys).length) z = pre ++ (x :: ys) ++ z :: post := by
        rw [← List.length_append, List.set_append_right _ _ (le_refl _), Nat.sub_self]
        rfl
      rw [hstop, hlist, clearBack, hget]
      dsimp only
      cases hy : p y with
      | true =>
          have hlen := (List.rdropWhile_prefix p (l := ys)).length_le
          have hone : (ys ++ [y]).length - (ys.rdropWhile p).length = (ys.length - (ys.rdropWhile p).length) + 1 := by
            rw [List.length_append, List.length_singleton]
            omega
          rw [if_pos ⟨by simp, rfl⟩, hset, ih, trimBack, trimBack, List.rdropWhile_concat_pos _ _ _ hy, hone, List.replicate_succ']
          simp
      | false =>
          rw [if_neg (by simp), trimBack, List.rdropWhile_concat_neg _ _ _ (by simp [hy])]
          simp

/-- The loop trims the piece it is started on and clears what it takes away. -/
theorem clearBack_eq (pre w post : List α) :
    ∃ k, clearBack p z pre.length (pre.length + w.length) (pre ++ w ++ post) =
      pre ++ trimBack p w ++ (List.replicate k z ++ post) ∧ (trimBack p w).length + k = w.length := by
  cases w with
  | nil => exact ⟨0, by simp [clearBack_short, trimBack], rfl⟩
  | cons x xs =>
      have hlen := (List.rdropWhile_prefix p (l := xs)).length_le
      refine ⟨_, clearBack_cons pre xs post, ?_⟩
      simp only [trimBack, List.length_cons]
      omega

end

end Xmppd.Scanning
