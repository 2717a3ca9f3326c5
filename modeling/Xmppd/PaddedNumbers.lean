import Mathlib.Algebra.Group.Nat.Defs
import Mathlib.Data.Char
import Mathlib.Data.List.Lex
import Mathlib.Data.Nat.Notation

/-!
# Numbers padded with zeros

A number in decimal digits, filled up with zeros to a width. The digits give the
number back, and numbers that fit the width are ordered as their digits are.
-/
namespace Xmppd.PaddedNumbers

/-- The digits of a number, at least as many as the width says. -/
def padded (w n : ℕ) : List Char := List.replicate (w - (Nat.toDigits 10 n).length) '0' ++ Nat.toDigits 10 n

/-- The number that digits stand for. -/
def value (l : List Char) : ℕ := Nat.ofDigitChars 10 l 0

theorem value_cons (c : Char) (l : List Char) : value (c :: l) = 10 ^ l.length * (c.toNat - '0'.toNat) + value l := by
  unfold value
  rw [Nat.ofDigitChars_cons, Nat.ofDigitChars_eq_ofDigitChars_zero, Nat.mul_zero, Nat.zero_add]

theorem value_eq_foldl (l : List Char) : value l = l.foldl (fun n c => 10 * n + (c.toNat - '0'.toNat)) 0 :=
  Nat.ofDigitChars_eq_foldl

theorem digit_bounds {c : Char} (h : c.isDigit = true) : '0'.toNat ≤ c.toNat ∧ c.toNat ≤ '0'.toNat + 9 := by
  simp only [Char.isDigit, Bool.and_eq_true, decide_eq_true_eq, ge_iff_le, UInt32.le_iff_toNat_le] at h
  exact h

section
variable {w m n : ℕ}

theorem padded_digits : ∀ c ∈ padded w n, c.isDigit = true := by
  intro c hc
  rcases List.mem_append.mp hc with hc | hc
  · rw [List.eq_of_mem_replicate hc]
    decide
  · exact Nat.isDigit_of_mem_toDigits (by decide) (by decide) hc

theorem padded_ne_nil : padded w n ≠ [] := fun h => Nat.toDigits_ne_nil (List.append_eq_nil_iff.mp h).2

@[simp] theorem value_padded : value (padded w n) = n := by
  unfold value padded
  rw [Nat.ofDigitChars_append, Nat.ofDigitChars_replicate_zero, Nat.mul_zero, Nat.ofDigitChars_ten_toDigits]

theorem padded_inj : padded w m = padded w n ↔ m = n := by
  constructor
  · intro h
    have hvalue := congrArg value h
    rwa [value_padded, value_padded] at hvalue
  · exact congrArg (padded w)

theorem length_padded (hw : 0 < w) (hn : n < 10 ^ w) : (padded w n).length = w := by
  have hlen := (Nat.length_toDigits_le_iff (b := 10) (by decide) hw).mpr hn
  rw [padded, List.length_append, List.length_replicate]
  omega

end

/-! ## Order -/

theorem value_lt {l : List Char} (h : ∀ c ∈ l, c.isDigit = true) : value l < 10 ^ l.length := by
  induction l with
  | nil => decide
  | cons c l ih =>
      have hc := digit_bounds (h c List.mem_cons_self)
      have hl := ih fun d hd => h d (List.mem_cons_of_mem c hd)
      have hdigit : c.toNat - '0'.toNat ≤ 9 := by omega
      have hhead := Nat.mul_le_mul_left (10 ^ l.length) hdigit
      rw [value_cons, List.length_cons, Nat.pow_succ]
      omega

/-- Digits of one length are ordered as the numbers they stand for. -/
theorem lt_of_value_lt {l l' : List Char} (hlen : l.length = l'.length) (h : ∀ c ∈ l, c.isDigit = true)
    (h' : ∀ c ∈ l', c.isDigit = true) (hv : value l < value l') : l < l' := by
  induction l generalizing l' with
  | nil =>
      rw [List.eq_nil_of_length_eq_zero hlen.symm] at hv
      exact absurd hv (Nat.lt_irrefl _)
  | cons c l ih =>
      obtain ⟨d, m, rfl⟩ := List.exists_cons_of_length_eq_add_one hlen.symm
      have hlm : l.length = m.length := Nat.succ.inj hlen
      have hc := digit_bounds (h c List.mem_cons_self)
      have hd := digit_bounds (h' d List.mem_cons_self)
      have hl := value_lt fun e he => h e (List.mem_cons_of_mem c he)
      have hm := value_lt fun e he => h' e (List.mem_cons_of_mem d he)
      rw [value_cons, value_cons, hlm] at hv
      rw [hlm] at hl
      rw [List.cons_lt_cons_iff]
      rcases Nat.lt_trichotomy c.toNat d.toNat with hcd | hcd | hcd
      · exact Or.inl hcd
      · refine Or.inr ⟨Char.toNat_inj.mp hcd, ?_⟩
        rw [hcd] at hv
        exact ih hlm (fun e he => h e (List.mem_cons_of_mem c he)) (fun e he => h' e (List.mem_cons_of_mem d he)) (by omega)
      · have hstep : d.toNat - '0'.toNat + 1 ≤ c.toNat - '0'.toNat := by omega
        have hmul := Nat.mul_le_mul_left (10 ^ m.length) hstep
        rw [Nat.mul_add, Nat.mul_one] at hmul
        omega

/-- A common end changes nothing about the order. -/
theorem append_lt_append {l l' : List Char} (hlen : l.length = l'.length) (h : l < l') (s : List Char) : l ++ s < l' ++ s := by
  induction l generalizing l' with
  | nil =>
      rw [List.eq_nil_of_length_eq_zero hlen.symm] at h
      exact absurd h (List.lt_irrefl [])
  | cons c l ih =>
      obtain ⟨d, m, rfl⟩ := List.exists_cons_of_length_eq_add_one hlen.symm
      rw [List.cons_append, List.cons_append, List.cons_lt_cons_iff]
      rcases List.cons_lt_cons_iff.mp h with hcd | ⟨hcd, hlm⟩
      · exact Or.inl hcd
      · exact Or.inr ⟨hcd, ih (Nat.succ.inj hlen) hlm⟩

theorem padded_lt {w m n : ℕ} (hw : 0 < w) (h : m < n) (hn : n < 10 ^ w) (s : List Char) :
    padded w m ++ s < padded w n ++ s := by
  have hlen : (padded w m).length = (padded w n).length := by
    rw [length_padded hw (h.trans hn), length_padded hw hn]
  apply append_lt_append hlen
  apply lt_of_value_lt hlen padded_digits padded_digits
  rw [value_padded, value_padded]
  exact h

/-- The names of successive numbers are in order. -/
theorem pairwise_padded {w k n : ℕ} (hw : 0 < w) (h : k + n ≤ 10 ^ w) (s : List Char) :
    ((List.range' k n).map fun m => padded w m ++ s).Pairwise (· < ·) := by
  rw [List.pairwise_map]
  apply (List.pairwise_lt_range' (s := k) (n := n)).imp_of_mem
  intro i j _ hj hij
  obtain ⟨m, hm, rfl⟩ := List.mem_range'.mp hj
  exact padded_lt hw hij (by omega) s

/-- A list in order is the only one with its members that is. -/
theorem eq_of_perm_of_pairwise {l l' : List (List Char)} (hperm : l.Perm l') (hl : l.Pairwise (· ≤ ·))
    (hl' : l'.Pairwise (· < ·)) : l = l' := by
  apply hperm.eq_of_pairwise _ hl (hl'.imp fun h => le_of_lt h)
  intro a b _ _ hab hba
  exact le_antisymm hab hba

/-! ## Reading a number off a name -/

/-- The digits end where something else follows. -/
theorem takeWhile_padded (w n : ℕ) {s : List Char} (hs : ∀ c ∈ s.head?, c.isDigit = false) :
    (padded w n ++ s).takeWhile Char.isDigit = padded w n := by
  rw [List.takeWhile_append_of_pos padded_digits]
  cases s with
  | nil => simp
  | cons c s => rw [List.takeWhile_cons_of_neg (by simp [hs c rfl]), List.append_nil]

theorem head_padded {w n : ℕ} {s : List Char} {c : Char} {t : List Char} (h : padded w n ++ s = c :: t) :
    c.isDigit = true := by
  obtain ⟨d, ds, hds⟩ := List.exists_cons_of_ne_nil (padded_ne_nil (w := w) (n := n))
  have hd : d.isDigit = true := padded_digits (w := w) (n := n) d (by rw [hds]; exact List.mem_cons_self)
  rw [hds, List.cons_append] at h
  rwa [(List.cons.inj h).1] at hd

end Xmppd.PaddedNumbers
