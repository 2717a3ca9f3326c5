import Mathlib.Data.Fin.Basic
import Mathlib.Data.List.FinRange
import Mathlib.Logic.Equiv.Basic
import Mathlib.Order.Basic

/-!
# Sorting in place by exchanges

For each place in turn, every later one is compared with it, and the two are exchanged
where they are in the wrong order. After a round the place holds the least of what is
left. What is exchanged stays within the places that are sorted. The keys may be those
of larger objects, and equal keys are left as they are.
-/
namespace Xmppd.ExchangeSort

variable {n : ℕ} {α : Type}

/-- The places from `i` up to `j` hold what they held, in some order, and the other ones are
as they were. -/
def Shuffled (i j : ℕ) (f g : Fin n → α) : Prop :=
  ∃ σ : Equiv.Perm (Fin n), g = f ∘ σ ∧ ∀ k : Fin n, k.val < i ∨ j ≤ k.val → σ k = k

section
variable {i j : ℕ} {f g h : Fin n → α}

theorem Shuffled.refl (i j : ℕ) (f : Fin n → α) : Shuffled i j f f := ⟨Equiv.refl _, rfl, fun _ _ => rfl⟩

theorem Shuffled.trans (hfg : Shuffled i j f g) (hgh : Shuffled i j g h) : Shuffled i j f h := by
  obtain ⟨σ, rfl, hσ⟩ := hfg
  obtain ⟨τ, rfl, hτ⟩ := hgh
  refine ⟨τ.trans σ, rfl, fun k hk => ?_⟩
  rw [Equiv.trans_apply, hτ k hk, hσ k hk]

/-- More places. -/
theorem Shuffled.mono (hs : Shuffled i j f g) {i' j' : ℕ} (hi : i' ≤ i) (hj : j ≤ j') : Shuffled i' j' f g := by
  obtain ⟨σ, rfl, hσ⟩ := hs
  exact ⟨σ, rfl, fun k hk => hσ k (hk.imp (fun h => by omega) fun h => by omega)⟩

theorem Shuffled.swap (f : Fin n → α) {a b : Fin n} (ha : i ≤ a.val ∧ a.val < j) (hb : i ≤ b.val ∧ b.val < j) :
    Shuffled i j f (f ∘ Equiv.swap a b) := by
  refine ⟨Equiv.swap a b, rfl, fun k hk => Equiv.swap_apply_of_ne_of_ne ?_ ?_⟩
  · rintro rfl
    omega
  · rintro rfl
    omega

theorem Shuffled.outside (hs : Shuffled i j f g) {k : Fin n} (hk : k.val < i ∨ j ≤ k.val) : g k = f k := by
  obtain ⟨σ, rfl, hσ⟩ := hs
  exact congrArg f (hσ k hk)

/-- What a place holds was in one of the places. -/
theorem Shuffled.inside (hs : Shuffled i j f g) {k : Fin n} (hi : i ≤ k.val) (hj : k.val < j) :
    ∃ l : Fin n, i ≤ l.val ∧ l.val < j ∧ g k = f l := by
  obtain ⟨σ, rfl, hσ⟩ := hs
  have hstays : ∀ l : Fin n, l.val < i ∨ j ≤ l.val → σ k ≠ l := by
    intro l hl he
    have hkl : k = l := σ.injective (he.trans (hσ l hl).symm)
    rw [hkl] at hi hj
    omega
  refine ⟨σ k, ?_, ?_, rfl⟩
  · by_contra hlt
    exact hstays (σ k) (.inl (by omega)) rfl
  · by_contra hge
    exact hstays (σ k) (.inr (by omega)) rfl

/-- The places hold a permutation of what they held. -/
theorem Shuffled.perm (hs : Shuffled i j f g) : ((List.ofFn g).take j).Perm ((List.ofFn f).take j) := by
  have hdrop : (List.ofFn g).drop j = (List.ofFn f).drop j := by
    apply List.ext_getElem?
    intro k
    rw [List.getElem?_drop, List.getElem?_drop, List.getElem?_ofFn, List.getElem?_ofFn]
    split
    · rw [hs.outside (.inr (Nat.le_add_right j k))]
    · rfl
  have hall : (List.ofFn g).Perm (List.ofFn f) := by
    obtain ⟨σ, rfl, _⟩ := hs
    exact σ.ofFn_comp_perm f
  rw [← List.take_append_drop j (List.ofFn g), ← List.take_append_drop j (List.ofFn f), hdrop] at hall
  exact (List.perm_append_right_iff _).mp hall

end

/-! ## The order -/

section
variable {β : Type} [LinearOrder β] (key : α → β)

/-- What is in place `i` is not above anything behind it and before `j`. -/
def Least (i : Fin n) (j : ℕ) (f : Fin n → α) : Prop := ∀ k : Fin n, i < k → k.val < j → key (f i) ≤ key (f k)

/-- The first `i` places are in order, and not above anything behind them and before `count`. -/
def Front (count i : ℕ) (f : Fin n → α) : Prop :=
  ∀ a b : Fin n, a < b → a.val < i → b.val < count → key (f a) ≤ key (f b)

variable {key} {f g : Fin n → α} {i : Fin n}

theorem Least.start (key : α → β) (f : Fin n → α) (i : Fin n) : Least key i (i.val+1) f :=
  fun k hik hk => absurd (Fin.lt_def.mp hik) (by omega)

/-- The next place is not below. -/
theorem Least.keep {j : Fin n} (h : Least key i j.val f) (hle : key (f i) ≤ key (f j)) : Least key i (j.val+1) f := by
  intro k hik hk
  by_cases hkj : k = j
  · rw [hkj]
    exact hle
  · exact h k hik (lt_of_le_of_ne (Nat.lt_succ_iff.mp hk) fun he => hkj (Fin.ext he))

/-- The next place is below, and comes to the front. -/
theorem Least.exchange {j : Fin n} (h : Least key i j.val f) (hlt : key (f j) < key (f i)) :
    Least key i (j.val+1) (f ∘ Equiv.swap i j) := by
  intro k hik hk
  rw [Function.comp_apply, Function.comp_apply, Equiv.swap_apply_left]
  by_cases hkj : k = j
  · rw [hkj, Equiv.swap_apply_right]
    exact le_of_lt hlt
  · rw [Equiv.swap_apply_of_ne_of_ne (Fin.ne_of_gt hik) hkj]
    have hkl := h k hik (lt_of_le_of_ne (Nat.lt_succ_iff.mp hk) fun he => hkj (Fin.ext he))
    exact (le_of_lt hlt).trans hkl

theorem Front.start (key : α → β) (count : ℕ) (f : Fin n → α) : Front key count 0 f :=
  fun a _ _ ha _ => absurd ha (Nat.not_lt_zero a.val)

/-- After a round there is one more. -/
theorem Front.next {count : ℕ} (h : Front key count i.val f) (hs : Shuffled i.val count f g) (hl : Least key i count g) :
    Front key count (i.val+1) g := by
  intro a b hab ha hb
  by_cases hai : a = i
  · rw [hai] at hab ⊢
    exact hl b hab hb
  · have hlt : a.val < i.val := lt_of_le_of_ne (Nat.lt_succ_iff.mp ha) fun he => hai (Fin.ext he)
    rw [hs.outside (.inl hlt)]
    by_cases hbi : b.val < i.val
    · rw [hs.outside (.inl hbi)]
      exact h a b hab hlt hb
    · obtain ⟨l, hil, hlc, heq⟩ := hs.inside (by omega) hb
      rw [heq]
      exact h a l (Fin.lt_def.mpr (by omega)) hlt hlc

/-- The last place needs no round. -/
theorem Front.sorted {count k : ℕ} (h : Front key count k f) (hk : count ≤ k+1) {a b : Fin n} (hab : a < b)
    (hb : b.val < count) : key (f a) ≤ key (f b) :=
  h a b hab (by have := Fin.lt_def.mp hab; omega) hb

end

end Xmppd.ExchangeSort
