import Mathlib.Order.Lattice
import Mathlib.Order.Nat

/-!
# Processes with locks under strong fairness

An infinite run of processes, each with some work in front of it. A process that is about to
take a lock which is held cannot go on. If a process that holds a lock is never about to take
another one, and every process that can go on again and again goes on again and again, then
every process comes to an end of its work.
-/
namespace Xmppd.Locking

/-- What can happen again and again happens again and again. -/
def Fair (can goes : ℕ → Prop) : Prop := (∀ n, ∃ m, n ≤ m ∧ can m) → ∀ n, ∃ m, n ≤ m ∧ can m ∧ goes m

/-- A run of processes: the work in front of each process and the holder of each lock at each
time, and the process that is given the next step. -/
structure Run (I L W : Type) where
  work : ℕ → I → W
  holder : ℕ → L → Option I
  goes : ℕ → I → Prop
  idle : W → Prop
  wants : W → Option L
  less : W → W → Prop
  wellFounded : WellFounded less
  stay : ∀ n i, ¬idle (work n i) → ¬((∀ l ∈ wants (work n i), holder n l = none) ∧ goes n i) → work (n + 1) i = work n i
  go : ∀ n i, ¬idle (work n i) → (∀ l ∈ wants (work n i), holder n l = none) → goes n i →
    less (work (n + 1) i) (work n i)
  keeps : ∀ n l i, holder n l = some i → holder (n + 1) l = some i ∨ holder (n + 1) l = none
  busy : ∀ n l i, holder n l = some i → ¬idle (work n i) ∧ wants (work n i) = none

variable {I L W : Type} (r : Run I L W)

namespace Run

/-- No lock is in the way of the process. -/
def can (i : I) (n : ℕ) : Prop := ¬r.idle (r.work n i) ∧ ∀ l ∈ r.wants (r.work n i), r.holder n l = none

/-- Every process that can go on again and again goes on again and again. -/
def IsFair : Prop := ∀ i, Fair (r.can i) fun n => r.goes n i

variable {r} {i : I} {l : L} {n : ℕ}

/-- A process at work goes on, if it could go on again and again. -/
theorem advances (hfair : r.IsFair) (hn : ¬r.idle (r.work n i))
    (hcan : (∀ m, n ≤ m → r.work m i = r.work n i) → ∀ m, n ≤ m → ∃ k, m ≤ k ∧ r.can i k) :
    ∃ m, n ≤ m ∧ r.work m i = r.work n i ∧ r.less (r.work (m + 1) i) (r.work n i) := by
  by_contra hnone
  have hidle : ∀ m, n ≤ m → r.work m i = r.work n i → ¬(r.can i m ∧ r.goes m i) := by
    rintro m hm hw ⟨hc, hg⟩
    exact hnone ⟨m, hm, hw, hw ▸ r.go m i hc.1 hc.2 hg⟩
  have hstill : ∀ m, n ≤ m → r.work m i = r.work n i := by
    intro m hm
    induction m, hm using Nat.le_induction with
    | base => rfl
    | succ m hm ih =>
        have hbusy : ¬r.idle (r.work m i) := by rwa [ih]
        exact (r.stay m i hbusy fun h => hidle m hm ih ⟨⟨hbusy, h.1⟩, h.2⟩).trans ih
  obtain ⟨m, hm, hg⟩ := hfair i (fun k => by
    obtain ⟨m, hm, hc⟩ := hcan hstill (max n k) (le_max_left n k)
    exact ⟨m, (le_max_right n k).trans hm, hc⟩) n
  exact hidle m hm (hstill m hm) hg

/-- A lock is held on, or there is a time at which nobody holds it. -/
theorem held_or_free {m : ℕ} (h : r.holder n l = some i) (hm : n ≤ m) :
    r.holder m l = some i ∨ ∃ k, n ≤ k ∧ k ≤ m ∧ r.holder k l = none := by
  induction m, hm using Nat.le_induction with
  | base => exact Or.inl h
  | succ m hm ih =>
      rcases ih with ih | ⟨k, hk, hkm, hfree⟩
      · rcases r.keeps m l i ih with hkeep | hfree
        · exact Or.inl hkeep
        · exact Or.inr ⟨m + 1, hm.trans m.le_succ, le_rfl, hfree⟩
      · exact Or.inr ⟨k, hk, hkm.trans m.le_succ, hfree⟩

/-- Every lock is given back. -/
theorem eventually_free (hfair : r.IsFair) (h : r.holder n l = some i) : ∃ m, n ≤ m ∧ r.holder m l = none := by
  suffices hwork : ∀ w n, r.work n i = w → r.holder n l = some i → ∃ m, n ≤ m ∧ r.holder m l = none from
    hwork _ n rfl h
  intro w
  induction w using r.wellFounded.induction with
  | _ w ih =>
      intro n hw h
      by_contra hnone
      have hheld : ∀ m, n ≤ m → r.holder m l = some i := by
        intro m hm
        rcases held_or_free h hm with hheld | ⟨k, hk, -, hfree⟩
        · exact hheld
        · exact absurd ⟨k, hk, hfree⟩ hnone
      obtain ⟨m, hm, -, hless⟩ := advances hfair (r.busy n l i h).1 fun _ m hm => by
        obtain ⟨hbusy, hwants⟩ := r.busy m l i (hheld m hm)
        refine ⟨m, le_rfl, hbusy, ?_⟩
        rw [hwants]
        rintro _ ⟨⟩
      obtain ⟨k, hk, hfree⟩ := ih _ (hw ▸ hless) (m + 1) rfl (hheld (m + 1) (hm.trans m.le_succ))
      exact hnone ⟨k, (hm.trans m.le_succ).trans hk, hfree⟩

/-- Every process comes to an end of its work. -/
theorem eventually_idle (hfair : r.IsFair) (i : I) (n : ℕ) : ∃ m, n ≤ m ∧ r.idle (r.work m i) := by
  suffices hwork : ∀ w n, r.work n i = w → ∃ m, n ≤ m ∧ r.idle (r.work m i) from hwork _ n rfl
  intro w
  induction w using r.wellFounded.induction with
  | _ w ih =>
      intro n hw
      by_cases hidle : r.idle (r.work n i)
      · exact ⟨n, le_rfl, hidle⟩
      · obtain ⟨m, hm, -, hless⟩ := advances hfair hidle fun hstill m hm => by
          have hbusy : ∀ k, n ≤ k → ¬r.idle (r.work k i) := fun k hk => by rwa [hstill k hk]
          cases hwants : r.wants (r.work n i) with
          | none =>
              refine ⟨m, le_rfl, hbusy m hm, ?_⟩
              rw [hstill m hm, hwants]
              rintro _ ⟨⟩
          | some l =>
              have hfree : ∃ k, m ≤ k ∧ r.holder k l = none := by
                cases hholder : r.holder m l with
                | none => exact ⟨m, le_rfl, hholder⟩
                | some j => exact eventually_free hfair hholder
              obtain ⟨k, hk, hfree⟩ := hfree
              refine ⟨k, hk, hbusy k (hm.trans hk), ?_⟩
              rw [hstill k (hm.trans hk), hwants]
              rintro _ ⟨⟩
              exact hfree
        obtain ⟨k, hk, hdone⟩ := ih _ (hw ▸ hless) (m + 1) rfl
        exact ⟨k, (hm.trans m.le_succ).trans hk, hdone⟩

end Run

end Xmppd.Locking
