import Mathlib.Data.List.Nodup
import Mathlib.Tactic.Tauto
import Xmppd.Programs

/-!
# Read, then write

Programs that share a cell and each read it once and later write it once, from
what was read. A schedule in which nobody reads while somebody else is between
the two steps leaves in the cell what the edits give one after another.
-/
namespace Xmppd.ReadModifyWrite
open Programs Program

/-- The values of a cell that is edited by one program after another; in between
it may be prepared by a change that is nobody's edit. -/
inductive Serially {V : Type} (edit : ℕ → V → V → Prop) (prepare : V → V → Prop) (init : V) : List ℕ → V → Prop
  | start : Serially edit prepare init [] init
  | step {l : List ℕ} {v w : V} {i : ℕ} : Serially edit prepare init l v → edit i v w →
      Serially edit prepare init (l ++ [i]) w
  | prepared {l : List ℕ} {v w : V} : Serially edit prepare init l v → prepare v w → Serially edit prepare init l w

variable {C : Type} {R : C → Type} {S V : Type}

/-- What programs do with a cell: they come to read it, hold what they have read,
and end with a write. The condition on the shared state is kept by all. -/
structure Discipline (answer : ℕ → (c : C) → S → R c × S) (cell : S → V) (edit : ℕ → V → V → Prop)
    (prepare : V → V → Prop) where
  frame : S → Prop
  before : ℕ → V → Program C R Unit → Prop
  holding : ℕ → V → Program C R Unit → Prop
  before_done : ∀ i v a, ¬before i v (.done a)
  holding_done : ∀ i v a, ¬holding i v (.done a)
  before_holding : ∀ i v w p, before i v p → ¬holding i w p
  before_edit : ∀ i j v w p, before i v p → edit j v w → before i w p
  before_prepared : ∀ i v w p, before i v p → prepare v w → before i w p
  holding_prepared : ∀ i v w p, holding i v p → ¬prepare v w
  before_call : ∀ i c next s, frame s → before i (cell s) (.call c next) →
    frame (answer i c s).2 ∧
      (cell (answer i c s).2 = cell s ∧
          (before i (cell s) (next (answer i c s).1) ∨ holding i (cell s) (next (answer i c s).1)) ∨
        prepare (cell s) (cell (answer i c s).2) ∧ before i (cell (answer i c s).2) (next (answer i c s).1))
  holding_call : ∀ i c next s, frame s → holding i (cell s) (.call c next) →
    frame (answer i c s).2 ∧
      (cell (answer i c s).2 = cell s ∧ holding i (cell s) (next (answer i c s).1) ∨
        edit i (cell s) (cell (answer i c s).2) ∧ next (answer i c s).1 = .done ())

namespace Discipline
variable {answer : ℕ → (c : C) → S → R c × S} {cell : S → V} {edit : ℕ → V → V → Prop}
variable {prepare : V → V → Prop} (D : Discipline answer cell edit prepare)

/-- Nobody reads while another program holds what it has read. -/
def Exclusive (p : Pool C R S) (i : ℕ) : Prop :=
  D.before i (cell p.shared) (p.threads i) →
    ¬D.before i (cell (Pool.step answer p i).shared) ((Pool.step answer p i).threads i) → ∀ j, j ≠ i → ∀ v, ¬D.holding j v (p.threads j)

/-- The phases of the programs that take part, given the order of the writes so
far; the others have ended. A program that holds a value holds the current one,
and it is alone. -/
structure Serial (job : ℕ → Prop) (init : V) (p : Pool C R S) (order : List ℕ) : Prop where
  frame : D.frame p.shared
  serially : Serially edit prepare init order (cell p.shared)
  nodup : order.Nodup
  jobs : ∀ i ∈ order, job i
  idle : ∀ i, ¬job i ∨ i ∈ order → p.threads i = .done ()
  phase : ∀ i, job i → i ∉ order →
    D.before i (cell p.shared) (p.threads i) ∨ D.holding i (cell p.shared) (p.threads i)
  alone : ∀ i j v w, D.holding i v (p.threads i) → D.holding j w (p.threads j) → i = j

variable {D} {job : ℕ → Prop} {init : V} {p : Pool C R S} {order : List ℕ} {i : ℕ}

/-- A program that still calls takes part and has not written. -/
theorem Serial.active (h : D.Serial job init p order) {c : C} {next : R c → Program C R Unit}
    (hi : p.threads i = .call c next) : job i ∧ i ∉ order := by
  constructor
  · by_contra hno
    have hd := h.idle i (Or.inl hno)
    rw [hi] at hd
    cases hd
  · intro hm
    have hd := h.idle i (Or.inr hm)
    rw [hi] at hd
    cases hd

/-- A program that goes on waiting, or starts to hold the current value alone,
keeps the phases. -/
theorem Serial.wait (h : D.Serial job init p order) {c : C} {next : R c → Program C R Unit} (hi : p.threads i = .call c next)
    (hb : D.before i (cell p.shared) (p.threads i)) (hx : D.Exclusive p i) : D.Serial job init (Pool.step answer p i) order := by
  obtain ⟨hjob, hio⟩ := h.active hi
  have hfree : ∀ v, D.holding i v ((Pool.step answer p i).threads i) → ∀ k, k ≠ i → ∀ w, ¬D.holding k w (p.threads k) :=
    fun v hv => hx hb fun hb' => D.before_holding i _ v _ hb' hv
  rw [hi] at hb
  obtain ⟨hframe, hcall⟩ := D.before_call i c next p.shared h.frame hb
  have hself : D.before i (cell (answer i c p.shared).2) (next (answer i c p.shared).1) ∨
      D.holding i (cell (answer i c p.shared).2) (next (answer i c p.shared).1) := by
    rcases hcall with ⟨hcell, hnext⟩ | ⟨_, hnext⟩
    · rw [hcell]
      exact hnext
    · exact Or.inl hnext
  have hothers : ∀ j, job j → j ∉ order → D.before j (cell (answer i c p.shared).2) (p.threads j) ∨
      D.holding j (cell (answer i c p.shared).2) (p.threads j) := by
    intro j hj hjo
    rcases hcall with ⟨hcell, _⟩ | ⟨hprep, _⟩
    · rw [hcell]
      exact h.phase j hj hjo
    · rcases h.phase j hj hjo with hb | hv
      · exact Or.inl (D.before_prepared j _ _ _ hb hprep)
      · exact absurd hprep (D.holding_prepared j _ _ _ hv)
  constructor
  · rw [Pool.step_shared hi]
    exact hframe
  · rw [Pool.step_shared hi]
    rcases hcall with ⟨hcell, _⟩ | ⟨hprep, _⟩
    · rw [hcell]
      exact h.serially
    · exact h.serially.prepared hprep
  · exact h.nodup
  · exact h.jobs
  · intro j hj
    have hij : j ≠ i := by
      rintro rfl
      rcases hj with hj | hj
      · exact hj hjob
      · exact hio hj
    rw [Pool.step_other hij]
    exact h.idle j hj
  · intro j hj hjo
    rw [Pool.step_shared hi]
    by_cases hij : j = i
    · rw [hij, Pool.step_self hi]
      exact hself
    · rw [Pool.step_other hij]
      exact hothers j hj hjo
  · intro j k v w hv hw
    by_cases hji : j = i
    · by_cases hki : k = i
      · rw [hji, hki]
      · rw [hji] at hv
        rw [Pool.step_other hki] at hw
        exact absurd hw (hfree v hv k hki w)
    · rw [Pool.step_other hji] at hv
      by_cases hki : k = i
      · rw [hki] at hw
        exact absurd hv (hfree w hw j hji v)
      · rw [Pool.step_other hki] at hw
        exact h.alone j k v w hv hw

/-- A program that holds the current value goes on holding it, or writes and ends. -/
theorem Serial.hold (h : D.Serial job init p order) {c : C} {next : R c → Program C R Unit} (hi : p.threads i = .call c next)
    (hh : D.holding i (cell p.shared) (p.threads i)) :
    ∃ more, D.Serial job init (Pool.step answer p i) (order ++ more) := by
  obtain ⟨hjob, hio⟩ := h.active hi
  have hothers : ∀ j, j ≠ i → ∀ v, ¬D.holding j v (p.threads j) := fun j hj v hv => hj (h.alone j i v _ hv hh)
  have hwaiting : ∀ j, j ≠ i → job j → j ∉ order → D.before j (cell p.shared) (p.threads j) := by
    intro j hj hjj hjo
    rcases h.phase j hjj hjo with hb | hv
    · exact hb
    · exact absurd hv (hothers j hj _)
  rw [hi] at hh
  obtain ⟨hframe, ⟨hcell, hnext⟩ | ⟨hedit, hdone⟩⟩ := D.holding_call i c next p.shared h.frame hh
  · refine ⟨[], ?_⟩
    rw [List.append_nil]
    constructor
    · rw [Pool.step_shared hi]
      exact hframe
    · rw [Pool.step_shared hi, hcell]
      exact h.serially
    · exact h.nodup
    · exact h.jobs
    · intro j hj
      have hij : j ≠ i := by
        rintro rfl
        rcases hj with hj | hj
        · exact hj hjob
        · exact hio hj
      rw [Pool.step_other hij]
      exact h.idle j hj
    · intro j hj hjo
      rw [Pool.step_shared hi, hcell]
      by_cases hij : j = i
      · rw [hij, Pool.step_self hi]
        exact Or.inr hnext
      · rw [Pool.step_other hij]
        exact Or.inl (hwaiting j hij hj hjo)
    · intro j k v w hv hw
      by_cases hji : j = i
      · by_cases hki : k = i
        · rw [hji, hki]
        · rw [Pool.step_other hki] at hw
          exact absurd hw (hothers k hki w)
      · rw [Pool.step_other hji] at hv
        exact absurd hv (hothers j hji v)
  · refine ⟨[i], ?_⟩
    constructor
    · rw [Pool.step_shared hi]
      exact hframe
    · rw [Pool.step_shared hi]
      exact h.serially.step hedit
    · rw [List.nodup_append]
      refine ⟨h.nodup, List.nodup_singleton i, ?_⟩
      intro a ha b hb hab
      rw [List.mem_singleton.mp hb] at hab
      exact hio (hab ▸ ha)
    · intro j hj
      rcases List.mem_append.mp hj with hj | hj
      · exact h.jobs j hj
      · rw [List.mem_singleton.mp hj]
        exact hjob
    · intro j hj
      by_cases hij : j = i
      · rw [hij, Pool.step_self hi]
        exact hdone
      · rw [Pool.step_other hij]
        apply h.idle j
        rw [List.mem_append, List.mem_singleton] at hj
        tauto
    · intro j hj hjo
      rw [List.mem_append, List.mem_singleton, not_or] at hjo
      rw [Pool.step_shared hi, Pool.step_other hjo.2]
      exact Or.inl (D.before_edit j i _ _ _ (hwaiting j hjo.2 hj hjo.1) hedit)
    · intro j k v w hv hw
      by_cases hji : j = i
      · rw [hji, Pool.step_self hi, hdone] at hv
        exact absurd hv (D.holding_done i v ())
      · rw [Pool.step_other hji] at hv
        exact absurd hv (hothers j hji v)

theorem Serial.step (h : ∃ order, D.Serial job init p order) (hx : D.Exclusive p i) :
    ∃ order, D.Serial job init (Pool.step answer p i) order := by
  obtain ⟨order, h⟩ := h
  cases hi : p.threads i with
  | done a =>
      rw [Pool.step_of_done hi]
      exact ⟨order, h⟩
  | call c next =>
      obtain ⟨hjob, hio⟩ := h.active hi
      rcases h.phase i hjob hio with hb | hh
      · exact ⟨order, h.wait hi hb hx⟩
      · obtain ⟨more, hm⟩ := h.hold hi hh
        exact ⟨order ++ more, hm⟩

/-- When all programs have ended, all that take part have written. -/
theorem Serial.finished (h : D.Serial job init p order) (hdone : ∀ i, ∃ a, p.threads i = .done a) :
    ∀ i, i ∈ order ↔ job i := by
  intro i
  refine ⟨h.jobs i, ?_⟩
  intro hjob
  by_contra hio
  obtain ⟨a, ha⟩ := hdone i
  rcases h.phase i hjob hio with hb | hh
  · rw [ha] at hb
    exact D.before_done i _ a hb
  · rw [ha] at hh
    exact D.holding_done i _ a hh

/-- An exclusive schedule in which all end is an order of the edits. -/
theorem run_serial {ok : Pool C R S → ℕ → Prop} (hok : ∀ q i, D.frame q.shared → ok q i → D.Exclusive q i)
    (hinit : D.Serial job (cell p.shared) p []) (schedule : List ℕ) (hx : Pool.Meets answer ok p schedule)
    (hdone : ∀ i, ∃ a, (Pool.run answer p schedule).threads i = .done a) :
    ∃ order : List ℕ, order.Nodup ∧ (∀ i, i ∈ order ↔ job i) ∧
      Serially edit prepare (cell p.shared) order (cell (Pool.run answer p schedule).shared) := by
  have hstep : ∀ q i, (∃ order, D.Serial job (cell p.shared) q order) → ok q i →
      ∃ order, D.Serial job (cell p.shared) (Pool.step answer q i) order := by
    intro q i h hi
    obtain ⟨order, h⟩ := h
    exact Serial.step ⟨order, h⟩ (hok q i h.frame hi)
  obtain ⟨order, h⟩ := Pool.run_invariant hstep schedule p ⟨[], hinit⟩ hx
  exact ⟨order, h.nodup, h.finished hdone, h.serially⟩

end Discipline

end Xmppd.ReadModifyWrite
