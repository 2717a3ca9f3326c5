import Mathlib.Data.Nat.Notation
import Mathlib.Logic.Function.Basic

/-!
# Programs that call out

A program is a value, or a call together with what to do for each answer. What
a call does is left to whoever answers it: every answer is possible when one
program is looked at alone, a machine with a state of its own can answer, and
several programs can be run against one machine with their calls interleaved.
-/
namespace Xmppd.Programs

inductive Program (C : Type) (R : C → Type) (A : Type) where
  | done (a : A)
  | call (c : C) (next : R c → Program C R A)

variable {C : Type} {R : C → Type} {A B S : Type}

namespace Program

def bind : Program C R A → (A → Program C R B) → Program C R B
  | .done a, f => f a
  | .call c next, f => .call c fun r => bind (next r) f

instance : Monad (Program C R) where
  pure := .done
  bind := bind

/-- A call whose answer is the value. -/
def perform (c : C) : Program C R (R c) := .call c .done

/-- The value of a program that has ended. -/
def value : Program C R A → Option A
  | .done a => some a
  | .call _ _ => none

/-- Every call satisfies `P` and every value `Q`, whatever the answers. -/
def Ensures (P : C → Prop) : Program C R A → (A → Prop) → Prop
  | .done a, Q => Q a
  | .call c next, Q => P c ∧ ∀ r, Ensures P (next r) Q

section
variable {P P' : C → Prop} {Q Q' : A → Prop}

@[simp] theorem ensures_pure {a : A} : Ensures P (pure a : Program C R A) Q ↔ Q a := Iff.rfl

@[simp] theorem ensures_perform {c : C} {Q : R c → Prop} :
    Ensures P (perform c : Program C R (R c)) Q ↔ P c ∧ ∀ r, Q r := Iff.rfl

@[simp] theorem ensures_bind {Q : B → Prop} {p : Program C R A} {f : A → Program C R B} :
    Ensures P (p >>= f) Q ↔ Ensures P p fun a => Ensures P (f a) Q := by
  induction p with
  | done a => exact Iff.rfl
  | call c next ih =>
      constructor
      · intro h
        exact ⟨h.1, fun r => (ih r).mp (h.2 r)⟩
      · intro h
        exact ⟨h.1, fun r => (ih r).mpr (h.2 r)⟩

theorem Ensures.mono {p : Program C R A} (h : Ensures P p Q) (hP : ∀ c, P c → P' c) (hQ : ∀ a, Q a → Q' a) :
    Ensures P' p Q' := by
  induction p with
  | done a => exact hQ a h
  | call c next ih => exact ⟨hP c h.1, fun r => ih r (h.2 r)⟩

/-- Where every call is allowed, only the values matter. -/
theorem ensures_then {Q : B → Prop} (p : Program C R A) {f : A → Program C R B}
    (h : ∀ a, Ensures (fun _ => True) (f a) Q) : Ensures (fun _ => True) (p >>= f) Q := by
  induction p with
  | done a => exact h a
  | call c next ih => exact ⟨trivial, ih⟩

/-- Calls that are allowed come first. -/
theorem ensures_seq {Q : B → Prop} {p : Program C R A} {f : A → Program C R B} (hp : Ensures P p fun _ => True)
    (hf : ∀ a, Ensures P (f a) Q) : Ensures P (p >>= f) Q :=
  ensures_bind.mpr (hp.mono (fun _ => id) fun a _ => hf a)

/-- Some value is reached, and it has all that is ensured. -/
theorem Ensures.exists_value (someAnswer : (c : C) → R c) {p : Program C R A} (h : Ensures P p Q)
    (h' : Ensures P' p Q') : ∃ a, Q a ∧ Q' a := by
  induction p with
  | done a => exact ⟨a, h, h'⟩
  | call c next ih => exact ih (someAnswer c) (h.2 _) (h'.2 _)

/-- A loop makes the calls of its rounds. -/
theorem ensures_forM {X : Type} {f : X → Program C R Unit} {l : List X} {Q : Unit → Prop}
    (h : ∀ x ∈ l, Ensures P (f x) fun _ => True) (hQ : Q ()) : Ensures P (l.forM f) Q := by
  induction l with
  | nil => exact hQ
  | cons x xs ih =>
      change Ensures P (f x >>= fun _ => xs.forM f) Q
      rw [ensures_bind]
      have hxs := ih fun y hy => h y (List.mem_cons_of_mem x hy)
      exact (h x List.mem_cons_self).mono (fun _ => id) (fun _ _ => hxs)

end

/-- What is left of a program after some of its calls. -/
inductive Residual (p : Program C R A) : Program C R A → Prop
  | refl : Residual p p
  | step {c : C} {next : R c → Program C R A} (r : R c) : Residual p (.call c next) → Residual p (next r)

theorem Ensures.residual {P : C → Prop} {Q : A → Prop} {p q : Program C R A} (h : Ensures P p Q) (hq : Residual p q) :
    Ensures P q Q := by
  induction hq with
  | refl => exact h
  | step r _ ih => exact ih.2 r

/-- With these calls and these answers the program comes to a point where `T` holds. -/
inductive Leads (P : C → Prop) (possible : (c : C) → R c → Prop) (T : Program C R A → Prop) : Program C R A → Prop
  | here {p : Program C R A} : T p → Leads P possible T p
  | call {c : C} {next : R c → Program C R A} : P c → (∀ r, possible c r → Leads P possible T (next r)) →
      Leads P possible T (.call c next)

theorem leads_bind {P : C → Prop} {possible : (c : C) → R c → Prop} {T : Program C R B → Prop} {p : Program C R A}
    {f : A → Program C R B} (h : Ensures P p fun a => Leads P possible T (f a)) : Leads P possible T (p >>= f) := by
  induction p with
  | done a => exact h
  | call c next ih => exact .call h.1 fun r _ => ih r (h.2 r)

theorem Leads.mono {P : C → Prop} {possible : (c : C) → R c → Prop} {T T' : Program C R A → Prop} {p : Program C R A}
    (h : Leads P possible T p) (hT : ∀ q, T q → T' q) : Leads P possible T' p := by
  induction h with
  | here h => exact .here (hT _ h)
  | call hc _ ih => exact .call hc ih

theorem Leads.bind {P : C → Prop} {possible : (c : C) → R c → Prop} {T : Program C R B → Prop} {p : Program C R A}
    {f : A → Program C R B} (h : Leads P possible (fun q => ∃ a, q = .done a ∧ Leads P possible T (f a)) p) :
    Leads P possible T (p >>= f) := by
  induction h with
  | here h =>
      obtain ⟨a, rfl, h⟩ := h
      exact h
  | call hc _ ih => exact .call hc ih

theorem Leads.before {P : C → Prop} {possible : (c : C) → R c → Prop} {T : Program C R A → Prop}
    {T' : Program C R B → Prop} {p : Program C R A} {f : A → Program C R B} (h : Leads P possible T p)
    (hT : ∀ q, T q → T' (q >>= f)) : Leads P possible T' (p >>= f) := by
  induction h with
  | here h => exact .here (hT _ h)
  | call hc _ ih => exact .call hc ih

/-- Every call satisfies `P` and every value `Q`, as long as the answers are possible. -/
def EnsuresGiven (possible : (c : C) → R c → Prop) (P : C → Prop) : Program C R A → (A → Prop) → Prop
  | .done a, Q => Q a
  | .call c next, Q => P c ∧ ∀ r, possible c r → EnsuresGiven possible P (next r) Q

section
variable {possible : (c : C) → R c → Prop} {P P' : C → Prop}

theorem ensuresGiven_bind {Q : B → Prop} {p : Program C R A} {f : A → Program C R B} :
    EnsuresGiven possible P (p >>= f) Q ↔ EnsuresGiven possible P p fun a => EnsuresGiven possible P (f a) Q := by
  induction p with
  | done a => exact Iff.rfl
  | call c next ih =>
      constructor
      · intro h
        exact ⟨h.1, fun r hr => (ih r).mp (h.2 r hr)⟩
      · intro h
        exact ⟨h.1, fun r hr => (ih r).mpr (h.2 r hr)⟩

theorem EnsuresGiven.mono {Q Q' : A → Prop} {p : Program C R A} (h : EnsuresGiven possible P p Q) (hQ : ∀ a, Q a → Q' a) :
    EnsuresGiven possible P p Q' := by
  induction p with
  | done a => exact hQ a h
  | call c next ih => exact ⟨h.1, fun r hr => ih r (h.2 r hr)⟩

theorem Ensures.given {Q : A → Prop} {p : Program C R A} (h : Ensures P p Q) (hP : ∀ c, P c → P' c) :
    EnsuresGiven possible P' p Q := by
  induction p with
  | done a => exact h
  | call c next ih => exact ⟨hP c h.1, fun r _ => ih r (h.2 r)⟩

end

/-- A machine answers the calls; the calls are listed in order. -/
def exec (answer : (c : C) → S → R c × S) : Program C R A → S → A × S × List C
  | .done a, s => (a, s, [])
  | .call c next, s =>
      let x := exec answer (next (answer c s).1) (answer c s).2
      (x.1, x.2.1, c :: x.2.2)

/-- What follows is run on from where the first part ends. -/
theorem exec_bind (answer : (c : C) → S → R c × S) (p : Program C R A) (f : A → Program C R B) (s : S) :
    (p >>= f).exec answer s =
      (((f (p.exec answer s).1).exec answer (p.exec answer s).2.1).1,
        ((f (p.exec answer s).1).exec answer (p.exec answer s).2.1).2.1,
        (p.exec answer s).2.2 ++ ((f (p.exec answer s).1).exec answer (p.exec answer s).2.1).2.2) := by
  induction p generalizing s with
  | done a => rfl
  | call c next ih =>
      change (let x := (next (answer c s).1 >>= f).exec answer (answer c s).2; (x.1, x.2.1, c :: x.2.2)) = _
      rw [ih (answer c s).1 (answer c s).2]
      rfl

theorem Ensures.exec {P : C → Prop} {Q : A → Prop} {p : Program C R A} (h : Ensures P p Q)
    (answer : (c : C) → S → R c × S) (s : S) :
    Q (p.exec answer s).1 ∧ ∀ c ∈ (p.exec answer s).2.2, P c := by
  induction p generalizing s with
  | done a => exact ⟨h, by simp [Program.exec]⟩
  | call c next ih =>
      obtain ⟨hQ, hP⟩ := ih (answer c s).1 (h.2 _) (answer c s).2
      refine ⟨hQ, ?_⟩
      intro d hd
      rcases List.mem_cons.mp hd with rfl | hd
      · exact h.1
      · exact hP d hd

end Program

/-- Programs that share a machine. -/
structure Pool (C : Type) (R : C → Type) (S : Type) (A : Type := Unit) where
  shared : S
  threads : ℕ → Program C R A

namespace Pool
variable (answer : ℕ → (c : C) → S → R c × S)

/-- The next call of one program. -/
def step (p : Pool C R S A) (i : ℕ) : Pool C R S A :=
  match p.threads i with
  | .done _ => p
  | .call c next =>
      { shared := (answer i c p.shared).2
        threads := Function.update p.threads i (next (answer i c p.shared).1) }

def run (p : Pool C R S A) (schedule : List ℕ) : Pool C R S A := schedule.foldl (step answer) p

/-- Every step of the schedule is taken where the condition holds. -/
def Meets (ok : Pool C R S A → ℕ → Prop) : Pool C R S A → List ℕ → Prop
  | _, [] => True
  | p, i :: is => ok p i ∧ Meets ok (step answer p i) is

variable {answer}

section
variable {p : Pool C R S A} {i j : ℕ} {c : C} {next : R c → Program C R A}

theorem step_of_done {a : A} (h : p.threads i = .done a) : step answer p i = p := by
  rw [step, h]

theorem step_shared (h : p.threads i = .call c next) : (step answer p i).shared = (answer i c p.shared).2 := by
  rw [step, h]

theorem step_self (h : p.threads i = .call c next) :
    (step answer p i).threads i = next (answer i c p.shared).1 := by
  rw [step, h]
  exact Function.update_self _ _ _

theorem step_other (h : j ≠ i) : (step answer p i).threads j = p.threads j := by
  unfold step
  split
  · rfl
  · exact Function.update_of_ne h _ _

end

/-- A property kept by every step that meets the condition holds along the run. -/
theorem run_invariant {ok : Pool C R S A → ℕ → Prop} {Inv : Pool C R S A → Prop}
    (hstep : ∀ p i, Inv p → ok p i → Inv (step answer p i)) (schedule : List ℕ) :
    ∀ p, Inv p → Meets answer ok p schedule → Inv (run answer p schedule) := by
  induction schedule with
  | nil => exact fun _ h _ => h
  | cons i is ih => exact fun p h hm => ih _ (hstep p i h hm.1) hm.2

/-- A program that is alone at work, while the others stand where `q` holds of them. -/
theorem meets_alone {ok : Pool C R S A → ℕ → Prop} {q : Program C R A → Prop} {i : ℕ}
    (hok : ∀ p : Pool C R S A, (∀ j, j ≠ i → q (p.threads j)) → ok p i) (n : ℕ) :
    ∀ p : Pool C R S A, (∀ j, j ≠ i → q (p.threads j)) → Meets answer ok p (List.replicate n i) := by
  induction n with
  | zero => exact fun _ _ => trivial
  | succ n ih =>
      intro p h
      refine ⟨hok p h, ih _ ?_⟩
      intro j hj
      rw [step_other hj]
      exact h j hj

theorem run_append (p : Pool C R S A) (a b : List ℕ) : run answer p (a ++ b) = run answer (run answer p a) b :=
  List.foldl_append

theorem run_other {p : Pool C R S A} {i : ℕ} {schedule : List ℕ} (h : i ∉ schedule) :
    (run answer p schedule).threads i = p.threads i := by
  induction schedule generalizing p with
  | nil => rfl
  | cons j js ih =>
      rw [List.mem_cons, not_or] at h
      exact (ih h.2).trans (step_other h.1)

theorem meets_of_forall {ok : Pool C R S A → ℕ → Prop} (h : ∀ p i, ok p i) (schedule : List ℕ) :
    ∀ p, Meets answer ok p schedule := by
  induction schedule with
  | nil => exact fun _ => trivial
  | cons i is ih => exact fun p => ⟨h p i, ih _⟩

theorem meets_append {ok : Pool C R S A → ℕ → Prop} {a b : List ℕ} {p : Pool C R S A} (ha : Meets answer ok p a)
    (hb : Meets answer ok (run answer p a) b) : Meets answer ok p (a ++ b) := by
  induction a generalizing p with
  | nil => exact hb
  | cons i is ih => exact ⟨ha.1, ih ha.2 hb⟩

end Pool

end Xmppd.Programs
