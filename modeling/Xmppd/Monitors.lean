import Xmppd.Programs

/-!
# Monitors of calls

A monitor follows the calls of one program and their answers. In each of its states it allows
some calls. A program obeys it if no answers lead to a call that is not allowed; then every
list of calls made by the program is accepted.
-/
namespace Xmppd.Monitors
open Programs Program

structure Monitor (C : Type) (R : C → Type) (H : Type) where
  allows : H → C → Prop
  after : H → (c : C) → R c → H

variable {C H A B : Type} {R : C → Type}

namespace Monitor
variable (M : Monitor C R H)

/-- All calls are allowed, and at the end the monitor and the value are as they should be. -/
def Obeys : H → Program C R A → (H → A → Prop) → Prop
  | h, .done a, Q => Q h a
  | h, .call c next, Q => M.allows h c ∧ ∀ r, Obeys (M.after h c r) (next r) Q

/-- A list of calls with their answers, all of them allowed. -/
def Accepts : H → List ((c : C) × R c) → Prop
  | _, [] => True
  | h, x :: xs => M.allows h x.1 ∧ Accepts (M.after h x.1 x.2) xs

def final (h : H) (calls : List ((c : C) × R c)) : H := calls.foldl (fun h x => M.after h x.1 x.2) h

variable {M} {h : H} {Q Q' : H → A → Prop}

theorem obeys_bind {Q : H → B → Prop} {p : Program C R A} {f : A → Program C R B} :
    M.Obeys h (p >>= f) Q ↔ M.Obeys h p fun h a => M.Obeys h (f a) Q := by
  induction p generalizing h with
  | done a => exact Iff.rfl
  | call c next ih =>
      constructor
      · exact fun hp => ⟨hp.1, fun r => (ih r).mp (hp.2 r)⟩
      · exact fun hp => ⟨hp.1, fun r => (ih r).mpr (hp.2 r)⟩

theorem Obeys.mono {p : Program C R A} (hp : M.Obeys h p Q) (hQ : ∀ h a, Q h a → Q' h a) : M.Obeys h p Q' := by
  induction p generalizing h with
  | done a => exact hQ h a hp
  | call c next ih => exact ⟨hp.1, fun r => ih r (hp.2 r)⟩

/-- Calls that the monitor allows and that leave it as it is. -/
theorem obeys_of_ensures {P : C → Prop} {Q : A → Prop} {p : Program C R A}
    (hP : ∀ c, P c → M.allows h c ∧ ∀ r, M.after h c r = h) (hp : Ensures P p Q) :
    M.Obeys h p fun h' a => h' = h ∧ Q a := by
  induction p with
  | done a => exact ⟨rfl, hp⟩
  | call c next ih =>
      refine ⟨(hP c hp.1).1, ?_⟩
      intro r
      rw [(hP c hp.1).2 r]
      exact ih r (hp.2 r)

theorem accepts_append {xs ys : List ((c : C) × R c)} :
    M.Accepts h (xs ++ ys) ↔ M.Accepts h xs ∧ M.Accepts (M.final h xs) ys := by
  induction xs generalizing h with
  | nil => exact (and_iff_right trivial).symm
  | cons x xs ih =>
      change M.allows h x.1 ∧ M.Accepts (M.after h x.1 x.2) (xs ++ ys) ↔ (M.allows h x.1 ∧ _) ∧ _
      rw [ih, and_assoc]
      exact Iff.rfl

@[simp] theorem final_append (xs : List ((c : C) × R c)) (c : C) (r : R c) :
    M.final h (xs ++ [⟨c, r⟩]) = M.after (M.final h xs) c r := List.foldl_append

end Monitor

end Xmppd.Monitors
