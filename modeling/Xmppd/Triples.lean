import Xmppd.Programs

/-!
# Before and after

A program that is run to its end on a machine is described by what holds of the
machine before and what holds of its value and of the machine afterwards. Such
descriptions follow each other as the parts of the program do, and a property that
no call of a part breaks need not be looked at while that part is run.
-/
namespace Xmppd.Triples
open Programs Program

variable {C : Type} {R : C → Type} {A B S : Type} (answer : (c : C) → S → R c × S)

/-- From every state in which `P` holds the program ends with a value and in a state for
which `Q` holds. -/
def Triple (P : S → Prop) (p : Program C R A) (Q : A → S → Prop) : Prop :=
  ∀ s, P s → Q (p.exec answer s).1 (p.exec answer s).2.1

section
variable {answer} {P P' : S → Prop} {Q Q' : A → S → Prop} {p : Program C R A}

theorem triple_pure {a : A} (h : ∀ s, P s → Q a s) : Triple answer P (pure a) Q := h

theorem triple_bind {f : A → Program C R B} {M : A → S → Prop} {Q : B → S → Prop} (hp : Triple answer P p M)
    (hf : ∀ a, Triple answer (M a) (f a) Q) : Triple answer P (p >>= f) Q := by
  intro s hs
  rw [exec_bind]
  exact hf _ _ (hp s hs)

theorem Triple.mono (h : Triple answer P p Q) (hP : ∀ s, P' s → P s) (hQ : ∀ a s, Q a s → Q' a s) :
    Triple answer P' p Q' := fun s hs => hQ _ _ (h s (hP s hs))

theorem Triple.post (h : Triple answer P p Q) (hQ : ∀ a s, Q a s → Q' a s) : Triple answer P p Q' := h.mono (fun _ => id) hQ

/-- A fact about no state may be taken out of what holds before. -/
theorem triple_fact {φ : Prop} (h : φ → Triple answer P p Q) : Triple answer (fun s => φ ∧ P s) p Q :=
  fun s hs => h hs.1 s hs.2

/-- What none of the calls breaks holds afterwards. -/
theorem triple_kept {allowed : C → Prop} {V : A → Prop} (h : Ensures allowed p V)
    (hkeep : ∀ c s, allowed c → P s → P (answer c s).2) : Triple answer P p fun a s => V a ∧ P s := by
  induction p with
  | done a => exact fun s hs => ⟨h, hs⟩
  | call c next ih => exact fun s hs => ih _ (h.2 _) _ (hkeep c s h.1 hs)

end

end Xmppd.Triples
