import Mathlib.Data.List.Basic

/-!
# Two machines with the same inputs

Two machines that are given the same inputs are compared by what they show after
each of them. They are in step as long as a relation between their states is
kept, and where an input breaks it for good to see, they are alike throughout
exactly if none of the inputs does.
-/
namespace Xmppd.Lockstep

variable {σ τ ε : Type*} (left : σ → ε → σ) (right : τ → ε → τ)

/-- Every input is given in a state of the first machine that admits it. -/
def Along (admits : σ → ε → Prop) : σ → List ε → Prop
  | _, [] => True
  | a, e :: es => admits a e ∧ Along admits (left a e) es

/-- The machines agree after every beginning of the inputs. -/
def Alike (agree : σ → τ → Prop) (a : σ) (b : τ) (es : List ε) : Prop :=
  ∀ begun, begun <+: es → agree (begun.foldl left a) (begun.foldl right b)

section
variable {left right} {agree : σ → τ → Prop} {a : σ} {b : τ} {e : ε} {es : List ε}

theorem alike_nil : Alike left right agree a b [] ↔ agree a b := by
  constructor
  · exact fun h => h [] (List.nil_prefix)
  · intro h begun hbegun
    rw [List.prefix_nil.mp hbegun]
    exact h

theorem alike_cons :
    Alike left right agree a b (e :: es) ↔ agree a b ∧ Alike left right agree (left a e) (right b e) es := by
  constructor
  · intro h
    refine ⟨h [] List.nil_prefix, ?_⟩
    intro begun hbegun
    exact h (e :: begun) (List.cons_prefix_cons.mpr ⟨rfl, hbegun⟩)
  · intro h begun hbegun
    cases begun with
    | nil => exact h.1
    | cons x xs =>
        obtain ⟨hx, hxs⟩ := List.cons_prefix_cons.mp hbegun
        rw [hx]
        exact h.2 xs hxs

theorem Alike.start (h : Alike left right agree a b es) : agree a b := h [] List.nil_prefix

variable {admits : σ → ε → Prop} {related : σ → τ → Prop} {fits : ε → Prop}

theorem Along.and_forall {p : ε → Prop} (h : Along left admits a es) (hp : ∀ e ∈ es, p e) :
    Along left (fun a e => p e ∧ admits a e) a es := by
  induction es generalizing a with
  | nil => exact trivial
  | cons e es ih =>
      rw [List.forall_mem_cons] at hp
      exact ⟨⟨hp.1, h.1⟩, ih h.2 hp.2⟩

/-- Where a fitting input keeps the relation and any other is seen at once, the machines
are alike exactly if all inputs fit. -/
theorem alike_iff (hagree : ∀ a b, related a b → agree a b)
    (hkeep : ∀ a b e, related a b → admits a e → fits e → related (left a e) (right b e))
    (hbreak : ∀ a b e, related a b → admits a e → ¬fits e → ¬agree (left a e) (right b e))
    (hrelated : related a b) (halong : Along left admits a es) :
    Alike left right agree a b es ↔ ∀ e ∈ es, fits e := by
  induction es generalizing a b with
  | nil => exact iff_of_true (alike_nil.mpr (hagree a b hrelated)) fun e he => by cases he
  | cons e es ih =>
      rw [alike_cons, and_iff_right (hagree a b hrelated), List.forall_mem_cons]
      by_cases hfits : fits e
      · rw [and_iff_right hfits]
        exact ih (hkeep a b e hrelated halong.1 hfits) halong.2
      · exact iff_of_false (fun h => hbreak a b e hrelated halong.1 hfits h.start) fun h => hfits h.1

end

end Xmppd.Lockstep
