import Mathlib.Data.List.Induction
import Xmppd.Grants
import Xmppd.LastWords

/-!
# What the history of a ledger tells

Of the operations that have been applied to a ledger only those between two users
bear on their link, and of these only the last one matters: the first user admits
the second if that is an admission, and otherwise does not. The second follows
the first at most then.
-/
namespace Xmppd.GrantHistory
open Grants LastWords

variable {U : Type} [DecidableEq U]

/-- The operations that decide whether the first user admits the second. -/
def onAdmission (a b : U) : Op U → Bool
  | .note _ _ => false
  | .accept x y => x = a ∧ y = b
  | .leave x y => x = b ∧ y = a
  | .expel x y => x = a ∧ y = b
  | .erase x y => x = a ∧ y = b

/-- The operations after which the second user follows the first or does not. -/
def onFollowing (a b : U) : Op U → Bool
  | .note _ _ => false
  | .accept x y => x = a ∧ y = b
  | .leave x y => x = b ∧ y = a
  | .expel x y => x = a ∧ y = b
  | .erase x y => x = b ∧ y = a

section
variable {L : Ledger U} {a b : U} {op : Op U}

theorem admits_apply_of_decisive (h : onAdmission a b op = true) : Admits (apply L op) a b ↔ op = .accept a b := by
  cases op with
  | note x y => cases h
  | accept x y =>
      obtain ⟨rfl, rfl⟩ := of_decide_eq_true h
      rw [admits_accept]
      exact iff_of_true (.inr ⟨rfl, rfl⟩) rfl
  | leave x y =>
      obtain ⟨rfl, rfl⟩ := of_decide_eq_true h
      rw [admits_leave]
      exact iff_of_false (fun had => had.2 ⟨rfl, rfl⟩) (by simp)
  | expel x y =>
      obtain ⟨rfl, rfl⟩ := of_decide_eq_true h
      rw [admits_expel]
      exact iff_of_false (fun had => had.2 ⟨rfl, rfl⟩) (by simp)
  | erase x y =>
      obtain ⟨rfl, rfl⟩ := of_decide_eq_true h
      rw [admits_erase]
      exact iff_of_false (fun had => had.2 ⟨rfl, rfl⟩) (by simp)

theorem admits_apply_of_aside (h : onAdmission a b op = false) : Admits (apply L op) a b ↔ Admits L a b := by
  cases op with
  | note x y => exact admits_note L x y a b
  | accept x y =>
      rw [admits_accept]
      exact or_iff_left fun he => of_decide_eq_false h ⟨he.1.symm, he.2.symm⟩
  | leave x y =>
      rw [admits_leave]
      exact and_iff_left fun he => of_decide_eq_false h ⟨he.2.symm, he.1.symm⟩
  | expel x y =>
      rw [admits_expel]
      exact and_iff_left fun he => of_decide_eq_false h ⟨he.1.symm, he.2.symm⟩
  | erase x y =>
      rw [admits_erase]
      exact and_iff_left fun he => of_decide_eq_false h ⟨he.1.symm, he.2.symm⟩

theorem follows_apply_of_decisive (h : onFollowing a b op = true) (hf : Follows (apply L op) b a) : op = .accept a b := by
  cases op with
  | note x y => cases h
  | accept x y =>
      obtain ⟨rfl, rfl⟩ := of_decide_eq_true h
      rfl
  | leave x y =>
      obtain ⟨rfl, rfl⟩ := of_decide_eq_true h
      rw [follows_leave] at hf
      exact absurd ⟨rfl, rfl⟩ hf.2
  | expel x y =>
      obtain ⟨rfl, rfl⟩ := of_decide_eq_true h
      rw [follows_expel] at hf
      exact absurd ⟨rfl, rfl⟩ hf.2
  | erase x y =>
      obtain ⟨rfl, rfl⟩ := of_decide_eq_true h
      rw [follows_erase] at hf
      exact absurd ⟨rfl, rfl⟩ hf.2

theorem follows_apply_of_aside (h : onFollowing a b op = false) (hf : Follows (apply L op) b a) : Follows L b a := by
  refine (linked_of_apply.1 hf).resolve_right ?_
  rintro rfl
  exact of_decide_eq_false h ⟨rfl, rfl⟩

end

section
variable (L : Ledger U) (a b : U) (ops : List (Op U))

/-- An admission stands until another operation between the two. -/
theorem admits_foldl_iff : Admits (ops.foldl apply L) a b ↔
    lastOf (onAdmission a b) ops = some (.accept a b) ∨ lastOf (onAdmission a b) ops = none ∧ Admits L a b := by
  induction ops using List.reverseRecOn with
  | nil => exact ⟨fun h => .inr ⟨rfl, h⟩, fun h => h.elim (fun h => by cases h) And.right⟩
  | append_singleton ops op ih =>
      rw [List.foldl_append]
      change Admits (apply (ops.foldl apply L) op) a b ↔ _
      by_cases h : onAdmission a b op = true
      · rw [admits_apply_of_decisive h, lastOf_append_of_mem (List.mem_singleton_self op) h fun y hy _ => List.mem_singleton.mp hy]
        simp only [Option.some.injEq, reduceCtorEq, false_and, or_false]
      · rw [Bool.not_eq_true] at h
        rw [admits_apply_of_aside h, lastOf_append_of_forall fun x hx => List.mem_singleton.mp hx ▸ h, ih]

theorem follows_foldl (hf : Follows (ops.foldl apply L) b a) :
    lastOf (onFollowing a b) ops = some (.accept a b) ∨ lastOf (onFollowing a b) ops = none ∧ Follows L b a := by
  induction ops using List.reverseRecOn with
  | nil => exact .inr ⟨rfl, hf⟩
  | append_singleton ops op ih =>
      rw [List.foldl_append] at hf
      change Follows (apply (ops.foldl apply L) op) b a at hf
      by_cases h : onFollowing a b op = true
      · rw [lastOf_append_of_mem (List.mem_singleton_self op) h fun y hy _ => List.mem_singleton.mp hy]
        exact .inl (congrArg some (follows_apply_of_decisive h hf))
      · rw [Bool.not_eq_true] at h
        rw [lastOf_append_of_forall fun x hx => List.mem_singleton.mp hx ▸ h]
        exact ih (follows_apply_of_aside h hf)

end

end Xmppd.GrantHistory
