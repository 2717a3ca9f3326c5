import Mathlib.Data.List.Basic

/-!
# The last entry of a kind

In a log to which entries are only added the last entry of a kind stays what it
is until another one of the kind is added. What matters of an addition is
therefore whether it has such entries, and which.
-/
namespace Xmppd.LastWords

variable {α : Type*} (p : α → Bool)

/-- The last entry that has the property. -/
def lastOf (l : List α) : Option α := (l.filter p).getLast?

section
variable {p} {l m : List α} {x : α}

theorem mem_of_lastOf (h : lastOf p l = some x) : x ∈ l ∧ p x = true :=
  List.mem_filter.mp (List.mem_of_getLast? h)

theorem lastOf_eq_none_iff : lastOf p l = none ↔ ∀ x ∈ l, p x = false := by
  unfold lastOf
  rw [List.getLast?_eq_none_iff, List.filter_eq_nil_iff]
  simp only [Bool.not_eq_true]

theorem lastOf_append : lastOf p (l ++ m) = (lastOf p m).or (lastOf p l) := by
  unfold lastOf
  rw [List.filter_append, List.getLast?_append]

theorem lastOf_append_of_forall (h : ∀ x ∈ m, p x = false) : lastOf p (l ++ m) = lastOf p l := by
  rw [lastOf_append, lastOf_eq_none_iff.mpr h, Option.none_or]

theorem lastOf_filter {q : α → Bool} (h : ∀ x, p x = true → q x = true) : lastOf p (l.filter q) = lastOf p l := by
  unfold lastOf
  rw [List.filter_filter]
  congr 2
  funext x
  cases hp : p x with
  | false => rfl
  | true => rw [h x hp]; rfl

/-- It brings the one entry of the kind that it has. -/
theorem lastOf_append_of_mem (hx : x ∈ m) (hp : p x = true) (hm : ∀ y ∈ m, p y = true → y = x) :
    lastOf p (l ++ m) = some x := by
  rw [lastOf_append]
  cases hlast : lastOf p m with
  | none =>
      rw [lastOf_eq_none_iff.mp hlast x hx] at hp
      cases hp
  | some y =>
      obtain ⟨hy, hpy⟩ := mem_of_lastOf hlast
      rw [hm y hy hpy]
      rfl

end

end Xmppd.LastWords
