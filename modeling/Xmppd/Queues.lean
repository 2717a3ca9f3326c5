import Mathlib.Data.List.Basic

/-!
# A queue that is emptied at once

Items are put at the end, and whoever takes takes all that wait. What was taken, one taking
after another, and what waits is what was put, in its order and each once.
-/
namespace Xmppd.Queues

inductive Op (α : Type) where
  | put (x : α)
  | takeAll
  | skip

variable {α : Type}

def after (w : List α) : Op α → List α
  | .put x => w ++ [x]
  | .takeAll => []
  | .skip => w

/-- What waits after these operations, where `w` waited before. -/
def waiting (w : List α) (ops : List (Op α)) : List α := ops.foldl after w

def puts : List (Op α) → List α
  | [] => []
  | .put x :: ops => x :: puts ops
  | .takeAll :: ops => puts ops
  | .skip :: ops => puts ops

/-- All that the takings got, in their order. -/
def taken : List α → List (Op α) → List α
  | _, [] => []
  | w, .put x :: ops => taken (w ++ [x]) ops
  | w, .takeAll :: ops => w ++ taken [] ops
  | w, .skip :: ops => taken w ops

theorem taken_waiting (w : List α) (ops : List (Op α)) : taken w ops ++ waiting w ops = w ++ puts ops := by
  induction ops generalizing w with
  | nil => rw [taken, puts, waiting, List.foldl_nil, List.nil_append, List.append_nil]
  | cons op ops ih =>
      cases op with
      | put x =>
          have hrest := ih (w ++ [x])
          rw [List.append_assoc, List.singleton_append] at hrest
          exact hrest
      | takeAll =>
          have hrest := ih []
          rw [List.nil_append] at hrest
          rw [taken, List.append_assoc]
          exact congrArg (w ++ ·) hrest
      | skip => exact ih w

end Xmppd.Queues
