import Xmppd.Chunking
import Xmppd.Conflict

/-!
# A session is not freed under its parser

The parser calls back with a pointer to the session whose bytes it reads. While
it runs the session may end its own stream, remove its own account or bind the
address of another session, and other sessions may be freed on the way. The
session itself stays until the parser has returned, and no other parser runs.
-/
namespace Xmppd.Reading
open CStrings FileTree LibXml ServerState Streams EventLoop Evolution Conflict Chunking Installation

variable {srv : Server} {i : ℕ}

theorem not_idle (hp : parsing srv i = true) : idle srv = false := by
  obtain ⟨hl, hx⟩ := of_decide_eq_true hp
  by_contra hi
  rw [Bool.not_eq_false] at hi
  have hnot := List.all_eq_true.mp hi _ (Server.sess_mem hl).1
  rw [hx] at hnot
  cases hnot

theorem reader_unique (h : OneParser srv) {j : ℕ} (hi : parsing srv i = true) (hj : parsing srv j = true) : j = i := by
  obtain ⟨hli, hxi⟩ := of_decide_eq_true hi
  obtain ⟨hlj, hxj⟩ := of_decide_eq_true hj
  have hid := h _ (Server.sess_mem hlj).1 _ (Server.sess_mem hli).1 hxj hxi
  rwa [(Server.sess_mem hlj).2, (Server.sess_mem hli).2] at hid

/-- Whatever happens, there is one parser at most. -/
theorem step_oneParser (srv : Server) (e : Step) (h : OneParser srv) : OneParser (step srv e) := by
  refine step_cases (P := fun _ srv' => OneParser srv') ?_ ?_ ?_ ?_ ?_ ?_ e
  · exact fun _ => h
  · intro _ s hs t ht hsx htx
    obtain hs | rfl := Server.mem_serverAccept hs
    · obtain ht | rfl := Server.mem_serverAccept ht
      · exact h s hs t ht hsx htx
      · cases htx
    · cases hsx
  · exact fun i o _ => h.kept (sessionTeardown_flow srv i o tame_later).evolves.kept
  · intro i hi s hs t ht hsx htx
    have hown : ∀ s ∈ (beginChunk srv i).sessions, s.inXmlParse = true → s.id = i := by
      intro s' hs' hx
      obtain ⟨s, hs, rfl⟩ := (Server.mem_modify srv i _).mp hs'
      split_ifs at hx ⊢ with hsi
      · exact hsi
      · have hnot := List.all_eq_true.mp hi s hs
        rw [hx] at hnot
        cases hnot
    rw [hown s hs hsx, hown t ht htx]
  · exact fun i o sax hp => h.kept (callback_kept srv i o (live_of_parsing hp) sax)
  · exact fun i o _ => h.kept (endChunk_flow srv i o tame_later).evolves.kept

/-- Only the end of its own read takes a session from its parser. -/
theorem step_parsing (h : OneParser srv) (hp : parsing srv i = true) (e : Step) (hno : ∀ o, e ≠ .endRead i o) :
    parsing (step srv e) i = true := by
  have hidle := not_idle hp
  revert hno
  refine step_cases (P := fun e srv' => (∀ o, e ≠ .endRead i o) → parsing srv' i = true) ?_ ?_ ?_ ?_ ?_ ?_ e
  · exact fun _ _ => hp
  · intro hi
    rw [hidle] at hi
    cases hi
  · intro j o hi
    rw [hidle] at hi
    cases hi
  · intro j hi
    rw [hidle] at hi
    cases hi
  · intro j o sax hj _
    obtain rfl := reader_unique h hp hj
    exact callback_parsing o sax hj
  · intro j o hj hno
    obtain rfl := reader_unique h hp hj
    exact absurd rfl (hno o)

theorem run_oneParser (steps : List Step) : ∀ srv, OneParser srv → OneParser (run srv steps) := by
  induction steps with
  | nil => exact fun _ h => h
  | cons e es ih => exact fun srv h => ih _ (step_oneParser srv e h)

theorem run_parsing (later : List Step) : ∀ srv, OneParser srv → parsing srv i = true → (∀ o, .endRead i o ∉ later) →
    parsing (run srv later) i = true := by
  induction later with
  | nil => exact fun _ _ hp _ => hp
  | cons e es ih =>
      intro srv h hp hno
      refine ih _ (step_oneParser srv e h) (step_parsing h hp e ?_) ?_
      · rintro o rfl
        exact hno o List.mem_cons_self
      · exact fun o hm => hno o (List.mem_cons_of_mem e hm)

/-- Alice removes her account and goes on in the same read. -/
def remaining : List Step := (Closing.removal ++ Closing.removal).map fun x => .sax 0 x.1 x.2

end Xmppd.Reading
