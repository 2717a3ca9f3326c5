import Mathlib.Data.List.Basic
import Mathlib.Data.List.Nodup

/-!
# Lists searched by a key

A list of entries each of which has a key. A search finds the first entry with a
key; a change goes through the place found, a removal closes the gap, and an
entry that is missing is appended. The entries with one key and the entries
with another key are looked at apart: what such a change does to the ones and
that it keeps the others, with their order, is all there is to say about it.
-/
namespace Xmppd.KeyedLists

variable {α κ : Type*} [DecidableEq κ] (key : α → κ)

/-- The entries with this key. -/
def under (k : κ) (l : List α) : List α := l.filter fun x => key x = k

/-- The other entries. -/
def besides (k : κ) (l : List α) : List α := l.filter fun x => key x ≠ k

/-- Writing at the place where the search ends. -/
def alter (k : κ) (f : α → α) : List α → List α
  | [] => []
  | x :: xs => if key x = k then f x :: xs else x :: alter k f xs

/-- One entry with the key is left, and the others are as they were. -/
def Holds (k : κ) (P : α → Prop) (l l' : List α) : Prop :=
  (∃ x, under key k l' = [x] ∧ P x) ∧ besides key k l' = besides key k l

/-- No entry with the key is left, and the others are as they were. -/
def Lacks (k : κ) (l l' : List α) : Prop := under key k l' = [] ∧ besides key k l' = besides key k l

section
variable {k : κ} {x : α} {f : α → α} (l : List α)

theorem head?_under : (under key k l).head? = l.find? fun x => key x = k := List.head?_filter

theorem under_eq_nil : under key k l = [] ↔ l.find? (fun x => key x = k) = none := by
  rw [← head?_under, List.head?_eq_none_iff]

theorem under_cons (h : key x = k) : under key k (x :: l) = x :: under key k l := List.filter_cons_of_pos (by simpa using h)

theorem under_cons_of_ne (h : key x ≠ k) : under key k (x :: l) = under key k l := List.filter_cons_of_neg (by simpa using h)

theorem besides_cons (h : key x = k) : besides key k (x :: l) = besides key k l := List.filter_cons_of_neg (by simpa using h)

theorem besides_cons_of_ne (h : key x ≠ k) : besides key k (x :: l) = x :: besides key k l :=
  List.filter_cons_of_pos (by simpa using h)

/-- The entry found is the first of those with the key. -/
theorem under_of_find (h : l.find? (fun x => key x = k) = some x) : under key k l = x :: (under key k l).tail := by
  rw [← head?_under key] at h
  exact (List.cons_head?_tail h).symm

/-! ## Changes -/

@[simp] theorem map_alter (hf : ∀ x, key (f x) = key x) : (alter key k f l).map key = l.map key := by
  induction l with
  | nil => rfl
  | cons x xs ih =>
      unfold alter
      split_ifs
      · rw [List.map_cons, List.map_cons, hf]
      · rw [List.map_cons, List.map_cons, ih]

theorem under_alter (hf : ∀ x, key (f x) = key x) (h : l.find? (fun x => key x = k) = some x) :
    under key k (alter key k f l) = f x :: (under key k l).tail := by
  induction l with
  | nil => cases h
  | cons y ys ih =>
      unfold alter
      by_cases hy : key y = k
      · rw [List.find?_cons_of_pos (by simpa using hy)] at h
        rw [if_pos hy, under_cons key _ ((hf y).trans hy), under_cons key _ hy, List.tail_cons, Option.some.inj h]
      · rw [List.find?_cons_of_neg (by simpa using hy)] at h
        rw [if_neg hy, under_cons_of_ne key _ hy, under_cons_of_ne key _ hy, ih h]

theorem besides_alter (hf : ∀ x, key (f x) = key x) : besides key k (alter key k f l) = besides key k l := by
  induction l with
  | nil => rfl
  | cons x xs ih =>
      unfold alter
      by_cases hx : key x = k
      · rw [if_pos hx, besides_cons key _ ((hf x).trans hx), besides_cons key _ hx]
      · rw [if_neg hx, besides_cons_of_ne key _ hx, besides_cons_of_ne key _ hx, ih]

theorem under_eraseP : under key k (l.eraseP fun x => key x = k) = (under key k l).tail := by
  induction l with
  | nil => rfl
  | cons x xs ih =>
      by_cases hx : key x = k
      · rw [List.eraseP_cons_of_pos (by simpa using hx), under_cons key _ hx, List.tail_cons]
      · rw [List.eraseP_cons_of_neg (by simpa using hx), under_cons_of_ne key _ hx, under_cons_of_ne key _ hx, ih]

theorem besides_eraseP : besides key k (l.eraseP fun x => key x = k) = besides key k l := by
  induction l with
  | nil => rfl
  | cons x xs ih =>
      by_cases hx : key x = k
      · rw [List.eraseP_cons_of_pos (by simpa using hx), besides_cons key _ hx]
      · rw [List.eraseP_cons_of_neg (by simpa using hx), besides_cons_of_ne key _ hx, besides_cons_of_ne key _ hx, ih]

/-! ## What is left -/

/-- A change of the entry found leaves it alone with its key if it was before. -/
theorem holds_alter {P : α → Prop} (hf : ∀ x, key (f x) = key x) (h : l.find? (fun x => key x = k) = some x) :
    Holds key k P l (alter key k f l) ↔ (under key k l).length ≤ 1 ∧ P (f x) := by
  have hlength : (under key k l).length ≤ 1 ↔ (under key k l).tail = [] := by
    rw [under_of_find key l h, List.tail_cons, List.length_cons, ← List.length_eq_zero_iff]
    omega
  rw [hlength, Holds, under_alter key l hf h, and_iff_left (besides_alter key l hf)]
  constructor
  · intro hleft
    obtain ⟨y, hy, hP⟩ := hleft
    obtain ⟨hhead, htail⟩ := List.cons.inj hy
    rw [hhead]
    exact ⟨htail, hP⟩
  · intro hleft
    exact ⟨f x, by rw [hleft.1], hleft.2⟩

theorem holds_append {P : α → Prop} (h : l.find? (fun x => key x = k) = none) (hx : key x = k) :
    Holds key k P l (l ++ [x]) ↔ P x := by
  have hunder : under key k (l ++ [x]) = [x] := by
    rw [under, List.filter_append]
    change under key k l ++ under key k [x] = [x]
    rw [(under_eq_nil key l).mpr h, under_cons key [] hx]
    rfl
  have hbesides : besides key k (l ++ [x]) = besides key k l := by
    rw [besides, List.filter_append]
    change besides key k l ++ besides key k [x] = besides key k l
    rw [besides_cons key [] hx]
    exact List.append_nil _
  rw [Holds, hunder, and_iff_left hbesides]
  constructor
  · intro hleft
    obtain ⟨y, hy, hP⟩ := hleft
    rwa [List.singleton_inj.mp hy]
  · exact fun hP => ⟨x, rfl, hP⟩

/-- Where nothing is found afterwards, no entry with the key is left. -/
theorem not_holds {P : α → Prop} {l' : List α} (h : l'.find? (fun x => key x = k) = none) : ¬Holds key k P l l' := by
  intro hleft
  obtain ⟨⟨x, hx, -⟩, -⟩ := hleft
  rw [(under_eq_nil key l').mpr h] at hx
  cases hx

theorem lacks_eraseP : Lacks key k l (l.eraseP fun x => key x = k) ↔ (under key k l).length ≤ 1 := by
  rw [Lacks, under_eraseP, and_iff_left (besides_eraseP key l), ← List.length_eq_zero_iff, List.length_tail]
  omega

/-! ## Keys that occur once -/

theorem length_under (h : (l.map key).Nodup) : (under key k l).length ≤ 1 := by
  induction l with
  | nil => exact Nat.zero_le 1
  | cons x xs ih =>
      rw [List.map_cons, List.nodup_cons] at h
      by_cases hx : key x = k
      · have hnone : under key k xs = [] := by
          rw [under, List.filter_eq_nil_iff]
          intro y hy he
          refine h.1 ?_
          rw [hx, ← of_decide_eq_true he]
          exact List.mem_map_of_mem hy
        rw [under_cons key _ hx, hnone]
        exact Nat.le_refl 1
      · rw [under_cons_of_ne key _ hx]
        exact ih h.2

/-- The search for the key of an entry ends there. -/
theorem find_of_mem (h : (l.map key).Nodup) (hx : x ∈ l) : l.find? (fun y => key y = key x) = some x := by
  induction l with
  | nil => cases hx
  | cons y ys ih =>
      rw [List.map_cons, List.nodup_cons] at h
      rcases List.mem_cons.mp hx with rfl | hmem
      · exact List.find?_cons_of_pos (by simp)
      · have hne : key y ≠ key x := by
          intro he
          refine h.1 ?_
          rw [he]
          exact List.mem_map_of_mem hmem
        rw [List.find?_cons_of_neg (by simpa using hne)]
        exact ih h.2 hmem

theorem nodup_append (h : (l.map key).Nodup) (hx : l.find? (fun y => key y = key x) = none) :
    ((l ++ [x]).map key).Nodup := by
  rw [List.map_append, List.map_singleton, List.nodup_append]
  refine ⟨h, List.nodup_singleton _, ?_⟩
  intro a ha b hb he
  obtain ⟨y, hy, rfl⟩ := List.mem_map.mp ha
  have hno := List.find?_eq_none.mp hx y hy
  rw [List.mem_singleton.mp hb] at he
  exact hno (decide_eq_true he)

end

end Xmppd.KeyedLists
