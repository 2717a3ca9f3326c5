import Mathlib.Data.List.Infix
import Mathlib.Data.List.Nodup

/-!
# Escaping by successive replacements

A text is escaped by rules that are applied to it one after another, each of which
replaces one letter by a word. Where no rule rewrites a letter of a word that an
earlier one has put in, every letter is replaced independently of the others. Where
all words begin with a mark, which is replaced itself, and no word is the beginning
of another one, the text can be read back.
-/
namespace Xmppd.Escaping

/-- A letter and the word that stands for it. -/
abbrev Rule (α : Type) := α × List α

/-- All words begin with the mark and have it nowhere else, the mark is replaced too,
and no word is the beginning of another one. -/
structure Readable {α : Type} (mark : α) (rules : List (Rule α)) : Prop where
  replaced : mark ∈ rules.map Prod.fst
  begins : ∀ r ∈ rules, r.2.head? = some mark ∧ mark ∉ r.2.tail
  free : ∀ r ∈ rules, ∀ r' ∈ rules, r.2 <+: r'.2 → r = r'

theorem Readable.word {α : Type} {mark : α} {rules : List (Rule α)} (h : Readable mark rules) {r : Rule α} (hr : r ∈ rules) :
    ∃ w, r.2 = mark :: w ∧ mark ∉ w := by
  obtain ⟨hhead, htail⟩ := h.begins r hr
  obtain ⟨w, hw⟩ := List.head?_eq_some_iff.mp hhead
  rw [hw] at htail
  exact ⟨w, hw, htail⟩

/-- A letter for which no word stands is not the mark. -/
theorem Readable.ne_mark {α : Type} {mark : α} {rules : List (Rule α)} (h : Readable mark rules) {c : α}
    (hc : ∀ r ∈ rules, r.1 ≠ c) : c ≠ mark := by
  obtain ⟨r, hr, hkey⟩ := List.mem_map.mp h.replaced
  exact fun he => hc r hr (hkey.trans he.symm)

section
variable {α : Type} [DecidableEq α]

def replaceAll (c : α) (w s : List α) : List α := s.flatMap fun d => if d = c then w else [d]

/-- The rules applied to the whole text, one after another. -/
def passes (rules : List (Rule α)) (s : List α) : List α := rules.foldl (fun t r => replaceAll r.1 r.2 t) s

/-- What stands for one letter. -/
def subst (rules : List (Rule α)) (c : α) : List α := ((rules.find? fun r => r.1 = c).map Prod.snd).getD [c]

/-- Reading from the left, a word is replaced by its letter. -/
def decode (rules : List (Rule α)) : List α → List α
  | [] => []
  | c :: s =>
      match rules.find? fun r => r.2.isPrefixOf (c :: s) with
      | some r => r.1 :: decode rules (s.drop (r.2.length - 1))
      | none => c :: decode rules s
termination_by s => s.length

/-! ## One letter -/

section
variable {rules rules' : List (Rule α)} {c : α}

theorem subst_cons (r : Rule α) (rules : List (Rule α)) (c : α) :
    subst (r :: rules) c = if r.1 = c then r.2 else subst rules c := by
  unfold subst
  by_cases hc : r.1 = c
  · simp [hc]
  · simp [hc]

theorem subst_cases (rules : List (Rule α)) (c : α) :
    (∃ r ∈ rules, r.1 = c ∧ subst rules c = r.2) ∨ (∀ r ∈ rules, r.1 ≠ c) ∧ subst rules c = [c] := by
  unfold subst
  cases h : rules.find? fun r => r.1 = c with
  | some r => exact .inl ⟨r, List.mem_of_find?_eq_some h, by simpa using List.find?_some h, rfl⟩
  | none => exact .inr ⟨fun r hr => by simpa using List.find?_eq_none.mp h r hr, rfl⟩

theorem subst_of_not_mem (h : ∀ r ∈ rules, r.1 ≠ c) : subst rules c = [c] := by
  rcases subst_cases rules c with ⟨r, hr, hc, _⟩ | ⟨_, heq⟩
  · exact absurd hc (h r hr)
  · exact heq

theorem subst_of_mem (hnodup : (rules.map Prod.fst).Nodup) {r : Rule α} (hr : r ∈ rules) : subst rules r.1 = r.2 := by
  rcases subst_cases rules r.1 with ⟨x, hx, hkey, heq⟩ | ⟨hno, _⟩
  · rw [heq, List.inj_on_of_nodup_map hnodup hx hr hkey]
  · exact absurd rfl (hno r hr)

/-- The order of the rules does not matter to one letter. -/
theorem subst_perm (h : rules.Perm rules') (hnodup : (rules.map Prod.fst).Nodup) : subst rules = subst rules' := by
  funext c
  rcases subst_cases rules' c with ⟨r, hr, rfl, heq⟩ | ⟨hno, heq⟩
  · rw [heq, subst_of_mem hnodup (h.mem_iff.mpr hr)]
  · rw [heq, subst_of_not_mem fun r hr => hno r (h.mem_iff.mp hr)]

end

/-! ## Several passes -/

section
variable {rules rules' : List (Rule α)}

/-- No rule rewrites a letter of an earlier word. -/
def Settled (rules : List (Rule α)) : Prop := rules.Pairwise fun r r' => r'.1 ∉ r.2

/-- Every letter is replaced independently of the others. -/
theorem passes_eq (h : Settled rules) (s : List α) : passes rules s = s.flatMap (subst rules) := by
  induction rules generalizing s with
  | nil => exact (List.flatMap_singleton' s).symm
  | cons r rules ih =>
      obtain ⟨hr, hrules⟩ := List.pairwise_cons.mp h
      change passes rules (replaceAll r.1 r.2 s) = _
      rw [ih hrules, replaceAll, List.flatMap_assoc]
      congr 1
      funext c
      rw [subst_cons]
      by_cases hc : c = r.1
      · rw [if_pos hc, if_pos hc.symm]
        refine (List.flatMap_congr fun d hd => ?_).trans (List.flatMap_singleton' r.2)
        exact subst_of_not_mem fun r' hr' he => hr r' hr' (he ▸ hd)
      · rw [if_neg hc, if_neg (Ne.symm hc)]
        exact List.append_nil _

/-- Rules that settle give the same in any order. -/
theorem passes_perm (h : rules.Perm rules') (hnodup : (rules.map Prod.fst).Nodup) (hs : Settled rules) (hs' : Settled rules')
    (s : List α) : passes rules s = passes rules' s := by
  rw [passes_eq hs, passes_eq hs', subst_perm h hnodup]

/-- A letter that is replaced, and is in none of the words, is gone. -/
theorem not_mem_flatMap {c : α} (hc : c ∈ rules.map Prod.fst) (hwords : ∀ r ∈ rules, c ∉ r.2) (s : List α) :
    c ∉ s.flatMap (subst rules) := by
  intro h
  obtain ⟨d, _, hd⟩ := List.mem_flatMap.mp h
  rcases subst_cases rules d with ⟨r, hr, _, heq⟩ | ⟨hno, heq⟩
  · rw [heq] at hd
    exact hwords r hr hd
  · rw [heq, List.mem_singleton] at hd
    obtain ⟨r, hr, hkey⟩ := List.mem_map.mp hc
    exact hno r hr (hkey.trans hd)

end

/-! ## Reading back -/

section
variable {mark : α} {rules : List (Rule α)} (h : Readable mark rules)
include h

/-- The mark stands nowhere but at the beginning of a word. -/
theorem Readable.mark_begins (s : List α) {i : ℕ} (hi : (s.flatMap (subst rules))[i]? = some mark) :
    ∃ r ∈ rules, r.2 <+: (s.flatMap (subst rules)).drop i := by
  induction s generalizing i with
  | nil => cases hi
  | cons c s ih =>
      rw [List.flatMap_cons] at hi ⊢
      by_cases hlt : i < (subst rules c).length
      · rw [List.getElem?_append_left hlt] at hi
        rcases subst_cases rules c with ⟨r, hr, _, heq⟩ | ⟨hno, heq⟩
        · obtain ⟨w, hw, hmark⟩ := h.word hr
          rw [heq, hw] at hi
          cases i with
          | zero => exact ⟨r, hr, heq ▸ List.prefix_append _ _⟩
          | succ i =>
              rw [List.getElem?_cons_succ] at hi
              exact absurd (List.mem_of_getElem? hi) hmark
        · rw [heq] at hi
          exact absurd (List.mem_singleton.mp (List.mem_of_getElem? hi)).symm (h.ne_mark hno)
      · rw [List.getElem?_append_right (by omega)] at hi
        obtain ⟨r, hr, hpre⟩ := ih hi
        refine ⟨r, hr, ?_⟩
        rwa [List.drop_append, List.drop_of_length_le (by omega), List.nil_append]

/-- Of the words, only the one that stands there is read. -/
theorem Readable.find_word {r : Rule α} (hr : r ∈ rules) (t : List α) :
    (rules.find? fun x => x.2.isPrefixOf (r.2 ++ t)) = some r := by
  cases hfind : rules.find? fun x => x.2.isPrefixOf (r.2 ++ t) with
  | none =>
      have hno := List.find?_eq_none.mp hfind r hr
      exact absurd (List.isPrefixOf_iff_prefix.mpr (List.prefix_append r.2 t)) hno
  | some x =>
      have hx := List.mem_of_find?_eq_some hfind
      have hpre : x.2 <+: r.2 ++ t := by simpa using List.find?_some hfind
      rcases List.prefix_or_prefix_of_prefix hpre (List.prefix_append r.2 t) with hxr | hrx
      · rw [h.free x hx r hr hxr]
      · rw [h.free r hr x hx hrx]

theorem Readable.decode_flatMap (s : List α) : decode rules (s.flatMap (subst rules)) = s := by
  induction s with
  | nil =>
      rw [List.flatMap_nil, decode]
  | cons c s ih =>
      rw [List.flatMap_cons]
      rcases subst_cases rules c with ⟨r, hr, rfl, heq⟩ | ⟨hno, heq⟩
      · obtain ⟨w, hw, _⟩ := h.word hr
        have hfind := h.find_word hr (s.flatMap (subst rules))
        rw [hw, List.cons_append] at hfind
        rw [heq, hw, List.cons_append, decode, hfind]
        change r.1 :: decode rules ((w ++ _).drop (r.2.length - 1)) = _
        rw [hw, List.length_cons, Nat.add_sub_cancel, List.drop_left, ih]
      · have hfind : (rules.find? fun r => r.2.isPrefixOf (c :: s.flatMap (subst rules))) = none := by
          apply List.find?_eq_none.mpr
          intro r hr hpre
          obtain ⟨w, hw, _⟩ := h.word hr
          rw [hw] at hpre
          have hmark := List.cons_prefix_cons.mp (List.isPrefixOf_iff_prefix.mp hpre)
          exact h.ne_mark hno hmark.1.symm
        rw [heq, List.singleton_append, decode, hfind]
        change c :: decode rules _ = _
        rw [ih]

end

end

end Xmppd.Escaping
