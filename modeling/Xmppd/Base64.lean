import Mathlib.Algebra.Group.Nat.Defs
import Mathlib.Data.List.GetD

/-!
# Base64 texts

Three bytes are four characters of six bits each, and a last group of one or two bytes
is padded to four characters. A padded text need not be the encoding of its bytes: the
bits of its last character that reach into the padding are unused.
-/
namespace Xmppd.Base64

abbrev Byte := Fin 256

def alphabet : List Char := "ABCDEFGHIJKLMNOPQRSTUVWXYZabcdefghijklmnopqrstuvwxyz0123456789+/".toList

/-- The character of six bits. -/
def digit (n : ℕ) : Char := alphabet.getD n 'A'

/-- The six bits of a character. -/
def sextet (c : Char) : ℕ := alphabet.findIdx (· == c)

def encode : List Byte → List Char
  | [] => []
  | [x] => [digit (x.val / 4), digit (x.val % 4 * 16), '=', '=']
  | [x, y] => [digit (x.val / 4), digit (x.val % 4 * 16 + y.val / 16), digit (y.val % 16 * 4), '=']
  | x :: y :: z :: rest =>
      digit (x.val / 4) :: digit (x.val % 4 * 16 + y.val / 16) :: digit (y.val % 16 * 4 + z.val / 64) ::
        digit (z.val % 64) :: encode rest

theorem length_encode (xs : List Byte) : (encode xs).length = 4 * ((xs.length + 2) / 3) := by
  induction xs using encode.induct with
  | case1 => simp [encode]
  | case2 x => simp only [encode, List.length_cons, List.length_nil]
  | case3 x y => simp only [encode, List.length_cons, List.length_nil]
  | case4 x y z rest ih =>
      simp only [encode, List.length_cons, ih]
      omega

theorem length_alphabet : alphabet.length = 64 := rfl

theorem digit_mem {n : ℕ} (h : n < 64) : digit n ∈ alphabet := by
  have hlen : n < alphabet.length := lt_of_lt_of_eq h length_alphabet.symm
  rw [digit, List.getD_eq_getElem _ _ hlen]
  exact List.getElem_mem hlen

theorem sextet_digit {n : ℕ} (h : n < 64) : sextet (digit n) = n := by
  have hall : ∀ m : Fin 64, sextet (digit m.val) = m.val := by decide +kernel
  exact hall ⟨n, h⟩

theorem sextet_lt {c : Char} (h : c ∈ alphabet) : sextet c < 64 := by
  rw [← length_alphabet]
  exact List.findIdx_lt_length_of_exists ⟨c, h, beq_self_eq_true c⟩

theorem digit_sextet {c : Char} (h : c ∈ alphabet) : digit (sextet c) = c := by
  have hlt : sextet c < alphabet.length := lt_of_lt_of_eq (sextet_lt h) length_alphabet.symm
  rw [digit, List.getD_eq_getElem _ _ hlt]
  exact eq_of_beq (List.findIdx_getElem (w := hlt))

theorem pad_not_mem : '=' ∉ alphabet := by decide

/-- The characters of an encoding are the alphabet and the padding sign. -/
theorem mem_encode {xs : List Byte} {c : Char} (h : c ∈ encode xs) : c ∈ alphabet ∨ c = '=' := by
  induction xs using encode.induct with
  | case1 => exact absurd h List.not_mem_nil
  | case2 x =>
      simp only [encode, List.mem_cons, List.not_mem_nil, or_false] at h
      obtain rfl | rfl | h | h := h
      · exact .inl (digit_mem (by omega))
      · exact .inl (digit_mem (by omega))
      · exact .inr h
      · exact .inr h
  | case3 x y =>
      simp only [encode, List.mem_cons, List.not_mem_nil, or_false] at h
      obtain rfl | rfl | rfl | h := h
      · exact .inl (digit_mem (by omega))
      · exact .inl (digit_mem (by omega))
      · exact .inl (digit_mem (by omega))
      · exact .inr h
  | case4 x y z rest ih =>
      simp only [encode, List.mem_cons] at h
      obtain rfl | rfl | rfl | rfl | h := h
      · exact .inl (digit_mem (by omega))
      · exact .inl (digit_mem (by omega))
      · exact .inl (digit_mem (by omega))
      · exact .inl (digit_mem (by omega))
      · exact ih h

/-- Whole groups of the alphabet, the last one padded or not. -/
inductive Grouped : List Char → Prop
  | nil : Grouped []
  | two {a b : Char} : a ∈ alphabet → b ∈ alphabet → Grouped [a, b, '=', '=']
  | one {a b c : Char} : a ∈ alphabet → b ∈ alphabet → c ∈ alphabet → Grouped [a, b, c, '=']
  | full {a b c d : Char} {rest : List Char} : a ∈ alphabet → b ∈ alphabet → c ∈ alphabet → d ∈ alphabet →
      Grouped rest → Grouped (a :: b :: c :: d :: rest)

/-- The padding sign occurs only as the last one or the last two characters. -/
structure WellFormed (t : List Char) : Prop where
  whole : t.length % 4 = 0
  body : ∃ w n, t = w ++ List.replicate n '=' ∧ n ≤ 2 ∧ ∀ c ∈ w, c ∈ alphabet

theorem Grouped.wellFormed {t : List Char} (h : Grouped t) : WellFormed t := by
  induction h with
  | nil => exact ⟨rfl, [], 0, rfl, by omega, by simp⟩
  | @two a b ha hb => exact ⟨by simp, [a, b], 2, rfl, by omega, by simp [ha, hb]⟩
  | @one a b c ha hb hc => exact ⟨by simp, [a, b, c], 1, rfl, by omega, by simp [ha, hb, hc]⟩
  | @full a b c d rest ha hb hc hd hrest ih =>
      obtain ⟨w, n, hw, hn, hall⟩ := ih.body
      have hwhole := ih.whole
      refine ⟨by simp only [List.length_cons]; omega, a :: b :: c :: d :: w, n, by rw [hw]; rfl, hn, ?_⟩
      simpa [ha, hb, hc, hd] using hall

theorem WellFormed.grouped {t : List Char} (h : WellFormed t) : Grouped t := by
  obtain ⟨hwhole, w, n, rfl, hn, hall⟩ := h
  rw [List.length_append, List.length_replicate] at hwhole
  induction hk : w.length / 4 generalizing w with
  | zero =>
      match w, hall, hwhole, hk with
      | [], _, hwhole, _ =>
          have hzero : n = 0 := by
            rw [List.length_nil] at hwhole
            omega
          rw [hzero]
          exact .nil
      | [a], _, hwhole, _ =>
          rw [List.length_singleton] at hwhole
          omega
      | [a, b], hall, hwhole, _ =>
          have htwo : n = 2 := by
            simp only [List.length_cons, List.length_nil] at hwhole
            omega
          rw [htwo]
          exact .two (hall a (by simp)) (hall b (by simp))
      | [a, b, c], hall, hwhole, _ =>
          have hone : n = 1 := by
            simp only [List.length_cons, List.length_nil] at hwhole
            omega
          rw [hone]
          exact .one (hall a (by simp)) (hall b (by simp)) (hall c (by simp))
      | a :: b :: c :: d :: rest, _, _, hk =>
          simp only [List.length_cons] at hk
          omega
  | succ k ih =>
      match w, hall, hwhole, hk with
      | [], _, _, hk | [a], _, _, hk | [a, b], _, _, hk | [a, b, c], _, _, hk =>
          simp at hk
      | a :: b :: c :: d :: rest, hall, hwhole, hk =>
          simp only [List.length_cons] at hwhole hk
          refine .full (hall a (by simp)) (hall b (by simp)) (hall c (by simp)) (hall d (by simp)) ?_
          exact ih rest (by omega) (fun x hx => hall x (by simp [hx])) (by omega)

/-- How many low bits of a character reach into the padding behind it. -/
def unused (t : List Char) (i : ℕ) : ℕ := 2 * ((t.drop (i+1)).takeWhile (· = '=')).length

/-- The same length, the same padding, and the same characters up to their unused bits. -/
structure SameText (t u : List Char) : Prop where
  length_eq : u.length = t.length
  padding : ∀ i : ℕ, t[i]? = some '=' ↔ u[i]? = some '='
  chars : ∀ i c e, t[i]? = some c → u[i]? = some e → c ≠ '=' → sextet c / 2 ^ unused t i = sextet e / 2 ^ unused t i

theorem SameText.nil : SameText [] [] := ⟨rfl, fun _ => Iff.rfl, fun _ _ _ h => by simp at h⟩

/-- Behind the same characters. -/
theorem SameText.append (w : List Char) {t u : List Char} (h : SameText t u) : SameText (w ++ t) (w ++ u) := by
  constructor
  · rw [List.length_append, List.length_append, h.length_eq]
  · intro i
    by_cases hi : i < w.length
    · rw [List.getElem?_append_left hi, List.getElem?_append_left hi]
    · rw [List.getElem?_append_right (by omega), List.getElem?_append_right (by omega)]
      exact h.padding _
  · intro i c e hc he hne
    by_cases hi : i < w.length
    · rw [List.getElem?_append_left hi] at hc he
      rw [Option.some.inj (hc.symm.trans he)]
    · have hunused : unused (w ++ t) i = unused t (i - w.length) := by
        have hdrop : (w ++ t).drop (i+1) = t.drop (i - w.length + 1) := by
          rw [List.drop_append, List.drop_of_length_le (by omega), List.nil_append]
          congr 1
          omega
        unfold unused
        rw [hdrop]
      rw [List.getElem?_append_right (by omega)] at hc he
      rw [hunused]
      exact h.chars _ c e hc he hne

/-- The last character before the padding. -/
theorem SameText.last {b d : Char} {n : ℕ} (hb : b ≠ '=') (hd : d ≠ '=') (h : sextet b / 2 ^ (2*n) = sextet d / 2 ^ (2*n)) :
    SameText (b :: List.replicate n '=') (d :: List.replicate n '=') := by
  constructor
  · rfl
  · intro i
    cases i with
    | zero => simp [hb, hd]
    | succ i => rfl
  · intro i c e hc he hne
    cases i with
    | zero =>
        obtain rfl := Option.some.inj hc
        obtain rfl := Option.some.inj he
        have hunused : unused (b :: List.replicate n '=') 0 = 2 * n := by
          simp [unused]
        rw [hunused]
        exact h
    | succ i =>
        rw [List.getElem?_cons_succ] at hc he
        rw [Option.some.inj (hc.symm.trans he)]

/-- `t` with characters of a kind inserted anywhere. -/
inductive Inserted (junk : Char → Prop) : List Char → List Char → Prop
  | nil : Inserted junk [] []
  | keep {s t : List Char} (c : Char) : Inserted junk s t → Inserted junk (c :: s) (c :: t)
  | insert {s t : List Char} {c : Char} : junk c → Inserted junk s t → Inserted junk s (c :: t)

/-- A filter that drops the inserted characters and no other gives the text back. -/
theorem Inserted.filter_eq {junk : Char → Prop} {s t : List Char} (h : Inserted junk s t) {p : Char → Bool}
    (hjunk : ∀ c, junk c → p c = false) (hs : ∀ c ∈ s, p c = true) : t.filter p = s := by
  induction h with
  | nil => rfl
  | keep c h ih =>
      rw [List.filter_cons_of_pos (hs c List.mem_cons_self), ih fun d hd => hs d (List.mem_cons_of_mem c hd)]
  | insert hc h ih =>
      rw [List.filter_cons_of_neg (by rw [hjunk _ hc]; decide), ih hs]

end Xmppd.Base64
