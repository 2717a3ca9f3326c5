import Mathlib.Data.List.Basic

/-!
# Reading documents

A reader for documents without a document type declaration: names, attributes,
references, comments, processing instructions and nested elements. It returns
the attributes of the children of the root that have a given name, and nothing
for a text that is not well formed.
-/
namespace Xmppd.XmlReader

abbrev Text := List Char

def isSpace (c : Char) : Bool := c = ' ' ∨ c = '\t' ∨ c = '\n' ∨ c = '\r'

/-- The characters a document may hold. -/
def isLegal (c : Char) : Bool := isSpace c ∨ (0x20 ≤ c.toNat ∧ c.toNat ≤ 0xFFFD) ∨ 0x10000 ≤ c.toNat

def inRanges (l : List (ℕ × ℕ)) (c : Char) : Bool := l.any fun r => r.1 ≤ c.toNat ∧ c.toNat ≤ r.2

def isNameStart (c : Char) : Bool :=
  c = ':' ∨ c = '_' ∨ c.isAlpha ∨
    inRanges [(0xC0, 0xD6), (0xD8, 0xF6), (0xF8, 0x2FF), (0x370, 0x37D), (0x37F, 0x1FFF), (0x200C, 0x200D),
      (0x2070, 0x218F), (0x2C00, 0x2FEF), (0x3001, 0xD7FF), (0xF900, 0xFDCF), (0xFDF0, 0xFFFD), (0x10000, 0xEFFFF)] c

def isNameChar (c : Char) : Bool :=
  isNameStart c ∨ c = '-' ∨ c = '.' ∨ c.isDigit ∨ inRanges [(0xB7, 0xB7), (0x300, 0x36F), (0x203F, 0x2040)] c

def skip (t : Text) : Text := t.dropWhile isSpace

/-- What follows a given beginning. -/
def strip : Text → Text → Option Text
  | [], t => some t
  | _ :: _, [] => none
  | p :: ps, c :: cs => if p = c then strip ps cs else none

/-- What follows the first occurrence of a mark. -/
def skipTo (mark : Text) : Text → Option Text
  | [] => strip mark []
  | c :: cs =>
      match strip mark (c :: cs) with
      | some rest => some rest
      | none => skipTo mark cs

def digitValue (c : Char) : ℕ :=
  if c.isDigit then c.toNat - '0'.toNat else if c.isUpper then c.toNat - 'A'.toNat + 10 else c.toNat - 'a'.toNat + 10

def isHexDigit (c : Char) : Bool := c.isDigit ∨ ('a' ≤ c ∧ c ≤ 'f') ∨ ('A' ≤ c ∧ c ≤ 'F')

/-- The character of a numeric reference. -/
def character (base : ℕ) (digits : Text) : Option Char :=
  let n := digits.foldl (fun n c => base * n + digitValue c) 0
  if digits ≠ [] ∧ n.isValidChar ∧ isLegal (Char.ofNat n) then some (Char.ofNat n) else none

/-- The character a reference stands for. -/
def resolve (name : Text) : Option Char :=
  if name = "amp".toList then some '&'
  else if name = "lt".toList then some '<'
  else if name = "gt".toList then some '>'
  else if name = "apos".toList then some '\''
  else if name = "quot".toList then some '"'
  else
    match name with
    | '#' :: 'x' :: digits => if digits.all isHexDigit then character 16 digits else none
    | '#' :: digits => if digits.all Char.isDigit then character 10 digits else none
    | _ => none

/-- The value of an attribute: references are replaced, blanks become spaces. A
name is given where a reference has begun. -/
def decodeFrom : Option Text → Text → Option Text
  | none, [] => some []
  | some _, [] => none
  | none, c :: cs =>
      if c = '&' then decodeFrom (some []) cs
      else if c = '<' ∨ isLegal c = false then none
      else (decodeFrom none cs).map fun v => (if isSpace c then ' ' else c) :: v
  | some name, c :: cs =>
      if c = ';' then
        match resolve name with
        | some d => (decodeFrom none cs).map fun v => d :: v
        | none => none
      else decodeFrom (some (name ++ [c])) cs

def decode (raw : Text) : Option Text := decodeFrom none raw

def readName (t : Text) : Option (Text × Text) :=
  if (t.takeWhile isNameChar).head?.any isNameStart then some (t.takeWhile isNameChar, t.dropWhile isNameChar) else none

/-- A value up to the quote that opened it. -/
def readValue (quote : Char) (t : Text) : Option (Text × Text) := do
  let rest ← strip [quote] (t.dropWhile (· ≠ quote))
  let value ← decode (t.takeWhile (· ≠ quote))
  some (value, rest)

def readAttr (t : Text) : Option ((Text × Text) × Text) := do
  let (name, t) ← readName t
  let t ← strip ['='] (skip t)
  match skip t with
  | '"' :: t => (readValue '"' t).map fun v => ((name, v.1), v.2)
  | '\'' :: t => (readValue '\'' t).map fun v => ((name, v.1), v.2)
  | _ => none

/-- The attributes up to the end of a start tag, and whether it closes the element. -/
def readAttrs : ℕ → Text → Option (List (Text × Text) × Bool × Text)
  | 0, _ => none
  | n+1, t =>
      match skip t with
      | '>' :: rest => some ([], false, rest)
      | '/' :: '>' :: rest => some ([], true, rest)
      | _ =>
          if skip t = t then none
          else do
            let (a, t) ← readAttr (skip t)
            let (as, closed, rest) ← readAttrs n t
            some (a :: as, closed, rest)

structure Start where
  name : Text
  attrs : List (Text × Text)
  closed : Bool

/-- A start tag after its bracket; no attribute is repeated. -/
def readStart (t : Text) : Option (Start × Text) := do
  let (name, t) ← readName t
  let (attrs, closed, rest) ← readAttrs (t.length + 1) t
  if (attrs.map Prod.fst).Nodup then some (⟨name, attrs, closed⟩, rest) else none

def skipComment (t : Text) : Option Text := skipTo "--".toList t >>= strip ['>']

def skipInstruction (t : Text) : Option Text := do
  let (name, t) ← readName t
  if name = "xml".toList then none else skipTo "?>".toList t

def skipMisc : ℕ → Text → Option Text
  | 0, _ => none
  | n+1, t =>
      match skip t with
      | '<' :: '!' :: '-' :: '-' :: t => skipComment t >>= skipMisc n
      | '<' :: '?' :: t => skipInstruction t >>= skipMisc n
      | t => some t

def isEnd (t : Text) : Bool := skipMisc (t.length + 1) t = some []

section
variable (child : Text)

/-- The rest of the document, where `stack` holds the names of the open elements
and `acc` what has been found. -/
def readContent : ℕ → List Text → List (List (Text × Text)) → Text → Option (List (List (Text × Text)))
  | 0, _, _, _ => none
  | n+1, stack, acc, t =>
      match t with
      | [] => none
      | '<' :: '/' :: t => do
          let (name, t) ← readName t
          let t ← strip ['>'] (skip t)
          match stack with
          | [] => none
          | top :: stack =>
              if name ≠ top then none
              else if stack = [] then (if isEnd t then some acc else none)
              else readContent n stack acc t
      | '<' :: '!' :: '-' :: '-' :: t => do
          let t ← skipComment t
          readContent n stack acc t
      | '<' :: '!' :: '[' :: 'C' :: 'D' :: 'A' :: 'T' :: 'A' :: '[' :: t => do
          let t ← skipTo "]]>".toList t
          readContent n stack acc t
      | '<' :: '?' :: t => do
          let t ← skipInstruction t
          readContent n stack acc t
      | '<' :: t => do
          let (s, t) ← readStart t
          let acc := if stack.length = 1 ∧ s.name = child then acc ++ [s.attrs] else acc
          if s.closed then readContent n stack acc t else readContent n (s.name :: stack) acc t
      | '&' :: t => do
          let rest ← strip [';'] (t.dropWhile (· ≠ ';'))
          let _ ← resolve (t.takeWhile (· ≠ ';'))
          readContent n stack acc rest
      | ']' :: ']' :: '>' :: _ => none
      | c :: t => if isLegal c then readContent n stack acc t else none

/-- The attributes of the children of the root. -/
def readDocument (root : Text) (t : Text) : Option (List (List (Text × Text))) := do
  let t ← match strip "<?xml ".toList t with
    | some t => skipTo "?>".toList t
    | none => some t
  let t ← skipMisc (t.length + 1) t
  let t ← strip ['<'] t
  let (s, t) ← readStart t
  if s.name ≠ root then none
  else if s.closed then (if isEnd t then some [] else none)
  else readContent child (t.length + 1) [root] [] t

/-- A name as it may stand in a tag. -/
structure IsName (name : Text) : Prop where
  chars : ∀ c ∈ name, isNameChar c = true
  start : name.head?.any isNameStart = true

theorem readName_isName {name : Text} (h : IsName name) {c : Char} (hc : isNameChar c = false) (rest : Text) :
    readName (name ++ c :: rest) = some (name, c :: rest) := by
  have htake : (name ++ c :: rest).takeWhile isNameChar = name := by
    rw [List.takeWhile_append_of_pos h.chars, List.takeWhile_cons_of_neg (by simp [hc]), List.append_nil]
  have hdrop : (name ++ c :: rest).dropWhile isNameChar = c :: rest := by
    rw [List.dropWhile_append_of_pos h.chars, List.dropWhile_cons_of_neg (by simp [hc])]
  rw [readName, htake, hdrop, if_pos h.start]

theorem isNameStart_marks {c : Char} (h : isNameStart c = true) : isSpace c = false ∧ c ≠ '>' ∧ c ≠ '/' := by
  refine ⟨?_, ?_, ?_⟩
  · apply Bool.eq_false_iff.mpr
    intro hs
    simp only [isSpace, decide_eq_true_eq] at hs
    rcases hs with rfl | rfl | rfl | rfl
    all_goals revert h; decide
  · rintro rfl
    revert h
    decide
  · rintro rfl
    revert h
    decide

/-- A bracket before a name opens an element. -/
theorem readContent_open {n : ℕ} {stack : List Text} {acc : List (List (Text × Text))} {c : Char}
    (hc : c ≠ '/' ∧ c ≠ '!' ∧ c ≠ '?') (t : Text) :
    readContent child (n + 1) stack acc ('<' :: c :: t) =
      (readStart (c :: t)).bind fun x =>
        let acc := if stack.length = 1 ∧ x.1.name = child then acc ++ [x.1.attrs] else acc
        if x.1.closed then readContent child n stack acc x.2 else readContent child n (x.1.name :: stack) acc x.2 := by
  obtain ⟨hslash, hbang, hquestion⟩ := hc
  rw [readContent]
  · rfl
  · intro u he
    exact hslash (List.cons.inj he).1
  · intro u he
    exact hbang (List.cons.inj he).1
  · intro u he
    exact hbang (List.cons.inj he).1
  · intro u he
    exact hquestion (List.cons.inj he).1

/-- What has been found stays first. -/
theorem readContent_prefix {n : ℕ} {stack : List Text} {acc l : List (List (Text × Text))} {t : Text}
    (h : readContent child n stack acc t = some l) : acc <+: l := by
  induction n generalizing stack acc t with
  | zero => cases h
  | succ n ih =>
      unfold readContent at h
      split at h
      · cases h
      · simp only [Option.bind_eq_bind, Option.bind_eq_some_iff] at h
        obtain ⟨a, _, t, _, h⟩ := h
        split at h
        · cases h
        · split_ifs at h
          · cases h
            exact List.prefix_refl _
          · exact ih h
      · simp only [Option.bind_eq_bind, Option.bind_eq_some_iff] at h
        obtain ⟨t, _, h⟩ := h
        exact ih h
      · simp only [Option.bind_eq_bind, Option.bind_eq_some_iff] at h
        obtain ⟨t, _, h⟩ := h
        exact ih h
      · simp only [Option.bind_eq_bind, Option.bind_eq_some_iff] at h
        obtain ⟨t, _, h⟩ := h
        exact ih h
      · simp only [Option.bind_eq_bind, Option.bind_eq_some_iff] at h
        obtain ⟨s, _, h⟩ := h
        have hacc : acc <+: (if stack.length = 1 ∧ s.1.name = child then acc ++ [s.1.attrs] else acc) := by
          split
          · exact List.prefix_append _ _
          · exact List.prefix_refl _
        split at h
        · exact hacc.trans (ih h)
        · exact hacc.trans (ih h)
      · simp only [Option.bind_eq_bind, Option.bind_eq_some_iff] at h
        obtain ⟨t, _, d, _, h⟩ := h
        exact ih h
      · cases h
      · split at h
        · exact ih h
        · cases h

end

end Xmppd.XmlReader
