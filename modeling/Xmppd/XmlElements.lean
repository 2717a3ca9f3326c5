import Xmppd.XmlReader

/-!
# Writing and reading elements

An element is written with its strings escaped, attributes between single
quotes. Reading such a text gives the element back, with the line ends of its
strings made uniform and the blanks of attribute values made spaces. The reader
takes any element of a document without a document type declaration: it joins
text across comments and references and refuses repeated attributes.
-/
namespace Xmppd.XmlElements
open XmlReader

inductive Tree where
  | element (name : Text) (attrs : List (Text × Text)) (children : List Tree)
  | text (s : Text)
deriving Repr

/-! ## Reading -/

/-- Line ends as line feeds; after a carriage return a line feed is dropped. -/
def eolFrom : Bool → Text → Text
  | _, [] => []
  | after, c :: cs =>
      if c = '\r' then '\n' :: eolFrom true cs
      else if c = '\n' ∧ after then eolFrom false cs
      else c :: eolFrom false cs

def eol (t : Text) : Text := eolFrom false t

/-- Text is joined to the text that follows it. -/
def pushText (s : Text) (ts : List Tree) : List Tree :=
  if s = [] then ts else
    match ts with
    | .text u :: ts => .text (s ++ u) :: ts
    | ts => .text s :: ts

/-- An element after its bracket, given how to read what it holds. -/
def readElementWith (content : Text → Option (List Tree × Text)) (t : Text) : Option (Tree × Text) := do
  let (name, t) ← readName t
  let (attrs, closed, t) ← readAttrs (t.length + 1) t
  if closed then some (.element name attrs [], t)
  else do
    let (children, t) ← content t
    let (last, t) ← readName t
    let t ← strip ['>'] (skip t)
    if last = name then some (.element name attrs children, t) else none

/-- What an element holds, up to its end tag. -/
def readContent : ℕ → Text → Option (List Tree × Text)
  | 0, _ => none
  | n+1, t =>
      match t with
      | [] => none
      | '<' :: '/' :: t => some ([], t)
      | '<' :: '!' :: '-' :: '-' :: t => skipComment t >>= readContent n
      | '<' :: '!' :: '[' :: 'C' :: 'D' :: 'A' :: 'T' :: 'A' :: '[' :: t => do
          let rest ← skipTo "]]>".toList t
          let (ts, u) ← readContent n rest
          some (pushText (t.take (t.length - rest.length - 3)) ts, u)
      | '<' :: '?' :: t => skipInstruction t >>= readContent n
      | '<' :: t => do
          let (e, t) ← readElementWith (readContent n) t
          let (ts, t) ← readContent n t
          some (e :: ts, t)
      | '&' :: t => do
          let rest ← strip [';'] (t.dropWhile (· ≠ ';'))
          let c ← resolve (t.takeWhile (· ≠ ';'))
          let (ts, t) ← readContent n rest
          some (pushText [c] ts, t)
      | ']' :: ']' :: '>' :: _ => none
      | c :: t =>
          if isLegal c then do
            let (ts, t) ← readContent n t
            some (pushText [c] ts, t)
          else none

mutual
/-- No attribute is repeated. -/
def Tree.unique : Tree → Bool
  | .element _ attrs children => decide ((attrs.map Prod.fst).Nodup) && uniqueAll children
  | .text _ => true

def uniqueAll : List Tree → Bool
  | [] => true
  | t :: ts => t.unique && uniqueAll ts
end

/-- A text that is one element. -/
def readElement (t : Text) : Option Tree := do
  if t.all isLegal then
    let t ← strip ['<'] (eol t)
    let (e, rest) ← readElementWith (readContent (t.length + 1)) t
    if rest = [] ∧ e.unique then some e else none
  else none

/-! ## Writing -/

/-- An element or text before it is written; an element is written as an empty tag,
or with what it holds between two tags. -/
inductive Markup where
  | text (s : Text)
  | empty (name : Text) (attrs : List (Text × Text))
  | element (name : Text) (attrs : List (Text × Text)) (children : List Markup)
deriving Repr

def quoteChar (c : Char) : Text :=
  if c = '&' then "&amp;".toList else if c = '<' then "&lt;".toList else if c = '\'' then "&apos;".toList else [c]

/-- A string between single quotes. -/
def quote (s : Text) : Text := s.flatMap quoteChar

def escapeChar (c : Char) : Text :=
  if c = '&' then "&amp;".toList else if c = '<' then "&lt;".toList else if c = '>' then "&gt;".toList else [c]

/-- A string between tags. -/
def escape (s : Text) : Text := s.flatMap escapeChar

def printAttrs (attrs : List (Text × Text)) : Text :=
  attrs.flatMap fun a => ' ' :: (a.1 ++ '=' :: '\'' :: (quote a.2 ++ ['\'']))

mutual
def Markup.print : Markup → Text
  | .text s => escape s
  | .empty name attrs => '<' :: (name ++ (printAttrs attrs ++ ['/', '>']))
  | .element name attrs children =>
      '<' :: (name ++ (printAttrs attrs ++ '>' :: (printAll children ++ '<' :: '/' :: (name ++ ['>']))))

def printAll : List Markup → Text
  | [] => []
  | m :: ms => m.print ++ printAll ms
end

/-- The blanks of an attribute value as spaces. -/
def blanks (s : Text) : Text := s.map fun c => if isSpace c then ' ' else c

def uniformAttrs (attrs : List (Text × Text)) : List (Text × Text) := attrs.map fun a => (a.1, eol a.2)

mutual
/-- The line ends of all strings made uniform. -/
def Markup.uniform : Markup → Markup
  | .text s => .text (eol s)
  | .empty name attrs => .empty name (uniformAttrs attrs)
  | .element name attrs children => .element name (uniformAttrs attrs) (uniformAll children)

def uniformAll : List Markup → List Markup
  | [] => []
  | m :: ms => m.uniform :: uniformAll ms
end

/-- Attributes as they are read. -/
def readable (attrs : List (Text × Text)) : List (Text × Text) := attrs.map fun a => (a.1, blanks a.2)

/-- A tree before others; text is joined. -/
def Tree.before : Tree → List Tree → List Tree
  | .text s, ts => pushText s ts
  | .element name attrs children, ts => .element name attrs children :: ts

mutual
/-- The tree that is read. -/
def Markup.tree : Markup → Tree
  | .text s => .text s
  | .empty name attrs => .element name (readable attrs) []
  | .element name attrs children => .element name (readable attrs) (trees children)

def trees : List Markup → List Tree
  | [] => []
  | m :: ms => m.tree.before (trees ms)
end

def Markup.isText : Markup → Bool
  | .text _ => true
  | .empty _ _ => false
  | .element _ _ _ => false

mutual
/-- The names in the tags are names, and no text follows a text. -/
def Markup.Proper : Markup → Prop
  | .text _ => True
  | .empty name attrs => IsName name ∧ ∀ a ∈ attrs, IsName a.1
  | .element name attrs children => IsName name ∧ (∀ a ∈ attrs, IsName a.1) ∧ ProperAll children

def ProperAll : List Markup → Prop
  | [] => True
  | m :: ms => m.Proper ∧ (m.isText = true → ms.head?.any Markup.isText = false) ∧ ProperAll ms
end

def LegalText (s : Text) : Prop := ∀ c ∈ s, isLegal c = true

mutual
/-- The strings hold characters that a document may hold. -/
def Markup.Legal : Markup → Prop
  | .text s => LegalText s
  | .empty _ attrs => ∀ a ∈ attrs, LegalText a.2
  | .element _ attrs children => (∀ a ∈ attrs, LegalText a.2) ∧ LegalAll children

def LegalAll : List Markup → Prop
  | [] => True
  | m :: ms => m.Legal ∧ LegalAll ms
end

/-! ## Attributes -/

section
variable {s name : Text}

theorem decodeFrom_quoteChar {c : Char} (hc : isLegal c = true) (t : Text) :
    decodeFrom none (quoteChar c ++ t) = (decodeFrom none t).map fun v => (if isSpace c then ' ' else c) :: v := by
  unfold quoteChar
  split
  · next h =>
    rw [h]
    rfl
  split
  · next h =>
    rw [h]
    rfl
  split
  · next h =>
    rw [h]
    rfl
  · next hamp hlt _ => simp [decodeFrom, hamp, hlt, hc]

theorem decode_quote (h : LegalText s) : decode (quote s) = some (blanks s) := by
  induction s with
  | nil => rfl
  | cons c s ih =>
      have hs := ih fun d hd => h d (List.mem_cons_of_mem c hd)
      rw [decode] at hs ⊢
      change decodeFrom none (quoteChar c ++ quote s) = _
      rw [decodeFrom_quoteChar (h c List.mem_cons_self), hs]
      rfl

theorem quoteChar_no_apostrophe (c : Char) : (quoteChar c).all (fun d => d ≠ '\'') = true := by
  unfold quoteChar
  split_ifs with hamp hlt hapos
  · decide
  · decide
  · decide
  · simpa using hapos

theorem quote_no_apostrophe : ∀ c ∈ quote s, c ≠ '\'' := by
  intro c hc
  obtain ⟨d, -, hd⟩ := List.mem_flatMap.mp hc
  exact of_decide_eq_true (List.all_eq_true.mp (quoteChar_no_apostrophe d) c hd)

theorem readValue_quote (h : LegalText s) (rest : Text) :
    readValue '\'' (quote s ++ '\'' :: rest) = some (blanks s, rest) := by
  have hpos : ∀ c ∈ quote s, (decide (c ≠ '\'')) = true := fun c hc => decide_eq_true (quote_no_apostrophe c hc)
  have htake : (quote s ++ '\'' :: rest).takeWhile (· ≠ '\'') = quote s := by
    rw [List.takeWhile_append_of_pos hpos, List.takeWhile_cons_of_neg (by simp), List.append_nil]
  have hdrop : (quote s ++ '\'' :: rest).dropWhile (· ≠ '\'') = '\'' :: rest := by
    rw [List.dropWhile_append_of_pos hpos, List.dropWhile_cons_of_neg (by simp)]
  unfold readValue
  rw [htake, hdrop, decode_quote h]
  rfl

theorem readAttr_value (hn : IsName name) (t : Text) :
    readAttr (name ++ '=' :: '\'' :: t) = (readValue '\'' t).map fun v => ((name, v.1), v.2) := by
  unfold readAttr
  rw [readName_isName hn (by decide)]
  simp [skip, strip, isSpace]

/-- An attribute is read up to the first quote. -/
theorem readAttrs_value (hn : IsName name) (n : ℕ) (t : Text) :
    readAttrs (n + 1) (' ' :: (name ++ '=' :: '\'' :: t)) =
      (readValue '\'' t).bind fun v => (readAttrs n v.2).map fun x => ((name, v.1) :: x.1, x.2) := by
  have hread := readAttr_value hn t
  obtain ⟨c, cs, rfl⟩ : ∃ c cs, name = c :: cs := by
    apply List.exists_cons_of_ne_nil
    intro hnil
    have hstart := hn.start
    rw [hnil] at hstart
    cases hstart
  have hmarks := isNameStart_marks (c := c) (by simpa using hn.start)
  generalize '=' :: '\'' :: t = tail at hread ⊢
  have hskip : skip (' ' :: (c :: cs ++ tail)) = c :: cs ++ tail := by
    rw [skip, List.dropWhile_cons_of_pos (by decide), List.cons_append, List.dropWhile_cons_of_neg (by simp [hmarks.1])]
  have hne : c :: cs ++ tail ≠ ' ' :: (c :: cs ++ tail) := by
    intro he
    have := congrArg List.length he
    simp at this
  rw [readAttrs, hskip]
  split
  · next he =>
    rw [List.cons_append, List.cons.injEq] at he
    exact absurd he.1 hmarks.2.1
  · next he =>
    rw [List.cons_append, List.cons.injEq] at he
    exact absurd he.1 hmarks.2.2
  · rw [if_neg hne, hread]
    cases readValue '\'' t with
    | none => rfl
    | some v =>
        simp only [Option.map_some, Option.bind_eq_bind, Option.bind_some]
        cases readAttrs n v.2 <;> rfl

theorem readAttrs_quote (hn : IsName name) (h : LegalText s) (n : ℕ) (rest : Text) :
    readAttrs (n + 1) (' ' :: (name ++ '=' :: '\'' :: (quote s ++ '\'' :: rest))) =
      (readAttrs n rest).map fun x => ((name, blanks s) :: x.1, x.2) := by
  rw [readAttrs_value hn, readValue_quote h]
  rfl

/-- What ends a start tag. -/
def tagEnd (closed : Bool) : Text := if closed then ['/', '>'] else ['>']

theorem readAttrs_tagEnd (n : ℕ) (closed : Bool) (rest : Text) :
    readAttrs (n + 1) (tagEnd closed ++ rest) = some ([], closed, rest) := by
  cases closed with
  | false => simp [tagEnd, readAttrs, skip, isSpace]
  | true => simp [tagEnd, readAttrs, skip, isSpace]

theorem printAttrs_cons (a : Text × Text) (attrs : List (Text × Text)) (rest : Text) :
    printAttrs (a :: attrs) ++ rest = ' ' :: (a.1 ++ '=' :: '\'' :: (quote a.2 ++ '\'' :: (printAttrs attrs ++ rest))) := by
  simp [printAttrs]

theorem readAttrs_print {attrs : List (Text × Text)} (hn : ∀ a ∈ attrs, IsName a.1)
    (h : ∀ a ∈ attrs, LegalText a.2) (closed : Bool) (k : ℕ) (rest : Text) :
    readAttrs (attrs.length + 1 + k) (printAttrs attrs ++ (tagEnd closed ++ rest)) = some (readable attrs, closed, rest) := by
  induction attrs with
  | nil =>
      rw [List.length_nil, Nat.add_right_comm]
      exact readAttrs_tagEnd (0 + k) closed rest
  | cons a attrs ih =>
      have hrest := ih (fun b hb => hn b (List.mem_cons_of_mem a hb)) fun b hb => h b (List.mem_cons_of_mem a hb)
      rw [printAttrs_cons, List.length_cons, Nat.add_right_comm _ 1 k, Nat.add_right_comm _ 1 k,
        readAttrs_quote (hn a List.mem_cons_self) (h a List.mem_cons_self), ← Nat.add_right_comm, hrest]
      rfl

theorem length_printAttrs (attrs : List (Text × Text)) : attrs.length ≤ (printAttrs attrs).length := by
  induction attrs with
  | nil => exact Nat.zero_le _
  | cons a attrs ih =>
      have hcons := congrArg List.length (printAttrs_cons a attrs [])
      simp only [List.append_nil, List.length_cons, List.length_append] at hcons ⊢
      omega

/-- The beginning of an element. -/
theorem readTag {attrs : List (Text × Text)} (hname : IsName name) (hn : ∀ a ∈ attrs, IsName a.1)
    (h : ∀ a ∈ attrs, LegalText a.2) (closed : Bool) (rest : Text) :
    readName (name ++ (printAttrs attrs ++ (tagEnd closed ++ rest))) =
        some (name, printAttrs attrs ++ (tagEnd closed ++ rest)) ∧
      readAttrs ((printAttrs attrs ++ (tagEnd closed ++ rest)).length + 1) (printAttrs attrs ++ (tagEnd closed ++ rest)) =
        some (readable attrs, closed, rest) := by
  constructor
  · cases attrs with
    | nil =>
        cases closed with
        | false => exact readName_isName hname (by decide) _
        | true => exact readName_isName hname (by decide) _
    | cons a attrs =>
        rw [printAttrs_cons]
        exact readName_isName hname (by decide) _
  · have hlen := length_printAttrs attrs
    obtain ⟨k, hk⟩ := Nat.exists_eq_add_of_le hlen
    have hfuel : (printAttrs attrs ++ (tagEnd closed ++ rest)).length + 1 =
        attrs.length + 1 + (k + (tagEnd closed ++ rest).length) := by
      rw [List.length_append, hk]
      omega
    rw [hfuel]
    exact readAttrs_print hn h closed _ rest

end

/-! ## Content -/

section
variable {n : ℕ}

theorem readContent_open {c : Char} (hc : c ≠ '/' ∧ c ≠ '!' ∧ c ≠ '?') (t : Text) :
    readContent (n + 1) ('<' :: c :: t) =
      (readElementWith (readContent n) (c :: t)).bind fun x => (readContent n x.2).map fun y => (x.1 :: y.1, y.2) := by
  obtain ⟨hslash, hbang, hquestion⟩ := hc
  rw [readContent]
  · cases readElementWith (readContent n) (c :: t) with
    | none => rfl
    | some x =>
        simp only [Option.bind_eq_bind, Option.bind_some]
        cases readContent n x.2 <;> rfl
  · intro u he
    exact hslash (List.cons.inj he).1
  · intro u he
    exact hbang (List.cons.inj he).1
  · intro u he
    exact hbang (List.cons.inj he).1
  · intro u he
    exact hquestion (List.cons.inj he).1

theorem readContent_close (t : Text) : readContent (n + 1) ('<' :: '/' :: t) = some ([], t) := rfl

theorem readContent_char {c : Char} (hlt : c ≠ '<') (hamp : c ≠ '&') {t : Text} (hmark : ∀ u, c :: t ≠ ']' :: ']' :: '>' :: u)
    (hc : isLegal c = true) : readContent (n + 1) (c :: t) = (readContent n t).map fun x => (pushText [c] x.1, x.2) := by
  rw [readContent]
  · rw [if_pos hc]
    cases readContent n t <;> rfl
  · exact fun _ h _ => hlt h
  · exact fun _ h _ => hlt h
  · exact fun _ h _ => hlt h
  · exact fun _ h _ => hlt h
  · exact hlt
  · exact hamp
  · intro u hbracket htail
    exact hmark u (by rw [hbracket, htail])

theorem pushText_pushText (s t : Text) (ts : List Tree) : pushText s (pushText t ts) = pushText (s ++ t) ts := by
  unfold pushText
  by_cases hs : s = []
  · simp [hs]
  by_cases ht : t = []
  · simp [ht]
  · simp only [hs, ht, if_false, List.append_eq_nil_iff, false_and]
    cases ts with
    | nil => rfl
    | cons e ts =>
        cases e with
        | element name attrs children => rfl
        | text u => simp

/-- What is written for a character does not begin with a bracket, and where it is one
character it is that one. -/
theorem escapeChar_cases (c : Char) : (∃ name, escapeChar c = '&' :: (name ++ [';']) ∧ ';' ∉ name ∧ resolve name = some c) ∨
    escapeChar c = [c] ∧ c ≠ '&' ∧ c ≠ '<' ∧ c ≠ '>' := by
  unfold escapeChar
  split_ifs with hamp hlt hgt
  · exact Or.inl ⟨"amp".toList, rfl, by decide, by rw [hamp]; rfl⟩
  · exact Or.inl ⟨"lt".toList, rfl, by decide, by rw [hlt]; rfl⟩
  · exact Or.inl ⟨"gt".toList, rfl, by decide, by rw [hgt]; rfl⟩
  · exact Or.inr ⟨rfl, hamp, hlt, hgt⟩

theorem readContent_reference {name : Text} {c : Char} (hsemi : ';' ∉ name) (hc : resolve name = some c) (t : Text) :
    readContent (n + 1) ('&' :: (name ++ ';' :: t)) = (readContent n t).map fun x => (pushText [c] x.1, x.2) := by
  have hpos : ∀ d ∈ name, (decide (d ≠ ';')) = true := by
    intro d hd
    rw [decide_eq_true_eq]
    rintro rfl
    exact hsemi hd
  have htake : (name ++ ';' :: t).takeWhile (· ≠ ';') = name := by
    rw [List.takeWhile_append_of_pos hpos, List.takeWhile_cons_of_neg (by simp), List.append_nil]
  have hdrop : (name ++ ';' :: t).dropWhile (· ≠ ';') = ';' :: t := by
    rw [List.dropWhile_append_of_pos hpos, List.dropWhile_cons_of_neg (by simp)]
  rw [readContent, htake, hdrop, hc]
  change ((readContent n t).bind fun x => some (pushText [c] x.1, x.2)) = _
  cases readContent n t <;> rfl

theorem escape_cons (c : Char) (s : Text) : escape (c :: s) = escapeChar c ++ escape s := rfl

theorem escape_head (s u : Text) : (escape s ++ '<' :: u).head? ≠ some '>' := by
  cases s with
  | nil => simp [escape]
  | cons c s =>
      rw [escape_cons]
      obtain ⟨name, hname, -⟩ | ⟨hplain, -, -, hgt⟩ := escapeChar_cases c
      · simp [hname]
      · simpa [hplain] using hgt

/-- Escaped text is read as one text. -/
theorem readContent_escape {s : Text} (h : LegalText s) (u : Text) :
    readContent (s.length + n) (escape s ++ '<' :: u) =
      (readContent n ('<' :: u)).map fun x => (pushText s x.1, x.2) := by
  induction s with
  | nil =>
      rw [List.length_nil, Nat.zero_add]
      change readContent n ('<' :: u) = _
      cases readContent n ('<' :: u) <;> rfl
  | cons c s ih =>
      have hs := ih fun d hd => h d (List.mem_cons_of_mem c hd)
      have hjoin : ∀ ts : List Tree, pushText [c] (pushText s ts) = pushText (c :: s) ts := pushText_pushText [c] s
      rw [List.length_cons, Nat.add_right_comm, escape_cons]
      obtain ⟨name, hname, hsemi, hresolve⟩ | ⟨hplain, hamp, hlt, hgt⟩ := escapeChar_cases c
      · have hfront : '&' :: (name ++ [';']) ++ escape s ++ '<' :: u = '&' :: (name ++ ';' :: (escape s ++ '<' :: u)) := by
          simp
        rw [hname, hfront, readContent_reference hsemi hresolve, hs, Option.map_map]
        simp only [Function.comp_def, hjoin]
      · rw [hplain]
        change readContent _ (c :: (escape s ++ '<' :: u)) = _
        rw [readContent_char hlt hamp ?_ (h c List.mem_cons_self), hs, Option.map_map]
        · simp only [Function.comp_def, hjoin]
        · intro v hv
          rw [List.cons.injEq] at hv
          cases s with
          | nil => simp [escape] at hv
          | cons d s =>
              rw [escape_cons] at hv
              obtain ⟨name, hname, -⟩ | ⟨hplain', -⟩ := escapeChar_cases d
              · rw [hname] at hv
                exact absurd (List.cons.inj hv.2).1 (by decide)
              · rw [hplain'] at hv
                have htail : escape s ++ '<' :: u = '>' :: v := (List.cons.inj hv.2).2
                exact escape_head s u (by rw [htail]; rfl)

end

/-! ## Elements -/

section

/-- What is read in steps for the content of an element. -/
def cost : List Markup → ℕ
  | [] => 0
  | .text s :: ms => s.length + cost ms
  | .empty _ _ :: ms => 1 + cost ms
  | .element _ _ children :: ms => cost children + 2 + cost ms

/-- Induction on what elements hold. -/
theorem markup_induction {P : List Markup → Prop} (nil : P []) (text : ∀ s ms, P ms → P (.text s :: ms))
    (empty : ∀ name attrs ms, P ms → P (.empty name attrs :: ms))
    (element : ∀ name attrs children ms, P children → P ms → P (.element name attrs children :: ms)) :
    ∀ ms, P ms
  | [] => nil
  | .text s :: ms => text s ms (markup_induction nil text empty element ms)
  | .empty name attrs :: ms => empty name attrs ms (markup_induction nil text empty element ms)
  | .element name attrs children :: ms =>
      element name attrs children ms (markup_induction nil text empty element children)
        (markup_induction nil text empty element ms)

theorem isLegal_of_isNameChar {c : Char} (h : isNameChar c = true) : isLegal c = true := by
  by_contra hc
  have hrange : ¬(0x20 ≤ c.toNat ∧ c.toNat ≤ 0xFFFD) ∧ ¬0x10000 ≤ c.toNat := by
    constructor
    · intro hr
      exact hc (by simp [isLegal, hr])
    · intro hr
      exact hc (by simp [isLegal, hr])
  have hvalid : c.toNat < 0x20 ∨ c.toNat = 0xFFFE ∨ c.toNat = 0xFFFF := by omega
  rcases hvalid with hlow | hhigh | hhigh
  · have hcase : ∀ n < 0x20, isNameChar (Char.ofNat n) = false := by decide
    have hchar := hcase c.toNat hlow
    rw [Char.ofNat_toNat] at hchar
    rw [hchar] at h
    cases h
  · have hchar : c = Char.ofNat 0xFFFE := by rw [← hhigh, Char.ofNat_toNat]
    rw [hchar] at h
    revert h
    decide
  · have hchar : c = Char.ofNat 0xFFFF := by rw [← hhigh, Char.ofNat_toNat]
    rw [hchar] at h
    revert h
    decide

theorem legal_of_isName {name : Text} (h : IsName name) : LegalText name :=
  fun c hc => isLegal_of_isNameChar (h.chars c hc)

/-- A way to write characters that neither hides nor makes illegal ones. -/
theorem legal_flatMap {f : Char → Text} (hf : ∀ c, f c = [c] ∨ LegalText (f c) ∧ isLegal c = true) {s : Text} :
    LegalText (s.flatMap f) ↔ LegalText s := by
  constructor
  · intro h c hc
    rcases hf c with hplain | ⟨-, hlegal⟩
    · exact h c (List.mem_flatMap.mpr ⟨c, hc, by rw [hplain]; exact List.mem_singleton_self c⟩)
    · exact hlegal
  · intro h d hd
    obtain ⟨c, hc, hd⟩ := List.mem_flatMap.mp hd
    rcases hf c with hplain | ⟨hlegal, -⟩
    · rw [hplain, List.mem_singleton] at hd
      rw [hd]
      exact h c hc
    · exact hlegal d hd

theorem legal_of_all {t : Text} (h : t.all isLegal = true) : LegalText t := List.all_eq_true.mp h

theorem legal_quote {s : Text} : LegalText (quote s) ↔ LegalText s := by
  apply legal_flatMap
  intro c
  unfold quoteChar
  split_ifs with hamp hlt hapos
  · exact Or.inr ⟨legal_of_all (by decide), by rw [hamp]; rfl⟩
  · exact Or.inr ⟨legal_of_all (by decide), by rw [hlt]; rfl⟩
  · exact Or.inr ⟨legal_of_all (by decide), by rw [hapos]; rfl⟩
  · exact Or.inl rfl

theorem legal_escape {s : Text} : LegalText (escape s) ↔ LegalText s := by
  apply legal_flatMap
  intro c
  unfold escapeChar
  split_ifs with hamp hlt hgt
  · exact Or.inr ⟨legal_of_all (by decide), by rw [hamp]; rfl⟩
  · exact Or.inr ⟨legal_of_all (by decide), by rw [hlt]; rfl⟩
  · exact Or.inr ⟨legal_of_all (by decide), by rw [hgt]; rfl⟩
  · exact Or.inl rfl

@[simp] theorem legalText_nil : LegalText [] := by simp [LegalText]

@[simp] theorem legalText_cons {c : Char} {t : Text} : LegalText (c :: t) ↔ isLegal c = true ∧ LegalText t :=
  List.forall_mem_cons

@[simp] theorem legalText_append {s t : Text} : LegalText (s ++ t) ↔ LegalText s ∧ LegalText t := List.forall_mem_append

theorem legal_mark : isLegal ' ' = true ∧ isLegal '=' = true ∧ isLegal '\'' = true ∧ isLegal '<' = true ∧
    isLegal '>' = true ∧ isLegal '/' = true := by decide

theorem legal_printAttrs {attrs : List (Text × Text)} (hn : ∀ a ∈ attrs, IsName a.1) :
    LegalText (printAttrs attrs) ↔ ∀ a ∈ attrs, LegalText a.2 := by
  induction attrs with
  | nil => simp [printAttrs]
  | cons a attrs ih =>
      have hcons := printAttrs_cons a attrs []
      rw [List.append_nil, List.append_nil] at hcons
      have hname := legal_of_isName (hn a List.mem_cons_self)
      rw [hcons, List.forall_mem_cons, ← ih fun b hb => hn b (List.mem_cons_of_mem a hb)]
      simp [hname, legal_quote, legal_mark]

theorem legal_printAll {ms : List Markup} (hms : ProperAll ms) : LegalText (printAll ms) ↔ LegalAll ms := by
  induction ms using markup_induction with
  | nil => simp [printAll, LegalAll]
  | text s ms ih =>
      rw [printAll, Markup.print, legalText_append, legal_escape, ih hms.2.2, LegalAll, Markup.Legal]
  | empty name attrs ms ih =>
      have hname := legal_of_isName hms.1.1
      rw [printAll, Markup.print, legalText_append, ih hms.2.2, LegalAll, Markup.Legal, ← legal_printAttrs hms.1.2]
      simp [hname, legal_mark]
  | element name attrs children ms ihchildren ihms =>
      have hname := legal_of_isName hms.1.1
      rw [printAll, Markup.print, legalText_append, ihms hms.2.2, LegalAll, Markup.Legal, ← legal_printAttrs hms.1.2.1,
        ← ihchildren hms.1.2.2]
      simp [hname, legal_mark]

theorem legal_print {m : Markup} (hm : m.Proper) : LegalText m.print ↔ m.Legal := by
  have hlist : LegalText (printAll [m]) ↔ LegalAll [m] := legal_printAll ⟨hm, fun _ => rfl, trivial⟩
  simpa [printAll, LegalAll] using hlist

theorem printAll_head {ms : List Markup} (h : ms.head?.any Markup.isText = false) (u : Text) :
    ∃ v, printAll ms ++ '<' :: u = '<' :: v := by
  cases ms with
  | nil => exact ⟨u, rfl⟩
  | cons m ms =>
      cases m with
      | text s => cases h
      | empty name attrs =>
          rw [printAll, Markup.print]
          exact ⟨_, rfl⟩
      | element name attrs children =>
          rw [printAll, Markup.print]
          exact ⟨_, rfl⟩

theorem readElementWith_eq (content : Text → Option (List Tree × Text)) (t : Text) :
    readElementWith content t = (readName t).bind fun x => (readAttrs (x.2.length + 1) x.2).bind fun y =>
      if y.2.1 then some (.element x.1 y.1 [], y.2.2)
      else (content y.2.2).bind fun z => (readName z.2).bind fun w => (strip ['>'] (skip w.2)).bind fun rest =>
        if w.1 = x.1 then some (.element x.1 y.1 z.1, rest) else none := rfl

/-- An element with both tags, where its content can be read. -/
theorem readElementWith_element {name : Text} {attrs : List (Text × Text)} {inner : Text} {ts : List Tree}
    {content : Text → Option (List Tree × Text)} (hname : IsName name) (hn : ∀ a ∈ attrs, IsName a.1)
    (h : ∀ a ∈ attrs, LegalText a.2)
    (hcontent : ∀ rest, content (inner ++ '<' :: '/' :: rest) = some (ts, rest)) (rest : Text) :
    readElementWith content (name ++ (printAttrs attrs ++ '>' :: (inner ++ '<' :: '/' :: (name ++ '>' :: rest)))) =
      some (.element name (readable attrs) ts, rest) := by
  obtain ⟨hread, hattrs⟩ := readTag hname hn h false (inner ++ '<' :: '/' :: (name ++ '>' :: rest))
  have hlast : readName (name ++ '>' :: rest) = some (name, '>' :: rest) := readName_isName hname (by decide) rest
  have hend : strip ['>'] (skip ('>' :: rest)) = some rest := by simp [skip, strip, isSpace]
  rw [show ('>' :: (inner ++ '<' :: '/' :: (name ++ '>' :: rest))) =
    tagEnd false ++ (inner ++ '<' :: '/' :: (name ++ '>' :: rest)) from rfl, readElementWith_eq, hread, Option.bind_some,
    hattrs, Option.bind_some, if_neg Bool.false_ne_true, hcontent, Option.bind_some, hlast, Option.bind_some, hend, Option.bind_some,
    if_pos rfl]

/-- An element with one tag. -/
theorem readElementWith_empty {name : Text} {attrs : List (Text × Text)} {content : Text → Option (List Tree × Text)}
    (hname : IsName name) (hn : ∀ a ∈ attrs, IsName a.1) (h : ∀ a ∈ attrs, LegalText a.2) (rest : Text) :
    readElementWith content (name ++ (printAttrs attrs ++ '/' :: '>' :: rest)) =
      some (.element name (readable attrs) [], rest) := by
  obtain ⟨hread, hattrs⟩ := readTag hname hn h true rest
  rw [show '/' :: '>' :: rest = tagEnd true ++ rest from rfl, readElementWith_eq, hread, Option.bind_some, hattrs,
    Option.bind_some, if_pos rfl]

/-- A name begins with none of the marks after a bracket. -/
theorem isName_cons {name : Text} (h : IsName name) : ∃ c cs, name = c :: cs ∧ c ≠ '/' ∧ c ≠ '!' ∧ c ≠ '?' := by
  obtain ⟨-, hstart⟩ := h
  cases name with
  | nil => cases hstart
  | cons c cs =>
      change isNameStart c = true at hstart
      refine ⟨c, cs, rfl, ?_, ?_, ?_⟩
      · rintro rfl
        revert hstart
        decide
      · rintro rfl
        revert hstart
        decide
      · rintro rfl
        revert hstart
        decide

/-- A bracket before a name opens an element. -/
theorem readContent_name {n : ℕ} {name : Text} (h : IsName name) (t : Text) :
    readContent (n + 1) ('<' :: (name ++ t)) =
      (readElementWith (readContent n) (name ++ t)).bind fun x => (readContent n x.2).map fun y => (x.1 :: y.1, y.2) := by
  obtain ⟨c, cs, rfl, hc⟩ := isName_cons h
  exact readContent_open hc (cs ++ t)

/-- What an element holds is read up to its end tag. -/
theorem readContent_printAll (ms : List Markup) (hms : ProperAll ms) (h : LegalAll ms) (k : ℕ)
    (rest : Text) : readContent (cost ms + 1 + k) (printAll ms ++ '<' :: '/' :: rest) = some (trees ms, rest) := by
  induction ms using markup_induction generalizing k rest with
  | nil =>
      rw [cost, Nat.zero_add, Nat.add_comm, printAll, trees]
      exact readContent_close rest
  | text s ms ih =>
      obtain ⟨v, hv⟩ := printAll_head (hms.2.1 rfl) ('/' :: rest)
      have hs : readContent (s.length + (cost ms + 1 + k)) (escape s ++ '<' :: v) = _ := readContent_escape h.1 v
      rw [← hv] at hs
      rw [printAll, Markup.print, cost, List.append_assoc, Nat.add_assoc s.length, Nat.add_assoc s.length, hs,
        ih hms.2.2 h.2]
      rfl
  | empty name attrs ms ih =>
      have hfront : ('<' :: (name ++ (printAttrs attrs ++ ['/', '>']))) ++ printAll ms ++ '<' :: '/' :: rest =
          '<' :: (name ++ (printAttrs attrs ++ '/' :: '>' :: (printAll ms ++ '<' :: '/' :: rest))) := by
        simp
      have hfuel : cost (.empty name attrs :: ms) + 1 + k = cost ms + 1 + k + 1 := by
        rw [cost]
        omega
      rw [printAll, Markup.print, hfront, hfuel, readContent_name hms.1.1,
        readElementWith_empty hms.1.1 hms.1.2 h.1, Option.bind_some, ih hms.2.2 h.2]
      rfl
  | element name attrs children ms ihchildren ihms =>
      have hfront : ('<' :: (name ++ (printAttrs attrs ++ '>' :: (printAll children ++ '<' :: '/' :: (name ++ ['>']))))) ++
          printAll ms ++ '<' :: '/' :: rest = '<' :: (name ++ (printAttrs attrs ++ '>' ::
            (printAll children ++ '<' :: '/' :: (name ++ '>' :: (printAll ms ++ '<' :: '/' :: rest))))) := by
        simp
      have hfuel : cost (.element name attrs children :: ms) + 1 + k = cost ms + 1 + (cost children + k + 1) + 1 := by
        rw [cost]
        omega
      have hfuel' : cost ms + 1 + (cost children + k + 1) = cost children + 1 + (cost ms + k + 1) := by
        omega
      have hcontent : ∀ u, readContent (cost ms + 1 + (cost children + k + 1)) (printAll children ++ '<' :: '/' :: u) =
          some (trees children, u) := by
        intro u
        rw [hfuel']
        exact ihchildren hms.1.2.2 h.1.2 _ u
      rw [printAll, Markup.print, hfront, hfuel, readContent_name hms.1.1,
        readElementWith_element hms.1.1 hms.1.2.1 h.1.1 hcontent, Option.bind_some,
        ihms hms.2.2 h.2]
      rfl

theorem length_escape (s : Text) : s.length ≤ (escape s).length := by
  induction s with
  | nil => exact Nat.zero_le _
  | cons c s ih =>
      rw [escape_cons, List.length_append, List.length_cons]
      obtain ⟨name, hname, -⟩ | ⟨hplain, -⟩ := escapeChar_cases c
      · rw [hname, List.length_cons]
        omega
      · rw [hplain, List.length_singleton]
        omega

theorem cost_le (ms : List Markup) : cost ms ≤ (printAll ms).length := by
  induction ms using markup_induction with
  | nil =>
      rw [cost]
      exact Nat.zero_le _
  | text s ms ih =>
      have hs := length_escape s
      rw [cost, printAll, Markup.print, List.length_append]
      omega
  | empty name attrs ms ih =>
      rw [cost, printAll, Markup.print, List.length_append, List.length_cons]
      omega
  | element name attrs children ms ihchildren ihms =>
      rw [cost, printAll, Markup.print]
      simp only [List.length_append, List.length_cons]
      omega

end

/-! ## Line ends -/

section

/-- Text without line ends. -/
def OneLine (t : Text) : Prop := ∀ c ∈ t, c ≠ '\r' ∧ c ≠ '\n'

theorem eolFrom_ne {c : Char} (h : c ≠ '\n') (after : Bool) (t : Text) : eolFrom after (c :: t) = eol (c :: t) := by
  simp [eol, eolFrom, h]

theorem eol_cons {c : Char} (hcr : c ≠ '\r') (hlf : c ≠ '\n') (t : Text) : eol (c :: t) = c :: eol t := by
  simp [eol, eolFrom, hcr, hlf]

theorem eol_append {s : Text} (h : OneLine s) (t : Text) : eol (s ++ t) = s ++ eol t := by
  induction s with
  | nil => rfl
  | cons c s ih =>
      obtain ⟨hcr, hlf⟩ := h c List.mem_cons_self
      rw [List.cons_append, eol_cons hcr hlf, ih fun d hd => h d (List.mem_cons_of_mem c hd), List.cons_append]

theorem oneLine_of_all {t : Text} (h : t.all (fun c => decide (c ≠ '\r' ∧ c ≠ '\n')) = true) : OneLine t :=
  fun c hc => of_decide_eq_true (List.all_eq_true.mp h c hc)

/-- A way to write characters that keeps line ends and makes none. -/
structure KeepsLines (f : Char → Text) : Prop where
  cr : f '\r' = ['\r']
  lf : f '\n' = ['\n']
  other : ∀ c, c ≠ '\r' → c ≠ '\n' → OneLine (f c) ∧ f c ≠ []

theorem eolFrom_flatMap {f : Char → Text} (hf : KeepsLines f) {d : Char} (hd : d ≠ '\n') (after : Bool) (s t : Text) :
    eolFrom after (s.flatMap f ++ d :: t) = (eolFrom after s).flatMap f ++ eol (d :: t) := by
  induction s generalizing after with
  | nil => exact eolFrom_ne hd after t
  | cons c s ih =>
      rw [List.flatMap_cons, List.append_assoc]
      by_cases hcr : c = '\r'
      · subst hcr
        rw [hf.cr, List.singleton_append, eolFrom, if_pos rfl, ih, eolFrom, if_pos rfl, List.flatMap_cons, hf.lf]
        rfl
      by_cases hlf : c = '\n'
      · subst hlf
        rw [hf.lf, List.singleton_append]
        cases after with
        | true =>
            have hdrop : ∀ u, eolFrom true ('\n' :: u) = eolFrom false u := fun u => by simp [eolFrom]
            rw [hdrop, hdrop, ih]
        | false =>
            have hkeep : ∀ u, eolFrom false ('\n' :: u) = '\n' :: eolFrom false u := fun u => by simp [eolFrom]
            rw [hkeep, hkeep, ih, List.flatMap_cons, hf.lf]
            rfl
      · obtain ⟨hline, hne⟩ := hf.other c hcr hlf
        have hstart : eolFrom after (f c ++ (s.flatMap f ++ d :: t)) = eol (f c ++ (s.flatMap f ++ d :: t)) := by
          obtain ⟨e, es, he⟩ := List.exists_cons_of_ne_nil hne
          rw [he, List.cons_append]
          exact eolFrom_ne (hline e (by rw [he]; exact List.mem_cons_self)).2 after _
        have hrest : eol (s.flatMap f ++ d :: t) = (eolFrom false s).flatMap f ++ eol (d :: t) := ih false
        rw [hstart, eol_append hline, hrest, eolFrom_ne hlf, eol_cons hcr hlf, List.flatMap_cons, List.append_assoc]
        rfl

theorem keepsLines_quoteChar : KeepsLines quoteChar := by
  refine ⟨rfl, rfl, ?_⟩
  intro c hcr hlf
  unfold quoteChar
  split_ifs
  · exact ⟨oneLine_of_all (by decide), by decide⟩
  · exact ⟨oneLine_of_all (by decide), by decide⟩
  · exact ⟨oneLine_of_all (by decide), by decide⟩
  · exact ⟨fun d hd => by rw [List.mem_singleton.mp hd]; exact ⟨hcr, hlf⟩, List.cons_ne_nil _ _⟩

theorem keepsLines_escapeChar : KeepsLines escapeChar := by
  refine ⟨rfl, rfl, ?_⟩
  intro c hcr hlf
  unfold escapeChar
  split_ifs
  · exact ⟨oneLine_of_all (by decide), by decide⟩
  · exact ⟨oneLine_of_all (by decide), by decide⟩
  · exact ⟨oneLine_of_all (by decide), by decide⟩
  · exact ⟨fun d hd => by rw [List.mem_singleton.mp hd]; exact ⟨hcr, hlf⟩, List.cons_ne_nil _ _⟩

theorem isNameChar_not_lineEnd {c : Char} (h : isNameChar c = true) : c ≠ '\r' ∧ c ≠ '\n' := by
  constructor
  · rintro rfl
    revert h
    decide
  · rintro rfl
    revert h
    decide

theorem oneLine_of_isName {name : Text} (h : IsName name) : OneLine name := fun c hc => isNameChar_not_lineEnd (h.chars c hc)

theorem eol_printAttrs {attrs : List (Text × Text)} (h : ∀ a ∈ attrs, IsName a.1) (t : Text) :
    eol (printAttrs attrs ++ t) = printAttrs (uniformAttrs attrs) ++ eol t := by
  induction attrs with
  | nil => rfl
  | cons a attrs ih =>
      have hrest := ih fun b hb => h b (List.mem_cons_of_mem a hb)
      have hvalue : eol (quote a.2 ++ '\'' :: (printAttrs attrs ++ t)) =
          quote (eol a.2) ++ eol ('\'' :: (printAttrs attrs ++ t)) :=
        eolFrom_flatMap keepsLines_quoteChar (by decide) false a.2 _
      rw [printAttrs_cons, eol_cons (by decide) (by decide), eol_append (oneLine_of_isName (h a List.mem_cons_self)),
        eol_cons (by decide) (by decide), eol_cons (by decide) (by decide), hvalue, eol_cons (by decide) (by decide), hrest,
        show uniformAttrs (a :: attrs) = (a.1, eol a.2) :: uniformAttrs attrs from rfl, printAttrs_cons]

theorem eol_printAll {ms : List Markup} (hms : ProperAll ms) (u : Text) :
    eol (printAll ms ++ '<' :: u) = printAll (uniformAll ms) ++ '<' :: eol u := by
  induction ms using markup_induction generalizing u with
  | nil => exact eol_cons (by decide) (by decide) u
  | text s ms ih =>
      obtain ⟨v, hv⟩ := printAll_head (hms.2.1 rfl) u
      have hs : eol (escape s ++ '<' :: v) = escape (eol s) ++ eol ('<' :: v) :=
        eolFrom_flatMap keepsLines_escapeChar (by decide) false s v
      rw [printAll, Markup.print, List.append_assoc, hv, hs, ← hv, ih hms.2.2, uniformAll, printAll, Markup.uniform,
        Markup.print, List.append_assoc]
  | empty name attrs ms ih =>
      have hfront : ('<' :: (name ++ (printAttrs attrs ++ ['/', '>']))) ++ printAll ms ++ '<' :: u =
          '<' :: (name ++ (printAttrs attrs ++ '/' :: '>' :: (printAll ms ++ '<' :: u))) := by
        simp
      rw [printAll, Markup.print, hfront, eol_cons (by decide) (by decide), eol_append (oneLine_of_isName hms.1.1),
        eol_printAttrs hms.1.2, eol_cons (by decide) (by decide), eol_cons (by decide) (by decide), ih hms.2.2,
        uniformAll, printAll, Markup.uniform, Markup.print]
      simp
  | element name attrs children ms ihchildren ihms =>
      have hfront : ('<' :: (name ++ (printAttrs attrs ++ '>' :: (printAll children ++ '<' :: '/' :: (name ++ ['>']))))) ++
          printAll ms ++ '<' :: u = '<' :: (name ++ (printAttrs attrs ++ '>' ::
            (printAll children ++ '<' :: ('/' :: (name ++ '>' :: (printAll ms ++ '<' :: u)))))) := by
        simp
      rw [printAll, Markup.print, hfront, eol_cons (by decide) (by decide), eol_append (oneLine_of_isName hms.1.1),
        eol_printAttrs hms.1.2.1, eol_cons (by decide) (by decide), ihchildren hms.1.2.2,
        eol_cons (by decide) (by decide), eol_append (oneLine_of_isName hms.1.1), eol_cons (by decide) (by decide),
        ihms hms.2.2, uniformAll, printAll, Markup.uniform, Markup.print]
      simp

theorem eol_print {m : Markup} (hm : m.Proper) (htext : m.isText = false) : eol m.print = m.uniform.print := by
  cases m with
  | text s => cases htext
  | empty name attrs =>
      rw [Markup.print, eol_cons (by decide) (by decide), eol_append (oneLine_of_isName hm.1), eol_printAttrs hm.2,
        Markup.uniform, Markup.print]
      rfl
  | element name attrs children =>
      rw [Markup.print, eol_cons (by decide) (by decide), eol_append (oneLine_of_isName hm.1), eol_printAttrs hm.2.1,
        eol_cons (by decide) (by decide), eol_printAll hm.2.2, eol_cons (by decide) (by decide),
        eol_append (oneLine_of_isName hm.1), Markup.uniform, Markup.print]
      rfl

theorem isText_uniform (m : Markup) : m.uniform.isText = m.isText := by
  cases m with
  | text s => rfl
  | empty name attrs => rfl
  | element name attrs children => rfl

theorem names_uniformAttrs {attrs : List (Text × Text)} (h : ∀ a ∈ attrs, IsName a.1) :
    ∀ a ∈ uniformAttrs attrs, IsName a.1 := by
  intro a ha
  obtain ⟨b, hb, rfl⟩ := List.mem_map.mp ha
  exact h b hb

theorem properAll_uniform {ms : List Markup} (h : ProperAll ms) : ProperAll (uniformAll ms) := by
  have hnext : ∀ {m : Markup} {ms : List Markup}, (m.isText = true → ms.head?.any Markup.isText = false) →
      m.uniform.isText = true → (uniformAll ms).head?.any Markup.isText = false := by
    intro m ms hm htext
    rw [isText_uniform] at htext
    cases ms with
    | nil => rfl
    | cons m' ms => exact (isText_uniform m').trans (hm htext)
  induction ms using markup_induction with
  | nil => exact trivial
  | text s ms ih => exact ⟨trivial, hnext h.2.1, ih h.2.2⟩
  | empty name attrs ms ih => exact ⟨⟨h.1.1, names_uniformAttrs h.1.2⟩, hnext h.2.1, ih h.2.2⟩
  | element name attrs children ms ihchildren ihms =>
      exact ⟨⟨h.1.1, names_uniformAttrs h.1.2.1, ihchildren h.1.2.2⟩, hnext h.2.1, ihms h.2.2⟩

theorem proper_uniform {m : Markup} (h : m.Proper) : m.uniform.Proper := by
  have hlist : ProperAll (uniformAll [m]) := properAll_uniform ⟨h, fun _ => rfl, trivial⟩
  exact hlist.1

theorem mem_eolFrom {c : Char} {after : Bool} {t : Text} (h : c ∈ eolFrom after t) : c ∈ t ∨ c = '\n' := by
  induction t generalizing after with
  | nil => cases h
  | cons d t ih =>
      rw [eolFrom] at h
      split_ifs at h with hcr hlf
      · rcases List.mem_cons.mp h with h | h
        · exact Or.inr h
        · exact (ih h).imp_left (List.mem_cons_of_mem d)
      · exact (ih h).imp_left (List.mem_cons_of_mem d)
      · rcases List.mem_cons.mp h with h | h
        · exact Or.inl (List.mem_cons.mpr (Or.inl h))
        · exact (ih h).imp_left (List.mem_cons_of_mem d)

theorem legal_eol {t : Text} (h : LegalText t) : LegalText (eol t) := by
  intro c hc
  rcases mem_eolFrom hc with hc | rfl
  · exact h c hc
  · rfl

theorem mem_eolFrom_ne {after : Bool} {t : Text} : ∀ c ∈ eolFrom after t, c ≠ '\r' := by
  induction t generalizing after with
  | nil => simp [eolFrom]
  | cons d t ih =>
      rw [eolFrom]
      split_ifs with hcr hlf
      · exact List.forall_mem_cons.mpr ⟨by decide, ih⟩
      · exact ih
      · exact List.forall_mem_cons.mpr ⟨hcr, ih⟩

theorem eol_eq_iff {t : Text} : eol t = t ↔ ∀ c ∈ t, c ≠ '\r' := by
  constructor
  · intro h
    rw [← h]
    exact mem_eolFrom_ne
  · intro h
    induction t with
    | nil => rfl
    | cons c t ih =>
        obtain ⟨hc, ht⟩ := List.forall_mem_cons.mp h
        have hcons : eol (c :: t) = c :: eol t := by simp [eol, eolFrom, hc]
        rw [hcons, ih ht]

theorem blanks_eol_eq_iff {t : Text} : blanks (eol t) = t ↔ ∀ c ∈ t, isSpace c = true → c = ' ' := by
  constructor
  · intro h c hc hspace
    rw [← h] at hc
    obtain ⟨d, -, rfl⟩ := List.mem_map.mp hc
    split at hspace
    · next hd => rw [if_pos hd]
    · next hd => exact absurd hspace hd
  · intro h
    have hcr : ∀ c ∈ t, c ≠ '\r' := by
      rintro c hc rfl
      exact absurd (h _ hc rfl) (by decide)
    rw [eol_eq_iff.mpr hcr, blanks]
    conv_rhs => rw [← List.map_id t]
    apply List.map_congr_left
    intro c hc
    split
    · next hspace => exact (h c hc hspace).symm
    · rfl

theorem uniqueAll_pushText (s : Text) (ts : List Tree) : uniqueAll (pushText s ts) = uniqueAll ts := by
  unfold pushText
  split
  · rfl
  · cases ts with
    | nil => rfl
    | cons e ts =>
        cases e with
        | text u => rfl
        | element name attrs children => rfl

theorem uniqueAll_iff {ts : List Tree} : uniqueAll ts = true ↔ ∀ t ∈ ts, t.unique = true := by
  induction ts with
  | nil => simp [uniqueAll]
  | cons t ts ih => rw [uniqueAll, Bool.and_eq_true, ih, List.forall_mem_cons]

/-- An element without carriage returns is read back, up to the blanks in its attribute values. -/
theorem readElementWith_print {m : Markup} (hm : m.Proper) (htext : m.isText = false)
    (h : m.Legal) :
    ((strip ['<'] m.print).bind fun t => readElementWith (readContent (t.length + 1)) t) = some (m.tree, []) := by
  cases m with
  | text s => cases htext
  | empty name attrs =>
      rw [Markup.print, strip, if_pos rfl, strip, Option.bind_some, readElementWith_empty hm.1 hm.2 h, Markup.tree]
  | element name attrs children =>
      have hcost := cost_le children
      have hfuel : ∃ k, (name ++ (printAttrs attrs ++ '>' :: (printAll children ++ '<' :: '/' :: (name ++ ['>'])))).length + 1 =
          cost children + 1 + k := by
        apply Nat.exists_eq_add_of_le
        simp only [List.length_append, List.length_cons]
        omega
      obtain ⟨k, hk⟩ := hfuel
      rw [Markup.print, strip, if_pos rfl, strip, Option.bind_some, hk,
        readElementWith_element hm.1 hm.2.1 h.1 (readContent_printAll children hm.2.2 h.2 k), Markup.tree]

theorem readElement_eq {t : Text} (h : LegalText t) :
    readElement t = ((strip ['<'] (eol t)).bind fun u => readElementWith (readContent (u.length + 1)) u).bind fun x =>
      if x.2 = [] ∧ x.1.unique then some x.1 else none := by
  rw [readElement, if_pos (List.all_eq_true.mpr h)]
  cases strip ['<'] (eol t) <;> rfl

/-- An element that is written and read. -/
theorem readElement_print {m : Markup} (hm : m.Proper) (htext : m.isText = false) (h : m.Legal) :
    readElement m.print = if m.uniform.tree.unique then some m.uniform.tree else none := by
  have hprint := (legal_print hm).mpr h
  have hlegal : m.uniform.Legal := by
    rw [← legal_print (proper_uniform hm), ← eol_print hm htext]
    exact legal_eol hprint
  rw [readElement_eq hprint, eol_print hm htext,
    readElementWith_print (proper_uniform hm) ((isText_uniform m).trans htext) hlegal]
  simp

theorem legal_of_readElement {t : Text} {e : Tree} (h : readElement t = some e) : LegalText t := by
  unfold readElement at h
  split at h
  · next hall => exact legal_of_all hall
  · cases h

/-- An element that is written and cannot be read holds a character that no document may hold,
or repeats an attribute. -/
theorem readElement_print_iff {m : Markup} (hm : m.Proper) (htext : m.isText = false) (e : Tree) :
    readElement m.print = some e ↔ m.Legal ∧ m.uniform.tree.unique = true ∧ m.uniform.tree = e := by
  constructor
  · intro h
    have hlegal := (legal_print hm).mp (legal_of_readElement h)
    rw [readElement_print hm htext hlegal] at h
    split at h
    · next hunique => exact ⟨hlegal, hunique, Option.some.inj h⟩
    · cases h
  · intro h
    rw [readElement_print hm htext h.1, if_pos h.2.1, h.2.2]

end

/-! ## Building elements -/

section

theorem isName_of_all {name : Text} (h : (name.all isNameChar && name.head?.any isNameStart) = true) : IsName name := by
  rw [Bool.and_eq_true, List.all_eq_true] at h
  exact ⟨h.1, h.2⟩

/-- Attributes of which some have no value. -/
def given (l : List (Text × Option Text)) : List (Text × Text) := l.filterMap fun a => a.2.map fun v => (a.1, v)

theorem names_given (l : List (Text × Option Text)) : ((given l).map Prod.fst).Sublist (l.map Prod.fst) := by
  induction l with
  | nil => exact List.Sublist.refl _
  | cons a l ih =>
      obtain ⟨name, v⟩ := a
      cases v with
      | none => exact ih.cons name
      | some v => exact ih.cons_cons name

theorem nodup_given {l : List (Text × Option Text)} (h : (l.map Prod.fst).Nodup) : ((given l).map Prod.fst).Nodup :=
  h.sublist (names_given l)

theorem isName_given {l : List (Text × Option Text)} (h : ∀ a ∈ l, IsName a.1) : ∀ a ∈ given l, IsName a.1 := by
  intro a ha
  have hmem := (names_given l).subset (List.mem_map.mpr ⟨a, ha, rfl⟩)
  obtain ⟨b, hb, he⟩ := List.mem_map.mp hmem
  rw [← he]
  exact h b hb

theorem legal_given {l : List (Text × Option Text)} :
    (∀ a ∈ given l, LegalText a.2) ↔ ∀ a ∈ l, ∀ v, a.2 = some v → LegalText v := by
  induction l with
  | nil => simp [given]
  | cons a l ih =>
      obtain ⟨name, v⟩ := a
      rw [List.forall_mem_cons, ← ih]
      cases v with
      | none => simp [given]
      | some v => simp [given]

mutual
/-- No attribute is repeated. -/
def Markup.Distinct : Markup → Prop
  | .text _ => True
  | .empty _ attrs => (attrs.map Prod.fst).Nodup
  | .element _ attrs children => (attrs.map Prod.fst).Nodup ∧ DistinctAll children

def DistinctAll : List Markup → Prop
  | [] => True
  | m :: ms => m.Distinct ∧ DistinctAll ms
end

theorem names_read (attrs : List (Text × Text)) : (readable (uniformAttrs attrs)).map Prod.fst = attrs.map Prod.fst := by
  unfold readable uniformAttrs
  rw [List.map_map, List.map_map]
  rfl

theorem unique_trees (ms : List Markup) : uniqueAll (trees (uniformAll ms)) = true ↔ DistinctAll ms := by
  induction ms using markup_induction with
  | nil => simp [uniformAll, trees, uniqueAll, DistinctAll]
  | text s ms ih =>
      rw [uniformAll, trees, Markup.uniform, Markup.tree, Tree.before, uniqueAll_pushText, ih, DistinctAll, Markup.Distinct,
        true_and]
  | empty name attrs ms ih =>
      rw [uniformAll, trees, Markup.uniform, Markup.tree, Tree.before, uniqueAll, Tree.unique, Bool.and_eq_true,
        Bool.and_eq_true, decide_eq_true_eq, names_read, ih, DistinctAll, Markup.Distinct, uniqueAll]
      simp
  | element name attrs children ms ihchildren ihms =>
      rw [uniformAll, trees, Markup.uniform, Markup.tree, Tree.before, uniqueAll, Tree.unique, Bool.and_eq_true,
        Bool.and_eq_true, decide_eq_true_eq, names_read, ihchildren, ihms, DistinctAll, Markup.Distinct]

theorem unique_tree {m : Markup} (h : m.Distinct) : m.uniform.tree.unique = true := by
  cases m with
  | text s => rfl
  | empty name attrs =>
      rw [Markup.uniform, Markup.tree, Tree.unique, Bool.and_eq_true, decide_eq_true_eq, names_read]
      exact ⟨h, rfl⟩
  | element name attrs children =>
      rw [Markup.uniform, Markup.tree, Tree.unique, Bool.and_eq_true, decide_eq_true_eq, names_read, unique_trees]
      exact h

theorem properAll_elements {ms : List Markup} (h : ∀ m ∈ ms, m.Proper ∧ m.isText = false) : ProperAll ms := by
  induction ms with
  | nil => exact trivial
  | cons m ms ih =>
      obtain ⟨hm, hms⟩ := List.forall_mem_cons.mp h
      refine ⟨hm.1, ?_, ih hms⟩
      rw [hm.2]
      intro hf
      cases hf

theorem distinctAll_iff {ms : List Markup} : DistinctAll ms ↔ ∀ m ∈ ms, m.Distinct := by
  induction ms with
  | nil => simp [DistinctAll]
  | cons m ms ih => rw [DistinctAll, ih, List.forall_mem_cons]

theorem legalAll_iff {ms : List Markup} : LegalAll ms ↔ ∀ m ∈ ms, m.Legal := by
  induction ms with
  | nil => simp [LegalAll]
  | cons m ms ih => rw [LegalAll, ih, List.forall_mem_cons]

/-- Names that may stand together in a start tag. -/
def WellNamed (names : List Text) : Prop := (∀ n ∈ names, IsName n) ∧ names.Nodup

theorem wellNamed_of_all {names : List Text}
    (h : (names.all (fun n => n.all isNameChar && n.head?.any isNameStart) && decide names.Nodup) = true) :
    WellNamed names := by
  rw [Bool.and_eq_true, List.all_eq_true, decide_eq_true_eq] at h
  exact ⟨fun n hn => isName_of_all (h.1 n hn), h.2⟩

/-- An element that is written as one element. -/
structure Sound (m : Markup) : Prop where
  proper : m.Proper
  distinct : m.Distinct
  element : m.isText = false

section
variable {name : Text} {attrs : List (Text × Text)} {children : List Markup}

theorem names_of_wellNamed (h : WellNamed (attrs.map Prod.fst)) : ∀ a ∈ attrs, IsName a.1 :=
  fun a ha => h.1 a.1 (List.mem_map.mpr ⟨a, ha, rfl⟩)

theorem wellNamed_given {l : List (Text × Option Text)} (h : WellNamed (l.map Prod.fst)) :
    WellNamed ((given l).map Prod.fst) :=
  ⟨fun n hn => h.1 n ((names_given l).subset hn), nodup_given h.2⟩

theorem sound_empty (hname : IsName name) (h : WellNamed (attrs.map Prod.fst)) : Sound (.empty name attrs) :=
  ⟨⟨hname, names_of_wellNamed h⟩, h.2, rfl⟩

theorem sound_element (hname : IsName name) (h : WellNamed (attrs.map Prod.fst)) (hchildren : ∀ m ∈ children, Sound m) :
    Sound (.element name attrs children) :=
  ⟨⟨hname, names_of_wellNamed h, properAll_elements fun m hm => ⟨(hchildren m hm).proper, (hchildren m hm).element⟩⟩,
    ⟨h.2, distinctAll_iff.mpr fun m hm => (hchildren m hm).distinct⟩, rfl⟩

theorem sound_text (hname : IsName name) (h : WellNamed (attrs.map Prod.fst)) (s : Text) :
    Sound (.element name attrs [.text s]) :=
  ⟨⟨hname, names_of_wellNamed h, trivial, fun _ => rfl, trivial⟩, ⟨h.2, trivial, trivial⟩, rfl⟩

/-- An element that is written as one is read as it was meant if its strings can be written. -/
theorem Sound.reads_iff {m : Markup} (h : Sound m) : readElement m.print = some m.uniform.tree ↔ m.Legal := by
  rw [readElement_print_iff h.proper h.element]
  exact ⟨fun hm => hm.1, fun hm => ⟨hm, unique_tree h.distinct, rfl⟩⟩

end

theorem legalAll_one {m : Markup} : LegalAll [m] ↔ m.Legal := by
  rw [LegalAll, LegalAll, and_true]

def openTag (name : Text) (attrs : List (Text × Text)) : Text := '<' :: (name ++ (printAttrs attrs ++ ['>']))

def closeTag (name : Text) : Text := '<' :: '/' :: (name ++ ['>'])

theorem print_element (name : Text) (attrs : List (Text × Text)) (children : List Markup) :
    (Markup.element name attrs children).print = openTag name attrs ++ (printAll children ++ closeTag name) := by
  rw [Markup.print, openTag, closeTag]
  simp

theorem print_empty (name : Text) (attrs : List (Text × Text)) :
    (Markup.empty name attrs).print = '<' :: (name ++ (printAttrs attrs ++ ['/', '>'])) := rfl

theorem print_one (name : Text) (attrs : List (Text × Text)) (child : Markup) :
    (Markup.element name attrs [child]).print = openTag name attrs ++ (child.print ++ closeTag name) := by
  rw [print_element, printAll, printAll, List.append_nil]

theorem print_text (s : Text) : (Markup.text s).print = escape s := rfl

theorem printAll_append (a b : List Markup) : printAll (a ++ b) = printAll a ++ printAll b := by
  induction a with
  | nil => rfl
  | cons m a ih => rw [List.cons_append, printAll, printAll, ih, List.append_assoc]

theorem printAll_map {A : Type} (f : A → Markup) (l : List A) : printAll (l.map f) = l.flatMap fun a => (f a).print := by
  induction l with
  | nil => rfl
  | cons a l ih => rw [List.map_cons, printAll, ih, List.flatMap_cons]

end

/-! ## Strings that are not escaped -/

section

/-- A string that stands between quotes as it is. -/
def Unescaped (s : Text) : Prop := ∀ c ∈ s, c ≠ '&' ∧ c ≠ '<' ∧ c ≠ '\''

theorem quote_unescaped {s : Text} (h : Unescaped s) : quote s = s := by
  induction s with
  | nil => rfl
  | cons c s ih =>
      obtain ⟨hc, hs⟩ := List.forall_mem_cons.mp h
      have hchar : quoteChar c = [c] := by simp [quoteChar, hc.1, hc.2.1, hc.2.2]
      have hcons : quote (c :: s) = quoteChar c ++ quote s := rfl
      rw [hcons, hchar, ih hs, List.singleton_append]

theorem length_decodeFrom {o : Option Text} {t v : Text} (h : decodeFrom o t = some v) : v.length ≤ t.length := by
  induction t generalizing o v with
  | nil =>
      cases o with
      | none =>
          cases h
          exact Nat.le_refl _
      | some name => cases h
  | cons c t ih =>
      cases o with
      | none =>
          rw [decodeFrom] at h
          by_cases hamp : c = '&'
          · rw [if_pos hamp] at h
            exact Nat.le_trans (ih h) (Nat.le_succ _)
          by_cases hbad : c = '<' ∨ isLegal c = false
          · rw [if_neg hamp, if_pos hbad] at h
            cases h
          · rw [if_neg hamp, if_neg hbad] at h
            obtain ⟨w, hw, rfl⟩ := Option.map_eq_some_iff.mp h
            exact Nat.succ_le_succ (ih hw)
      | some name =>
          rw [decodeFrom] at h
          split at h
          · split at h
            · obtain ⟨w, hw, rfl⟩ := Option.map_eq_some_iff.mp h
              exact Nat.succ_le_succ (ih hw)
            · cases h
          · exact Nat.le_trans (ih h) (Nat.le_succ _)

/-- A value that loses nothing holds no references. -/
theorem plain_of_decodeFrom {t v : Text} (h : decodeFrom none t = some v) (hlen : v.length = t.length) :
    ∀ c ∈ t, c ≠ '&' ∧ c ≠ '<' := by
  induction t generalizing v with
  | nil => simp
  | cons c t ih =>
      rw [decodeFrom] at h
      by_cases hamp : c = '&'
      · rw [if_pos hamp] at h
        have hle := length_decodeFrom h
        rw [hlen, List.length_cons] at hle
        omega
      by_cases hbad : c = '<' ∨ isLegal c = false
      · rw [if_neg hamp, if_pos hbad] at h
        cases h
      · rw [if_neg hamp, if_neg hbad] at h
        obtain ⟨w, hw, rfl⟩ := Option.map_eq_some_iff.mp h
        rw [not_or] at hbad
        exact List.forall_mem_cons.mpr ⟨⟨hamp, hbad.1⟩, ih hw (Nat.succ.inj hlen)⟩

/-- A value that is read as it was meant holds no marks. -/
theorem unescaped_of_readValue {s rest u : Text} (h : readValue '\'' (s ++ '\'' :: rest) = some (blanks s, u)) :
    Unescaped s ∧ u = rest := by
  obtain ⟨u', hstrip, h⟩ := Option.bind_eq_some_iff.mp h
  obtain ⟨v, hv, h⟩ := Option.bind_eq_some_iff.mp h
  cases h
  have hquote : ∀ c ∈ s, c ≠ '\'' := by
    by_contra hmem
    push Not at hmem
    obtain ⟨c, hc, rfl⟩ := hmem
    obtain ⟨a, b, hab⟩ := List.append_of_mem hc
    have hle := length_decodeFrom hv
    have htake : ((s ++ '\'' :: rest).takeWhile (· ≠ '\'')).length ≤ a.length := by
      rw [hab, List.append_assoc, List.cons_append]
      have hsplit : (a ++ '\'' :: (b ++ '\'' :: rest)).takeWhile (· ≠ '\'') = a.takeWhile (· ≠ '\'') := by
        rw [List.takeWhile_append]
        split
        · next hall =>
          rw [List.takeWhile_cons_of_neg (by simp), List.append_nil]
          exact (List.takeWhile_sublist _).eq_of_length hall |>.symm
        · rfl
      rw [hsplit]
      exact (List.takeWhile_sublist _).length_le
    have hlen : (blanks s).length = s.length := List.length_map _
    have hsum : s.length = a.length + (b.length + 1) := by rw [hab, List.length_append, List.length_cons]
    omega
  have hpos : ∀ c ∈ s, (decide (c ≠ '\'')) = true := fun c hc => decide_eq_true (hquote c hc)
  rw [List.takeWhile_append_of_pos hpos, List.takeWhile_cons_of_neg (by simp), List.append_nil] at hv
  rw [List.dropWhile_append_of_pos hpos, List.dropWhile_cons_of_neg (by simp)] at hstrip
  have hplain := plain_of_decodeFrom hv (List.length_map _)
  exact ⟨fun c hc => ⟨(hplain c hc).1, (hplain c hc).2, hquote c hc⟩, (Option.some.inj hstrip).symm⟩

/-- Attributes that are written without escaping. -/
def printRaw (attrs : List (Text × Text)) : Text := attrs.flatMap fun a => ' ' :: (a.1 ++ '=' :: '\'' :: (a.2 ++ ['\'']))

theorem printRaw_cons (a : Text × Text) (attrs : List (Text × Text)) (rest : Text) :
    printRaw (a :: attrs) ++ rest = ' ' :: (a.1 ++ '=' :: '\'' :: (a.2 ++ '\'' :: (printRaw attrs ++ rest))) := by
  simp [printRaw]

theorem printRaw_unescaped {attrs : List (Text × Text)} (h : ∀ a ∈ attrs, Unescaped a.2) :
    printRaw attrs = printAttrs attrs := by
  induction attrs with
  | nil => rfl
  | cons a attrs ih =>
      have hraw := printRaw_cons a attrs []
      have hquoted := printAttrs_cons a attrs []
      rw [List.append_nil, List.append_nil] at hraw hquoted
      rw [hraw, hquoted, quote_unescaped (h a List.mem_cons_self), ih fun b hb => h b (List.mem_cons_of_mem a hb)]

/-- Attributes that are read as they were meant hold no marks. -/
theorem unescaped_of_readAttrs {attrs as : List (Text × Text)} (hn : ∀ a ∈ attrs, IsName a.1) {n : ℕ} {t u : Text}
    {closed : Bool} (h : readAttrs n (printRaw attrs ++ t) = some (readable attrs ++ as, closed, u)) :
    (∀ a ∈ attrs, Unescaped a.2) ∧ ∃ m, readAttrs m t = some (as, closed, u) := by
  induction attrs generalizing n with
  | nil => exact ⟨by simp, n, h⟩
  | cons a attrs ih =>
      cases n with
      | zero => cases h
      | succ n =>
          rw [printRaw_cons, readAttrs_value (hn a List.mem_cons_self)] at h
          obtain ⟨⟨v, rest⟩, hv, h⟩ := Option.bind_eq_some_iff.mp h
          obtain ⟨⟨as', closed', u'⟩, has, h⟩ := Option.map_eq_some_iff.mp h
          obtain ⟨hhead, htail⟩ := Prod.mk.inj h
          obtain ⟨hvalue, hrest⟩ := List.cons.inj hhead
          have hblanks : v = blanks a.2 := (Prod.mk.inj hvalue).2
          rw [hblanks] at hv
          obtain ⟨ha, rfl⟩ := unescaped_of_readValue hv
          dsimp only at has hrest
          rw [hrest, (Prod.mk.inj htail).1, (Prod.mk.inj htail).2] at has
          obtain ⟨hall, hm⟩ := ih (fun b hb => hn b (List.mem_cons_of_mem a hb)) has
          exact ⟨List.forall_mem_cons.mpr ⟨ha, hall⟩, hm⟩

theorem eol_printRaw {attrs : List (Text × Text)} (h : ∀ a ∈ attrs, IsName a.1) (t : Text) :
    eol (printRaw attrs ++ t) = printRaw (uniformAttrs attrs) ++ eol t := by
  have hkeeps : KeepsLines fun c => [c] :=
    ⟨rfl, rfl, fun c hcr hlf => ⟨fun d hd => by rw [List.mem_singleton.mp hd]; exact ⟨hcr, hlf⟩, List.cons_ne_nil _ _⟩⟩
  induction attrs with
  | nil => rfl
  | cons a attrs ih =>
      have hrest := ih fun b hb => h b (List.mem_cons_of_mem a hb)
      have hvalue : eol (a.2 ++ '\'' :: (printRaw attrs ++ t)) = eol a.2 ++ eol ('\'' :: (printRaw attrs ++ t)) := by
        have hflat := eolFrom_flatMap hkeeps (d := '\'') (by decide) false a.2 (printRaw attrs ++ t)
        simpa [eol] using hflat
      rw [printRaw_cons, eol_cons (by decide) (by decide), eol_append (oneLine_of_isName (h a List.mem_cons_self)),
        eol_cons (by decide) (by decide), eol_cons (by decide) (by decide), hvalue, eol_cons (by decide) (by decide), hrest,
        show uniformAttrs (a :: attrs) = (a.1, eol a.2) :: uniformAttrs attrs from rfl, printRaw_cons]

theorem mem_eolFrom_of_mem {c : Char} (hcr : c ≠ '\r') (hlf : c ≠ '\n') {after : Bool} {t : Text} (h : c ∈ t) :
    c ∈ eolFrom after t := by
  induction t generalizing after with
  | nil => cases h
  | cons d t ih =>
      rw [eolFrom]
      rcases List.mem_cons.mp h with rfl | h
      · rw [if_neg hcr, if_neg fun hd => hlf hd.1]
        exact List.mem_cons_self
      · split_ifs
        · exact List.mem_cons_of_mem _ (ih h)
        · exact ih h
        · exact List.mem_cons_of_mem _ (ih h)

theorem unescaped_of_eol {s : Text} (h : Unescaped (eol s)) : Unescaped s := by
  have hkept : ∀ d, d ≠ '\r' → d ≠ '\n' → d ∉ eol s → d ∉ s := fun d hcr hlf hd hmem => hd (mem_eolFrom_of_mem hcr hlf hmem)
  intro c hc
  refine ⟨?_, ?_, ?_⟩
  · rintro rfl
    exact hkept _ (by decide) (by decide) (fun hd => (h _ hd).1 rfl) hc
  · rintro rfl
    exact hkept _ (by decide) (by decide) (fun hd => (h _ hd).2.1 rfl) hc
  · rintro rfl
    exact hkept _ (by decide) (by decide) (fun hd => (h _ hd).2.2 rfl) hc

/-- Attributes written without escaping in an element that is read as it was meant. -/
theorem unescaped_of_readElement {name name' t : Text} {a : Text × Text} {attrs l : List (Text × Text)} {children : List Tree}
    (hname : IsName name) (hn : ∀ b ∈ a :: attrs, IsName b.1)
    (h : readElement ('<' :: (name ++ (printRaw (a :: attrs) ++ t))) =
      some (.element name' (readable (uniformAttrs (a :: attrs)) ++ l) children)) :
    (∀ b ∈ a :: attrs, Unescaped b.2) ∧ ∃ m closed u, readAttrs m (eol t) = some (l, closed, u) := by
  rw [readElement_eq (legal_of_readElement h), eol_cons (by decide) (by decide), eol_append (oneLine_of_isName hname),
    eol_printRaw hn, strip, if_pos rfl, strip, Option.bind_some, readElementWith_eq] at h
  have hread : readName (name ++ (printRaw (uniformAttrs (a :: attrs)) ++ eol t)) =
      some (name, printRaw (uniformAttrs (a :: attrs)) ++ eol t) := readName_isName hname (by decide) _
  obtain ⟨⟨e, rest⟩, he, h⟩ := Option.bind_eq_some_iff.mp h
  rw [hread, Option.bind_some] at he
  obtain ⟨⟨as', closed, u⟩, has, he⟩ := Option.bind_eq_some_iff.mp he
  have htree : e = .element name' (readable (uniformAttrs (a :: attrs)) ++ l) children := by
    dsimp only at h
    split at h
    · exact Option.some.inj h
    · cases h
  have hattrs : as' = readable (uniformAttrs (a :: attrs)) ++ l := by
    dsimp only at he
    split at he
    · rw [htree] at he
      exact (Tree.element.inj (Prod.mk.inj (Option.some.inj he)).1).2.1
    · obtain ⟨x, -, he⟩ := Option.bind_eq_some_iff.mp he
      obtain ⟨y, -, he⟩ := Option.bind_eq_some_iff.mp he
      obtain ⟨z, -, he⟩ := Option.bind_eq_some_iff.mp he
      split at he
      · rw [htree] at he
        exact (Tree.element.inj (Prod.mk.inj (Option.some.inj he)).1).2.1
      · cases he
  rw [hattrs] at has
  obtain ⟨hall, m, hm⟩ := unescaped_of_readAttrs (names_uniformAttrs hn) has
  refine ⟨?_, m, closed, u, hm⟩
  intro b hb
  exact unescaped_of_eol (hall (b.1, eol b.2) (List.mem_map.mpr ⟨b, hb, rfl⟩))

/-- No attribute begins with a bracket. -/
theorem readAttrs_bracket (m : ℕ) (t : Text) : readAttrs m (eol ('<' :: t)) = none := by
  rw [eol_cons (by decide) (by decide)]
  cases m with
  | zero => rfl
  | succ m => simp [readAttrs, skip, isSpace]

/-- A start tag that another bracket follows is not read. -/
theorem readElement_bracket {name name' t : Text} {a : Text × Text} {attrs : List (Text × Text)} {children : List Tree}
    (hname : IsName name) (hn : ∀ b ∈ a :: attrs, IsName b.1) :
    readElement ('<' :: (name ++ (printRaw (a :: attrs) ++ '<' :: t))) ≠
      some (.element name' (readable (uniformAttrs (a :: attrs))) children) := by
  intro h
  rw [← List.append_nil (readable (uniformAttrs (a :: attrs)))] at h
  obtain ⟨-, m, closed, u, hread⟩ := unescaped_of_readElement hname hn h
  rw [readAttrs_bracket] at hread
  cases hread

end

end Xmppd.XmlElements
