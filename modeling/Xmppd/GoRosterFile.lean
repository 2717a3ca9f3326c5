import Xmppd.GoSession
import Xmppd.XmlReader

/-!
# The roster file of the Go server

`Save` writes the file by formatting, with the values quoted as literals of the
language; `Load` reads it as a document. The two conventions agree on the
characters that need neither.
-/
namespace Xmppd.GoRosterFile
open CStrings GoSession XmlReader

section
variable (isPrint : Char → Bool)

def hexDigits (width n : ℕ) : Str :=
  let digits := Nat.toDigits 16 n
  List.replicate (width - digits.length) '0' ++ digits

/-- What follows the backslash for a character that is not printed as it is. -/
def escapeRune (c : Char) : Str :=
  if c.toNat = 7 then ['a']
  else if c.toNat = 8 then ['b']
  else if c.toNat = 12 then ['f']
  else if c = '\n' then ['n']
  else if c = '\r' then ['r']
  else if c = '\t' then ['t']
  else if c.toNat = 11 then ['v']
  else if c.toNat < 0x20 ∨ c.toNat = 0x7f then 'x' :: hexDigits 2 c.toNat
  else if c.toNat < 0x10000 then 'u' :: hexDigits 4 c.toNat
  else 'U' :: hexDigits 8 c.toNat

def quoteRune (c : Char) : Str :=
  if c = '"' ∨ c = '\\' then ['\\', c] else if isPrint c then [c] else '\\' :: escapeRune c

/-- The text between the quotes of `%q`. -/
def quoteBody (s : Str) : Str := s.flatMap (quoteRune isPrint)

/-- `%q`. -/
def quote (s : Str) : Str := '"' :: (quoteBody isPrint s ++ ['"'])

/-- The line `Save` writes for one item, from its blanks on. -/
def itemLine (i : Item) : Str :=
  ("  <item jid=" : Str) ++ (quote isPrint i.jid ++
    ((if i.name = [] then [] else (" name=" : Str) ++ quote isPrint i.name) ++
      ((" subscription=" : Str) ++ (quote isPrint i.subscription ++
        ((if i.askSubscribe then (" ask=\"subscribe\"" : Str) else []) ++ ("/>\n" : Str))))))

/-- The text `Save` writes. -/
def save (r : Roster) : Str :=
  ("<?xml version=\"1.0\"?>\n<roster>\n" : Str) ++ (r.items.flatMap (itemLine isPrint) ++ ("</roster>\n" : Str))

/-- The value of an attribute, empty where there is none. -/
def field (attrs : List (Text × Text)) (name : Str) : Str := ((attrs.find? fun a => a.1 = name).map Prod.snd).getD []

def toItem (attrs : List (Text × Text)) : Item :=
  { jid := field attrs "jid"
    name := field attrs "name"
    subscription := if field attrs "subscription" = [] then "none" else field attrs "subscription"
    askSubscribe := field attrs "ask" = "subscribe" }

/-- `Load`, from the content of the file if there is one. -/
def load (data : Option Str) : Roster :=
  match data.bind (readDocument "item" "roster") with
  | some l => { items := l.map toItem, loaded := true }
  | none => { loaded := true }

/-- A character that both conventions leave as it is. -/
def Plain (c : Char) : Prop := isPrint c = true ∧ c ∉ ['"', '\\', '<', '&', '\t', '\n', '\r']

def PlainItem (i : Item) : Prop :=
  (∀ c ∈ i.jid, Plain isPrint c) ∧ (∀ c ∈ i.name, Plain isPrint c) ∧ ∀ c ∈ i.subscription, Plain isPrint c

/-! ## One value -/

/-- What the reader makes of a quoted value. -/
def reread (s : Str) : Option Str := decode ((quoteBody isPrint s).takeWhile (· ≠ '"'))

/-- What the reader makes of it after the beginning of a reference. -/
def rereadFrom (name s : Str) : Option Str := decodeFrom (some name) ((quoteBody isPrint s).takeWhile (· ≠ '"'))

variable {isPrint}

theorem quoteBody_cons (c : Char) (s : Str) : quoteBody isPrint (c :: s) = quoteRune isPrint c ++ quoteBody isPrint s := rfl

theorem quoteRune_printed {c : Char} (h : isPrint c = true) (hq : c ≠ '"') (hb : c ≠ '\\') : quoteRune isPrint c = [c] := by
  simp [quoteRune, h, hq, hb]

/-- Everything else begins with a backslash. -/
theorem quoteRune_escaped {c : Char} (h : ¬(isPrint c = true ∧ c ≠ '"' ∧ c ≠ '\\')) :
    ∃ rest, quoteRune isPrint c = '\\' :: rest := by
  unfold quoteRune
  split
  · exact ⟨_, rfl⟩
  · next hc =>
    rw [not_or] at hc
    split
    · next hp => exact absurd ⟨hp, hc⟩ h
    · exact ⟨_, rfl⟩

theorem decodeFrom_backslash (t : Str) : decode ('\\' :: t) = (decode t).map fun v => '\\' :: v := by
  simp [decode, decodeFrom, isLegal, isSpace]

/-- The value begins with a backslash where the text begins with an escape. -/
theorem reread_escaped {c : Char} {s v : Str} (hc : ¬(isPrint c = true ∧ c ≠ '"' ∧ c ≠ '\\'))
    (h : reread isPrint (c :: s) = some v) : ∃ w, v = '\\' :: w := by
  obtain ⟨rest, hrest⟩ := quoteRune_escaped hc
  rw [reread, quoteBody_cons, hrest, List.cons_append, List.takeWhile_cons_of_pos (by decide),
    decodeFrom_backslash, Option.map_eq_some_iff] at h
  obtain ⟨w, _, hw⟩ := h
  exact ⟨w, hw.symm⟩

theorem reread_backslash (s : Str) :
    reread isPrint ('\\' :: s) = (reread isPrint s).map fun v => '\\' :: '\\' :: v := by
  have hq : quoteRune isPrint '\\' = ['\\', '\\'] := by simp [quoteRune]
  rw [reread, quoteBody_cons, hq, List.cons_append, List.takeWhile_cons_of_pos (by decide), List.cons_append,
    List.takeWhile_cons_of_pos (by decide), decodeFrom_backslash, decodeFrom_backslash, Option.map_map]
  rfl

theorem reread_printed {c : Char} {s : Str} (h : isPrint c = true) (hq : c ≠ '"') (hb : c ≠ '\\') (ha : c ≠ '&') :
    reread isPrint (c :: s) = if c = '<' ∨ isLegal c = false then none
      else (reread isPrint s).map fun v => (if isSpace c then ' ' else c) :: v := by
  rw [reread, quoteBody_cons, quoteRune_printed h hq hb, List.singleton_append,
    List.takeWhile_cons_of_pos (by simpa using hq)]
  simp only [decode, decodeFrom, ha, if_false]
  rfl

theorem reread_reference {s : Str} (h : isPrint '&' = true) : reread isPrint ('&' :: s) = rereadFrom isPrint [] s := by
  rw [reread, quoteBody_cons, quoteRune_printed h (by decide) (by decide), List.singleton_append,
    List.takeWhile_cons_of_pos (by decide)]
  simp only [decode, decodeFrom, if_true, rereadFrom]

theorem rereadFrom_printed {c : Char} {name s : Str} (h : isPrint c = true) (hq : c ≠ '"') (hb : c ≠ '\\') :
    rereadFrom isPrint name (c :: s) =
      if c = ';' then
        match resolve name with
        | some d => (reread isPrint s).map fun v => d :: v
        | none => none
      else rereadFrom isPrint (name ++ [c]) s := by
  rw [rereadFrom, quoteBody_cons, quoteRune_printed h hq hb, List.singleton_append,
    List.takeWhile_cons_of_pos (by simpa using hq)]
  simp only [decodeFrom]
  rfl

theorem resolve_no_backslash {name : Str} {d : Char} (h : resolve name = some d) : '\\' ∉ name := by
  unfold resolve at h
  split_ifs at h with h1 h2 h3 h4 h5
  · rw [h1]
    decide
  · rw [h2]
    decide
  · rw [h3]
    decide
  · rw [h4]
    decide
  · rw [h5]
    decide
  · split at h
    · next digits =>
      split at h
      · next hall =>
        intro hm
        simp only [List.mem_cons, Char.reduceEq, false_or] at hm
        exact absurd (List.all_eq_true.mp hall _ hm) (by decide)
      · cases h
    · next digits _ =>
      split at h
      · next hall =>
        intro hm
        simp only [List.mem_cons, Char.reduceEq, false_or] at hm
        exact absurd (List.all_eq_true.mp hall _ hm) (by decide)
      · cases h
    · cases h

theorem decodeFrom_stuck {name t : Str} (h : '\\' ∈ name) : decodeFrom (some name) t = none := by
  induction t generalizing name with
  | nil => rfl
  | cons c cs ih =>
      simp only [decodeFrom]
      split
      · cases hr : resolve name with
        | none => rfl
        | some d => exact absurd h (resolve_no_backslash hr)
      · exact ih (List.mem_append_left _ h)

/-- A reference ends in the text, and it holds no backslash. -/
theorem rereadFrom_some {name s v : Str} (h : rereadFrom isPrint name s = some v) :
    ∃ more rest d w, s = more ++ ';' :: rest ∧ '\\' ∉ more ∧ v = d :: w ∧ reread isPrint rest = some w := by
  induction s generalizing name with
  | nil => cases h
  | cons c s ih =>
      by_cases hc : isPrint c = true ∧ c ≠ '"' ∧ c ≠ '\\'
      · rw [rereadFrom_printed hc.1 hc.2.1 hc.2.2] at h
        split at h
        · next hsemi =>
          split at h
          · rw [Option.map_eq_some_iff] at h
            obtain ⟨w, hw, hv⟩ := h
            exact ⟨[], s, _, w, by rw [hsemi, List.nil_append], by simp, hv.symm, hw⟩
          · cases h
        · obtain ⟨more, rest, d, w, hs, hmore, hv, hw⟩ := ih h
          refine ⟨c :: more, rest, d, w, by rw [hs, List.cons_append], ?_, hv, hw⟩
          intro hm
          rcases List.mem_cons.mp hm with hm | hm
          · exact hc.2.2 hm.symm
          · exact hmore hm
      · obtain ⟨rest, hrest⟩ := quoteRune_escaped hc
        rw [rereadFrom, quoteBody_cons, hrest, List.cons_append, List.takeWhile_cons_of_pos (by decide)] at h
        simp only [decodeFrom, Char.reduceEq, if_false] at h
        rw [decodeFrom_stuck (by simp)] at h
        cases h

/-- Reading never puts text without a backslash in front of what was there. -/
theorem reread_ne_append (n : ℕ) {s z : Str} (hn : s.length ≤ n) (hz : z ≠ []) (hb : '\\' ∉ z) :
    reread isPrint s ≠ some (z ++ s) := by
  induction n generalizing s z with
  | zero =>
      intro h
      rw [List.length_eq_zero_iff.mp (Nat.le_zero.mp hn)] at h
      simp only [reread, quoteBody, List.flatMap_nil, List.takeWhile_nil, decode, decodeFrom, List.append_nil,
        Option.some.injEq] at h
      exact hz h.symm
  | succ n ih =>
      intro h
      obtain ⟨y, z, rfl⟩ := List.exists_cons_of_ne_nil hz
      have hz' : '\\' ∉ z := fun hm => hb (List.mem_cons_of_mem _ hm)
      cases s with
      | nil => cases h
      | cons c s =>
          rw [List.length_cons] at hn
          by_cases hc : isPrint c = true ∧ c ≠ '"' ∧ c ≠ '\\'
          · by_cases ha : c = '&'
            · subst ha
              rw [reread_reference hc.1] at h
              obtain ⟨more, rest, d, w, hs, hmore, hv, hw⟩ := rereadFrom_some h
              rw [List.cons_append, List.cons.injEq] at hv
              have hlen : rest.length ≤ n := by
                rw [hs, List.length_append, List.length_cons] at hn
                omega
              apply ih hlen (z := z ++ '&' :: (more ++ [';']))
              · simp
              · simp only [List.mem_append, List.mem_cons, Char.reduceEq, List.not_mem_nil, or_false, false_or, not_or]
                exact ⟨hz', hmore⟩
              · rw [hw, ← hv.2, hs]
                simp
            · rw [reread_printed hc.1 hc.2.1 hc.2.2 ha] at h
              split at h
              · cases h
              · rw [Option.map_eq_some_iff] at h
                obtain ⟨w, hw, hv⟩ := h
                rw [List.cons_append, List.cons.injEq] at hv
                apply ih (s := s) (z := z ++ [c]) (by omega)
                · simp
                · simp only [List.mem_append, List.mem_singleton, not_or]
                  exact ⟨hz', fun h => hc.2.2 h.symm⟩
                · rw [hw, hv.2]
                  simp
          · obtain ⟨w, hw⟩ := reread_escaped hc h
            rw [List.cons_append, List.cons.injEq] at hw
            exact hb (hw.1 ▸ List.mem_cons_self)

/-- Reading never drops backslashes from the front. -/
theorem reread_ne_drop (n : ℕ) {s v : Str} {k : ℕ} (hn : s.length ≤ n) (hs : s = List.replicate (k + 1) '\\' ++ v) :
    reread isPrint s ≠ some v := by
  induction n generalizing s v k with
  | zero =>
      rw [hs] at hn
      simp at hn
  | succ n ih =>
      intro h
      rw [List.replicate_succ, List.cons_append] at hs
      rw [hs, reread_backslash, Option.map_eq_some_iff] at h
      obtain ⟨w, hw, hv⟩ := h
      rw [hs, List.length_cons] at hn
      apply ih (v := w) (k := k + 1) (by omega) _ hw
      rw [← hv, show k + 1 + 1 = k + 2 from rfl, List.replicate_add]
      simp

/-- A value is read as it was exactly if all its characters are plain. -/
theorem reread_iff {s : Str} (hl : ∀ c ∈ s, isLegal c = true) : reread isPrint s = some s ↔ ∀ c ∈ s, Plain isPrint c := by
  induction s with
  | nil => simp [reread, quoteBody, decode, decodeFrom]
  | cons c s ih =>
      have hc := hl c List.mem_cons_self
      have hs := ih fun d hd => hl d (List.mem_cons_of_mem _ hd)
      rw [List.forall_mem_cons]
      by_cases hp : isPrint c = true ∧ c ≠ '"' ∧ c ≠ '\\'
      · by_cases ha : c = '&'
        · constructor
          · intro h
            subst ha
            rw [reread_reference hp.1] at h
            obtain ⟨more, rest, d, w, hmr, hmore, hv, hw⟩ := rereadFrom_some h
            rw [List.cons.injEq] at hv
            rw [← hv.2, hmr] at hw
            rw [← List.singleton_append, ← List.append_assoc] at hw
            exact absurd hw (reread_ne_append rest.length (Nat.le_refl _) (by simp) (by simp [hmore]))
          · intro h
            exact absurd ha (by have := h.1.2; simp at this; tauto)
        · rw [reread_printed hp.1 hp.2.1 hp.2.2 ha]
          by_cases hlt : c = '<'
          · simp [hlt, Plain]
          · rw [if_neg (by simp [hlt, hc]), ← hs, Option.map_eq_some_iff]
            constructor
            · intro h
              obtain ⟨w, hw, hv⟩ := h
              rw [List.cons.injEq] at hv
              rw [hv.2] at hw
              refine ⟨⟨hp.1, ?_⟩, hw⟩
              have hsp := hv.1
              simp only [List.mem_cons, List.not_mem_nil, or_false, not_or]
              refine ⟨hp.2.1, hp.2.2, hlt, ha, ?_, ?_, ?_⟩
              · rintro rfl
                revert hsp
                decide
              · rintro rfl
                revert hsp
                decide
              · rintro rfl
                revert hsp
                decide
            · intro h
              refine ⟨s, h.2, ?_⟩
              have hm := h.1.2
              simp only [List.mem_cons, List.not_mem_nil, or_false, not_or] at hm
              rw [List.cons.injEq]
              refine ⟨?_, rfl⟩
              split
              · next hsp =>
                simp only [isSpace, decide_eq_true_eq] at hsp
                tauto
              · rfl
      · constructor
        · intro h
          obtain ⟨w, hw⟩ := reread_escaped hp h
          rw [List.cons.injEq] at hw
          rw [hw.1, reread_backslash, Option.map_eq_some_iff] at h
          obtain ⟨v, hv, hvs⟩ := h
          rw [List.cons.injEq] at hvs
          exact absurd hv (reread_ne_drop s.length (Nat.le_refl _) (k := 0) (by simp [← hvs.2]))
        · intro h
          have hm := h.1.2
          simp only [List.mem_cons, List.not_mem_nil, or_false, not_or] at hm
          exact absurd ⟨h.1.1, hm.1, hm.2.1⟩ hp

/-! ## One line -/

theorem quoteBody_plain {s : Str} (h : ∀ c ∈ s, Plain isPrint c) : quoteBody isPrint s = s := by
  induction s with
  | nil => rfl
  | cons c s ih =>
      have hc := h c List.mem_cons_self
      have hm := hc.2
      simp only [List.mem_cons, List.not_mem_nil, or_false, not_or] at hm
      rw [quoteBody_cons, quoteRune_printed hc.1 hm.1 hm.2.1, List.singleton_append,
        ih fun d hd => h d (List.mem_cons_of_mem _ hd)]

theorem takeWhile_mark (s rest : Str) :
    (s ++ '"' :: rest).takeWhile (· ≠ '"') = s.takeWhile (· ≠ '"') := by
  induction s with
  | nil => simp
  | cons c s ih =>
      rw [List.cons_append, List.takeWhile_cons, List.takeWhile_cons, ih]

theorem readValue_quoted {s rest v r : Str} (h : readValue '"' (quoteBody isPrint s ++ '"' :: rest) = some (v, r)) :
    reread isPrint s = some v ∧ ((∀ c ∈ s, Plain isPrint c) → r = rest) := by
  simp only [readValue, Option.bind_eq_bind, Option.bind_eq_some_iff, takeWhile_mark, Option.some.injEq,
    Prod.mk.injEq] at h
  obtain ⟨r', hr, v', hv, rfl, rfl⟩ := h
  refine ⟨hv, ?_⟩
  intro hs
  rw [quoteBody_plain hs, List.dropWhile_append_of_pos, List.dropWhile_cons_of_neg (by simp)] at hr
  · simpa [strip] using hr.symm
  · intro c hc
    have hm := (hs c hc).2
    simp only [List.mem_cons, not_or] at hm
    simpa using hm.1

theorem readValue_plain {s : Str} (hl : ∀ c ∈ s, isLegal c = true) (hs : ∀ c ∈ s, Plain isPrint c) (rest : Str) :
    readValue '"' (quoteBody isPrint s ++ '"' :: rest) = some (s, rest) := by
  have hv := (reread_iff hl).mpr hs
  rw [readValue, takeWhile_mark]
  rw [reread] at hv
  rw [hv, quoteBody_plain hs, List.dropWhile_append_of_pos, List.dropWhile_cons_of_neg (by simp)]
  · simp [strip]
  · intro c hc
    have hm := (hs c hc).2
    simp only [List.mem_cons, not_or] at hm
    simpa using hm.1

theorem readAttr_quoted {name : Str} (h : IsName name) (s rest : Str) :
    readAttr (name ++ '=' :: (quote isPrint s ++ rest)) =
      (readValue '"' (quoteBody isPrint s ++ '"' :: rest)).map fun v => ((name, v.1), v.2) := by
  rw [readAttr, readName_isName h (by decide)]
  simp [skip, strip, isSpace, quote]

theorem readAttrs_quoted {name : Str} (h : IsName name) (n : ℕ) (s rest : Str) :
    readAttrs (n + 1) (' ' :: (name ++ '=' :: (quote isPrint s ++ rest))) =
      (readValue '"' (quoteBody isPrint s ++ '"' :: rest)).bind fun v =>
        (readAttrs n v.2).map fun x => ((name, v.1) :: x.1, x.2) := by
  obtain ⟨c, cs, rfl⟩ : ∃ c cs, name = c :: cs := by
    apply List.exists_cons_of_ne_nil
    intro hnil
    have hstart := h.start
    rw [hnil] at hstart
    cases hstart
  have hm := isNameStart_marks (c := c) (by simpa using h.start)
  have hskip : skip (' ' :: (c :: cs ++ '=' :: (quote isPrint s ++ rest))) = c :: cs ++ '=' :: (quote isPrint s ++ rest) := by
    rw [skip, List.dropWhile_cons_of_pos (by decide), List.cons_append, List.dropWhile_cons_of_neg (by simp [hm.1])]
  have hne : c :: cs ++ '=' :: (quote isPrint s ++ rest) ≠ ' ' :: (c :: cs ++ '=' :: (quote isPrint s ++ rest)) := by
    intro he
    have := congrArg List.length he
    simp at this
  rw [readAttrs, hskip]
  split
  · next he =>
    rw [List.cons_append, List.cons.injEq] at he
    exact absurd he.1 hm.2.1
  · next he =>
    rw [List.cons_append, List.cons.injEq] at he
    exact absurd he.1 hm.2.2
  · rw [if_neg hne, readAttr_quoted h]
    cases readValue '"' (quoteBody isPrint s ++ '"' :: rest) with
    | none => rfl
    | some v =>
        simp only [Option.map_some, Option.bind_eq_bind, Option.bind_some]
        cases readAttrs n v.2 <;> rfl

/-- An attribute that was read holds what the reader makes of the value. -/
theorem readAttrs_some {name : Str} (h : IsName name) {n : ℕ} {s rest r : Str} {attrs : List (Text × Text)} {closed : Bool}
    (ha : readAttrs n (' ' :: (name ++ '=' :: (quote isPrint s ++ rest))) = some (attrs, closed, r)) :
    ∃ m v as rest', reread isPrint s = some v ∧ attrs = (name, v) :: as ∧ readAttrs m rest' = some (as, closed, r) ∧
      ((∀ c ∈ s, Plain isPrint c) → rest' = rest) := by
  cases n with
  | zero => cases ha
  | succ n =>
      rw [readAttrs_quoted h, Option.bind_eq_some_iff] at ha
      obtain ⟨⟨v, rest'⟩, hv, ha⟩ := ha
      rw [Option.map_eq_some_iff] at ha
      obtain ⟨⟨as, x⟩, has, he⟩ := ha
      rw [Prod.mk.injEq] at he
      obtain ⟨hvs, hrest⟩ := readValue_quoted hv
      refine ⟨n, v, as, rest', hvs, he.1.symm, ?_, hrest⟩
      rw [has, ← he.2]

theorem readAttrs_plain {name : Str} (h : IsName name) {s : Str} (hl : ∀ c ∈ s, isLegal c = true)
    (hs : ∀ c ∈ s, Plain isPrint c) (n : ℕ) (rest : Str) :
    readAttrs (n + 1) (' ' :: (name ++ '=' :: (quote isPrint s ++ rest))) =
      (readAttrs n rest).map fun x => ((name, s) :: x.1, x.2) := by
  rw [readAttrs_quoted h, readValue_plain hl hs]
  rfl

theorem reread_nil {s : Str} (h : reread isPrint s = some []) : s = [] := by
  cases s with
  | nil => rfl
  | cons c s =>
      by_cases hp : isPrint c = true ∧ c ≠ '"' ∧ c ≠ '\\'
      · by_cases ha : c = '&'
        · subst ha
          rw [reread_reference hp.1] at h
          obtain ⟨_, _, _, _, _, _, hv, _⟩ := rereadFrom_some h
          cases hv
        · rw [reread_printed hp.1 hp.2.1 hp.2.2 ha] at h
          split at h
          · cases h
          · rw [Option.map_eq_some_iff] at h
            obtain ⟨_, _, hv⟩ := h
            cases hv
      · obtain ⟨_, hw⟩ := reread_escaped hp h
        cases hw

variable (isPrint) in
/-- The attributes of one line, up to its end. -/
def attrText (i : Item) : Str :=
  ' ' :: (("jid" : Str) ++ '=' :: (quote isPrint i.jid ++
    ((if i.name = [] then [] else ' ' :: (("name" : Str) ++ '=' :: quote isPrint i.name)) ++
      (' ' :: (("subscription" : Str) ++ '=' :: (quote isPrint i.subscription ++
        ((if i.askSubscribe then ' ' :: (("ask" : Str) ++ '=' :: '"' :: (("subscribe" : Str) ++ ['"'])) else []) ++
          ['/', '>'])))))))

theorem itemLine_eq (i : Item) : itemLine isPrint i = ' ' :: ' ' :: '<' :: (("item" : Str) ++ (attrText isPrint i ++ ['\n'])) := by
  unfold itemLine attrText
  cases hn : i.askSubscribe <;> by_cases hname : i.name = [] <;> simp [hname]

def attrsOf (i : Item) : List (Text × Text) :=
  (("jid" : Str), i.jid) :: ((if i.name = [] then [] else [(("name" : Str), i.name)]) ++
    (("subscription" : Str), i.subscription) :: if i.askSubscribe then [(("ask" : Str), ("subscribe" : Str))] else [])

theorem attrsOf_nodup (i : Item) : ((attrsOf i).map Prod.fst).Nodup := by
  unfold attrsOf
  cases hn : i.askSubscribe <;> by_cases hname : i.name = [] <;> simp [hname]

theorem field_nil (name : Str) : field [] name = [] := rfl

theorem field_head (name v : Str) (as : List (Text × Text)) : field ((name, v) :: as) name = v := by
  simp [field]

theorem field_tail {name other : Str} (h : other ≠ name) (v : Str) (as : List (Text × Text)) :
    field ((other, v) :: as) name = field as name := by
  simp [field, h]

theorem toItem_attrsOf {i : Item} (h : i.subscription ≠ []) : toItem (attrsOf i) = i := by
  unfold toItem attrsOf
  cases i with
  | mk jid name subscription ask =>
      cases ask <;> by_cases hname : name = [] <;>
        simp (disch := decide) [hname, h, field_nil, field_head, field_tail]

theorem isName_jid : IsName "jid" := ⟨List.all_eq_true.mp (by decide), by decide⟩

theorem isName_name : IsName "name" := ⟨List.all_eq_true.mp (by decide), by decide⟩

theorem isName_subscription : IsName "subscription" := ⟨List.all_eq_true.mp (by decide), by decide⟩

theorem isName_ask : IsName "ask" := ⟨List.all_eq_true.mp (by decide), by decide⟩

theorem isName_item : IsName "item" := ⟨List.all_eq_true.mp (by decide), by decide⟩

/-- The strings of an item, each of characters a document may hold. -/
structure LegalItem (i : Item) : Prop where
  jid : ∀ c ∈ i.jid, isLegal c = true
  name : ∀ c ∈ i.name, isLegal c = true
  subscription : ∀ c ∈ i.subscription, isLegal c = true
  nonempty : i.subscription ≠ []

theorem readAttrs_end (n : ℕ) (rest : Str) : readAttrs (n + 1) ('/' :: '>' :: rest) = some ([], true, rest) := by
  simp [readAttrs, skip, isSpace]

theorem readAttrs_ask (ask : Bool) (n : ℕ) (rest : Str) :
    readAttrs (n + 2) ((if ask then ' ' :: (("ask" : Str) ++ '=' :: '"' :: (("subscribe" : Str) ++ ['"'])) else []) ++
      '/' :: '>' :: rest) = some (if ask then [(("ask" : Str), ("subscribe" : Str))] else [], true, rest) := by
  cases ask with
  | false => exact readAttrs_end (n + 1) rest
  | true =>
      have hread := @readAttrs_plain (fun _ => true) _ isName_ask "subscribe"
        (List.all_eq_true.mp (by decide)) (by simp [Plain]) (n + 1) ('/' :: '>' :: rest)
      rw [readAttrs_end] at hread
      exact hread

/-- The attributes of a plain item are read as they were written. -/
theorem readAttrs_item {i : Item} (hl : LegalItem i) (hp : PlainItem isPrint i) (n : ℕ) (rest : Str) :
    readAttrs (n + 5) (attrText isPrint i ++ rest) = some (attrsOf i, true, rest) := by
  have hsub : ∀ n, readAttrs (n + 3) (' ' :: (("subscription" : Str) ++ '=' :: (quote isPrint i.subscription ++
      ((if i.askSubscribe then ' ' :: (("ask" : Str) ++ '=' :: '"' :: (("subscribe" : Str) ++ ['"'])) else []) ++
        '/' :: '>' :: rest)))) = some ((("subscription" : Str), i.subscription) ::
          (if i.askSubscribe then [(("ask" : Str), ("subscribe" : Str))] else []), true, rest) := by
    intro n
    rw [readAttrs_plain isName_subscription hl.subscription hp.2.2, readAttrs_ask]
    rfl
  unfold attrText attrsOf
  simp only [List.cons_append, List.append_assoc, List.nil_append]
  rw [readAttrs_plain isName_jid hl.jid hp.1]
  by_cases hname : i.name = []
  · rw [if_pos hname, if_pos hname, List.nil_append, hsub]
    rfl
  · rw [if_neg hname, if_neg hname, List.cons_append, List.append_assoc, List.cons_append,
      readAttrs_plain isName_name hl.name hp.2.1, hsub]
    rfl

/-- An item is read back only if it is plain. -/
theorem readAttrs_item_plain {i : Item} (hl : LegalItem i) {n : ℕ} {rest r : Str} {attrs : List (Text × Text)}
    {closed : Bool} (h : readAttrs n (attrText isPrint i ++ rest) = some (attrs, closed, r)) (hi : toItem attrs = i) :
    PlainItem isPrint i := by
  have hsub : ∀ {m : ℕ} {more r : Str} {as : List (Text × Text)},
      readAttrs m (' ' :: (("subscription" : Str) ++ '=' :: (quote isPrint i.subscription ++ more))) =
        some (as, closed, r) → field as "subscription" = field attrs "subscription" →
      ∀ c ∈ i.subscription, Plain isPrint c := by
    intro m more r as hread hfield
    obtain ⟨_, v, as', _, hv, has, _, _⟩ := readAttrs_some isName_subscription hread
    rw [has, field_head] at hfield
    have hsame := congrArg Item.subscription hi
    simp only [toItem, ← hfield] at hsame
    apply (reread_iff hl.subscription).mp
    by_cases hnil : v = []
    · rw [hnil] at hv
      exact absurd (reread_nil hv) hl.nonempty
    · rw [if_neg hnil] at hsame
      rw [hv, hsame]
  unfold attrText at h
  simp only [List.cons_append, List.append_assoc, List.nil_append] at h
  obtain ⟨_, v, as, more, hv, has, hread, hmore⟩ := readAttrs_some isName_jid h
  have hjid : ∀ c ∈ i.jid, Plain isPrint c := by
    have hsame := congrArg Item.jid hi
    simp only [toItem, has, field_head] at hsame
    apply (reread_iff hl.jid).mp
    rw [hv, hsame]
  rw [hmore hjid] at hread
  by_cases hname : i.name = []
  · rw [if_pos hname, List.nil_append] at hread
    refine ⟨hjid, by simp [hname], hsub hread ?_⟩
    rw [has, field_tail (by decide)]
  · rw [if_neg hname, List.cons_append, List.append_assoc, List.cons_append] at hread
    obtain ⟨_, w, as', more', hw, has', hread', hmore'⟩ := readAttrs_some isName_name hread
    have hplain : ∀ c ∈ i.name, Plain isPrint c := by
      have hsame := congrArg Item.name hi
      simp only [toItem, has, has', field_tail (show ("jid" : Str) ≠ "name" by decide), field_head] at hsame
      apply (reread_iff hl.name).mp
      rw [hw, hsame]
    rw [hmore' hplain] at hread'
    refine ⟨hjid, hplain, hsub hread' ?_⟩
    rw [has, field_tail (by decide), has', field_tail (by decide)]

/-! ## The file -/

variable (isPrint) in
def body (items : List Item) : Str := items.flatMap (itemLine isPrint)

theorem body_cons (i : Item) (items : List Item) (rest : Str) :
    body isPrint (i :: items) ++ rest =
      ' ' :: ' ' :: '<' :: (("item" : Str) ++ (attrText isPrint i ++ '\n' :: (body isPrint items ++ rest))) := by
  rw [body, List.flatMap_cons, itemLine_eq]
  simp [body]

theorem readStart_item (i : Item) (rest : Str) :
    readStart (("item" : Str) ++ (attrText isPrint i ++ rest)) =
      (readAttrs ((attrText isPrint i ++ rest).length + 1) (attrText isPrint i ++ rest)).bind fun x =>
        if (x.1.map Prod.fst).Nodup then some (⟨"item", x.1, x.2.1⟩, x.2.2) else none := by
  have hname : readName (("item" : Str) ++ (attrText isPrint i ++ rest)) = some (("item" : Str), attrText isPrint i ++ rest) :=
    readName_isName isName_item (by decide) _
  rw [readStart, hname]
  rfl

theorem readContent_blank {n : ℕ} {stack : List Text} {acc : List (List (Text × Text))} {c : Char} (hc : c = ' ' ∨ c = '\n')
    (t : Str) : readContent "item" (n + 1) stack acc (c :: t) = readContent "item" n stack acc t := by
  rcases hc with rfl | rfl
  · simp [readContent, isLegal, isSpace]
  · simp [readContent, isLegal, isSpace]

theorem readContent_start (n : ℕ) (acc : List (List (Text × Text))) (i : Item) (rest : Str) :
    readContent "item" (n + 1) ["roster"] acc ('<' :: (("item" : Str) ++ (attrText isPrint i ++ rest))) =
      (readStart (("item" : Str) ++ (attrText isPrint i ++ rest))).bind fun x =>
        let acc := if x.1.name = ("item" : Str) then acc ++ [x.1.attrs] else acc
        if x.1.closed then readContent "item" n ["roster"] acc x.2
        else readContent "item" n [x.1.name, "roster"] acc x.2 := by
  have hopen := @readContent_open "item" n ["roster"] acc 'i' (by decide)
    (("tem" : Str) ++ (attrText isPrint i ++ rest))
  simp only [List.length_singleton, true_and] at hopen
  exact hopen

/-- A plain item is found. -/
theorem readContent_item {i : Item} (hl : LegalItem i) (hp : PlainItem isPrint i) (n : ℕ)
    (acc : List (List (Text × Text))) (items : List Item) (rest : Str) :
    readContent "item" (n + 4) ["roster"] acc (body isPrint (i :: items) ++ rest) =
      readContent "item" n ["roster"] (acc ++ [attrsOf i]) (body isPrint items ++ rest) := by
  have hlen : ∃ m, (attrText isPrint i ++ '\n' :: (body isPrint items ++ rest)).length + 1 = m + 5 := by
    refine ⟨(attrText isPrint i ++ '\n' :: (body isPrint items ++ rest)).length - 4, ?_⟩
    simp only [attrText, List.length_append, List.length_cons]
    omega
  have hstart : readStart (("item" : Str) ++ (attrText isPrint i ++ '\n' :: (body isPrint items ++ rest))) =
      some (⟨"item", attrsOf i, true⟩, '\n' :: (body isPrint items ++ rest)) := by
    obtain ⟨m, hm⟩ := hlen
    rw [readStart_item, hm, readAttrs_item hl hp]
    simp only [Option.bind_some, attrsOf_nodup, if_true]
  rw [body_cons, readContent_blank (Or.inl rfl), readContent_blank (Or.inl rfl), readContent_start, hstart]
  simp only [Option.bind_some, if_true]
  exact readContent_blank (Or.inr rfl) _

/-- Plain items are found in order. -/
theorem readContent_items {items : List Item} (hl : ∀ i ∈ items, LegalItem i) (hp : ∀ i ∈ items, PlainItem isPrint i)
    (n : ℕ) (acc : List (List (Text × Text))) (rest : Str) :
    readContent "item" (n + 4 * items.length) ["roster"] acc (body isPrint items ++ rest) =
      readContent "item" n ["roster"] (acc ++ items.map attrsOf) rest := by
  induction items generalizing acc with
  | nil => simp [body]
  | cons i items ih =>
      rw [List.length_cons, Nat.mul_succ, ← Nat.add_assoc,
        readContent_item (hl i List.mem_cons_self) (hp i List.mem_cons_self),
        ih (fun j hj => hl j (List.mem_cons_of_mem _ hj)) (fun j hj => hp j (List.mem_cons_of_mem _ hj))]
      simp

/-- An item that is not plain spoils the reading. -/
theorem readContent_spoiled {i : Item} (hl : LegalItem i) (hp : ¬PlainItem isPrint i) {n : ℕ}
    {acc l : List (List (Text × Text))} {items : List Item} {rest : Str}
    (h : readContent "item" n ["roster"] acc (body isPrint (i :: items) ++ rest) = some l) :
    ∃ attrs, acc ++ [attrs] <+: l ∧ toItem attrs ≠ i := by
  rw [body_cons] at h
  rcases n with _ | _ | _ | n
  · cases h
  · rw [readContent_blank (Or.inl rfl)] at h
    cases h
  · rw [readContent_blank (Or.inl rfl), readContent_blank (Or.inl rfl)] at h
    cases h
  rw [readContent_blank (Or.inl rfl), readContent_blank (Or.inl rfl), readContent_start, readStart_item,
    Option.bind_eq_some_iff] at h
  obtain ⟨x, hx, h⟩ := h
  rw [Option.bind_eq_some_iff] at hx
  obtain ⟨⟨attrs, closed, r⟩, hread, hx⟩ := hx
  split_ifs at hx
  cases hx
  refine ⟨attrs, ?_, fun hi => hp (readAttrs_item_plain hl hread hi)⟩
  simp only [if_true] at h
  split at h
  · exact readContent_prefix _ h
  · exact readContent_prefix _ h

theorem readDocument_save (r : Roster) :
    readDocument "item" "roster" (save isPrint r) =
      readContent "item" ((body isPrint r.items ++ ("</roster>\n" : Str)).length + 1) ["roster"] []
        (body isPrint r.items ++ ("</roster>\n" : Str)) := by
  have hdecl : strip "<?xml ".toList (save isPrint r) =
      some (("version=\"1.0\"?>\n<roster>\n" : Str) ++ (body isPrint r.items ++ ("</roster>\n" : Str))) := rfl
  have hroot : skipTo "?>".toList (("version=\"1.0\"?>\n<roster>\n" : Str) ++ (body isPrint r.items ++ ("</roster>\n" : Str))) =
      some (("\n<roster>\n" : Str) ++ (body isPrint r.items ++ ("</roster>\n" : Str))) := rfl
  have hstart : readStart (("roster>\n" : Str) ++ (body isPrint r.items ++ ("</roster>\n" : Str))) =
      some (⟨"roster", [], false⟩, '\n' :: (body isPrint r.items ++ ("</roster>\n" : Str))) := rfl
  rw [readDocument, hdecl]
  simp only [hroot, Option.bind_eq_bind, Option.bind_some]
  have hmisc : skipMisc ((("\n<roster>\n" : Str) ++ (body isPrint r.items ++ ("</roster>\n" : Str))).length + 1)
      (("\n<roster>\n" : Str) ++ (body isPrint r.items ++ ("</roster>\n" : Str))) =
        some ('<' :: (("roster>\n" : Str) ++ (body isPrint r.items ++ ("</roster>\n" : Str)))) := rfl
  have hopen : strip ['<'] ('<' :: (("roster>\n" : Str) ++ (body isPrint r.items ++ ("</roster>\n" : Str)))) =
      some (("roster>\n" : Str) ++ (body isPrint r.items ++ ("</roster>\n" : Str))) := rfl
  rw [hmisc, Option.bind_some, hopen, Option.bind_some, hstart, Option.bind_some]
  exact readContent_blank (Or.inr rfl) _

theorem length_body (items : List Item) : 4 * items.length ≤ (body isPrint items).length := by
  induction items with
  | nil => simp
  | cons i items ih =>
      have hcons := @body_cons isPrint i items []
      simp only [List.append_nil] at hcons
      rw [hcons]
      simp only [List.length_cons, List.length_append]
      omega

/-- What is found are the items only if they are plain. -/
theorem readContent_plain {items : List Item} (hl : ∀ i ∈ items, LegalItem i) {n : ℕ}
    {acc l : List (List (Text × Text))} {rest : Str}
    (h : readContent "item" (n + 4 * items.length) ["roster"] acc (body isPrint items ++ rest) = some l)
    (hitems : l.map toItem = acc.map toItem ++ items) : ∀ i ∈ items, PlainItem isPrint i := by
  induction items generalizing acc with
  | nil => simp
  | cons i items ih =>
      have hli := hl i List.mem_cons_self
      by_cases hp : PlainItem isPrint i
      · rw [List.length_cons, Nat.mul_succ, ← Nat.add_assoc, readContent_item hli hp] at h
        rw [List.forall_mem_cons]
        refine ⟨hp, ih (fun j hj => hl j (List.mem_cons_of_mem _ hj)) h ?_⟩
        rw [hitems, List.map_append, List.map_singleton, toItem_attrsOf hli.nonempty, List.append_assoc]
        rfl
      · obtain ⟨attrs, ⟨more, hmore⟩, hne⟩ := readContent_spoiled hli hp h
        rw [← hmore] at hitems
        simp only [List.map_append, List.map_cons, List.append_assoc, List.singleton_append,
          List.append_cancel_left_eq, List.cons.injEq] at hitems
        exact absurd hitems.1 hne

/-- The file holds the roster exactly if every item is plain. -/
theorem roster_round_trip_iff (r : Roster) (hl : ∀ i ∈ r.items, LegalItem i) :
    load (some (save isPrint r)) = { items := r.items, loaded := true } ↔ ∀ i ∈ r.items, PlainItem isPrint i := by
  have hfuel : ∃ n, (body isPrint r.items ++ ("</roster>\n" : Str)).length + 1 = (n + 1) + 4 * r.items.length := by
    refine ⟨(body isPrint r.items ++ ("</roster>\n" : Str)).length - 4 * r.items.length, ?_⟩
    have hlen := @length_body isPrint r.items
    rw [List.length_append]
    omega
  obtain ⟨n, hn⟩ := hfuel
  have hload : load (some (save isPrint r)) =
      match readContent "item" ((n + 1) + 4 * r.items.length) ["roster"] []
        (body isPrint r.items ++ ("</roster>\n" : Str)) with
      | some l => { items := l.map toItem, loaded := true }
      | none => { loaded := true } := by
    rw [load, Option.bind_some, readDocument_save, hn]
  constructor
  · intro h
    rw [hload] at h
    split at h
    · next l hread =>
      exact readContent_plain hl hread (congrArg Roster.items h)
    · have hnil : [] = r.items := congrArg Roster.items h
      rw [← hnil]
      simp
  · intro h
    have hend : readContent "item" (n + 1) ["roster"] ([] ++ r.items.map attrsOf) ("</roster>\n" : Str) =
        some (r.items.map attrsOf) := by
      rfl
    rw [hload, readContent_items hl h, hend]
    simp only [List.map_map]
    congr 1
    have hback : ∀ i ∈ r.items, (toItem ∘ attrsOf) i = id i := fun i hi => toItem_attrsOf (hl i hi).nonempty
    rw [List.map_congr_left hback, List.map_id]

/-- The printable characters among the first 128. -/
def printable (c : Char) : Bool := 0x20 ≤ c.toNat ∧ c.toNat < 0x7f

def persistent : Roster := { items := [⟨"rosuser2@localhost", "Persistent", "none", false⟩], loaded := true }

theorem persistent_round_trip :
    (∀ i ∈ persistent.items, LegalItem i) ∧
      load (some (save printable persistent)) = { items := persistent.items, loaded := true } := by
  have hl : ∀ i ∈ persistent.items, LegalItem i := by
    intro i hi
    rw [List.mem_singleton.mp hi]
    exact ⟨List.all_eq_true.mp (by decide), List.all_eq_true.mp (by decide), List.all_eq_true.mp (by decide), by decide⟩
  refine ⟨hl, (roster_round_trip_iff persistent hl).mpr ?_⟩
  intro i hi
  rw [List.mem_singleton.mp hi]
  simp [PlainItem, Plain, printable]

/-- A contact named with an ampersand leaves a file that cannot be read. -/
theorem ampersand_loses_roster :
    ¬∀ r : Roster, (∀ i ∈ r.items, LegalItem i) →
      load (some (save printable r)) = { items := r.items, loaded := true } := by
  intro h
  have hl : ∀ i ∈ ([⟨"bob@localhost", "R&D", "none", false⟩] : List Item), LegalItem i := by
    intro i hi
    rw [List.mem_singleton.mp hi]
    exact ⟨List.all_eq_true.mp (by decide), List.all_eq_true.mp (by decide), List.all_eq_true.mp (by decide), by decide⟩
  have hlost := h ⟨_, true⟩ hl
  revert hlost
  decide

end

end Xmppd.GoRosterFile
