import Xmppd.GoStanza
import Xmppd.Scanning
import Xmppd.User
import Xmppd.Installation

/-!
# Reading a password file

Both servers look for the first line whose key is `password`. The C server cuts
each line in its buffer, with pointers that move in from both ends of the key and of
the value; the Go server trims copies of the line. On files of short ASCII lines
without the two characters that one of them treats in its own way, both find the
same password.
-/
namespace Xmppd.UserConf
open CStrings FileTree LibXml Util ServerState User Installation Scanning

/-! ## The C server -/

/-- The key and the value, once the sign has been found: the sign is overwritten and the
ends of both are cleared. -/
def splitPair (line : Str) (s eq : ℕ) : Str × Str :=
  let line := line.set eq '\x00'
  let line := clearBack isSpace '\x00' s eq line
  let val := advance isSpace line (eq+1)
  let line := clearBack isSpace '\x00' val (val + (cstr line val).length) line
  (cstr line s, cstr line val)

/-- The body of the loop behind the cut at the end of the line. -/
def parsePair (buf : Str) : Option (Str × Str) :=
  let s := advance isSpace buf 0
  if buf[s]? = some '#' ∨ buf[s]? = some '\x00' then none
  else
    let eq := advance (fun c => c ≠ '=' ∧ c ≠ '\x00') buf s
    if buf[eq]? = some '=' then some (splitPair buf s eq) else none

/-- The body of the loop on the buffer that `fgets` has filled, the terminator included. -/
def parseLine (line : Str) : Option (Str × Str) :=
  parsePair (line.set (advance (fun c => c ≠ '\n' ∧ c ≠ '\r' ∧ c ≠ '\x00') line 0) '\x00')

/-- The loop over the lines, which stops at the first password. -/
def checkLines (password : Str) : List Str → Bool
  | [] => false
  | line :: lines =>
      match parseLine (line ++ ['\x00']) with
      | some (key, val) => if key = "password" then val = password else checkLines password lines
      | none => checkLines password lines

/-- `user_check_password` on the content of the file. -/
def checkFile (content password : Str) : Bool := checkLines password (fgetsLines content.length content)

/-- The key and the value of a line that is already free of its end. -/
def entry (line : Str) : Option (Str × Str) :=
  let s := line.dropWhile isSpace
  if s = [] ∨ s.head? = some '#' then none else
    (s.findIdx? (· == '=')).map fun eq =>
      (trimRight (s.take eq), trimRight ((s.drop (eq+1)).dropWhile isSpace))

/-- A line up to its end. -/
def chomp (line : Str) : Str := line.takeWhile fun c => c ≠ '\n' ∧ c ≠ '\r' ∧ c ≠ '\x00'

theorem confLine_eq (line : Str) : confLine line = entry (chomp line) := rfl

theorem trimRight_eq (s : Str) : trimRight s = s.rdropWhile isSpace := rfl

theorem isSpace_null : isSpace '\x00' = false := by decide

theorem not_mem_trimBack {w : Str} (hw : '\x00' ∉ w) (hhead : ∀ c ∈ w.head?, isSpace c = false) :
    '\x00' ∉ trimBack isSpace w := by
  rw [trimBack_eq hhead]
  exact fun hm => hw ((List.rdropWhile_prefix isSpace w).subset hm)

theorem splitPair_eq {pre k v post : Str} (hk : '\x00' ∉ k) (hv : '\x00' ∉ v) (hhead : ∀ c ∈ k.head?, isSpace c = false) :
    splitPair (pre ++ k ++ '=' :: (v ++ '\x00' :: post)) pre.length (pre.length + k.length) =
      (trimRight k, trimRight (v.dropWhile isSpace)) := by
  have hset : (pre ++ k ++ '=' :: (v ++ '\x00' :: post)).set (pre.length + k.length) '\x00' =
      pre ++ k ++ '\x00' :: (v ++ '\x00' :: post) := by
    rw [← List.length_append, List.set_append_right _ _ (le_refl _), Nat.sub_self]
    rfl
  obtain ⟨n, hkey, hlen⟩ := clearBack_eq (p := isSpace) (z := '\x00') pre k ('\x00' :: (v ++ '\x00' :: post))
  have hk' := not_mem_trimBack hk hhead
  rw [trimRight_eq, trimRight_eq, ← trimBack_eq hhead, ← trimBack_eq (head?_dropWhile isSpace v)]
  generalize trimBack isSpace k = key at hkey hlen hk'
  have hvalue : '\x00' ∉ v.dropWhile isSpace := fun hm => hv ((List.dropWhile_suffix isSpace).subset hm)
  have hvalue' := not_mem_trimBack hvalue (head?_dropWhile isSpace v)
  have hvhead := head?_dropWhile isSpace v
  have hspaces : ∀ c ∈ v.takeWhile isSpace, isSpace c = true := fun c hc => List.mem_takeWhile_imp hc
  have hsplit : v = v.takeWhile isSpace ++ v.dropWhile isSpace := List.takeWhile_append_dropWhile.symm
  generalize v.takeWhile isSpace = spaces at hsplit hspaces
  generalize v.dropWhile isSpace = value at hsplit hvalue hvalue' hvhead
  have hstart : pre.length + k.length + 1 = (pre ++ key ++ (List.replicate n '\x00' ++ ['\x00'])).length := by
    simp only [List.length_append, List.length_replicate, List.length_singleton]
    omega
  have hbuf : pre ++ key ++ (List.replicate n '\x00' ++ '\x00' :: (v ++ '\x00' :: post)) =
      (pre ++ key ++ (List.replicate n '\x00' ++ ['\x00'])) ++ spaces ++ (value ++ '\x00' :: post) := by
    rw [hsplit]
    simp
  have hstop : ∀ c ∈ (value ++ '\x00' :: post).head?, isSpace c = false := by
    cases value with
    | nil => simpa using isSpace_null
    | cons c cs => exact hvhead
  have hpass := @advance_append _ _ (pre ++ key ++ (List.replicate n '\x00' ++ ['\x00'])) _ _ hspaces hstop
  have hassoc : (pre ++ key ++ (List.replicate n '\x00' ++ ['\x00'])) ++ spaces ++ (value ++ '\x00' :: post) =
      (pre ++ key ++ (List.replicate n '\x00' ++ ['\x00']) ++ spaces) ++ value ++ '\x00' :: post := by simp
  obtain ⟨m, hval, -⟩ := clearBack_eq (p := isSpace) (z := '\x00')
    (pre ++ key ++ (List.replicate n '\x00' ++ ['\x00']) ++ spaces) value ('\x00' :: post)
  have hfirst : (pre ++ key ++ (List.replicate n '\x00' ++ ['\x00']) ++ spaces) ++ trimBack isSpace value ++
      (List.replicate m '\x00' ++ '\x00' :: post) = pre ++ key ++ (List.replicate n '\x00' ++
        '\x00' :: (spaces ++ trimBack isSpace value ++ (List.replicate m '\x00' ++ '\x00' :: post))) := by simp
  unfold splitPair
  dsimp only
  rw [hset, hkey, hbuf, hstart, hpass, ← List.length_append, hassoc, cstr_append hvalue, hval, cstr_cleared hvalue', hfirst,
    cstr_cleared hk']

/-- The first character behind the spaces, which is the terminator if there is none. -/
theorem getElem?_start (w s rest : Str) (x : Char) : (w ++ (s ++ x :: rest))[w.length]? = some (s.head?.getD x) := by
  rw [List.getElem?_append_right (le_refl _), Nat.sub_self]
  cases s with
  | nil => rfl
  | cons c cs => rfl

theorem parsePair_eq {l post : Str} (hl : '\x00' ∉ l) : parsePair (l ++ '\x00' :: post) = entry l := by
  have hspaces : ∀ c ∈ l.takeWhile isSpace, isSpace c = true := fun c hc => List.mem_takeWhile_imp hc
  have hhead := head?_dropWhile isSpace l
  have hsub : ∀ c ∈ l.dropWhile isSpace, c ∈ l := fun c hc => (List.dropWhile_suffix isSpace).subset hc
  have hbuf : l ++ '\x00' :: post = l.takeWhile isSpace ++ (l.dropWhile isSpace ++ '\x00' :: post) := by
    rw [← List.append_assoc, List.takeWhile_append_dropWhile]
  unfold entry
  dsimp only
  rw [hbuf]
  generalize l.takeWhile isSpace = w at hspaces
  generalize l.dropWhile isSpace = s at hhead hsub
  have hnull : '\x00' ∉ s := fun hm => hl (hsub _ hm)
  have hstop : ∀ c ∈ (s ++ '\x00' :: post).head?, isSpace c = false := by
    cases s with
    | nil => simpa using isSpace_null
    | cons c cs => exact hhead
  have hstart : advance isSpace (w ++ (s ++ '\x00' :: post)) 0 = w.length := by
    have h := @advance_append _ _ [] _ _ hspaces hstop
    simpa using h
  unfold parsePair
  dsimp only
  have hcond : ((w ++ (s ++ '\x00' :: post))[w.length]? = some '#' ∨ (w ++ (s ++ '\x00' :: post))[w.length]? = some '\x00') ↔
      (s = [] ∨ s.head? = some '#') := by
    rw [getElem?_start]
    cases s with
    | nil => simp
    | cons c cs =>
        have hc : c ≠ '\x00' := fun he => hnull (he ▸ List.mem_cons_self)
        simp [hc]
  rw [hstart]
  by_cases hskip : s = [] ∨ s.head? = some '#'
  · rw [if_pos (hcond.mpr hskip), if_pos hskip]
  rw [if_neg (fun h => hskip (hcond.mp h)), if_neg hskip]
  by_cases hsign : '=' ∈ s
  · obtain ⟨k, v, rfl, hk⟩ := List.eq_append_cons_of_mem hsign
    have hkey : ∀ c ∈ k, decide (c ≠ '=' ∧ c ≠ '\x00') = true := by
      intro c hc
      apply decide_eq_true
      exact ⟨fun he => hk (he ▸ hc), fun he => hnull (he ▸ List.mem_append_left _ hc)⟩
    have hassoc : w ++ (k ++ '=' :: v ++ '\x00' :: post) = w ++ k ++ '=' :: (v ++ '\x00' :: post) := by simp
    have heq : advance (fun c => c ≠ '=' ∧ c ≠ '\x00') (w ++ k ++ '=' :: (v ++ '\x00' :: post)) w.length = w.length + k.length :=
      advance_append hkey (by simp)
    have hget : (w ++ k ++ '=' :: (v ++ '\x00' :: post))[w.length + k.length]? = some '=' := by
      rw [← List.length_append, List.getElem?_append_right (le_refl _), Nat.sub_self]
      rfl
    have hkhead : ∀ c ∈ k.head?, isSpace c = false := by
      cases k with
      | nil => simp
      | cons c cs => exact hhead
    rw [hassoc, heq, if_pos hget, splitPair_eq (fun hm => hnull (List.mem_append_left _ hm))
      (fun hm => hnull (List.mem_append_right _ (List.mem_cons_of_mem _ hm))) hkhead, findIdx?_ne hk]
    simp
  · have hkey : ∀ c ∈ s, decide (c ≠ '=' ∧ c ≠ '\x00') = true := by
      intro c hc
      apply decide_eq_true
      exact ⟨fun he => hsign (he ▸ hc), fun he => hnull (he ▸ hc)⟩
    have heq : advance (fun c => c ≠ '=' ∧ c ≠ '\x00') (w ++ s ++ '\x00' :: post) w.length = w.length + s.length :=
      advance_append hkey (by simp)
    have hget : (w ++ s ++ '\x00' :: post)[w.length + s.length]? = some '\x00' := by
      rw [← List.length_append, List.getElem?_append_right (le_refl _), Nat.sub_self]
      rfl
    rw [← List.append_assoc, heq, hget, if_neg (by decide), findIdx?_ne_none hsign]
    rfl

/-- The pass over the line in the buffer leaves what the trimming of lists leaves. -/
theorem parseLine_eq (line : Str) : parseLine (line ++ ['\x00']) = entry (chomp line) := by
  have hend : decide ('\x00' ≠ '\n' ∧ '\x00' ≠ '\r' ∧ '\x00' ≠ '\x00') = false := by decide
  obtain ⟨post, hbuf⟩ := set_advance (p := fun c => c ≠ '\n' ∧ c ≠ '\r' ∧ c ≠ '\x00') hend line
  unfold parseLine
  rw [hbuf]
  apply parsePair_eq
  intro hm
  exact absurd (List.mem_takeWhile_imp hm) (by decide)

/-- The reading loop finds what the search in the parsed lines finds. -/
theorem checkLines_eq (password : Str) (lines : List Str) :
    checkLines password lines =
      (((lines.filterMap confLine).find? fun kv => kv.1 = ("password" : Str)).map Prod.snd).any (· = password) := by
  induction lines with
  | nil => rfl
  | cons line lines ih =>
      rw [checkLines, parseLine_eq, ← confLine_eq, List.filterMap_cons]
      cases hline : confLine line with
      | none => exact ih
      | some kv =>
          obtain ⟨key, val⟩ := kv
          dsimp only
          by_cases hkey : key = ("password" : Str)
          · rw [if_pos hkey, List.find?_cons_of_pos (p := fun kv : Str × Str => kv.1 = ("password" : Str)) (decide_eq_true hkey)]
            rfl
          · rw [if_neg hkey, List.find?_cons_of_neg (p := fun kv : Str × Str => kv.1 = ("password" : Str))
              (ne_true_of_eq_false (decide_eq_false hkey))]
            exact ih

theorem userCheckPassword_eq {srv : Server} {username s : Str} (password : Str)
    (h : readFile srv (userPath srv.cfg username "user.conf") = some (.text s)) :
    userCheckPassword srv username password = checkFile s password := by
  unfold userCheckPassword checkFile
  rw [h, checkLines_eq]
  dsimp only
  cases ((fgetsLines s.length s).filterMap confLine).find? fun kv => kv.1 = ("password" : Str) with
  | none => rfl
  | some kv => rfl

/-! ## The Go server -/

/-- `dropCR`. -/
def dropCR (line : Str) : Str := if line.getLast? = some '\r' then line.dropLast else line

/-- The tokens of `bufio.ScanLines`, up to a line that does not fit in the scanner's buffer. -/
def scanLines : ℕ → Str → List Str
  | 0, _ => []
  | _, [] => []
  | n+1, s =>
      let line := s.takeWhile (· ≠ '\n')
      if 65536 ≤ line.length then [] else dropCR line :: scanLines n (s.drop (line.length+1))

/-- `strings.Cut`. -/
def cut (sep : Char) (s : Str) : Option (Str × Str) :=
  match s.dropWhile (· ≠ sep) with
  | [] => none
  | _ :: after => some (s.takeWhile (· ≠ sep), after)

/-- The key and the value of a token that has them. -/
def parseToken (token : Str) : Option (Str × Str) :=
  let line := GoStanza.trimSpace token
  if line = [] ∨ line.head? = some '#' then none
  else (cut '=' line).map fun kv => (GoStanza.trimSpace kv.1, GoStanza.trimSpace kv.2)

/-- The loop over the tokens. -/
def checkTokens (password : Str) : List Str → Bool
  | [] => false
  | token :: tokens =>
      match parseToken token with
      | some (key, val) => if key = "password" then val = password else checkTokens password tokens
      | none => checkTokens password tokens

/-- `CheckPassword`, of what `os.Open` finds. -/
def checkPassword (file : Option Str) (password : Str) : Bool :=
  match file with
  | none => false
  | some s => checkTokens password (scanLines s.length s)

def Ascii (s : Str) : Prop := ∀ c ∈ s, c.toNat < 128

theorem isSpace_ascii {c : Char} (hc : c.toNat < 128) : GoStanza.isSpace c = isSpace c := by
  have hvt : c.toNat = 11 ↔ c = '\x0b' := ⟨fun h => Char.ext (UInt32.toNat.inj h), fun h => h ▸ rfl⟩
  have hff : c.toNat = 12 ↔ c = '\x0c' := ⟨fun h => Char.ext (UInt32.toNat.inj h), fun h => h ▸ rfl⟩
  have h133 : ¬c.toNat = 133 := by omega
  have h160 : ¬c.toNat = 160 := by omega
  simp only [GoStanza.isSpace, isSpace, hvt, hff, h133, h160, or_false]
  congr 1
  apply propext
  tauto

theorem trimSpace_ascii {s : Str} (hs : Ascii s) : GoStanza.trimSpace s = trimRight (s.dropWhile isSpace) := by
  have hdrop : s.dropWhile GoStanza.isSpace = s.dropWhile isSpace := dropWhile_congr fun c hc => isSpace_ascii (hs c hc)
  have hsub : ∀ c ∈ s.dropWhile isSpace, c ∈ s := fun c hc => (List.dropWhile_suffix isSpace).subset hc
  have hr : (s.dropWhile isSpace).rdropWhile GoStanza.isSpace = (s.dropWhile isSpace).rdropWhile isSpace :=
    rdropWhile_congr fun c hc => isSpace_ascii (hs c (hsub c hc))
  rw [GoStanza.trimSpace, hdrop, trimRight_eq, ← hr, List.rdropWhile]

theorem cut_sign {k v : Str} (hk : '=' ∉ k) : cut '=' (k ++ '=' :: v) = some (k, v) := by
  unfold cut
  rw [dropWhile_ne hk, takeWhile_ne hk]

theorem cut_none {s : Str} (hs : '=' ∉ s) : cut '=' s = none := by
  unfold cut
  rw [dropWhile_ne_nil hs]

theorem dropWhile_head {s : Str} (h : ∀ c ∈ s.head?, isSpace c = false) : s.dropWhile isSpace = s := by
  cases s with
  | nil => rfl
  | cons c cs => exact List.dropWhile_cons_of_neg (ne_true_of_eq_false (h c rfl))

/-- The trimmed copies hold what the cuts in the buffer leave. -/
theorem parseToken_ascii {l : Str} (hl : Ascii l) : parseToken l = entry l := by
  have hhead := head?_dropWhile isSpace l
  have hs : Ascii (l.dropWhile isSpace) := fun c hc => hl c ((List.dropWhile_suffix isSpace).subset hc)
  unfold parseToken entry
  dsimp only
  rw [trimSpace_ascii hl]
  generalize l.dropWhile isSpace = s at hhead hs
  have hcond : (trimRight s = [] ∨ (trimRight s).head? = some '#') ↔ (s = [] ∨ s.head? = some '#') := by
    rw [trimRight_eq, ← trimBack_eq hhead]
    cases s with
    | nil => rfl
    | cons c cs => simp [trimBack]
  by_cases hskip : s = [] ∨ s.head? = some '#'
  · rw [if_pos (hcond.mpr hskip), if_pos hskip]
  rw [if_neg (fun h => hskip (hcond.mp h)), if_neg hskip]
  by_cases hsign : '=' ∈ s
  · obtain ⟨k, v, rfl, hk⟩ := List.eq_append_cons_of_mem hsign
    have hkey : Ascii k := fun c hc => hs c (List.mem_append_left _ hc)
    have hval : Ascii (v.rdropWhile isSpace) := fun c hc =>
      hs c (List.mem_append_right _ (List.mem_cons_of_mem _ ((List.rdropWhile_prefix isSpace v).subset hc)))
    have hkhead : ∀ c ∈ k.head?, isSpace c = false := by
      cases k with
      | nil => simp
      | cons c cs => exact hhead
    have htrim : trimRight (k ++ '=' :: v) = k ++ '=' :: v.rdropWhile isSpace := rdropWhile_append_cons (by decide) k v
    rw [htrim, cut_sign hk, findIdx?_ne hk, Option.map_some, Option.map_some, trimSpace_ascii hkey, trimSpace_ascii hval,
      dropWhile_head hkhead, dropWhile_rdropWhile, trimRight_eq (List.rdropWhile _ _), List.rdropWhile_idempotent]
    simp [trimRight_eq]
  · have hnone : '=' ∉ trimRight s := fun hm => hsign ((List.rdropWhile_prefix isSpace s).subset hm)
    rw [cut_none hnone, findIdx?_ne_none hsign]
    rfl

/-! ## Both -/

/-- Every line is shorter than `n` characters. -/
def ShortLines (n : ℕ) (s : Str) : Prop := ∀ line, line <:+: s → '\n' ∉ line → line.length < n

/-- The first line, and what both servers have left behind it. -/
theorem fgets_line {s : Str} (h : (s.takeWhile (· ≠ '\n')).length < 1023) :
    fgets s = s.takeWhile (· ≠ '\n') ++ (s.dropWhile (· ≠ '\n')).take 1 ∧
      s.drop (fgets s).length = s.drop ((s.takeWhile (· ≠ '\n')).length + 1) := by
  have hfits : fgets s = s.takeWhile (· ≠ '\n') ++ (s.dropWhile (· ≠ '\n')).take 1 := by
    apply List.take_of_length_le
    rw [List.length_append]
    have hone := List.length_take_le 1 (s.dropWhile (· ≠ '\n'))
    omega
  refine ⟨hfits, ?_⟩
  rw [hfits]
  cases hrest : s.dropWhile (· ≠ '\n') with
  | nil =>
      have hall : s.takeWhile (· ≠ '\n') = s := by
        have hsplit := List.takeWhile_append_dropWhile (p := fun c : Char => decide (c ≠ '\n')) (l := s)
        rw [hrest, List.append_nil] at hsplit
        exact hsplit
      rw [hall]
      simp
  | cons c cs => simp

theorem ShortLines.suffix {n : ℕ} {s t : Str} (h : ShortLines n s) (hts : t <:+ s) : ShortLines n t :=
  fun line hline => h line (hline.trans hts.isInfix)

theorem shortLines_of_length {n : ℕ} {s : Str} (h : s.length < n) : ShortLines n s :=
  fun _ hline _ => lt_of_le_of_lt hline.length_le h

/-- A file that both servers read line by line. -/
structure Plain (s : Str) : Prop where
  ascii : Ascii s
  null : '\x00' ∉ s
  cr : '\r' ∉ s
  short : ShortLines 1023 s

theorem Plain.suffix {s t : Str} (h : Plain s) (hts : t <:+ s) : Plain t :=
  ⟨fun c hc => h.ascii c (hts.subset hc), fun hm => h.null (hts.subset hm), fun hm => h.cr (hts.subset hm), h.short.suffix hts⟩

/-- The line that is parsed by both servers. -/
theorem first_line {s : Str} (h : Plain s) :
    (s.takeWhile (· ≠ '\n')).length < 1023 ∧ chomp (fgets s) = s.takeWhile (· ≠ '\n') ∧
      dropCR (s.takeWhile (· ≠ '\n')) = s.takeWhile (· ≠ '\n') := by
  have hpre : s.takeWhile (· ≠ '\n') <+: s := List.takeWhile_prefix _
  have hnl : '\n' ∉ s.takeWhile (· ≠ '\n') := fun hm => absurd (List.mem_takeWhile_imp hm) (by decide)
  have hlen := h.short _ hpre.isInfix hnl
  have hline : ∀ c ∈ s.takeWhile (· ≠ '\n'), decide (c ≠ '\n' ∧ c ≠ '\r' ∧ c ≠ '\x00') = true := by
    intro c hc
    apply decide_eq_true
    exact ⟨fun he => hnl (he ▸ hc), fun he => h.cr (he ▸ hpre.subset hc), fun he => h.null (he ▸ hpre.subset hc)⟩
  refine ⟨hlen, ?_, ?_⟩
  · have hend := head?_dropWhile (fun c => decide (c ≠ '\n')) s
    rw [(fgets_line hlen).1, chomp, List.takeWhile_append_of_pos hline]
    generalize s.dropWhile (fun c => decide (c ≠ '\n')) = rest at hend
    cases rest with
    | nil => simp
    | cons c cs =>
        have hc : c = '\n' := by simpa using hend c rfl
        simp [hc]
  · unfold dropCR
    rw [if_neg]
    intro he
    exact h.cr (hpre.subset (List.mem_of_getLast? he))

theorem checkLines_tokens (password : Str) (n : ℕ) {s : Str} (h : Plain s) :
    checkLines password (fgetsLines n s) = checkTokens password (scanLines n s) := by
  induction n generalizing s with
  | zero => rfl
  | succ n ih =>
      cases s with
      | nil => rfl
      | cons c cs =>
          obtain ⟨hlen, hchomp, hcr⟩ := first_line h
          have hdrop := (fgets_line hlen).2
          have htoken : Ascii ((c :: cs).takeWhile (· ≠ '\n')) := fun d hd => h.ascii d ((List.takeWhile_prefix _).subset hd)
          have hrest := ih (h.suffix (List.drop_suffix (((c :: cs).takeWhile (· ≠ '\n')).length + 1) (c :: cs)))
          rw [fgetsLines, scanLines, hdrop, if_neg (by omega), checkLines, checkTokens, parseLine_eq, hchomp, hcr, parseToken_ascii htoken, hrest]
          · exact fun he => List.cons_ne_nil _ _ he
          · exact fun he => List.cons_ne_nil _ _ he

/-- Both servers accept the same passwords. -/
theorem passwords_alike {srv : Server} {username content : Str} (password : Str)
    (hfile : readFile srv (userPath srv.cfg username "user.conf") = some (.text content)) (h : Plain content) :
    userCheckPassword srv username password = true ↔ checkPassword (some content) password = true := by
  rw [userCheckPassword_eq password hfile, checkFile, checkPassword, checkLines_tokens password content.length h]

/-- A file with a comment, an empty line and a second password. -/
def editedFile : Str := "# account\n\n  password  =  p a  \npassword=other"

def editedServer : Server :=
  { exampleServer with files := { entries := [([("data" : Str)], .dir), ([("data" : Str), "alice"], .dir),
      ([("data" : Str), "alice", "user.conf"], .file (.text editedFile))] } }

theorem editedFile_plain : Plain editedFile where
  ascii := by
    have hall : (editedFile.all fun c => c.toNat < 128) = true := by decide
    exact fun c hc => of_decide_eq_true (List.all_eq_true.mp hall c hc)
  null := by decide
  cr := by decide
  short := shortLines_of_length (by decide)

theorem edited_alike :
    userCheckPassword editedServer "alice" "p a" = true ↔ checkPassword (some editedFile) "p a" = true :=
  passwords_alike "p a" (by decide) editedFile_plain

end Xmppd.UserConf
