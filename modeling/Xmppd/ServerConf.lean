import Xmppd.UserConf

/-!
# Reading the configuration file

Both servers start from the same settings and go through the lines of the configuration
file. The C server trims each line, the key and the value in its buffer; the Go server trims
copies. On files of short ASCII lines whose addresses fit their buffers and whose port is a
number that fits an `int`, both end with the same settings.

The settings that are given on the command line are not modelled.
-/
namespace Xmppd.ServerConf
open CStrings User Scanning UserConf

inductive Level where
  | debug | info | warn | error
deriving DecidableEq, Repr

/-! ## The C server -/

/-- `config_t`. -/
structure Settings where
  domain : Buf 256
  port : ℤ
  bindAddress : Buf 256
  datadir : Buf 1024
  logfile : Buf 1024
  loglevel : Level
deriving DecidableEq

/-- `config_defaults`. -/
def configDefaults : Settings where
  domain := snprintf 256 "localhost"
  port := 5222
  bindAddress := snprintf 256 "0.0.0.0"
  datadir := snprintf 1024 "./data"
  logfile := snprintf 1024 "./xmppd.log"
  loglevel := .info

/-- `trim`: the start of what is left, and the buffer with its end cleared. -/
def trim (buf : Str) (s : ℕ) : ℕ × Str :=
  let s := advance isSpace buf s
  (s, clearBack isSpace '\x00' s (s + (cstr buf s).length) buf)

def strcasecmp (s t : Str) : Bool := s.map Char.toLower = t.map Char.toLower

/-- `parse_loglevel`. -/
def parseLoglevel (s : Str) : Level :=
  if strcasecmp s "DEBUG" then .debug
  else if strcasecmp s "INFO" then .info
  else if strcasecmp s "WARN" then .warn
  else if strcasecmp s "ERROR" then .error
  else .info

def digitsValue (s : Str) : ℕ := (s.takeWhile Char.isDigit).foldl (fun n c => 10*n + (c.toNat - '0'.toNat)) 0

/-- A sign and digits after spaces, as `strtol` reads them. -/
def strtol (s : Str) : ℤ :=
  match s.dropWhile isSpace with
  | '-' :: s => -(min (digitsValue s) (2 ^ 63) : ℕ)
  | '+' :: s => (min (digitsValue s) (2 ^ 63 - 1) : ℕ)
  | s => (min (digitsValue s) (2 ^ 63 - 1) : ℕ)

/-- `atoi`, which cuts the number to an `int`. -/
def atoi (s : Str) : ℤ := (strtol s).bmod (2 ^ 32)

/-- The comparisons of the key. -/
def Settings.assign (cfg : Settings) (key val : Str) : Settings :=
  if key = "domain" then { cfg with domain := snprintf 256 val }
  else if key = "port" then { cfg with port := atoi val }
  else if key = "bind_address" then { cfg with bindAddress := snprintf 256 val }
  else if key = "datadir" then { cfg with datadir := snprintf 1024 val }
  else if key = "logfile" then { cfg with logfile := snprintf 1024 val }
  else if key = "loglevel" then { cfg with loglevel := parseLoglevel val }
  else cfg

/-- The key and the value behind the sign, both trimmed in the buffer. -/
def trimPair (buf : Str) (s eq : ℕ) : Str × Str :=
  let key := trim (buf.set eq '\x00') s
  let val := trim key.2 (eq+1)
  (cstr val.2 key.1, cstr val.2 val.1)

/-- The body of the loop behind the cut at the end of the line. -/
def parseTrimmed (buf : Str) : Option (Str × Str) :=
  let line := trim buf 0
  if line.2[line.1]? = some '#' ∨ line.2[line.1]? = some '\x00' then none
  else
    let eq := advance (fun c => c ≠ '=' ∧ c ≠ '\x00') line.2 line.1
    if line.2[eq]? = some '=' then some (trimPair line.2 line.1 eq) else none

/-- The body of the loop on the buffer that `fgets` has filled, the terminator included. -/
def parseConfig (line : Str) : Option (Str × Str) :=
  parseTrimmed (line.set (advance (fun c => c ≠ '\n' ∧ c ≠ '\x00') line 0) '\x00')

def configLines (cfg : Settings) (lines : List Str) : Settings :=
  lines.foldl (fun cfg line =>
    match parseConfig (line ++ ['\x00']) with
    | some (key, val) => cfg.assign key val
    | none => cfg) cfg

/-- `config_load`, of what `fopen` finds. -/
def configLoad (file : Option Str) (cfg : Settings) : Settings :=
  match file with
  | none => cfg
  | some s => configLines cfg (fgetsLines s.length s)

/-! ## The Go server -/

/-- `config`. -/
structure GoSettings where
  domain : Str
  port : ℤ
  bindAddress : Str
  dataDir : Str
  logFile : Str
  logLevel : Str
deriving DecidableEq

/-- `defaults`. -/
def defaults : GoSettings where
  domain := "localhost"
  port := 5222
  bindAddress := "0.0.0.0"
  dataDir := "./data"
  logFile := "./xmppd.log"
  logLevel := "INFO"

/-- The digits behind the sign, and nothing where there are none or the number does not fit. -/
def scanNumber (negative : Bool) (s : Str) : Option ℤ :=
  let n : ℤ := if negative then -(digitsValue s : ℤ) else digitsValue s
  if s.takeWhile Char.isDigit = [] ∨ n < -2 ^ 63 ∨ 2 ^ 63 ≤ n then none else some n

/-- `Sscanf` with `%d`. -/
def sscanf (s : Str) : Option ℤ :=
  match s.dropWhile GoStanza.isSpace with
  | '-' :: s => scanNumber true s
  | '+' :: s => scanNumber false s
  | s => scanNumber false s

/-- The cases of the key. -/
def GoSettings.assign (cfg : GoSettings) (key val : Str) : GoSettings :=
  if key = "domain" then { cfg with domain := val }
  else if key = "port" then { cfg with port := (sscanf val).getD cfg.port }
  else if key = "bind_address" then { cfg with bindAddress := val }
  else if key = "datadir" then { cfg with dataDir := val }
  else if key = "logfile" then { cfg with logFile := val }
  else if key = "loglevel" then { cfg with logLevel := val }
  else cfg

def loadTokens (cfg : GoSettings) (tokens : List Str) : GoSettings :=
  tokens.foldl (fun cfg token =>
    match parseToken token with
    | some (key, val) => cfg.assign key val
    | none => cfg) cfg

/-- `loadFile`, of what `os.Open` finds. -/
def loadFile (file : Option Str) (cfg : GoSettings) : GoSettings :=
  match file with
  | none => cfg
  | some s => loadTokens cfg (scanLines s.length s)

/-- The level that `setupLogging` chooses. Of the letters outside ASCII, none has a capital that
occurs in the names. -/
def setupLevel (logLevel : Str) : Level :=
  if logLevel.map Char.toUpper = ("DEBUG" : Str) then .debug
  else if logLevel.map Char.toUpper = ("WARN" : Str) then .warn
  else if logLevel.map Char.toUpper = ("ERROR" : Str) then .error
  else .info

/-! ## Lines -/

/-- A piece behind what was left of it, trimmed at both ends in the buffer. -/
theorem trim_eq (pre post : Str) {v : Str} (hv : '\x00' ∉ v) :
    ∃ n, trim (pre ++ v ++ '\x00' :: post) pre.length =
        (pre.length + (v.takeWhile isSpace).length,
          pre ++ v.takeWhile isSpace ++ (v.dropWhile isSpace).rdropWhile isSpace ++ (List.replicate n '\x00' ++ '\x00' :: post)) ∧
      ((v.dropWhile isSpace).rdropWhile isSpace).length + n = (v.dropWhile isSpace).length := by
  have hsplit : v = v.takeWhile isSpace ++ v.dropWhile isSpace := List.takeWhile_append_dropWhile.symm
  have hspaces : ∀ c ∈ v.takeWhile isSpace, isSpace c = true := fun c hc => List.mem_takeWhile_imp hc
  have hhead := head?_dropWhile isSpace v
  have hnull : '\x00' ∉ v.dropWhile isSpace := fun hm => hv ((List.dropWhile_suffix isSpace).subset hm)
  generalize v.takeWhile isSpace = w at hsplit hspaces
  generalize v.dropWhile isSpace = s at hsplit hhead hnull
  subst hsplit
  have hstop : ∀ c ∈ (s ++ '\x00' :: post).head?, isSpace c = false := by
    cases s with
    | nil => simpa using isSpace_null
    | cons c cs => exact hhead
  have hassoc : pre ++ (w ++ s) ++ '\x00' :: post = pre ++ w ++ (s ++ '\x00' :: post) := by simp
  have hassoc' : pre ++ w ++ (s ++ '\x00' :: post) = (pre ++ w) ++ s ++ '\x00' :: post := by simp
  obtain ⟨n, hclear, hlen⟩ := clearBack_eq (p := isSpace) (z := '\x00') (pre ++ w) s ('\x00' :: post)
  rw [trimBack_eq hhead] at hclear hlen
  refine ⟨n, ?_, hlen⟩
  unfold trim
  dsimp only
  rw [hassoc, advance_append hspaces hstop, ← List.length_append, hassoc', cstr_append hnull, hclear]

/-- A piece that does not start with a space stays where it is. -/
theorem trim_start (pre post : Str) {k : Str} (hk : '\x00' ∉ k) (hhead : ∀ c ∈ k.head?, isSpace c = false) :
    ∃ n, trim (pre ++ k ++ '\x00' :: post) pre.length =
        (pre.length, pre ++ k.rdropWhile isSpace ++ (List.replicate n '\x00' ++ '\x00' :: post)) ∧
      (k.rdropWhile isSpace).length + n = k.length := by
  obtain ⟨n, htrim, hlen⟩ := trim_eq pre post hk
  have hdrop := dropWhile_head hhead
  have hnone : k.takeWhile isSpace = [] := by
    have hsplit := List.takeWhile_append_dropWhile (p := isSpace) (l := k)
    rw [hdrop] at hsplit
    exact List.append_left_eq_self.mp hsplit
  rw [hdrop] at hlen
  rw [hnone, hdrop] at htrim
  exact ⟨n, by simpa using htrim, hlen⟩

theorem not_mem_rdropWhile {w : Str} (hw : '\x00' ∉ w) : '\x00' ∉ w.rdropWhile isSpace :=
  fun hm => hw ((List.rdropWhile_prefix isSpace w).subset hm)

/-- The two trims behind the sign leave what the loops for a password file leave. -/
theorem trimPair_eq {pre k v post : Str} (hk : '\x00' ∉ k) (hv : '\x00' ∉ v) (hhead : ∀ c ∈ k.head?, isSpace c = false) :
    trimPair (pre ++ k ++ '=' :: (v ++ '\x00' :: post)) pre.length (pre.length + k.length) =
      (k.rdropWhile isSpace, (v.dropWhile isSpace).rdropWhile isSpace) := by
  have hset : (pre ++ k ++ '=' :: (v ++ '\x00' :: post)).set (pre.length + k.length) '\x00' =
      pre ++ k ++ '\x00' :: (v ++ '\x00' :: post) := by
    rw [← List.length_append, List.set_append_right _ _ (le_refl _), Nat.sub_self]
    rfl
  obtain ⟨n, hkey, hlen⟩ := trim_start pre (v ++ '\x00' :: post) hk hhead
  have hk' := not_mem_rdropWhile hk
  generalize k.rdropWhile isSpace = key at hkey hlen hk'
  have hstart : pre.length + k.length + 1 = (pre ++ key ++ (List.replicate n '\x00' ++ ['\x00'])).length := by
    simp only [List.length_append, List.length_replicate, List.length_singleton]
    omega
  have hbuf : pre ++ key ++ (List.replicate n '\x00' ++ '\x00' :: (v ++ '\x00' :: post)) =
      (pre ++ key ++ (List.replicate n '\x00' ++ ['\x00'])) ++ v ++ '\x00' :: post := by simp
  obtain ⟨m, hval, -⟩ := trim_eq (pre ++ key ++ (List.replicate n '\x00' ++ ['\x00'])) post hv
  have hvalue : '\x00' ∉ (v.dropWhile isSpace).rdropWhile isSpace :=
    not_mem_rdropWhile fun hm => hv ((List.dropWhile_suffix isSpace).subset hm)
  have hfirst : (pre ++ key ++ (List.replicate n '\x00' ++ ['\x00'])) ++ v.takeWhile isSpace ++
      (v.dropWhile isSpace).rdropWhile isSpace ++ (List.replicate m '\x00' ++ '\x00' :: post) =
        pre ++ key ++ (List.replicate n '\x00' ++ '\x00' :: (v.takeWhile isSpace ++
          (v.dropWhile isSpace).rdropWhile isSpace ++ (List.replicate m '\x00' ++ '\x00' :: post))) := by simp
  unfold trimPair
  dsimp only
  rw [hset, hkey]
  dsimp only
  rw [hbuf, hstart, hval]
  dsimp only
  rw [← List.length_append, cstr_cleared hvalue, hfirst, cstr_cleared hk']

/-- A line is parsed in the buffer as the Go server parses its copy. -/
theorem parseTrimmed_eq {l : Str} (post : Str) (hl : '\x00' ∉ l) (hascii : Ascii l) :
    parseTrimmed (l ++ '\x00' :: post) = parseToken l := by
  obtain ⟨n, htrim, -⟩ := trim_eq [] post hl
  have hhead : ∀ c ∈ ((l.dropWhile isSpace).rdropWhile isSpace).head?, isSpace c = false := by
    rw [← dropWhile_rdropWhile]
    exact head?_dropWhile isSpace _
  have hsub : ∀ c ∈ (l.dropWhile isSpace).rdropWhile isSpace, c ∈ l := fun c hc =>
    (List.dropWhile_suffix isSpace).subset ((List.rdropWhile_prefix isSpace _).subset hc)
  have htoken : GoStanza.trimSpace l = (l.dropWhile isSpace).rdropWhile isSpace := by
    rw [trimSpace_ascii hascii, trimRight_eq]
  rw [List.nil_append, List.nil_append, List.length_nil, Nat.zero_add] at htrim
  unfold parseTrimmed parseToken
  dsimp only
  rw [htrim, htoken]
  dsimp only
  generalize l.takeWhile isSpace = w
  generalize (l.dropWhile isSpace).rdropWhile isSpace = t at hhead hsub
  have hnull : '\x00' ∉ t := fun hm => hl (hsub _ hm)
  generalize hrest : List.replicate n '\x00' ++ '\x00' :: post = rest
  have hrest' : ∃ tail, rest = '\x00' :: tail := by
    rw [← hrest]
    cases n with
    | zero => exact ⟨post, rfl⟩
    | succ n => exact ⟨_, rfl⟩
  obtain ⟨tail, rfl⟩ := hrest'
  have hcond : ((w ++ t ++ '\x00' :: tail)[w.length]? = some '#' ∨ (w ++ t ++ '\x00' :: tail)[w.length]? = some '\x00') ↔
      (t = [] ∨ t.head? = some '#') := by
    rw [List.append_assoc, getElem?_start]
    cases t with
    | nil => simp
    | cons c cs =>
        have hc : c ≠ '\x00' := fun he => hnull (he ▸ List.mem_cons_self)
        simp [hc]
  by_cases hskip : t = [] ∨ t.head? = some '#'
  · rw [if_pos (hcond.mpr hskip), if_pos hskip]
  rw [if_neg (fun h => hskip (hcond.mp h)), if_neg hskip]
  by_cases hsign : '=' ∈ t
  · obtain ⟨k, v, rfl, hk⟩ := List.eq_append_cons_of_mem hsign
    have hkey : ∀ c ∈ k, decide (c ≠ '=' ∧ c ≠ '\x00') = true := by
      intro c hc
      apply decide_eq_true
      exact ⟨fun he => hk (he ▸ hc), fun he => hnull (he ▸ List.mem_append_left _ hc)⟩
    have hassoc : w ++ (k ++ '=' :: v) ++ '\x00' :: tail = w ++ k ++ '=' :: (v ++ '\x00' :: tail) := by simp
    have heq : advance (fun c => c ≠ '=' ∧ c ≠ '\x00') (w ++ k ++ '=' :: (v ++ '\x00' :: tail)) w.length = w.length + k.length :=
      advance_append hkey (by simp)
    have hget : (w ++ k ++ '=' :: (v ++ '\x00' :: tail))[w.length + k.length]? = some '=' := by
      rw [← List.length_append, List.getElem?_append_right (le_refl _), Nat.sub_self]
      rfl
    have hkhead : ∀ c ∈ k.head?, isSpace c = false := by
      cases k with
      | nil => simp
      | cons c cs => exact hhead
    have hkascii : Ascii k := fun c hc => hascii c (hsub c (List.mem_append_left _ hc))
    have hvascii : Ascii v := fun c hc => hascii c (hsub c (List.mem_append_right _ (List.mem_cons_of_mem _ hc)))
    rw [hassoc, heq, if_pos hget, trimPair_eq (fun hm => hnull (List.mem_append_left _ hm))
      (fun hm => hnull (List.mem_append_right _ (List.mem_cons_of_mem _ hm))) hkhead, cut_sign hk, Option.map_some,
      trimSpace_ascii hkascii, trimSpace_ascii hvascii, dropWhile_head hkhead, trimRight_eq, trimRight_eq]
  · have hkey : ∀ c ∈ t, decide (c ≠ '=' ∧ c ≠ '\x00') = true := by
      intro c hc
      apply decide_eq_true
      exact ⟨fun he => hsign (he ▸ hc), fun he => hnull (he ▸ hc)⟩
    have heq : advance (fun c => c ≠ '=' ∧ c ≠ '\x00') (w ++ t ++ '\x00' :: tail) w.length = w.length + t.length :=
      advance_append hkey (by simp)
    have hget : (w ++ t ++ '\x00' :: tail)[w.length + t.length]? = some '\x00' := by
      rw [← List.length_append, List.getElem?_append_right (le_refl _), Nat.sub_self]
      rfl
    rw [heq, hget, if_neg (by decide), cut_none hsign]
    rfl

/-- A line of which both servers look at the first character only, behind spaces. -/
def Comment (line : Str) : Prop := (line.dropWhile isSpace).head? = some '#'

instance (line : Str) : Decidable (Comment line) := inferInstanceAs (Decidable (_ = _))

theorem parseTrimmed_comment {l : Str} (post : Str) (hl : '\x00' ∉ l) (h : Comment l) : parseTrimmed (l ++ '\x00' :: post) = none := by
  obtain ⟨n, htrim, -⟩ := trim_eq [] post hl
  unfold Comment at h
  rw [List.nil_append, List.nil_append, List.length_nil, Nat.zero_add] at htrim
  unfold parseTrimmed
  dsimp only
  rw [htrim]
  dsimp only
  generalize l.takeWhile isSpace = w
  generalize l.dropWhile isSpace = t at h
  cases t with
  | nil => cases h
  | cons c cs =>
      cases h
      rw [rdropWhile_cons (by decide), if_pos]
      left
      rw [List.append_assoc, List.getElem?_append_right (le_refl _), Nat.sub_self]
      rfl

theorem parseToken_comment {l : Str} (h : Comment l) : parseToken l = none := by
  have hspaces : ∀ c ∈ l.takeWhile isSpace, GoStanza.isSpace c = true := by
    intro c hc
    have hspace := List.mem_takeWhile_imp hc
    have hlow : c.toNat < 128 := by
      simp only [isSpace, decide_eq_true_eq] at hspace
      rcases hspace with rfl | rfl | rfl | rfl | rfl | rfl <;> decide
    rwa [isSpace_ascii hlow]
  have hsplit := List.takeWhile_append_dropWhile (p := isSpace) (l := l)
  unfold Comment at h
  generalize l.takeWhile isSpace = w at hspaces hsplit
  generalize l.dropWhile isSpace = t at h hsplit
  cases t with
  | nil => cases h
  | cons c cs =>
      cases h
      have htrim : GoStanza.trimSpace l = '#' :: cs.rdropWhile GoStanza.isSpace := by
        rw [← hsplit, GoStanza.trimSpace, List.dropWhile_append_of_pos hspaces, List.dropWhile_cons_of_neg (by decide)]
        exact rdropWhile_cons (by decide) cs
      unfold parseToken
      dsimp only
      rw [htrim]
      exact if_pos (Or.inr rfl)

/-- The line that both servers parse. -/
theorem parseConfig_eq {line : Str} (hnull : '\x00' ∉ line)
    (hline : Ascii (line.takeWhile (· ≠ '\n')) ∨ Comment (line.takeWhile (· ≠ '\n'))) :
    parseConfig (line ++ ['\x00']) = parseToken (line.takeWhile (· ≠ '\n')) := by
  have hend : decide ('\x00' ≠ '\n' ∧ '\x00' ≠ '\x00') = false := by decide
  obtain ⟨post, hbuf⟩ := set_advance (p := fun c => c ≠ '\n' ∧ c ≠ '\x00') hend line
  have hcut : (line.takeWhile fun c => c ≠ '\n' ∧ c ≠ '\x00') = line.takeWhile (· ≠ '\n') := by
    apply takeWhile_congr
    intro c hc
    have hc0 : c ≠ '\x00' := fun he => hnull (he ▸ hc)
    simp [hc0]
  have hnull' : '\x00' ∉ line.takeWhile (· ≠ '\n') := fun hm => hnull ((List.takeWhile_prefix _).subset hm)
  unfold parseConfig
  rw [hbuf, hcut]
  rcases hline with hascii | hcomment
  · exact parseTrimmed_eq post hnull' hascii
  · rw [parseTrimmed_comment post hnull' hcomment, parseToken_comment hcomment]

/-! ## Settings -/

/-- Both servers have the same settings. -/
structure Alike (c : Settings) (g : GoSettings) : Prop where
  domain : c.domain.str = g.domain
  port : c.port = g.port
  bindAddress : c.bindAddress.str = g.bindAddress
  datadir : c.datadir.str = g.dataDir
  logfile : c.logfile.str = g.logFile
  loglevel : c.loglevel = setupLevel g.logLevel

/-- A value that the C server has room for: an address that fits its buffer, a port that is a
number and fits an `int`. -/
structure Fits (key val : Str) : Prop where
  domain : key = "domain" → val.length < 256
  bindAddress : key = "bind_address" → val.length < 256
  port : key = "port" → ∃ n ∈ sscanf val, -2 ^ 31 ≤ n ∧ n < 2 ^ 31

theorem defaults_alike : Alike configDefaults defaults := ⟨rfl, rfl, rfl, rfl, rfl, by decide⟩

/-- On ASCII letters either case can be taken first. -/
theorem upper_lower {c : Char} (hc : c.toNat < 128) : c.toLower.toUpper = c.toUpper ∧ c.toUpper.toLower = c.toLower := by
  have hall : ∀ n < 128, (Char.ofNat n).toLower.toUpper = (Char.ofNat n).toUpper ∧
      (Char.ofNat n).toUpper.toLower = (Char.ofNat n).toLower := by decide +kernel
  have h := hall c.toNat hc
  rwa [Char.ofNat_toNat] at h

/-- Names are compared alike in small and in capital letters. -/
theorem strcasecmp_iff {s name : Str} (hs : Ascii s) (hname : Ascii name) (hupper : name.map Char.toUpper = name) :
    strcasecmp s name = true ↔ s.map Char.toUpper = name := by
  have hfirst : ∀ l : Str, Ascii l → (l.map Char.toLower).map Char.toUpper = l.map Char.toUpper := fun l hl =>
    (List.map_map ..).trans (List.map_congr_left fun c hc => (upper_lower (hl c hc)).1)
  have hsecond : (s.map Char.toUpper).map Char.toLower = s.map Char.toLower :=
    (List.map_map ..).trans (List.map_congr_left fun c hc => (upper_lower (hs c hc)).2)
  unfold strcasecmp
  rw [decide_eq_true_iff]
  constructor
  · intro h
    rw [← hfirst s hs, h, hfirst name hname, hupper]
  · intro h
    rw [← h, hsecond]

theorem ascii_of_all {s : Str} (h : (s.all fun c => c.toNat < 128) = true) : Ascii s :=
  fun c hc => of_decide_eq_true (List.all_eq_true.mp h c hc)

theorem loglevel_alike {val : Str} (hval : Ascii val) : parseLoglevel val = setupLevel val := by
  have hdebug := strcasecmp_iff hval (ascii_of_all (s := "DEBUG") (by decide)) (by decide)
  have hinfo := strcasecmp_iff hval (ascii_of_all (s := "INFO") (by decide)) (by decide)
  have hwarn := strcasecmp_iff hval (ascii_of_all (s := "WARN") (by decide)) (by decide)
  have herror := strcasecmp_iff hval (ascii_of_all (s := "ERROR") (by decide)) (by decide)
  unfold parseLoglevel setupLevel
  simp only [hdebug, hinfo, hwarn, herror]
  split
  · rfl
  split
  · next h =>
    rw [h]
    rfl
  · rfl

theorem scanNumber_eq {negative : Bool} {s : Str} {n : ℤ} (h : scanNumber negative s = some n) :
    n = if negative then -(digitsValue s : ℤ) else digitsValue s := by
  unfold scanNumber at h
  dsimp only at h
  generalize (if negative then -(digitsValue s : ℤ) else digitsValue s) = x at h ⊢
  split at h
  · cases h
  · exact (Option.some.inj h).symm

/-- A number that both servers read. -/
theorem atoi_eq {val : Str} (hval : Ascii val) {n : ℤ} (h : sscanf val = some n) (hlow : -2 ^ 31 ≤ n) (hhigh : n < 2 ^ 31) :
    atoi val = n := by
  have hdrop : val.dropWhile GoStanza.isSpace = val.dropWhile isSpace := dropWhile_congr fun c hc => isSpace_ascii (hval c hc)
  have hstrtol : strtol val = n := by
    unfold sscanf at h
    unfold strtol
    rw [hdrop] at h
    split at h
    · next s hs =>
      have hn := scanNumber_eq h
      rw [if_pos rfl] at hn
      omega
    · next s hs =>
      have hn := scanNumber_eq h
      rw [if_neg Bool.false_ne_true] at hn
      omega
    · next s hminus hplus =>
      have hn := scanNumber_eq h
      rw [if_neg Bool.false_ne_true] at hn
      omega
  rw [atoi, hstrtol]
  apply Int.bmod_eq_of_le_mul_two <;> omega

/-- What a line sets, it sets alike. -/
theorem assign_alike {c : Settings} {g : GoSettings} (h : Alike c g) {key val : Str} (hval : Ascii val)
    (hlen : val.length < 1024) (hfits : Fits key val) : Alike (c.assign key val) (g.assign key val) := by
  unfold Settings.assign GoSettings.assign
  split
  · next hkey => exact { h with domain := snprintf_fits (hfits.domain hkey) }
  split
  · next hkey =>
    obtain ⟨n, hn, hlow, hhigh⟩ := hfits.port hkey
    refine { h with port := ?_ }
    dsimp only
    rw [atoi_eq hval hn hlow hhigh, hn]
    rfl
  split
  · next hkey => exact { h with bindAddress := snprintf_fits (hfits.bindAddress hkey) }
  split
  · exact { h with datadir := snprintf_fits hlen }
  split
  · exact { h with logfile := snprintf_fits hlen }
  split
  · exact { h with loglevel := loglevel_alike hval }
  · exact h

/-! ## Files -/

theorem trimSpace_part (s : Str) : GoStanza.trimSpace s <:+: s :=
  (List.rdropWhile_prefix GoStanza.isSpace (s.dropWhile GoStanza.isSpace)).isInfix.trans (List.dropWhile_suffix _).isInfix

/-- A value is a piece of its line. -/
theorem value_part {token key val : Str} (h : parseToken token = some (key, val)) : val <:+: token := by
  unfold parseToken at h
  dsimp only at h
  split at h
  · cases h
  obtain ⟨kv, hkv, hpair⟩ := Option.map_eq_some_iff.mp h
  cases hpair
  unfold cut at hkv
  split at hkv
  · cases hkv
  · next c after hafter =>
    cases hkv
    have hsuffix : after <:+ GoStanza.trimSpace token :=
      (List.suffix_cons c after).trans (hafter ▸ List.dropWhile_suffix _)
    exact ((trimSpace_part after).trans hsuffix.isInfix).trans (trimSpace_part token)

/-- A file that both servers read line by line. -/
structure Readable (s : Str) : Prop where
  null : '\x00' ∉ s
  cr : '\r' ∉ s
  short : ShortLines 1023 s

theorem Readable.suffix {s t : Str} (h : Readable s) (hts : t <:+ s) : Readable t :=
  ⟨fun hm => h.null (hts.subset hm), fun hm => h.cr (hts.subset hm), h.short.suffix hts⟩

/-- The lines of a file. -/
def lines (s : Str) : List Str := scanLines s.length s

section
variable {s : Str}

theorem Readable.line_length (hs : Readable s) : (s.takeWhile (· ≠ '\n')).length < 1023 :=
  hs.short _ (List.takeWhile_prefix _).isInfix fun hm => absurd (List.mem_takeWhile_imp hm) (by decide)

theorem Readable.dropCR (hs : Readable s) : UserConf.dropCR (s.takeWhile (· ≠ '\n')) = s.takeWhile (· ≠ '\n') := by
  unfold UserConf.dropCR
  rw [if_neg]
  exact fun he => hs.cr ((List.takeWhile_prefix _).subset (List.mem_of_getLast? he))

theorem Readable.lines_cons (hs : Readable s) (hne : s ≠ []) (n : ℕ) :
    scanLines (n + 1) s =
      s.takeWhile (· ≠ '\n') :: scanLines n (s.drop ((s.takeWhile (· ≠ '\n')).length + 1)) := by
  have hlen := hs.line_length
  cases s with
  | nil => exact absurd rfl hne
  | cons x xs =>
      rw [scanLines, if_neg (by omega), hs.dropCR]
      exact fun he => List.cons_ne_nil _ _ he

/-- The buffer that `fgets` fills, up to the end of the line. -/
theorem Readable.parsed (hs : Readable s) (hline : Ascii (s.takeWhile (· ≠ '\n')) ∨ Comment (s.takeWhile (· ≠ '\n'))) :
    parseConfig (fgets s ++ ['\x00']) = parseToken (s.takeWhile (· ≠ '\n')) := by
  have hfgets := (fgets_line hs.line_length).1
  have hfront : fgets s <+: s := by
    rw [hfgets]
    conv_rhs => rw [← List.takeWhile_append_dropWhile (p := fun c : Char => decide (c ≠ '\n')) (l := s)]
    exact (List.prefix_append_right_inj _).mpr (List.take_prefix _ _)
  have hcut : (fgets s).takeWhile (· ≠ '\n') = s.takeWhile (· ≠ '\n') := by
    rw [hfgets, List.takeWhile_append_of_pos (p := fun c : Char => decide (c ≠ '\n')) fun c hc =>
      List.mem_takeWhile_imp (p := fun c : Char => decide (c ≠ '\n')) hc]
    have hend := head?_dropWhile (fun c : Char => decide (c ≠ '\n')) s
    generalize s.dropWhile (fun c => decide (c ≠ '\n')) = rest at hend
    cases rest with
    | nil => simp
    | cons c cs =>
        have hc : c = '\n' := by simpa using hend c rfl
        simp [hc]
  rw [← hcut] at hline
  rw [parseConfig_eq (fun hm => hs.null (hfront.subset hm)) hline, hcut]

end

theorem lines_alike (n : ℕ) : ∀ {s : Str} {c : Settings} {g : GoSettings}, Readable s → Alike c g →
    (∀ line ∈ scanLines n s, Ascii line ∨ Comment line) →
    (∀ kv ∈ (scanLines n s).filterMap parseToken, Fits kv.1 kv.2) →
    Alike (configLines c (fgetsLines n s)) (loadTokens g (scanLines n s)) := by
  induction n with
  | zero => exact fun _ h _ _ => h
  | succ n ih =>
      intro s c g hs h hlines hfits
      cases s with
      | nil => exact h
      | cons x xs =>
          have hlen := hs.line_length
          have hscan := hs.lines_cons (List.cons_ne_nil x xs) n
          have hread : fgetsLines (n + 1) (x :: xs) = fgets (x :: xs) ::
              fgetsLines n ((x :: xs).drop (((x :: xs).takeWhile (· ≠ '\n')).length + 1)) := by
            rw [fgetsLines, (fgets_line hlen).2]
            exact fun he => List.cons_ne_nil _ _ he
          rw [hscan] at hlines
          rw [hscan, List.filterMap_cons] at hfits
          have hparsed := hs.parsed (hlines _ List.mem_cons_self)
          have hrest := hs.suffix (List.drop_suffix (((x :: xs).takeWhile (· ≠ '\n')).length + 1) (x :: xs))
          rw [hscan, hread]
          unfold configLines loadTokens
          rw [List.foldl_cons, List.foldl_cons, hparsed]
          generalize (x :: xs).takeWhile (· ≠ '\n') = line at hlen hrest hlines hfits ⊢
          have hmore := fun line' hmem => hlines line' (List.mem_cons_of_mem line hmem)
          cases hpair : parseToken line with
          | none =>
              rw [hpair] at hfits
              exact ih hrest h hmore hfits
          | some kv =>
              obtain ⟨key, val⟩ := kv
              rw [hpair] at hfits
              have hpart := value_part hpair
              have hascii : Ascii line := by
                rcases hlines line List.mem_cons_self with hascii | hcomment
                · exact hascii
                · rw [parseToken_comment hcomment] at hpair
                  cases hpair
              have hroom : val.length < 1024 := by
                have hle := hpart.length_le
                omega
              have hnext := assign_alike h (fun c hc => hascii c (hpart.subset hc)) hroom (hfits _ List.mem_cons_self)
              exact ih hrest hnext hmore fun kv hkv => hfits kv (List.mem_cons_of_mem _ hkv)

/-- The servers end with the same settings, if every line is a comment or in ASCII and the C
server has room for the values. -/
theorem settings_alike (file : Option Str) (hreadable : ∀ s ∈ file, Readable s)
    (hlines : ∀ s ∈ file, ∀ line ∈ lines s, Ascii line ∨ Comment line)
    (hfits : ∀ s ∈ file, ∀ kv ∈ (lines s).filterMap parseToken, Fits kv.1 kv.2) :
    Alike (configLoad file configDefaults) (loadFile file defaults) := by
  cases file with
  | none => exact defaults_alike
  | some s => exact lines_alike s.length (hreadable s rfl) defaults_alike (hlines s rfl) (hfits s rfl)

/-- A short configuration file with a comment outside ASCII. -/
def exampleFile : Str := "# xmppd.conf — local\n\ndomain = example.org\nport=5223\nloglevel = warn\n"

theorem exampleFile_alike : Alike (configLoad (some exampleFile) configDefaults) (loadFile (some exampleFile) defaults) := by
  have hreadable : Readable exampleFile :=
    ⟨by decide +kernel, by decide +kernel, shortLines_of_length (by decide +kernel)⟩
  have hlines : ((lines exampleFile).all fun line => (line.all fun c => c.toNat < 128) || decide (Comment line)) = true := by
    decide +kernel
  have hpairs : (lines exampleFile).filterMap parseToken =
      [(("domain" : Str), ("example.org" : Str)), (("port" : Str), ("5223" : Str)), (("loglevel" : Str), ("warn" : Str))] := by
    decide +kernel
  refine settings_alike (some exampleFile) ?_ ?_ ?_
  · intro s hs
    rwa [← Option.mem_some_iff.mp hs]
  · intro s hs line hline
    rw [← Option.mem_some_iff.mp hs] at hline
    have h := List.all_eq_true.mp hlines line hline
    rw [Bool.or_eq_true, decide_eq_true_iff] at h
    exact h.imp_left ascii_of_all
  · intro s hs kv hkv
    rw [← Option.mem_some_iff.mp hs, hpairs] at hkv
    simp only [List.mem_cons, List.not_mem_nil, or_false] at hkv
    rcases hkv with rfl | rfl | rfl
    · exact ⟨fun _ => by decide, fun h => absurd h (by decide), fun h => absurd h (by decide)⟩
    · exact ⟨fun h => absurd h (by decide), fun h => absurd h (by decide), fun _ => ⟨5223, by decide, by decide, by decide⟩⟩
    · exact ⟨fun h => absurd h (by decide), fun h => absurd h (by decide), fun h => absurd h (by decide)⟩

end Xmppd.ServerConf
