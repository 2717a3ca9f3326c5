import Xmppd.Scanning
import Xmppd.Util

/-!
# The address parser in memory

`jid_parse` searches the string for the first `@` and the first `/`, each from the
start, and copies what lies between them. Every search ends at the terminator. The
length of the domain is a difference of two places, and where the slash is the
first of them the difference wraps around, is cut to the size of the buffer, and the
copy takes 255 bytes from behind the `@` however few there are.
-/
namespace Xmppd.Addresses
open CStrings Util Scanning

/-- A terminated string, which pointer differences can measure. -/
structure CString where
  str : Str
  null : '\x00' ∉ str
  addressable : str.length < 2^63

/-- `strchr(s+i, c)`: the place of the character, or of the terminator if there is none. -/
def strchr (mem : Str) (i : ℕ) (c : Char) : ℕ := advance (fun d => d ≠ c ∧ d ≠ '\x00') mem i

/-- `strlen(s+i)`. -/
def strlen (mem : Str) (i : ℕ) : ℕ := advance (· ≠ '\x00') mem i - i

/-- The difference of two pointers as a `size_t`. -/
@[irreducible] def diff (i j : ℕ) : ℕ := (i + 2^64 - j) % 2^64

/-- `if (len >= 256) len = 255`. -/
def clip (len : ℕ) : ℕ := if 256 ≤ len then 255 else len

theorem clip_le (len : ℕ) : clip len ≤ len := by
  unfold clip
  split <;> omega

theorem clip_lt (len : ℕ) : clip len < 256 := by
  unfold clip
  split <;> omega

/-- `memcpy(buf, s+i, len); buf[len] = 0`, as a string. -/
def put (mem : Str) (i len : ℕ) : Buf 256 where
  str := cstr ((mem.drop i).take (clip len)) 0
  fits := by
    have hpre := (List.takeWhile_prefix (fun c : Char => decide (c ≠ '\x00')) (l := (mem.drop i).take (clip len))).length_le
    have htake := List.length_take_le (clip len) (mem.drop i)
    have hclip := clip_lt len
    unfold cstr
    rw [List.drop_zero]
    omega

/-- The pieces of memory that are read, each with the index behind it, the lengths of the
parts before they are cut to the buffers, and the result. -/
structure Scan where
  reads : List (ℕ × ℕ)
  lengths : List ℕ
  parsed : Parsed

/-- The second half: the domain starts at `start`. -/
def scanDomain (mem : Str) (j : Jid) (start slash : ℕ) : Scan :=
  if mem[slash]? = some '/' then
    let dlen := diff slash start
    if dlen = 0 then ⟨[], [], ⟨false, j⟩⟩
    else
      let res := slash+1
      let rlen := strlen mem res
      ⟨[(start, start + clip dlen), (res, res+rlen+1), (res, res + clip rlen)], [dlen, rlen],
        ⟨true, { j with domain := put mem start dlen, resource := put mem res rlen }⟩⟩
  else
    let dlen := strlen mem start
    if dlen = 0 then ⟨[(start, start+1)], [], ⟨false, j⟩⟩
    else ⟨[(start, start+dlen+1), (start, start + clip dlen)], [dlen], ⟨true, { j with domain := put mem start dlen }⟩⟩

/-- `jid_parse` on the string at the start of memory. -/
def scanJid (buf : Jid) (mem : Str) : Scan :=
  if mem.head? = some '\x00' then ⟨[(0, 1)], [], ⟨false, buf⟩⟩
  else
    let sign := strchr mem 0 '@'
    let slash := strchr mem 0 '/'
    let reads := [(0, 1), (0, sign+1), (0, slash+1)]
    if mem[sign]? = some '@' then
      if sign = 0 then ⟨reads, [], ⟨false, Jid.cleared⟩⟩
      else
        let rest := scanDomain mem { Jid.cleared with localpart := put mem 0 sign } (sign+1) slash
        ⟨reads ++ (0, clip sign) :: rest.reads, sign :: rest.lengths, rest.parsed⟩
    else
      let rest := scanDomain mem Jid.cleared 0 slash
      ⟨reads ++ rest.reads, rest.lengths, rest.parsed⟩

/-- The string with what lies behind it. -/
def CString.mem (s : CString) (past : Str) : Str := s.str ++ '\x00' :: past

theorem parseDomain_slash {j : Jid} {s : Str} {slash : ℕ} (h : s.findIdx? (· == '/') = some slash) (start : ℕ) :
    parseDomain j s start = if diff slash start = 0 then ⟨false, j⟩ else
      ⟨true, { j with domain := snprintf 256 ((s.drop start).take (diff slash start)),
                      resource := snprintf 256 (s.drop (slash+1)) }⟩ := by
  unfold parseDomain diff
  rw [h]

theorem parseDomain_noSlash {j : Jid} {s : Str} (h : s.findIdx? (· == '/') = none) (start : ℕ) :
    parseDomain j s start = if s.drop start = [] then ⟨false, j⟩ else ⟨true, { j with domain := snprintf 256 (s.drop start) }⟩ := by
  unfold parseDomain
  rw [h]

/-- A search stops at the character or at the terminator. -/
theorem strchr_stop {c x : Char} {k r : Str} (hc : c ∉ k) (hnull : '\x00' ∉ k) (hx : x = c ∨ x = '\x00') :
    strchr (k ++ x :: r) 0 c = k.length := by
  have hk : ∀ d ∈ k, decide (d ≠ c ∧ d ≠ '\x00') = true := by
    intro d hd
    apply decide_eq_true
    exact ⟨fun he => hc (he ▸ hd), fun he => hnull (he ▸ hd)⟩
  have hstop : ∀ d ∈ (x :: r).head?, decide (d ≠ c ∧ d ≠ '\x00') = false := by
    rintro d ⟨⟩
    apply decide_eq_false
    tauto
  have h := @advance_append _ _ [] k (x :: r) hk hstop
  simpa [strchr] using h

section
variable (s : CString) (past : Str)

theorem strchr_found {c : Char} {k r : Str} (hs : s.str = k ++ c :: r) (hk : c ∉ k) :
    strchr (s.mem past) 0 c = k.length ∧ (s.mem past)[k.length]? = some c := by
  have hnull : '\x00' ∉ k := fun hm => s.null (hs ▸ List.mem_append_left _ hm)
  have hmem : s.mem past = k ++ c :: (r ++ '\x00' :: past) := by
    rw [CString.mem, hs]
    simp
  rw [hmem]
  refine ⟨strchr_stop hk hnull (.inl rfl), ?_⟩
  rw [List.getElem?_append_right (le_refl _), Nat.sub_self]
  rfl

theorem strchr_missing {c : Char} (h : c ∉ s.str) :
    strchr (s.mem past) 0 c = s.str.length ∧ (s.mem past)[s.str.length]? = some '\x00' := by
  refine ⟨strchr_stop h s.null (.inr rfl), ?_⟩
  rw [CString.mem, List.getElem?_append_right (le_refl _), Nat.sub_self]
  rfl

theorem strlen_mem {i : ℕ} (hi : i ≤ s.str.length) : strlen (s.mem past) i = s.str.length - i := by
  have hnull : '\x00' ∉ s.str.drop i := fun hm => s.null (List.mem_of_mem_drop hm)
  have hdrop : (s.mem past).drop i = s.str.drop i ++ '\x00' :: past := List.drop_append_of_le_length hi
  rw [strlen, advance_eq, hdrop, takeWhile_ne hnull, List.length_drop]
  omega

/-- The bytes that are copied end for the reader where the string ends. -/
theorem takeWhile_take {w : Str} (hw : '\x00' ∉ w) (n : ℕ) (past : Str) :
    ((w ++ '\x00' :: past).take n).takeWhile (· ≠ '\x00') = w.take n := by
  induction w generalizing n with
  | nil =>
      cases n with
      | zero => rfl
      | succ n => simp
  | cons c cs ih =>
      cases n with
      | zero => rfl
      | succ n =>
          have hc : c ≠ '\x00' := fun he => hw (he ▸ List.mem_cons_self)
          simp only [List.cons_append, List.take_succ_cons]
          rw [List.takeWhile_cons, if_pos (decide_eq_true hc), ih fun hm => hw (List.mem_cons_of_mem c hm)]

theorem put_mem {i : ℕ} (hi : i ≤ s.str.length) (len : ℕ) : put (s.mem past) i len = snprintf 256 ((s.str.drop i).take len) := by
  have hnull : '\x00' ∉ s.str.drop i := fun hm => s.null (List.mem_of_mem_drop hm)
  have hdrop : (s.mem past).drop i = s.str.drop i ++ '\x00' :: past := List.drop_append_of_le_length hi
  apply Buf.ext
  change ((((s.mem past).drop i).take (clip len)).drop 0).takeWhile _ = ((s.str.drop i).take len).take 255
  rw [hdrop, List.drop_zero, takeWhile_take hnull, List.take_take]
  congr 1
  unfold clip
  split <;> omega

theorem scanDomain_slash {mem : Str} {slash : ℕ} (h : mem[slash]? = some '/') (j : Jid) (start : ℕ) :
    scanDomain mem j start slash = if diff slash start = 0 then ⟨[], [], ⟨false, j⟩⟩ else
      ⟨[(start, start + clip (diff slash start)), (slash+1, slash+1 + strlen mem (slash+1) + 1),
          (slash+1, slash+1 + clip (strlen mem (slash+1)))],
        [diff slash start, strlen mem (slash+1)],
        ⟨true, { j with domain := put mem start (diff slash start),
                        resource := put mem (slash+1) (strlen mem (slash+1)) }⟩⟩ := by
  unfold scanDomain
  rw [if_pos h]

theorem scanDomain_noSlash {mem : Str} {slash : ℕ} (h : mem[slash]? ≠ some '/') (j : Jid) (start : ℕ) :
    scanDomain mem j start slash = if strlen mem start = 0 then ⟨[(start, start+1)], [], ⟨false, j⟩⟩ else
      ⟨[(start, start + strlen mem start + 1), (start, start + clip (strlen mem start))], [strlen mem start],
        ⟨true, { j with domain := put mem start (strlen mem start) }⟩⟩ := by
  unfold scanDomain
  rw [if_neg h]

/-- The scan of the memory leaves what the parser of strings leaves. -/
theorem scanDomain_parsed (j : Jid) {start : ℕ} (hstart : start ≤ s.str.length) :
    (scanDomain (s.mem past) j start (strchr (s.mem past) 0 '/')).parsed = parseDomain j s.str start := by
  by_cases hslash : '/' ∈ s.str
  · obtain ⟨k, r, hs, hk⟩ := List.eq_append_cons_of_mem hslash
    obtain ⟨hplace, hget⟩ := strchr_found s past hs hk
    have hidx : s.str.findIdx? (· == '/') = some k.length := hs ▸ findIdx?_ne hk
    have hlen : s.str.length = k.length + 1 + r.length := by
      rw [hs]
      simp only [List.length_append, List.length_cons]
      omega
    rw [hplace, parseDomain_slash hidx, scanDomain_slash hget]
    by_cases hd : diff k.length start = 0
    · rw [if_pos hd, if_pos hd]
    · have hres : (s.str.drop (k.length+1)).take (s.str.length - (k.length+1)) = s.str.drop (k.length+1) :=
        List.take_of_length_le (by rw [List.length_drop])
      rw [if_neg hd, if_neg hd, put_mem s past hstart, put_mem s past (by omega), strlen_mem s past (by omega), hres]
  · obtain ⟨hplace, hget⟩ := strchr_missing s past hslash
    have hnil : s.str.length - start = 0 ↔ s.str.drop start = [] := by
      rw [List.drop_eq_nil_iff]
      omega
    have hall : (s.str.drop start).take (s.str.length - start) = s.str.drop start :=
      List.take_of_length_le (by rw [List.length_drop])
    rw [hplace, parseDomain_noSlash (findIdx?_ne_none hslash), scanDomain_noSlash (by rw [hget]; decide), strlen_mem s past hstart]
    by_cases hempty : s.str.length - start = 0
    · rw [if_pos hempty, if_pos (hnil.mp hempty)]
    · rw [if_neg hempty, if_neg (fun h => hempty (hnil.mpr h)), put_mem s past hstart, hall]

/-- The whole scan, by the two searches. -/
theorem scanJid_empty (buf : Jid) (h : s.str = []) : scanJid buf (s.mem past) = ⟨[(0, 1)], [], ⟨false, buf⟩⟩ := by
  unfold scanJid
  rw [if_pos (by rw [CString.mem, h]; rfl)]

theorem head?_mem (h : s.str ≠ []) : (s.mem past).head? ≠ some '\x00' := by
  have hnull := s.null
  unfold CString.mem
  generalize s.str = w at h hnull
  cases w with
  | nil => exact absurd rfl h
  | cons c cs => exact fun he => hnull (Option.some.inj he ▸ List.mem_cons_self)

theorem scanJid_sign (buf : Jid) {l r : Str} (hs : s.str = l ++ '@' :: r) (hl : '@' ∉ l) (hne : l ≠ []) :
    scanJid buf (s.mem past) =
      let slash := strchr (s.mem past) 0 '/'
      let rest := scanDomain (s.mem past) { Jid.cleared with localpart := put (s.mem past) 0 l.length } (l.length+1) slash
      ⟨[(0, 1), (0, l.length+1), (0, slash+1)] ++ (0, clip l.length) :: rest.reads, l.length :: rest.lengths, rest.parsed⟩ := by
  obtain ⟨hplace, hget⟩ := strchr_found s past hs hl
  have hlen : l.length ≠ 0 := fun h => hne (List.eq_nil_of_length_eq_zero h)
  unfold scanJid
  rw [if_neg (head?_mem s past (by rw [hs]; simp)), hplace, if_pos hget, if_neg hlen]

theorem scanJid_signFirst (buf : Jid) {r : Str} (hs : s.str = '@' :: r) :
    scanJid buf (s.mem past) = ⟨[(0, 1), (0, 1), (0, strchr (s.mem past) 0 '/' + 1)], [], ⟨false, Jid.cleared⟩⟩ := by
  obtain ⟨hplace, hget⟩ := @strchr_found s past '@' [] r hs (by simp)
  unfold scanJid
  rw [if_neg (head?_mem s past (by rw [hs]; simp)), hplace, if_pos hget, List.length_nil, if_pos rfl]

theorem scanJid_noSign (buf : Jid) (hs : '@' ∉ s.str) (hne : s.str ≠ []) :
    scanJid buf (s.mem past) =
      let slash := strchr (s.mem past) 0 '/'
      let rest := scanDomain (s.mem past) Jid.cleared 0 slash
      ⟨[(0, 1), (0, s.str.length+1), (0, slash+1)] ++ rest.reads, rest.lengths, rest.parsed⟩ := by
  obtain ⟨hplace, hget⟩ := strchr_missing s past hs
  unfold scanJid
  rw [if_neg (head?_mem s past hne), hplace, if_neg (by rw [hget]; decide)]

theorem jidParse_sign (buf : Jid) {l r : Str} (hl : '@' ∉ l) (hne : l ≠ []) :
    jidParse buf (l ++ '@' :: r) = parseDomain { Jid.cleared with localpart := snprintf 256 l } (l ++ '@' :: r) (l.length+1) := by
  obtain ⟨n, hn⟩ : ∃ n, l.length = n + 1 := Nat.exists_eq_succ_of_ne_zero fun h => hne (List.eq_nil_of_length_eq_zero h)
  have htake : (l ++ '@' :: r).take (n+1) = l := by rw [← hn, List.take_left]
  unfold jidParse
  rw [if_neg (by simp), findIdx?_ne hl, hn]
  change parseDomain { Jid.cleared with localpart := snprintf 256 ((l ++ '@' :: r).take (n+1)) } (l ++ '@' :: r) (n+1+1) = _
  rw [htake]

theorem jidParse_noSign (buf : Jid) {t : Str} (ht : '@' ∉ t) (hne : t ≠ []) : jidParse buf t = parseDomain Jid.cleared t 0 := by
  unfold jidParse
  rw [if_neg hne, findIdx?_ne_none ht]

/-- What the scan leaves is what the parser of strings gives, whatever lies behind the string. -/
theorem scanJid_parsed (buf : Jid) : (scanJid buf (s.mem past)).parsed = jidParse buf s.str := by
  by_cases hne : s.str = []
  · rw [scanJid_empty s past buf hne, hne]
    rfl
  by_cases hsign : '@' ∈ s.str
  · obtain ⟨l, r, hs, hl⟩ := List.eq_append_cons_of_mem hsign
    by_cases hfirst : l = []
    · subst hfirst
      rw [scanJid_signFirst s past buf hs, hs]
      rfl
    · have hput : put (s.mem past) 0 l.length = snprintf 256 l := by
        rw [put_mem s past (Nat.zero_le _), List.drop_zero, hs, List.take_left]
      rw [scanJid_sign s past buf hs hl hfirst, hput]
      dsimp only
      rw [scanDomain_parsed s past _ (by rw [hs, List.length_append, List.length_cons]; omega), hs, jidParse_sign buf hl hfirst]
  · rw [scanJid_noSign s past buf hsign hne]
    dsimp only
    rw [scanDomain_parsed s past _ (Nat.zero_le _), jidParse_noSign buf hsign hne]

end

/-! ## The parts -/

theorem diff_le {i j : ℕ} (h : j ≤ i) (hi : i < 2^63) : diff i j = i - j := by
  unfold diff
  omega

/-- A slash before the start makes the length wrap around. -/
theorem diff_wrap {i j : ℕ} (h : i < j) (hj : j < 2^63) : 256 ≤ diff i j := by
  unfold diff
  omega

section
variable {j : Jid} {p l d r : Str} (buf : Jid)

theorem parseDomain_part (hp : '/' ∉ p) (hd : '/' ∉ d) (hlen : (p ++ d).length < 2^63) :
    parseDomain j (p ++ d ++ '/' :: r) p.length =
      if d = [] then ⟨false, j⟩ else ⟨true, { j with domain := snprintf 256 d, resource := snprintf 256 r }⟩ := by
  have hpd : '/' ∉ p ++ d := fun hm => (List.mem_append.mp hm).elim hp hd
  have hdiff : diff (p ++ d).length p.length = d.length := by
    rw [diff_le (by rw [List.length_append]; omega) hlen, List.length_append, Nat.add_sub_cancel_left]
  have hdom : ((p ++ d ++ '/' :: r).drop p.length).take d.length = d := by
    rw [List.append_assoc, List.drop_left, List.take_left]
  have hres : (p ++ d ++ '/' :: r).drop ((p ++ d).length+1) = r := by
    rw [← List.drop_drop, List.drop_left]
    rfl
  rw [parseDomain_slash (findIdx?_ne hpd), hdiff, hdom, hres]
  simp only [List.length_eq_zero_iff]

theorem parseDomain_rest (hp : '/' ∉ p) (hd : '/' ∉ d) :
    parseDomain j (p ++ d) p.length = if d = [] then ⟨false, j⟩ else ⟨true, { j with domain := snprintf 256 d }⟩ := by
  have hpd : '/' ∉ p ++ d := fun hm => (List.mem_append.mp hm).elim hp hd
  rw [parseDomain_noSlash (findIdx?_ne_none hpd), List.drop_left]

theorem not_mem_sign (hl : '/' ∉ l) : '/' ∉ l ++ ['@'] := by
  intro hm
  rcases List.mem_append.mp hm with hm | hm
  · exact hl hm
  · exact absurd (List.mem_singleton.mp hm) (by decide)

/-- `domain` -/
theorem jidParse_host (hsign : '@' ∉ d) (hslash : '/' ∉ d) (hne : d ≠ []) :
    jidParse buf d = ⟨true, { Jid.cleared with domain := snprintf 256 d }⟩ := by
  have h := @parseDomain_rest Jid.cleared [] d (by simp) hslash
  rw [List.nil_append, List.length_nil, if_neg hne] at h
  rw [jidParse_noSign buf hsign hne, h]

/-- `domain/resource` -/
theorem jidParse_hostResource (hsign : '@' ∉ d ++ '/' :: r) (hslash : '/' ∉ d) (hlen : d.length < 2^63) :
    jidParse buf (d ++ '/' :: r) = if d = [] then ⟨false, Jid.cleared⟩ else
      ⟨true, { Jid.cleared with domain := snprintf 256 d, resource := snprintf 256 r }⟩ := by
  have h := @parseDomain_part Jid.cleared [] d r (by simp) hslash hlen
  rw [List.nil_append, List.length_nil] at h
  rw [jidParse_noSign buf hsign (by simp), h]

/-- `local@domain` -/
theorem jidParse_bare (hl : '@' ∉ l) (hne : l ≠ []) (hslash : '/' ∉ l) (hd : '/' ∉ d) :
    jidParse buf (l ++ '@' :: d) = if d = [] then ⟨false, { Jid.cleared with localpart := snprintf 256 l }⟩ else
      ⟨true, { Jid.cleared with localpart := snprintf 256 l, domain := snprintf 256 d }⟩ := by
  have h := @parseDomain_rest { Jid.cleared with localpart := snprintf 256 l } (l ++ ['@']) d (not_mem_sign hslash) hd
  rw [List.append_assoc, List.singleton_append, List.length_append, List.length_singleton] at h
  rw [jidParse_sign buf hl hne, h]

/-- `local@domain/resource` -/
theorem jidParse_full (hl : '@' ∉ l) (hne : l ≠ []) (hslash : '/' ∉ l) (hd : '/' ∉ d)
    (hlen : (l ++ '@' :: d).length < 2^63) :
    jidParse buf (l ++ '@' :: (d ++ '/' :: r)) = if d = [] then ⟨false, { Jid.cleared with localpart := snprintf 256 l }⟩ else
      ⟨true, ⟨snprintf 256 l, snprintf 256 d, snprintf 256 r⟩⟩ := by
  have h := @parseDomain_part { Jid.cleared with localpart := snprintf 256 l } (l ++ ['@']) d r (not_mem_sign hslash) hd
    (by rw [List.append_assoc]; exact hlen)
  rw [List.append_assoc, List.append_assoc, List.singleton_append, List.length_append, List.length_singleton] at h
  rw [jidParse_sign buf hl hne, h]

end

/-! ## Bounds and parts -/

/-- The outputs are the parts of `[local '@'] domain ['/' resource]`. -/
def Exact (t : Str) (j : Jid) : Prop :=
  ∃ (l r : Option Str) (d : Str),
    t = l.elim [] (· ++ ['@']) ++ d ++ r.elim [] ('/' :: ·) ∧
    (∀ x ∈ l, x ≠ [] ∧ '@' ∉ x ∧ '/' ∉ x) ∧ d ≠ [] ∧ '/' ∉ d ∧
    j.localpart.str = l.getD [] ∧ j.domain.str = d ∧ j.resource.str = r.getD []

/-- Nothing behind the terminator is read, and a success without a cut gives the parts. -/
structure Sound (s : CString) (run : Scan) : Prop where
  bounds : ∀ p ∈ run.reads, p.2 ≤ s.str.length + 1
  parts : run.parsed.ok = true → (∀ n ∈ run.lengths, n < 256) → Exact s.str run.parsed.jid

/-- The slash comes before the `@`, and less than 254 bytes are left behind that. -/
def Wraps (t : Str) : Prop :=
  ∃ u m r, t = (u ++ '/' :: m) ++ '@' :: r ∧ '/' ∉ u ∧ '@' ∉ u ++ '/' :: m ∧ r.length < 254

section
variable (s : CString) (past : Str) (j buf : Jid)

theorem strchr_le (c : Char) : strchr (s.mem past) 0 c ≤ s.str.length := by
  by_cases hm : c ∈ s.str
  · obtain ⟨k, r, hs, hk⟩ := List.eq_append_cons_of_mem hm
    rw [(strchr_found s past hs hk).1, hs, List.length_append]
    omega
  · rw [(strchr_missing s past hm).1]

/-- Only the copy of the domain can leave the string. -/
theorem domain_bounds {start : ℕ} (hstart : start ≤ s.str.length) {k r : Str} (hs : s.str = k ++ '/' :: r) (hk : '/' ∉ k) :
    (∀ p ∈ (scanDomain (s.mem past) j start (strchr (s.mem past) 0 '/')).reads, p.2 ≤ s.str.length + 1) ↔
      start + clip (diff k.length start) ≤ s.str.length + 1 := by
  obtain ⟨hplace, hget⟩ := strchr_found s past hs hk
  have hlen : s.str.length = k.length + 1 + r.length := by
    rw [hs, List.length_append, List.length_cons]
    omega
  have hclip := clip_le (s.str.length - (k.length+1))
  rw [hplace, scanDomain_slash hget, strlen_mem s past (by omega)]
  by_cases hd : diff k.length start = 0
  · have hzero : clip (diff k.length start) = 0 := by rw [hd]; rfl
    rw [if_pos hd, hzero]
    refine iff_of_true ?_ (by omega)
    simp
  · rw [if_neg hd]
    constructor
    · exact fun h => h _ List.mem_cons_self
    · intro h p hp
      simp only [List.mem_cons, List.not_mem_nil, or_false] at hp
      rcases hp with rfl | rfl | rfl
      · exact h
      · dsimp only
        omega
      · dsimp only
        omega

theorem domain_bounds_noSlash {start : ℕ} (hstart : start ≤ s.str.length) (hslash : '/' ∉ s.str) :
    ∀ p ∈ (scanDomain (s.mem past) j start (strchr (s.mem past) 0 '/')).reads, p.2 ≤ s.str.length + 1 := by
  obtain ⟨hplace, hget⟩ := strchr_missing s past hslash
  have hclip := clip_le (s.str.length - start)
  rw [hplace, scanDomain_noSlash (by rw [hget]; decide), strlen_mem s past hstart]
  by_cases hempty : s.str.length - start = 0
  · rw [if_pos hempty]
    intro p hp
    rw [List.mem_singleton.mp hp]
    dsimp only
    omega
  · rw [if_neg hempty]
    intro p hp
    simp only [List.mem_cons, List.not_mem_nil, or_false] at hp
    rcases hp with rfl | rfl
    · dsimp only
      omega
    · dsimp only
      omega

/-- The domain starts before the first slash, or there is none: the copies stay in the string. -/
theorem domain_bounds_ordered {start : ℕ} (hstart : start ≤ s.str.length)
    (h : ∀ k r, s.str = k ++ '/' :: r → '/' ∉ k → start ≤ k.length) :
    ∀ p ∈ (scanDomain (s.mem past) j start (strchr (s.mem past) 0 '/')).reads, p.2 ≤ s.str.length + 1 := by
  by_cases hslash : '/' ∈ s.str
  · obtain ⟨k, r, hs, hk⟩ := List.eq_append_cons_of_mem hslash
    have hle := h k r hs hk
    have hlen : s.str.length = k.length + 1 + r.length := by
      rw [hs, List.length_append, List.length_cons]
      omega
    have haddr := s.addressable
    have hclip := clip_le (diff k.length start)
    have hdiff := diff_le hle (by omega)
    rw [domain_bounds s past j hstart hs hk]
    omega
  · exact domain_bounds_noSlash s past j hstart hslash

theorem lengths_part {p d r : Str} (hs : s.str = p ++ d ++ '/' :: r) (hp : '/' ∉ p) (hd : '/' ∉ d) (hne : d ≠ []) :
    (scanDomain (s.mem past) j p.length (strchr (s.mem past) 0 '/')).lengths = [d.length, r.length] := by
  have hpd : '/' ∉ p ++ d := fun hm => (List.mem_append.mp hm).elim hp hd
  obtain ⟨hplace, hget⟩ := strchr_found s past hs hpd
  have hlen : s.str.length = (p ++ d).length + 1 + r.length := by
    rw [hs, List.length_append, List.length_cons]
    omega
  have haddr := s.addressable
  have hdiff : diff (p ++ d).length p.length = d.length := by
    rw [diff_le (by rw [List.length_append]; omega) (by omega), List.length_append, Nat.add_sub_cancel_left]
  have hrest : s.str.length - ((p ++ d).length + 1) = r.length := by omega
  rw [hplace, scanDomain_slash hget, hdiff, if_neg (fun h => hne (List.eq_nil_of_length_eq_zero h)), strlen_mem s past (by omega),
    hrest]

theorem lengths_rest {p d : Str} (hs : s.str = p ++ d) (hslash : '/' ∉ s.str) (hne : d ≠ []) :
    (scanDomain (s.mem past) j p.length (strchr (s.mem past) 0 '/')).lengths = [d.length] := by
  obtain ⟨hplace, hget⟩ := strchr_missing s past hslash
  have hlen : s.str.length = p.length + d.length := by rw [hs, List.length_append]
  have hrest : s.str.length - p.length = d.length := by omega
  rw [hplace, scanDomain_noSlash (by rw [hget]; decide), strlen_mem s past (by omega), hrest,
    if_neg (fun h => hne (List.eq_nil_of_length_eq_zero h))]

/-- An address without an `@` is read in bounds and taken apart. -/
theorem sound_noSign (hsign : '@' ∉ s.str) : Sound s (scanJid buf (s.mem past)) := by
  by_cases hne : s.str = []
  · rw [scanJid_empty s past buf hne]
    exact ⟨by simp, by simp⟩
  have haddr := s.addressable
  have hfirst := strchr_le s past '/'
  constructor
  · have hrest := domain_bounds_ordered s past Jid.cleared (Nat.zero_le _) fun _ _ _ _ => Nat.zero_le _
    rw [scanJid_noSign s past buf hsign hne]
    intro p hp
    rcases List.mem_append.mp hp with hp | hp
    · simp only [List.mem_cons, List.not_mem_nil, or_false] at hp
      rcases hp with rfl | rfl | rfl
      · dsimp only
        omega
      · exact le_refl _
      · dsimp only
        omega
    · exact hrest p hp
  · intro hok hfit
    rw [scanJid_parsed] at hok ⊢
    rw [scanJid_noSign s past buf hsign hne] at hfit
    dsimp only at hfit
    by_cases hslash : '/' ∈ s.str
    · obtain ⟨d, r, hs, hd⟩ := List.eq_append_cons_of_mem hslash
      have hlen : s.str.length = d.length + 1 + r.length := by
        rw [hs, List.length_append, List.length_cons]
        omega
      rw [hs, jidParse_hostResource buf (hs ▸ hsign) hd (by omega)] at hok
      rw [hs, jidParse_hostResource buf (hs ▸ hsign) hd (by omega)]
      by_cases hd' : d = []
      · rw [if_pos hd'] at hok
        exact absurd hok (by decide)
      · have hl := @lengths_part s past Jid.cleared [] d r hs (by simp) hd hd'
        rw [List.length_nil] at hl
        rw [hl] at hfit
        rw [if_neg hd']
        exact ⟨none, some r, d, rfl, by simp, hd', hd, rfl, snprintf_fits (hfit _ (by simp)), snprintf_fits (hfit _ (by simp))⟩
    · have hl := @lengths_rest s past Jid.cleared [] s.str rfl hslash hne
      rw [List.length_nil] at hl
      rw [hl] at hfit
      rw [jidParse_host buf hsign hslash hne]
      exact ⟨none, none, s.str, by simp, by simp, hne, hslash, rfl, snprintf_fits (hfit _ (by simp)), rfl⟩

theorem sound_signFirst {r : Str} (hs : s.str = '@' :: r) : Sound s (scanJid buf (s.mem past)) := by
  have hfirst := strchr_le s past '/'
  rw [scanJid_signFirst s past buf hs]
  refine ⟨?_, by simp⟩
  intro p hp
  simp only [List.mem_cons, List.not_mem_nil, or_false] at hp
  rcases hp with rfl | rfl | rfl
  · dsimp only
    omega
  · dsimp only
    omega
  · dsimp only
    omega

/-- The searches and the copy of the localpart stay in the string. -/
theorem sign_bounds {l t : Str} (hs : s.str = l ++ '@' :: t) (hl : '@' ∉ l) (hne : l ≠ []) :
    (∀ p ∈ (scanJid buf (s.mem past)).reads, p.2 ≤ s.str.length + 1) ↔
      ∀ p ∈ (scanDomain (s.mem past) { Jid.cleared with localpart := put (s.mem past) 0 l.length } (l.length+1)
        (strchr (s.mem past) 0 '/')).reads, p.2 ≤ s.str.length + 1 := by
  have hfirst := strchr_le s past '/'
  have hclip := clip_le l.length
  have hlen : s.str.length = l.length + 1 + t.length := by
    rw [hs, List.length_append, List.length_cons]
    omega
  rw [scanJid_sign s past buf hs hl hne]
  constructor
  · intro h p hp
    exact h p (List.mem_append_right _ (List.mem_cons_of_mem _ hp))
  · intro h p hp
    simp only [List.mem_append, List.mem_cons, List.not_mem_nil, or_false] at hp
    rcases hp with (rfl | rfl | rfl) | rfl | hp
    · dsimp only
      omega
    · dsimp only
      omega
    · dsimp only
      omega
    · dsimp only
      omega
    · exact h p hp

/-- The same for an address with a localpart in front of everything else. -/
theorem sound_sign {l t : Str} (hs : s.str = l ++ '@' :: t) (hl : '@' ∉ l) (hne : l ≠ []) (hslash : '/' ∉ l) :
    Sound s (scanJid buf (s.mem past)) := by
  have haddr := s.addressable
  have hlen : s.str.length = l.length + 1 + t.length := by
    rw [hs, List.length_append, List.length_cons]
    omega
  have hstart : (l ++ ['@']).length = l.length + 1 := by rw [List.length_append, List.length_singleton]
  constructor
  · rw [sign_bounds s past buf hs hl hne]
    apply domain_bounds_ordered s past _ (by omega)
    intro k r hk hkslash
    by_contra hlt
    have hget : (l ++ ['@'])[k.length]? = some '/' := by
      have hboth : ((l ++ ['@']) ++ t)[k.length]? = some '/' := by
        rw [List.append_assoc, List.singleton_append, ← hs, hk, List.getElem?_append_right (le_refl _), Nat.sub_self]
        rfl
      rwa [List.getElem?_append_left (by omega)] at hboth
    exact not_mem_sign hslash (List.mem_of_getElem? hget)
  · intro hok hfit
    rw [scanJid_parsed] at hok ⊢
    rw [scanJid_sign s past buf hs hl hne] at hfit
    dsimp only at hfit
    have hfl : (snprintf 256 l).str = l := snprintf_fits (hfit _ List.mem_cons_self)
    have hloc : ∀ x ∈ some l, x ≠ [] ∧ '@' ∉ x ∧ '/' ∉ x := by
      rintro x ⟨⟩
      exact ⟨hne, hl, hslash⟩
    by_cases ht : '/' ∈ t
    · obtain ⟨d, r, rfl, hd⟩ := List.eq_append_cons_of_mem ht
      have hl63 : (l ++ '@' :: d).length < 2^63 := by
        simp only [List.length_append, List.length_cons] at hlen ⊢
        omega
      rw [hs, jidParse_full buf hl hne hslash hd hl63] at hok
      rw [hs, jidParse_full buf hl hne hslash hd hl63]
      by_cases hd' : d = []
      · rw [if_pos hd'] at hok
        exact absurd hok Bool.false_ne_true
      · have hassoc : s.str = (l ++ ['@']) ++ d ++ '/' :: r := by
          rw [hs]
          simp
        have hl' := @lengths_part s past { Jid.cleared with localpart := put (s.mem past) 0 l.length } _ d r hassoc
          (not_mem_sign hslash) hd hd'
        rw [hstart] at hl'
        rw [hl'] at hfit
        rw [if_neg hd']
        exact ⟨some l, some r, d, by simp, hloc, hd', hd, hfl, snprintf_fits (hfit _ (by simp)), snprintf_fits (hfit _ (by simp))⟩
    · have hnone : '/' ∉ s.str := by
        rw [hs]
        intro hm
        rcases List.mem_append.mp hm with hm | hm
        · exact hslash hm
        · rcases List.mem_cons.mp hm with hm | hm
          · exact absurd hm (by decide)
          · exact ht hm
      rw [hs, jidParse_bare buf hl hne hslash ht] at hok
      rw [hs, jidParse_bare buf hl hne hslash ht]
      by_cases ht' : t = []
      · rw [if_pos ht'] at hok
        exact absurd hok Bool.false_ne_true
      · have hassoc : s.str = (l ++ ['@']) ++ t := by
          rw [hs]
          simp
        have hl' := @lengths_rest s past { Jid.cleared with localpart := put (s.mem past) 0 l.length } _ t hassoc hnone ht'
        rw [hstart] at hl'
        rw [hl'] at hfit
        rw [if_neg ht']
        exact ⟨some l, none, t, by simp, hloc, ht', ht, hfl, snprintf_fits (hfit _ (by simp)), rfl⟩

/-- Where the slash comes first, 255 bytes are copied from behind the `@`. -/
theorem sound_wrapped_iff {u m r : Str} (hs : s.str = (u ++ '/' :: m) ++ '@' :: r) (hu : '/' ∉ u) (hsign : '@' ∉ u ++ '/' :: m) :
    Sound s (scanJid buf (s.mem past)) ↔ 254 ≤ r.length := by
  have haddr := s.addressable
  have hlen : s.str.length = (u ++ '/' :: m).length + 1 + r.length := by
    rw [hs, List.length_append, List.length_cons]
    omega
  have hshort : u.length < (u ++ '/' :: m).length := by
    rw [List.length_append, List.length_cons]
    omega
  have hne : u ++ '/' :: m ≠ [] := by simp
  have hassoc : s.str = u ++ '/' :: (m ++ '@' :: r) := by
    rw [hs]
    simp
  have hwrap : 256 ≤ diff u.length ((u ++ '/' :: m).length + 1) := diff_wrap (by omega) (by omega)
  have hclip : clip (diff u.length ((u ++ '/' :: m).length + 1)) = 255 := if_pos hwrap
  have hbounds : (∀ p ∈ (scanJid buf (s.mem past)).reads, p.2 ≤ s.str.length + 1) ↔ 254 ≤ r.length := by
    rw [sign_bounds s past buf hs hsign hne, domain_bounds s past _ (by omega) hassoc hu, hclip]
    omega
  constructor
  · exact fun h => hbounds.mp h.bounds
  · intro hr
    refine ⟨hbounds.mpr hr, ?_⟩
    intro _ hfit
    obtain ⟨hplace, hget⟩ := strchr_found s past hassoc hu
    rw [scanJid_sign s past buf hs hsign hne, hplace] at hfit
    dsimp only at hfit
    rw [scanDomain_slash hget, if_neg (by omega)] at hfit
    have hlt := hfit (diff u.length ((u ++ '/' :: m).length + 1)) (by simp)
    omega

/-- The parser stays in the string and is exact, but for the addresses whose slash comes too early. -/
theorem sound_iff : Sound s (scanJid buf (s.mem past)) ↔ ¬Wraps s.str := by
  by_cases hsign : '@' ∈ s.str
  · obtain ⟨l, t, hs, hl⟩ := List.eq_append_cons_of_mem hsign
    by_cases hslash : '/' ∈ l
    · obtain ⟨u, m, rfl, hu⟩ := List.eq_append_cons_of_mem hslash
      rw [sound_wrapped_iff s past buf hs hu hl, ← not_lt]
      apply not_congr
      constructor
      · exact fun h => ⟨u, m, t, hs, hu, hl, h⟩
      · rintro ⟨u', m', t', hs', -, hl', h'⟩
        have hl₁ : u ++ '/' :: m = u' ++ '/' :: m' := by rw [← takeWhile_ne hl, ← hs, hs', takeWhile_ne hl']
        rw [hs, hl₁] at hs'
        rw [(List.cons.inj (List.append_cancel_left hs')).2]
        exact h'
    · refine iff_of_true ?_ ?_
      · by_cases hne : l = []
        · exact sound_signFirst s past buf (hne ▸ hs)
        · exact sound_sign s past buf hs hl hne hslash
      · rintro ⟨u, m, r, hs', -, hl', -⟩
        have hl₁ : l = u ++ '/' :: m := by rw [← takeWhile_ne hl, ← hs, hs', takeWhile_ne hl']
        exact hslash (hl₁ ▸ by simp)
  · refine iff_of_true (sound_noSign s past buf hsign) ?_
    rintro ⟨u, m, r, hs', -⟩
    exact hsign (hs' ▸ by simp)

end

/-- Six characters and the terminator, of which only three are left where 255 bytes are copied. -/
def slashFirst : CString := ⟨"a/b@cd", by decide, by decide⟩

theorem slash_over_read : ¬∀ (s : CString) (past : Str) (buf : Jid), Sound s (scanJid buf (s.mem past)) := by
  intro h
  have hread := (@sound_wrapped_iff slashFirst [] Jid.cleared "a" "b" "cd" rfl (by decide) (by decide)).mp
    (h slashFirst [] Jid.cleared)
  exact absurd hread (by decide)

/-! ## Formatting and parsing -/

/-- Three parts of an address, in the arrays they are kept in. -/
structure Parts where
  jid : Jid
  local_ne : jid.localpart.str ≠ []
  local_sign : '@' ∉ jid.localpart.str
  local_slash : '/' ∉ jid.localpart.str
  domain_ne : jid.domain.str ≠ []
  domain_slash : '/' ∉ jid.domain.str
  null : '\x00' ∉ jid.localpart.str ∧ '\x00' ∉ jid.domain.str ∧ '\x00' ∉ jid.resource.str

example : Parts where
  jid := ⟨⟨"a", by decide⟩, ⟨"h@", by decide⟩, ⟨"/r@", by decide⟩⟩
  local_ne := by decide
  local_sign := by decide
  local_slash := by decide
  domain_ne := by decide
  domain_slash := by decide
  null := by decide

/-- Three parts of 255 bytes and the two separators fill the array but for the terminator. -/
theorem jidFull_str (l d r : Buf 256) : (jidFull l d r).str = l.str ++ '@' :: (d.str ++ '/' :: r.str) := by
  have hl := l.fits
  have hd := d.fits
  have hr := r.fits
  have hassoc : l.str ++ '@' :: d.str ++ '/' :: r.str = l.str ++ '@' :: (d.str ++ '/' :: r.str) := by simp
  rw [jidFull, snprintf_fits, hassoc]
  simp only [List.length_append, List.length_cons]
  omega

namespace Parts
variable (p : Parts) (buf : Jid) (past : Str)

/-- `jid_full` of the parts. -/
def full : Buf 768 := jidFull p.jid.localpart p.jid.domain p.jid.resource

/-- `jid_bare` of the parts. -/
def bare : Buf 512 := jidBare p.jid.localpart p.jid.domain

theorem not_mem_join {l r : Str} {c : Char} (hc : c ≠ '\x00') (hl : '\x00' ∉ l) (hr : '\x00' ∉ r) : '\x00' ∉ l ++ c :: r := by
  rw [List.mem_append, List.mem_cons]
  rintro (h | h | h)
  · exact hl h
  · exact hc h.symm
  · exact hr h

def fullString : CString where
  str := p.full.str
  null := by
    obtain ⟨hl, hd, hr⟩ := p.null
    rw [full, jidFull_str]
    exact not_mem_join (by decide) hl (not_mem_join (by decide) hd hr)
  addressable := Nat.lt_trans p.full.fits (by decide)

def bareString : CString where
  str := p.bare.str
  null := by
    obtain ⟨hl, hd, -⟩ := p.null
    rw [bare, jidBare_str]
    exact not_mem_join (by decide) hl hd
  addressable := Nat.lt_trans p.bare.fits (by decide)

theorem parse_full : jidParse buf p.full.str = ⟨true, p.jid⟩ := by
  have hl := p.jid.localpart.fits
  have hd := p.jid.domain.fits
  have hlen : (p.jid.localpart.str ++ '@' :: p.jid.domain.str).length < 2^63 := by
    rw [List.length_append, List.length_cons]
    omega
  rw [full, jidFull_str, jidParse_full buf p.local_sign p.local_ne p.local_slash p.domain_slash hlen, if_neg p.domain_ne,
    snprintf_buf, snprintf_buf, snprintf_buf]

theorem parse_bare : jidParse buf p.bare.str = ⟨true, { p.jid with resource := Buf.empty }⟩ := by
  rw [bare, jidBare_str, jidParse_bare buf p.local_sign p.local_ne p.local_slash p.domain_slash, if_neg p.domain_ne, snprintf_buf,
    snprintf_buf]
  rfl

/-- Parsing undoes formatting, whatever the buffers held before and whatever lies behind the string. -/
theorem parse_format :
    (scanJid buf (p.full.str ++ '\x00' :: past)).parsed = ⟨true, p.jid⟩ ∧
      (scanJid buf (p.bare.str ++ '\x00' :: past)).parsed = ⟨true, { p.jid with resource := Buf.empty }⟩ ∧
      (scanJid buf (p.full.str ++ '\x00' :: past)).parsed.jid.bare = p.bare := by
  have hfull := (scanJid_parsed p.fullString past buf).trans (p.parse_full buf)
  have hbare := (scanJid_parsed p.bareString past buf).trans (p.parse_bare buf)
  exact ⟨hfull, hbare, congrArg (fun q : Parsed => q.jid.bare) hfull⟩

end Parts

end Xmppd.Addresses
