import Xmppd.Base64Arrays
import Xmppd.PlainPayload

/-!
# The PLAIN payload in its array

`auth_handle_sasl` decodes into `decoded[4096]`, writes a terminator behind what was
decoded, and moves one index over it. After each of the two scans the index is put one
place further, past the terminator if the scan found no zero byte, and is compared with
the length before anything is read there.
-/
namespace Xmppd.PlainArrays
open CStrings Scanning Base64Arrays PlainPayload

/-- `while (i < decoded_len && decoded[i] != '\0') i++`. -/
def skipField (decoded : Filled 4096) (decodedLen i : ℕ) : Checked ℕ :=
  if i < decodedLen then do
    let c ← decoded.get i
    if c ≠ '\x00' then skipField decoded decodedLen (i+1) else some i
  else some i
termination_by decodedLen - i

/-- The first scan, behind a look at the first byte. -/
def skipZid (decoded : Filled 4096) (decodedLen : ℕ) : Checked ℕ := do
  let c ← decoded.get 0
  if c ≠ '\x00' then skipField decoded decodedLen 0 else some 0

/-- The array with the terminator, the length of what was decoded, and the two pointers as
indices, where they have been set. -/
structure Pointers where
  decoded : Filled 4096
  decodedLen : ℕ
  authcid : Option ℕ
  passwd : Option ℕ

/-- The scan of what was decoded. -/
def scanDecoded (decoded : Filled 4096) : Checked Pointers := do
  let decodedLen := decoded.len
  let decoded ← decoded.push '\x00'
  let i ← skipZid decoded decodedLen
  let i := i+1
  if decodedLen ≤ i then some ⟨decoded, decodedLen, none, none⟩
  else
    let authcid := i
    let i ← skipField decoded decodedLen i
    let i := i+1
    if decodedLen ≤ i then some ⟨decoded, decodedLen, some authcid, none⟩
    else some ⟨decoded, decodedLen, some authcid, some i⟩

/-- `auth_handle_sasl` on the content of the element, up to the check of the password; `some none`
where it answers with a failure before the scan. -/
def authHandleSasl (content : Str) : Checked (Option Pointers) :=
  if content = [] then some none
  else do
    match ← base64Decode content with
    | none => some none
    | some decoded => if decoded.len < 3 then some none else (scanDecoded decoded).map some

/-- A string that starts at the index and whose terminator is not behind `decodedLen`. -/
def Terminated (p : Pointers) (i : ℕ) : Prop :=
  ∃ w post, p.decoded.bytes = p.decoded.bytes.take i ++ w ++ '\x00' :: post ∧ '\x00' ∉ w ∧ i + w.length ≤ p.decodedLen

theorem skipField_step {buf : Filled 4096} {len i : ℕ} {c : Char} (hi : i < len) (hget : buf.get i = some c) :
    skipField buf len i = if c ≠ '\x00' then skipField buf len (i+1) else some i := by
  rw [skipField, if_pos hi, hget]
  rfl

section
variable {decoded buf : Filled 4096} (hbuf : buf.bytes = decoded.bytes ++ ['\x00'])
include hbuf

theorem get_eq {i : ℕ} (h : i < decoded.bytes.length) : buf.get i = some decoded.bytes[i] := by
  rw [Filled.get, hbuf, List.getElem?_append_left h]
  exact List.getElem?_eq_getElem h

/-- The scan reads nothing behind the length, and stops where the index of the array stops. -/
theorem skipField_eq (i : ℕ) : skipField buf decoded.len i = some (advance (· ≠ '\x00') decoded.bytes i) := by
  fun_induction advance (· ≠ '\x00') decoded.bytes i with
  | case1 i h hp ih =>
      have hlt : i < decoded.len := h
      rw [skipField_step hlt (get_eq hbuf h), if_pos (of_decide_eq_true hp), ih]
  | case2 i h hp =>
      have hlt : i < decoded.len := h
      rw [skipField_step hlt (get_eq hbuf h), if_neg fun hne => hp (decide_eq_true hne)]
  | case3 i h =>
      have hge : ¬i < decoded.len := h
      rw [skipField, if_neg hge]

theorem skipZid_eq : skipZid buf decoded.len = some (advance (· ≠ '\x00') decoded.bytes 0) := by
  have hfirst := first_index decoded.bytes
  have hget : buf.get 0 = (decoded.bytes ++ ['\x00']).head? := by
    rw [Filled.get, hbuf, List.head?_eq_getElem?]
  obtain ⟨c, hc⟩ : ∃ c, (decoded.bytes ++ ['\x00']).head? = some c := by
    cases decoded.bytes with
    | nil => exact ⟨_, rfl⟩
    | cons c cs => exact ⟨c, rfl⟩
  rw [hc] at hfirst
  rw [skipZid, hget, hc]
  simp only [Option.bind_eq_bind, Option.bind_some]
  by_cases hzero : c = '\x00'
  · rw [if_pos (congrArg some hzero)] at hfirst
    rw [if_neg (not_not_intro hzero), ← hfirst]
  · rw [if_pos hzero, skipField_eq hbuf]

/-- From any index up to the length there is a terminated string. -/
theorem terminated (p : Pointers) (hp : p.decoded = buf) (hlen : p.decodedLen = decoded.len) {i : ℕ} (hi : i ≤ decoded.len) :
    Terminated p i := by
  have hdrop : buf.bytes.drop i = decoded.bytes.drop i ++ ['\x00'] := by
    rw [hbuf, List.drop_append_of_le_length hi]
  have hsplit : buf.bytes = buf.bytes.take i ++ (decoded.bytes.drop i ++ ['\x00']) := by
    rw [← hdrop, List.take_append_drop]
  unfold Terminated
  rw [hp, hlen]
  by_cases hzero : '\x00' ∈ decoded.bytes.drop i
  · obtain ⟨w, post, hw, hnone⟩ := List.eq_append_cons_of_mem hzero
    have hle := congrArg List.length hw
    rw [List.length_drop, List.length_append, List.length_cons] at hle
    refine ⟨w, post ++ ['\x00'], ?_, hnone, ?_⟩
    · rw [hw] at hsplit
      simpa using hsplit
    · unfold Filled.len at hi ⊢
      omega
  · refine ⟨decoded.bytes.drop i, [], ?_, hzero, ?_⟩
    · rw [List.append_assoc]
      exact hsplit
    · rw [List.length_drop]
      unfold Filled.len at hi ⊢
      omega

end

/-- The scan of what was decoded, with the index of `scanPlain`. -/
theorem scanDecoded_eq {decoded : Filled 4096} (hlen : decoded.len < 4096) :
    ∃ p, scanDecoded decoded = some p ∧ p.decoded.bytes = decoded.bytes ++ ['\x00'] ∧ p.decodedLen = decoded.len ∧
      (∀ i, p.authcid = some i → i < decoded.len) ∧ (∀ i, p.passwd = some i → i < decoded.len) ∧
      (3 ≤ decoded.len → scanPlain decoded.bytes =
        p.passwd.bind fun j => p.authcid.map fun i => (cstr p.decoded.bytes i, cstr p.decoded.bytes j)) := by
  obtain ⟨buf, hpush, hbuf⟩ := decoded.push_some hlen '\x00'
  have hscan : ∀ h : 3 ≤ decoded.len, scanPlain decoded.bytes =
      let i := advance (· ≠ '\x00') decoded.bytes 0 + 1
      if decoded.len ≤ i then none
      else
        let j := advance (· ≠ '\x00') decoded.bytes i + 1
        if decoded.len ≤ j then none else some (cstr buf.bytes i, cstr buf.bytes j) := by
    intro h
    have hlong : ¬decoded.bytes.length < 3 := by
      unfold Filled.len at h
      omega
    unfold scanPlain
    dsimp only
    rw [if_neg hlong, first_index, hbuf]
    rfl
  unfold scanDecoded
  rw [hpush]
  simp only [Option.bind_eq_bind, Option.bind_some]
  rw [skipZid_eq hbuf, Option.bind_some]
  dsimp only at hscan
  by_cases hfirst : decoded.len ≤ advance (· ≠ '\x00') decoded.bytes 0 + 1
  · rw [if_pos hfirst]
    refine ⟨_, rfl, hbuf, rfl, by simp, by simp, fun h => ?_⟩
    rw [hscan h, if_pos hfirst]
    rfl
  · rw [if_neg hfirst, skipField_eq hbuf, Option.bind_some]
    by_cases hsecond : decoded.len ≤ advance (· ≠ '\x00') decoded.bytes (advance (· ≠ '\x00') decoded.bytes 0 + 1) + 1
    · rw [if_pos hsecond]
      refine ⟨_, rfl, hbuf, rfl, ?_, by simp, fun h => ?_⟩
      · rintro _ ⟨⟩
        omega
      · rw [hscan h, if_neg hfirst, if_pos hsecond]
        rfl
    · rw [if_neg hsecond]
      refine ⟨_, rfl, hbuf, rfl, ?_, ?_, fun h => ?_⟩
      · rintro _ ⟨⟩
        omega
      · rintro _ ⟨⟩
        omega
      · rw [hscan h, if_neg hfirst, if_neg hsecond]
        rfl

/-- The strings at the two pointers, if both are set. -/
def Pointers.strings (p : Pointers) : Option (Str × Str) :=
  p.passwd.bind fun j => p.authcid.map fun i => (cstr p.decoded.bytes i, cstr p.decoded.bytes j)

/-- The array holds what was decoded and a terminator, and each pointer that is set points
at a string in it. -/
structure Within (p : Pointers) : Prop where
  len_eq : p.decoded.len = p.decodedLen + 1
  terminator : p.decodedLen < 4096
  authcid : ∀ i, p.authcid = some i → i < p.decodedLen ∧ Terminated p i
  passwd : ∀ i, p.passwd = some i → i < p.decodedLen ∧ Terminated p i

theorem scanDecoded_within {decoded : Filled 4096} (hlen : decoded.len < 4096) :
    ∃ p, scanDecoded decoded = some p ∧ Within p ∧ (3 ≤ decoded.len → p.strings = scanPlain decoded.bytes) := by
  obtain ⟨p, hp, hbytes, hlen', hauth, hpass, hscan⟩ := scanDecoded_eq hlen
  refine ⟨p, hp, ⟨?_, by omega, fun i hi => ?_, fun i hi => ?_⟩, fun h => (hscan h).symm⟩
  · rw [Filled.len, hbytes, List.length_append, List.length_singleton, hlen', Filled.len]
  · have hlt := hauth i hi
    exact ⟨by omega, terminated hbytes p rfl hlen' (by omega)⟩
  · have hlt := hpass i hi
    exact ⟨by omega, terminated hbytes p rfl hlen' (by omega)⟩

/-- Whatever the element contains, no array is left: not by the decoder, not by the terminator,
not by the scans. -/
theorem payload_within (content : Str) :
    (∃ r, base64Decode content = some r ∧ ∀ out ∈ r, out.len ≤ 3072) ∧
      ∃ r, authHandleSasl content = some r ∧ ∀ p ∈ r, Within p := by
  obtain ⟨r, hr, -, hlen⟩ := base64Decode_eq content
  refine ⟨⟨r, hr, hlen⟩, ?_⟩
  unfold authHandleSasl
  by_cases hempty : content = []
  · rw [if_pos hempty]
    exact ⟨none, rfl, by simp⟩
  rw [if_neg hempty, hr]
  simp only [Option.bind_eq_bind, Option.bind_some]
  cases r with
  | none => exact ⟨none, rfl, by simp⟩
  | some decoded =>
      dsimp only
      have hdec := hlen decoded rfl
      by_cases hshort : decoded.len < 3
      · rw [if_pos hshort]
        exact ⟨none, rfl, by simp⟩
      · obtain ⟨p, hp, hwithin, -⟩ := @scanDecoded_within decoded (by omega)
        rw [if_neg hshort, hp]
        exact ⟨some p, rfl, by rintro _ ⟨⟩; exact hwithin⟩

/-- The credentials the server checks are the strings at the two pointers. -/
theorem credentials_strings {stanza : LibXml.Node} {r : Option Pointers} (hm : stanza.getProp "mechanism" = some ("PLAIN" : Str))
    (hr : authHandleSasl stanza.content = some r) :
    Auth.credentials stanza = (r.bind Pointers.strings).elim (.error "not-authorized") .ok := by
  unfold authHandleSasl at hr
  by_cases hempty : stanza.content = []
  · rw [if_pos hempty] at hr
    obtain rfl := Option.some.inj hr
    rw [Auth.credentials, if_neg fun h => h hm, if_pos hempty]
    rfl
  obtain ⟨d, hd, hmap, hlen⟩ := base64Decode_eq stanza.content
  rw [if_neg hempty, hd] at hr
  simp only [Option.bind_eq_bind, Option.bind_some] at hr
  cases d with
  | none =>
      obtain rfl := Option.some.inj hr
      rw [Auth.credentials, if_neg fun h => h hm, if_neg hempty, ← hmap]
      rfl
  | some decoded =>
      have hbytes : Util.base64Decode stanza.content = some decoded.bytes := hmap.symm
      have hdec := hlen decoded rfl
      dsimp only at hr
      rw [credentials_scanPlain hm hempty hbytes]
      by_cases hshort : decoded.len < 3
      · rw [if_pos hshort] at hr
        obtain rfl := Option.some.inj hr
        have hnone : scanPlain decoded.bytes = none := if_pos hshort
        rw [hnone]
        rfl
      · obtain ⟨p, hp, -, hstrings⟩ := @scanDecoded_within decoded (by omega)
        rw [if_neg hshort, hp] at hr
        obtain rfl := Option.some.inj hr
        rw [← hstrings (by omega)]
        rfl

/-! ## The slices of the Go server -/

/-- `b[i:j]`. -/
def slice (b : Str) (i j : ℕ) : Checked Str := if i ≤ j ∧ j ≤ b.length then some ((b.take j).drop i) else none

/-- `parseSASLPlain`. -/
def parseSASLPlain (b : Str) : Checked (Str × Str × Bool) :=
  let i := advance (· ≠ '\x00') b 0 + 1
  if b.length ≤ i then some ([], [], false)
  else do
    let j := advance (· ≠ '\x00') b i
    let authcid ← slice b i j
    let j := j+1
    if b.length < j then some ([], [], false)
    else do
      let passwd ← slice b j b.length
      if authcid = [] ∨ passwd = [] then some ([], [], false) else some (authcid, passwd, true)

theorem slice_some {b : Str} {i j : ℕ} (hij : i ≤ j) (hj : j ≤ b.length) : slice b i j = some ((b.take j).drop i) := if_pos ⟨hij, hj⟩

/-- Every slice is in range, and the results are those of `scanSlices`. -/
theorem parseSASLPlain_eq (b : Str) :
    parseSASLPlain b = some ((scanSlices b).elim ([], [], false) fun c => (c.1, c.2, true)) := by
  unfold parseSASLPlain scanSlices
  dsimp only
  by_cases hfirst : b.length ≤ advance (· ≠ '\x00') b 0 + 1
  · rw [if_pos hfirst, if_pos hfirst]
    rfl
  have hle := advance_le (· ≠ '\x00') b (advance (· ≠ '\x00') b 0 + 1) (by omega)
  have hge := le_advance (· ≠ '\x00') b (advance (· ≠ '\x00') b 0 + 1)
  rw [if_neg hfirst, if_neg hfirst, slice_some hge hle]
  simp only [Option.bind_eq_bind, Option.bind_some]
  by_cases hsecond : b.length < advance (· ≠ '\x00') b (advance (· ≠ '\x00') b 0 + 1) + 1
  · rw [if_pos hsecond, if_pos hsecond]
    rfl
  rw [if_neg hsecond, if_neg hsecond, slice_some (by omega) (le_refl _), List.take_length]
  simp only [Option.bind_some]
  split
  · rfl
  · rfl

/-- The bytes that are accepted, with the two strings that are returned. -/
theorem parseSASLPlain_iff (b : Str) :
    (∃ r, parseSASLPlain b = some r) ∧
      ∀ a p, parseSASLPlain b = some (a, p, true) ↔ (∃ z, b = z ++ '\x00' :: (a ++ '\x00' :: p) ∧ '\x00' ∉ z) ∧ '\x00' ∉ a ∧ a ≠ [] ∧ p ≠ [] := by
  refine ⟨⟨_, parseSASLPlain_eq b⟩, fun a p => ?_⟩
  rw [parseSASLPlain_eq, Option.some.injEq]
  rcases shapes b with hb | hb | ⟨z, a', p', h⟩
  · rw [(scan_short (.inl hb)).2]
    refine iff_of_false (by simp) ?_
    rintro ⟨⟨z, rfl, -⟩, -⟩
    exact hb (by simp)
  · rw [(scan_short (.inr hb)).2]
    refine iff_of_false (by simp) ?_
    obtain ⟨z', r, rfl, hz', hr⟩ := hb
    rintro ⟨⟨z, heq, hz⟩, -⟩
    have hfirst : z' = z := by rw [← takeWhile_ne hz', heq, takeWhile_ne hz]
    rw [hfirst] at heq
    exact hr ((List.cons.inj (List.append_cancel_left heq)).2 ▸ by simp)
  · rw [h.scanSlices]
    by_cases hempty : a' = [] ∨ p' = []
    · rw [if_pos hempty]
      refine iff_of_false (by simp) ?_
      rintro ⟨⟨z', heq, hz⟩, hzero, ha, hp⟩
      obtain ⟨-, rfl, rfl⟩ := h.unique ⟨heq, hz, hzero⟩
      exact hempty.elim ha hp
    · rw [if_neg hempty, Option.elim_some]
      constructor
      · rintro ⟨⟩
        exact ⟨⟨z, h.eq, h.zid⟩, h.cid, fun ha => hempty (.inl ha), fun hp => hempty (.inr hp)⟩
      · rintro ⟨⟨z', heq, hz⟩, hzero, -, -⟩
        obtain ⟨-, rfl, rfl⟩ := h.unique ⟨heq, hz, hzero⟩
        rfl

end Xmppd.PlainArrays
