import Xmppd.Base64
import Xmppd.Util

/-!
# The base64 decoder in its arrays

`base64_decode` copies the characters that count into `clean[4096]` and decodes four of
them at a time into an array whose size it is not told. Three bytes for four characters
keep within it. The decoder looks for the padding sign only in the last two places of
each group and reads it as zero bits anywhere else, so it also takes texts that are not
base64: a group of padding alone, or one that goes on behind the padding.
-/
namespace Xmppd.Base64Arrays
open CStrings Util Base64

/-- A `char[n]` array of which the places from the start have been written. -/
structure Filled (n : ℕ) where
  bytes : Str
  fits : bytes.length ≤ n

/-- `none` where an index is outside of what may be accessed. -/
abbrev Checked := Option

namespace Filled
variable {n : ℕ}

def empty : Filled n := ⟨[], Nat.zero_le n⟩

def len (b : Filled n) : ℕ := b.bytes.length

/-- `b[len++] = c`. -/
def push (b : Filled n) (c : Char) : Checked (Filled n) :=
  if h : b.len < n then some ⟨b.bytes ++ [c], by rw [List.length_append, List.length_singleton]; exact h⟩ else none

/-- `if (p) b[len++] = c`. -/
def pushIf (b : Filled n) (p : Prop) [Decidable p] (c : Char) : Checked (Filled n) := if p then b.push c else some b

/-- `b[i]`. -/
def get (b : Filled n) (i : ℕ) : Checked Char := b.bytes[i]?

theorem push_some {b : Filled n} (h : b.len < n) (c : Char) : ∃ b', b.push c = some b' ∧ b'.bytes = b.bytes ++ [c] := by
  unfold push
  rw [dif_pos h]
  exact ⟨_, rfl, rfl⟩

theorem push_if {b : Filled n} (h : b.len < n) (p : Prop) [Decidable p] (c : Char) :
    ∃ b', b.pushIf p c = some b' ∧ b'.bytes = b.bytes ++ if p then [c] else [] := by
  unfold pushIf
  by_cases hp : p
  · obtain ⟨b', hb', hbytes⟩ := push_some h c
    exact ⟨b', by rw [if_pos hp, hb'], by rw [if_pos hp, hbytes]⟩
  · exact ⟨b, by rw [if_neg hp], by rw [if_neg hp, List.append_nil]⟩

end Filled

/-- The first loop: `some none` is the return value -1. -/
def strip : Str → Filled 4096 → Checked (Option (Filled 4096))
  | [], clean => some (some clean)
  | c :: rest, clean =>
      if b64Valid c then
        if 4096 ≤ clean.len then some none
        else do
          let clean ← clean.push c
          strip rest clean
      else strip rest clean

/-- The second loop, from `i` on. -/
def quanta (clean : Filled 4096) (i : ℕ) (out : Filled 4096) : Checked (Filled 4096) :=
  if i < clean.len then do
    let c0 ← clean.get i
    let c1 ← clean.get (i+1)
    let c2 ← clean.get (i+2)
    let c3 ← clean.get (i+3)
    let a := b64Table c0
    let b := b64Table c1
    let c := if c2 ≠ '=' then b64Table c2 else 0
    let d := if c3 ≠ '=' then b64Table c3 else 0
    let triple := a <<< 18 ||| b <<< 12 ||| c <<< 6 ||| d
    let out ← out.push (Char.ofNat ((triple >>> 16) % 256))
    let out ← out.pushIf (c2 ≠ '=') (Char.ofNat ((triple >>> 8) % 256))
    let out ← out.pushIf (c3 ≠ '=') (Char.ofNat (triple % 256))
    quanta clean (i+4) out
  else some out
termination_by clean.len - i

/-- `base64_decode`: `some none` is the return value -1, otherwise it is 0 and the array is
the output with its length. -/
def base64Decode (s : Str) : Checked (Option (Filled 4096)) := do
  match ← strip s .empty with
  | none => some none
  | some clean =>
      if clean.len % 4 ≠ 0 then some none
      else do
        let out ← quanta clean 0 .empty
        some (some out)

theorem b64Table_lt (c : Char) : b64Table c < 64 := by
  unfold b64Table
  split_ifs with hupper hlower hdigit
  · have hle : c.toNat ≤ 90 := hupper.2
    change c.toNat - 65 < 64
    omega
  · have hle : c.toNat ≤ 122 := hlower.2
    change c.toNat - 97 + 26 < 64
    omega
  · have hle : c.toNat ≤ 57 := hdigit.2
    change c.toNat - 48 + 52 < 64
    omega
  all_goals omega

/-- Six more bits behind the ones there are. -/
theorem or_sextet {y : ℕ} (hy : y < 64) (x k : ℕ) : x <<< (k+6) ||| y <<< k = (x * 2^6 + y) <<< k := by
  have hlt : y <<< k < 2^(k+6) := by
    rw [Nat.shiftLeft_eq, Nat.pow_add, Nat.mul_comm]
    exact Nat.mul_lt_mul_of_pos_left hy (Nat.two_pow_pos k)
  rw [← Nat.shiftLeft_add_eq_or_of_lt hlt, Nat.shiftLeft_eq, Nat.shiftLeft_eq, Nat.shiftLeft_eq, Nat.pow_add, Nat.add_mul,
    Nat.mul_comm (2^k), Nat.mul_assoc]

theorem triple_eq {b c d : ℕ} (hb : b < 64) (hc : c < 64) (hd : d < 64) (a : ℕ) :
    a <<< 18 ||| b <<< 12 ||| c <<< 6 ||| d = a * 2^18 + b * 2^12 + c * 2^6 + d := by
  have hlast := or_sextet hd ((a * 2^6 + b) * 2^6 + c) 0
  rw [Nat.shiftLeft_zero, Nat.shiftLeft_zero] at hlast
  rw [or_sextet hb a 12, or_sextet hc (a * 2^6 + b) 6, hlast]
  omega

theorem strip_eq (s : Str) (clean : Filled 4096) :
    (clean.len + (s.filter b64Valid).length ≤ 4096 →
      ∃ full, strip s clean = some (some full) ∧ full.bytes = clean.bytes ++ s.filter b64Valid) ∧
    (4096 < clean.len + (s.filter b64Valid).length → strip s clean = some none) := by
  induction s generalizing clean with
  | nil =>
      have hfits := clean.fits
      constructor
      · intro _
        exact ⟨clean, rfl, by simp⟩
      · intro h
        rw [List.filter_nil, List.length_nil] at h
        exact absurd hfits (by unfold Filled.len at h; omega)
  | cons c rest ih =>
      cases hc : b64Valid c with
      | false =>
          rw [List.filter_cons_of_neg (by rw [hc]; decide), strip, if_neg (by rw [hc]; decide)]
          exact ih clean
      | true =>
          rw [List.filter_cons_of_pos hc, strip, if_pos hc]
          split
          · rename_i hfull
            refine ⟨fun h => ?_, fun _ => rfl⟩
            rw [List.length_cons] at h
            omega
          · rename_i hfull
            obtain ⟨more, hpush, hbytes⟩ := clean.push_some (by omega) c
            have hlen : more.len = clean.len + 1 := by
              unfold Filled.len
              rw [hbytes, List.length_append, List.length_singleton]
            rw [hpush, List.length_cons]
            obtain ⟨hfit, hlong⟩ := ih more
            rw [hlen] at hfit hlong
            constructor
            · intro h
              obtain ⟨full, hstrip, hfull⟩ := hfit (by omega)
              exact ⟨full, hstrip, by rw [hfull, hbytes, List.append_assoc, List.singleton_append]⟩
            · intro h
              exact hlong (by omega)

/-- What one group gives. -/
def group (a b c d : Char) : Str := decodeQuads [a, b, c, d]

theorem decodeQuads_cons (a b c d : Char) (rest : Str) : decodeQuads (a :: b :: c :: d :: rest) = group a b c d ++ decodeQuads rest := by
  unfold group
  simp only [decodeQuads, List.append_nil, List.cons_append, List.append_assoc]

theorem length_group (a b c d : Char) : (group a b c d).length ≤ 3 := by
  unfold group
  simp only [decodeQuads, List.length_cons, List.length_append, List.length_nil]
  split <;> split <;> simp

theorem length_decodeQuads (t : Str) : 4 * (decodeQuads t).length ≤ 3 * t.length := by
  induction t using decodeQuads.induct with
  | case1 a b c d rest ih =>
      have hgroup := length_group a b c d
      rw [decodeQuads_cons]
      simp only [List.length_append, List.length_cons]
      omega
  | case2 t h => simp [decodeQuads]

theorem value_lt (c : Char) : (if c ≠ '=' then b64Table c else 0) < 64 := by
  split
  · exact b64Table_lt c
  · decide

/-- One round of the second loop. -/
theorem quanta_step {clean out : Filled 4096} {pre rest : Str} {a b c d : Char} (hclean : clean.bytes = pre ++ a :: b :: c :: d :: rest)
    (hout : out.len + 3 ≤ 4096) :
    ∃ more, quanta clean pre.length out = quanta clean (pre.length+4) more ∧ more.bytes = out.bytes ++ group a b c d := by
  have hzero : clean.get pre.length = some a := by
    rw [Filled.get, hclean, List.getElem?_append_right Nat.le.refl, Nat.sub_self]
    rfl
  have hget : ∀ k, clean.get (pre.length + k) = (a :: b :: c :: d :: rest)[k]? := by
    intro k
    rw [Filled.get, hclean, List.getElem?_append_right (by omega), Nat.add_sub_cancel_left]
  have hlt : pre.length < clean.len := by
    rw [Filled.len, hclean, List.length_append, List.length_cons]
    omega
  have hvc := value_lt c
  have hvd := value_lt d
  set vc := if c ≠ '=' then b64Table c else 0 with hc
  set vd := if d ≠ '=' then b64Table d else 0 with hd
  obtain ⟨first, hfirst, hbytes⟩ := out.push_some (by omega)
    (Char.ofNat ((b64Table a * 2^18 + b64Table b * 2^12 + vc * 2^6 + vd) / 2^16 % 256))
  have hlen : first.len = out.len + 1 := by rw [Filled.len, hbytes, List.length_append, List.length_singleton, Filled.len]
  obtain ⟨second, hsecond, hbytes'⟩ := first.push_if (by omega) (c ≠ '=')
    (Char.ofNat ((b64Table a * 2^18 + b64Table b * 2^12 + vc * 2^6 + vd) / 2^8 % 256))
  have hlen' : second.len ≤ first.len + 1 := by
    rw [Filled.len, hbytes', List.length_append, Filled.len]
    split <;> simp
  obtain ⟨third, hthird, hbytes''⟩ := second.push_if (by omega) (d ≠ '=')
    (Char.ofNat ((b64Table a * 2^18 + b64Table b * 2^12 + vc * 2^6 + vd) % 256))
  refine ⟨third, ?_, ?_⟩
  · rw [quanta, if_pos hlt, hzero, hget 1, hget 2, hget 3]
    simp only [List.getElem?_cons_zero, List.getElem?_cons_succ, Option.bind_eq_bind, Option.bind_some]
    rw [← hc, ← hd]
    rw [triple_eq (b64Table_lt b) hvc hvd, Nat.shiftRight_eq_div_pow, Nat.shiftRight_eq_div_pow, hfirst, Option.bind_some,
      hsecond, Option.bind_some, hthird, Option.bind_some]
  · rw [hbytes'', hbytes', hbytes]
    simp only [group, decodeQuads, List.append_nil, List.append_assoc, List.singleton_append]
    rfl

/-- The second loop does not leave the arrays, and gives what the groups give. -/
theorem quanta_eq {clean : Filled 4096} {pre rest : Str} {out : Filled 4096} (hclean : clean.bytes = pre ++ rest)
    (hrest : rest.length % 4 = 0) (hout : 4 * out.len + 3 * rest.length ≤ 4 * 4096) :
    ∃ full, quanta clean pre.length out = some full ∧ full.bytes = out.bytes ++ decodeQuads rest := by
  induction rest using decodeQuads.induct generalizing pre out with
  | case1 a b c d rest ih =>
      simp only [List.length_cons] at hrest hout
      obtain ⟨more, hmore, hbytes⟩ := @quanta_step clean out pre rest a b c d hclean (by omega)
      have hgroup := length_group a b c d
      have hlen : more.len = out.len + (group a b c d).length := by rw [Filled.len, hbytes, List.length_append, Filled.len]
      have hpre : (pre ++ [a, b, c, d]).length = pre.length + 4 := by
        rw [List.length_append]
        rfl
      obtain ⟨full, hfull, hbytes'⟩ := @ih (pre ++ [a, b, c, d]) more (by rw [hclean]; simp) (by omega) (by omega)
      rw [hpre] at hfull
      exact ⟨full, hmore.trans hfull, by rw [hbytes', hbytes, decodeQuads_cons, List.append_assoc]⟩
  | case2 t hshort =>
      have hnil : t = [] := by
        match t, hshort, hrest with
        | [], _, _ => rfl
        | [_], _, h | [_, _], _, h | [_, _, _], _, h => simp at h
        | a :: b :: c :: d :: rest, hshort, _ => exact absurd rfl (hshort a b c d rest)
      have hend : ¬pre.length < clean.len := by rw [Filled.len, hclean, hnil, List.append_nil]; omega
      exact ⟨out, by rw [quanta, if_neg hend], by rw [hnil, decodeQuads, List.append_nil]; simp⟩

/-- The decoder stays within both arrays, and gives what the decoder of strings gives. -/
theorem base64Decode_eq (s : Str) :
    ∃ r, base64Decode s = some r ∧ r.map Filled.bytes = Util.base64Decode s ∧ ∀ out ∈ r, out.len ≤ 3072 := by
  have hempty : (Filled.empty : Filled 4096).len = 0 := rfl
  obtain ⟨hfit, hlong⟩ := strip_eq s .empty
  rw [hempty, Nat.zero_add] at hfit hlong
  unfold base64Decode Util.base64Decode
  dsimp only
  by_cases hlen : 4096 < (s.filter b64Valid).length
  · rw [hlong hlen, if_pos hlen]
    exact ⟨none, rfl, rfl, by simp⟩
  obtain ⟨clean, hclean, hbytes⟩ := hfit (by omega)
  have hclen : clean.len = (s.filter b64Valid).length := congrArg List.length hbytes
  rw [hclean, if_neg hlen]
  by_cases hmod : (s.filter b64Valid).length % 4 = 0
  · obtain ⟨out, hout, hbytes'⟩ := @quanta_eq clean [] (s.filter b64Valid) .empty hbytes hmod (by rw [hempty]; omega)
    have hdec := length_decodeQuads (s.filter b64Valid)
    have hshort : out.len ≤ 3072 := by
      rw [Filled.len, hbytes', Filled.empty, List.nil_append]
      omega
    refine ⟨some out, ?_, ?_, ?_⟩
    · simp only [Option.bind_eq_bind, Option.bind_some]
      rw [hclen, if_neg (not_not_intro hmod)]
      rw [List.length_nil] at hout
      rw [hout, Option.bind_some]
    · rw [if_neg (not_not_intro hmod), Option.map_some, hbytes']
      rfl
    · rintro _ ⟨⟩
      exact hshort
  · refine ⟨none, ?_, ?_, by simp⟩
    · simp only [Option.bind_eq_bind, Option.bind_some]
      rw [hclen, if_pos hmod]
    · rw [if_pos hmod, Option.map_none]

/-! ## Encodings -/

/-- The string of these bytes. -/
def chars (xs : List Byte) : Str := xs.map fun x => Char.ofNat x.val

def bytesOf (s : Str) : List Byte := s.map fun c => Fin.ofNat 256 c.toNat

theorem toNat_ofNat {n : ℕ} (h : n < 256) : (Char.ofNat n).toNat = n := by
  have hvalid : n.isValidChar := Or.inl (by omega)
  rw [Char.ofNat, dif_pos hvalid]
  exact UInt32.toNat_ofNatLT

/-- The table of the characters that count, and of their six bits. -/
theorem table_facts :
    (∀ m : Fin 64, b64Table (digit m.val) = m.val ∧ b64Valid (digit m.val) = true) ∧ b64Valid '=' = true ∧
      ∀ m : Fin 123, b64Valid (Char.ofNat m.val) = true →
        digit (b64Table (Char.ofNat m.val)) = Char.ofNat m.val ∨ Char.ofNat m.val = '=' := by
  decide +kernel

theorem b64Table_digit {n : ℕ} (h : n < 64) : b64Table (digit n) = n := (table_facts.1 ⟨n, h⟩).1

theorem b64Table_sextet {c : Char} (h : c ∈ alphabet) : b64Table c = sextet c := by
  have hdigit := b64Table_digit (sextet_lt h)
  rwa [digit_sextet h] at hdigit

theorem ne_pad {c : Char} (h : c ∈ alphabet) : c ≠ '=' := fun he => pad_not_mem (he ▸ h)

theorem digit_ne_pad {n : ℕ} (h : n < 64) : digit n ≠ '=' := ne_pad (digit_mem h)

theorem toNat_le_of_b64Valid {c : Char} (h : b64Valid c = true) : c.toNat < 123 := by
  have hz : ∀ d : Char, c ≤ d → d.toNat < 123 → c.toNat < 123 := fun d hle hd => Nat.lt_of_le_of_lt hle hd
  simp only [b64Valid, decide_eq_true_iff] at h
  obtain h | h | h | rfl | rfl | rfl := h
  · exact hz 'Z' h.2 (by decide)
  · exact hz 'z' h.2 (by decide)
  · exact hz '9' h.2 (by decide)
  all_goals decide

theorem b64Valid_iff (c : Char) : b64Valid c = true ↔ c ∈ alphabet ∨ c = '=' := by
  constructor
  · intro h
    have hcases := table_facts.2.2 ⟨c.toNat, toNat_le_of_b64Valid h⟩
    rw [Char.ofNat_toNat] at hcases
    refine (hcases h).imp_left fun hdigit => ?_
    rw [← hdigit]
    exact digit_mem (b64Table_lt c)
  · rintro (h | rfl)
    · rw [← digit_sextet h]
      exact (table_facts.1 ⟨sextet c, sextet_lt h⟩).2
    · exact table_facts.2.1

/-- What remains of a text when all other characters are dropped. -/
def relevant (t : Str) : Str := t.filter fun c => c ∈ alphabet ∨ c = '='

theorem filter_b64Valid (t : Str) : t.filter b64Valid = relevant t := by
  apply List.filter_congr
  intro c _
  rw [Bool.eq_iff_iff, b64Valid_iff, decide_eq_true_iff]

/-- The sextets of three bytes, put together, and the bytes taken out again. -/
theorem sextets_eq (x y z : ℕ) :
    x / 4 * 2^18 + (x % 4 * 16 + y / 16) * 2^12 + (y % 16 * 4 + z / 64) * 2^6 + z % 64 = x * 2^16 + y * 2^8 + z := by
  omega

theorem bytes_eq {x y z : ℕ} (hx : x < 256) (hy : y < 256) (hz : z < 256) :
    (x * 2^16 + y * 2^8 + z) / 2^16 % 256 = x ∧ (x * 2^16 + y * 2^8 + z) / 2^8 % 256 = y ∧
      (x * 2^16 + y * 2^8 + z) % 256 = z := by
  omega

theorem group_three {x y z : ℕ} (hx : x < 256) (hy : y < 256) (hz : z < 256) :
    group (digit (x/4)) (digit (x % 4 * 16 + y / 16)) (digit (y % 16 * 4 + z / 64)) (digit (z % 64)) =
      [Char.ofNat x, Char.ofNat y, Char.ofNat z] := by
  have hc : digit (y % 16 * 4 + z / 64) ≠ '=' := digit_ne_pad (by omega)
  have hd : digit (z % 64) ≠ '=' := digit_ne_pad (by omega)
  obtain ⟨h0, h1, h2⟩ := bytes_eq hx hy hz
  simp only [group, decodeQuads, hc, hd, ne_eq, not_false_eq_true, if_true, List.append_nil, List.singleton_append]
  rw [b64Table_digit (by omega), b64Table_digit (by omega), b64Table_digit (by omega), b64Table_digit (by omega),
    sextets_eq, h0, h1, h2]

/-- A group of two bytes; the last two bits of its last character do not count. -/
theorem group_two {x y : ℕ} {c : Char} (hx : x < 256) (hy : y < 256) (hc : c ∈ alphabet) (hbits : sextet c / 4 = y % 16) :
    group (digit (x/4)) (digit (x % 4 * 16 + y / 16)) c '=' = [Char.ofNat x, Char.ofNat y] := by
  have h0 : (x / 4 * 2^18 + (x % 4 * 16 + y / 16) * 2^12 + sextet c * 2^6 + 0) / 2^16 % 256 = x := by
    have hlt := sextet_lt hc
    omega
  have h1 : (x / 4 * 2^18 + (x % 4 * 16 + y / 16) * 2^12 + sextet c * 2^6 + 0) / 2^8 % 256 = y := by
    omega
  simp only [group, decodeQuads, ne_pad hc, ne_eq, not_false_eq_true, not_true_eq_false, if_true, if_false, List.append_nil]
  rw [b64Table_digit (by omega), b64Table_digit (by omega), b64Table_sextet hc]
  exact congrArg₂ (fun m n => [Char.ofNat m, Char.ofNat n]) h0 h1

/-- A group of one byte; the last four bits of its last character do not count. -/
theorem group_one {x : ℕ} {b : Char} (hx : x < 256) (hb : b ∈ alphabet) (hbits : sextet b / 16 = x % 4) :
    group (digit (x/4)) b '=' '=' = [Char.ofNat x] := by
  have h0 : (x / 4 * 2^18 + sextet b * 2^12 + 0 * 2^6 + 0) / 2^16 % 256 = x := by
    have hlt := sextet_lt hb
    omega
  simp only [group, decodeQuads, ne_eq, not_true_eq_false, if_false, List.append_nil]
  rw [b64Table_digit (by omega), b64Table_sextet hb]
  exact congrArg (fun m => [Char.ofNat m]) h0

theorem decodeQuads_encode (xs : List Byte) : decodeQuads (encode xs) = chars xs := by
  induction xs using encode.induct with
  | case1 => simp [encode, decodeQuads, chars]
  | case2 x =>
      have hlow : x.val % 4 * 16 < 64 := by omega
      rw [encode]
      exact group_one x.isLt (digit_mem hlow) (by rw [sextet_digit hlow]; omega)
  | case3 x y =>
      have hlow : y.val % 16 * 4 < 64 := by omega
      rw [encode]
      exact group_two x.isLt y.isLt (digit_mem hlow) (by rw [sextet_digit hlow]; omega)
  | case4 x y z rest ih =>
      rw [encode, decodeQuads_cons, group_three x.isLt y.isLt z.isLt, ih]
      rfl

/-- Of any text that is an encoding with other characters put in, the decoder gives the bytes back. -/
theorem base64Decode_inserted {x : List Byte} (hx : x.length ≤ 3072) {t : Str}
    (ht : Inserted (fun c => ¬(c ∈ alphabet ∨ c = '=')) (encode x) t) :
    ∃ out, base64Decode t = some (some out) ∧ out.bytes = chars x ∧ out.len = x.length := by
  have hrel : relevant t = encode x :=
    ht.filter_eq (fun c hc => decide_eq_false hc) (fun c hc => decide_eq_true (mem_encode hc))
  have hlen := length_encode x
  obtain ⟨r, hr, hmap, -⟩ := base64Decode_eq t
  have hstr : Util.base64Decode t = some (chars x) := by
    unfold Util.base64Decode
    rw [filter_b64Valid, hrel]
    dsimp only
    rw [if_neg (by omega), if_neg (by omega), decodeQuads_encode]
  rw [hstr, Option.map_eq_some_iff] at hmap
  obtain ⟨out, rfl, hout⟩ := hmap
  exact ⟨out, hr, hout, by rw [Filled.len, hout, chars, List.length_map]⟩

/-- A byte 255, with a line end before the padding. -/
theorem broken_line_decoded :
    [(255 : Byte)].length ≤ 3072 ∧ Inserted (fun c => ¬(c ∈ alphabet ∨ c = '=')) (encode [255]) "/w\n==" ∧
      ∃ out, base64Decode "/w\n==" = some (some out) ∧ out.bytes = chars [255] ∧ out.len = [(255 : Byte)].length := by
  have hcode : encode [255] = ['/', 'w', '=', '='] := rfl
  have hline : ¬('\n' ∈ alphabet ∨ '\n' = '=') := mt (b64Valid_iff '\n').mpr (by decide)
  have hput : Inserted (fun c => ¬(c ∈ alphabet ∨ c = '=')) (encode [255]) "/w\n==" := by
    rw [hcode]
    exact .keep '/' (.keep 'w' (.insert hline (.keep '=' (.keep '=' .nil))))
  exact ⟨by decide, hput, base64Decode_inserted (by decide) hput⟩

/-! ## Texts that are not encodings -/

section
variable {a b c d : Char}

/-- Any four characters are the encoding of three bytes. -/
theorem full_digits (ha : a ∈ alphabet) (hb : b ∈ alphabet) (hc : c ∈ alphabet) (hd : d ∈ alphabet) :
    ∃ x y z : Byte, a = digit (x.val / 4) ∧ b = digit (x.val % 4 * 16 + y.val / 16) ∧
      c = digit (y.val % 16 * 4 + z.val / 64) ∧ d = digit (z.val % 64) := by
  have hla := sextet_lt ha
  have hlb := sextet_lt hb
  have hlc := sextet_lt hc
  have hld := sextet_lt hd
  have h0 : (sextet a * 4 + sextet b / 16) / 4 = sextet a := by omega
  have h1 : (sextet a * 4 + sextet b / 16) % 4 * 16 + (sextet b % 16 * 16 + sextet c / 4) / 16 = sextet b := by omega
  have h2 : (sextet b % 16 * 16 + sextet c / 4) % 16 * 4 + (sextet c % 4 * 64 + sextet d) / 64 = sextet c := by omega
  have h3 : (sextet c % 4 * 64 + sextet d) % 64 = sextet d := by omega
  refine ⟨⟨sextet a * 4 + sextet b / 16, by omega⟩, ⟨sextet b % 16 * 16 + sextet c / 4, by omega⟩,
    ⟨sextet c % 4 * 64 + sextet d, by omega⟩, ?_⟩
  dsimp only
  rw [h0, h1, h2, h3, digit_sextet ha, digit_sextet hb, digit_sextet hc, digit_sextet hd]
  exact ⟨rfl, rfl, rfl, rfl⟩

/-- Three characters are the encoding of two bytes but for the last two bits. -/
theorem two_digits (ha : a ∈ alphabet) (hb : b ∈ alphabet) (hc : c ∈ alphabet) :
    ∃ x y : Byte, a = digit (x.val / 4) ∧ b = digit (x.val % 4 * 16 + y.val / 16) ∧ sextet c / 4 = y.val % 16 := by
  obtain ⟨x, y, z, ha', hb', hc', -⟩ := full_digits ha hb hc (@digit_mem 0 (by decide))
  refine ⟨x, y, ha', hb', ?_⟩
  rw [hc', sextet_digit (by omega)]
  omega

theorem one_digit (ha : a ∈ alphabet) (hb : b ∈ alphabet) : ∃ x : Byte, a = digit (x.val / 4) ∧ sextet b / 16 = x.val % 4 := by
  obtain ⟨x, y, ha', hb', -⟩ := two_digits ha hb (@digit_mem 0 (by decide))
  refine ⟨x, ha', ?_⟩
  rw [hb', sextet_digit (by omega)]
  omega

end

theorem ofNat_toNat {n : ℕ} (h : n < 256) : Fin.ofNat 256 (Char.ofNat n).toNat = (⟨n, h⟩ : Byte) := by
  apply Fin.ext
  rw [toNat_ofNat h]
  exact Nat.mod_eq_of_lt h

/-- Encoding the output of a grouped text gives the text back up to unused bits. -/
theorem reencoded {t : Str} (h : Grouped t) : SameText t (encode (bytesOf (decodeQuads t))) := by
  induction h with
  | nil =>
      simp only [decodeQuads, bytesOf, List.map_nil, encode]
      exact .nil
  | @two a b ha hb =>
      obtain ⟨x, rfl, hbits⟩ := one_digit ha hb
      have hlow : x.val % 4 * 16 < 64 := by omega
      have hout : bytesOf (decodeQuads [digit (x.val / 4), b, '=', '=']) = [x] :=
        (congrArg bytesOf (group_one x.isLt hb hbits)).trans (congrArg (· :: []) (ofNat_toNat x.isLt))
      rw [hout, encode]
      exact .append [digit (x.val / 4)] (@SameText.last _ _ 2 (ne_pad hb) (digit_ne_pad hlow) (by rw [sextet_digit hlow]; omega))
  | @one a b c ha hb hc =>
      obtain ⟨x, y, rfl, rfl, hbits⟩ := two_digits ha hb hc
      have hlow : y.val % 16 * 4 < 64 := by omega
      have hout : bytesOf (decodeQuads [digit (x.val / 4), digit (x.val % 4 * 16 + y.val / 16), c, '=']) = [x, y] :=
        (congrArg bytesOf (group_two x.isLt y.isLt hc hbits)).trans
          (congrArg₂ (fun v w => [v, w]) (ofNat_toNat x.isLt) (ofNat_toNat y.isLt))
      rw [hout, encode]
      exact .append [digit (x.val / 4), digit (x.val % 4 * 16 + y.val / 16)]
        (@SameText.last _ _ 1 (ne_pad hc) (digit_ne_pad hlow) (by rw [sextet_digit hlow]; omega))
  | @full a b c d rest ha hb hc hd hrest ih =>
      obtain ⟨x, y, z, rfl, rfl, rfl, rfl⟩ := full_digits ha hb hc hd
      rw [decodeQuads_cons, group_three x.isLt y.isLt z.isLt]
      have hout : bytesOf ([Char.ofNat x.val, Char.ofNat y.val, Char.ofNat z.val] ++ decodeQuads rest) =
          x :: y :: z :: bytesOf (decodeQuads rest) := by
        simp only [bytesOf, List.map_cons, ofNat_toNat x.isLt, ofNat_toNat y.isLt, ofNat_toNat z.isLt,
          List.cons_append, List.nil_append]
      rw [hout, encode]
      exact .append [_, _, _, _] ih

/-- What is returned 0 for is base64, and the output encodes to it. -/
def OnlyBase64 (t : Str) : Prop :=
  ∀ out, base64Decode t = some (some out) → WellFormed (relevant t) ∧ SameText (relevant t) (encode (bytesOf out.bytes))

/-- Nothing but at most one more padding sign stands behind a padding sign. -/
def PaddedLast (t : Str) : Prop := ∃ w n, t = w ++ List.replicate n '=' ∧ n ≤ 2 ∧ '=' ∉ w

theorem relevant_mem {t : Str} {c : Char} (h : c ∈ relevant t) : c ∈ alphabet ∨ c = '=' :=
  of_decide_eq_true (List.mem_filter.mp h).2

theorem wellFormed_iff (t : Str) : WellFormed (relevant t) ↔ (relevant t).length % 4 = 0 ∧ PaddedLast (relevant t) := by
  constructor
  · intro h
    obtain ⟨w, n, hw, hn, hall⟩ := h.body
    exact ⟨h.whole, w, n, hw, hn, fun hm => pad_not_mem (hall _ hm)⟩
  · intro ⟨hwhole, w, n, hw, hn, hpad⟩
    refine ⟨hwhole, w, n, hw, hn, fun c hc => ?_⟩
    exact (relevant_mem (hw ▸ List.mem_append_left _ hc)).resolve_right fun he => hpad (he ▸ hc)

/-- When the decoder returns 0, and with what. -/
theorem base64Decode_iff (t : Str) {w : Str} :
    (∃ out, base64Decode t = some (some out) ∧ out.bytes = w) ↔
      (relevant t).length ≤ 4096 ∧ (relevant t).length % 4 = 0 ∧ w = decodeQuads (relevant t) := by
  obtain ⟨r, hr, hmap, -⟩ := base64Decode_eq t
  have hout : (∃ out, base64Decode t = some (some out) ∧ out.bytes = w) ↔ Util.base64Decode t = some w := by
    rw [hr, ← hmap, Option.map_eq_some_iff]
    simp only [Option.some.injEq]
  rw [hout, Util.base64Decode, filter_b64Valid]
  split_ifs with hlong hmod
  · exact iff_of_false (by simp) fun h => absurd h.1 (by omega)
  · exact iff_of_false (by simp) fun h => absurd h.2.1 hmod
  · rw [Option.some.injEq, eq_comm]
    exact ⟨fun h => ⟨by omega, by omega, h⟩, fun h => h.2.2⟩

/-- The decoder takes nothing but base64 exactly of the texts with the padding at the end, and
of those it refuses for their length. -/
theorem onlyBase64_iff (t : Str) :
    OnlyBase64 t ↔ 4096 < (relevant t).length ∨ (relevant t).length % 4 ≠ 0 ∨ PaddedLast (relevant t) := by
  constructor
  · intro h
    by_cases hlen : (relevant t).length ≤ 4096
    · by_cases hmod : (relevant t).length % 4 = 0
      · obtain ⟨out, hout, -⟩ := (base64Decode_iff t).mpr ⟨hlen, hmod, rfl⟩
        exact .inr (.inr ((wellFormed_iff t).mp (h out hout).1).2)
      · exact .inr (.inl hmod)
    · exact .inl (by omega)
  · intro h out hout
    obtain ⟨hlen, hmod, hbytes⟩ := (base64Decode_iff t).mp ⟨out, hout, rfl⟩
    have hpad : PaddedLast (relevant t) := (h.resolve_left (by omega)).resolve_left fun hne => hne hmod
    have hwell := (wellFormed_iff t).mpr ⟨hmod, hpad⟩
    rw [hbytes]
    exact ⟨hwell, reencoded hwell.grouped⟩

/-- Padding alone is decoded, to a zero byte. -/
theorem padding_alone_decoded : ¬∀ t : Str, OnlyBase64 t := by
  intro h
  have hrel : relevant ("====" : Str) = ['=', '=', '=', '='] := by
    rw [← filter_b64Valid]
    rfl
  obtain ⟨out, hout, -⟩ := (base64Decode_iff "====").mpr ⟨by rw [hrel]; decide, by rw [hrel]; decide, rfl⟩
  obtain ⟨w, n, hw, hn, hpad⟩ := ((wellFormed_iff "====").mp (h "====" out hout).1).2
  have hnone : w = [] := by
    cases w with
    | nil => rfl
    | cons c cs =>
        rw [hrel] at hw
        exact absurd ((List.cons.inj hw).1 ▸ List.mem_cons_self) hpad
  have hlen := congrArg List.length hw
  rw [hrel, hnone, List.nil_append, List.length_replicate] at hlen
  simp only [List.length_cons, List.length_nil] at hlen
  omega

end Xmppd.Base64Arrays
