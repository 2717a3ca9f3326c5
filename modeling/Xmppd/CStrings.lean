import Mathlib.Data.List.Basic
import Mathlib.Algebra.NeZero
import Mathlib.Algebra.GroupWithZero.Nat

/-!
# Terminated strings and fixed character buffers

A string is the list of its bytes before the terminator, each byte written as
the character of that code. A `char[n]` buffer carries the proof that the
string in it and the terminator fit. Formatted printing into a buffer keeps the
longest prefix that fits, so its result is always a buffer and never a failure.
-/
namespace Xmppd.CStrings

abbrev Str := List Char

instance : Coe String Str := ⟨String.toList⟩

/-- A `char[n]` array holding a terminated string. -/
structure Buf (n : ℕ) where
  str : Str
  fits : str.length < n
deriving DecidableEq, Repr

namespace Buf
variable {n : ℕ}

@[ext] theorem ext {a b : Buf n} (h : a.str = b.str) : a = b := by
  cases a
  cases b
  cases h
  rfl

theorem str_inj {a b : Buf n} : a.str = b.str ↔ a = b :=
  ⟨ext, fun h => congrArg str h⟩

end Buf

/-! The sizes of the arrays. -/

instance size16 : NeZero 16 := ⟨by decide⟩
instance size64 : NeZero 64 := ⟨by decide⟩
instance size256 : NeZero 256 := ⟨by decide⟩
instance size512 : NeZero 512 := ⟨by decide⟩
instance size768 : NeZero 768 := ⟨by decide⟩
instance size1024 : NeZero 1024 := ⟨by decide⟩
instance size1280 : NeZero 1280 := ⟨by decide⟩
instance size1536 : NeZero 1536 := ⟨by decide⟩
instance size1792 : NeZero 1792 := ⟨by decide⟩

/-- `snprintf(buf, n, "%s", s)`. -/
def snprintf (n : ℕ) [NeZero n] (s : Str) : Buf n :=
  ⟨s.take (n-1), by
    have hn : n ≠ 0 := NeZero.ne n
    have hl := List.length_take_le (n-1) s
    omega⟩

section
variable {n : ℕ} [NeZero n]

@[simp] theorem snprintf_str (s : Str) : (snprintf n s).str = s.take (n-1) := rfl

theorem snprintf_fits {s : Str} (h : s.length < n) : (snprintf n s).str = s := by
  rw [snprintf_str]
  exact List.take_of_length_le (by omega)

@[simp] theorem snprintf_buf (b : Buf n) : snprintf n b.str = b :=
  Buf.ext (snprintf_fits b.fits)

/-- The array filled by `memset(buf, 0, n)`. -/
def Buf.empty : Buf n := ⟨[], by have hn : n ≠ 0 := NeZero.ne n; simp only [List.length_nil]; omega⟩

@[simp] theorem Buf.empty_str : (Buf.empty : Buf n).str = [] := rfl

instance : Inhabited (Buf n) := ⟨Buf.empty⟩

end

/-- The terminated string that starts at an index of an array. -/
def cstr (buf : Str) (i : ℕ) : Str := (buf.drop i).takeWhile (· ≠ '\x00')

/-- A string in the buffer, up to the terminator. -/
theorem cstr_append {pre w post : Str} (hw : '\x00' ∉ w) : cstr (pre ++ w ++ '\x00' :: post) pre.length = w := by
  rw [cstr, List.append_assoc, List.drop_left, List.takeWhile_append_of_pos]
  · simp
  · intro c hc
    apply decide_eq_true
    intro he
    exact hw (he ▸ hc)

/-- The same with cleared places before the terminator. -/
theorem cstr_cleared {pre w post : Str} (hw : '\x00' ∉ w) (n : ℕ) :
    cstr (pre ++ w ++ (List.replicate n '\x00' ++ '\x00' :: post)) pre.length = w := by
  cases n with
  | zero => exact cstr_append hw
  | succ n => exact cstr_append hw

end Xmppd.CStrings
