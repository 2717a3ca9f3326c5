import Xmppd.CStrings

/-!
# Addresses and base64

The address parser splits at the first `@` and the first `/` of the whole
string and computes the domain length as an unsigned difference. When the slash
comes first that difference wraps around, is cut to the buffer, and the copy
runs over the terminator; what the buffer then holds as a string is everything
after the `@`. An empty address returns before the buffers are cleared, so the
caller goes on with whatever they held.
-/
namespace Xmppd.Util
open CStrings

/-- The three `char[256]` arrays every caller passes. -/
structure Jid where
  localpart : Buf 256
  domain : Buf 256
  resource : Buf 256
deriving DecidableEq, Repr

def Jid.cleared : Jid := ⟨Buf.empty, Buf.empty, Buf.empty⟩

structure Parsed where
  ok : Bool
  jid : Jid
deriving DecidableEq, Repr

/-- Domain and resource, once the localpart has been consumed up to `start`. -/
def parseDomain (j : Jid) (s : Str) (start : ℕ) : Parsed :=
  let rest := s.drop start
  match s.findIdx? (· == '/') with
  | some slash =>
      let dlen := (slash + 2^64 - start) % 2^64
      if dlen = 0 then ⟨false, j⟩ else
        ⟨true, { j with domain := snprintf 256 (rest.take dlen),
                        resource := snprintf 256 (s.drop (slash+1)) }⟩
  | none =>
      if rest = [] then ⟨false, j⟩ else ⟨true, { j with domain := snprintf 256 rest }⟩

/-- `jid_parse`, started on buffers with arbitrary content. -/
def jidParse (buf : Jid) (s : Str) : Parsed :=
  if s = [] then ⟨false, buf⟩ else
    match s.findIdx? (· == '@') with
    | some 0 => ⟨false, Jid.cleared⟩
    | some llen =>
        parseDomain { Jid.cleared with localpart := snprintf 256 (s.take llen) } s (llen+1)
    | none => parseDomain Jid.cleared s 0

/-- `jid_bare` into a `char[512]`. -/
def jidBare (l d : Buf 256) : Buf 512 := snprintf 512 (l.str ++ '@' :: d.str)

/-- `jid_full` into a `char[768]`. -/
def jidFull (l d r : Buf 256) : Buf 768 := snprintf 768 (l.str ++ '@' :: d.str ++ '/' :: r.str)

def Jid.bare (j : Jid) : Buf 512 := jidBare j.localpart j.domain

/-- Two localparts and two domains of at most 255 bytes never fill the buffer. -/
@[simp] theorem jidBare_str (l d : Buf 256) : (jidBare l d).str = l.str ++ '@' :: d.str := by
  apply snprintf_fits
  have hl := l.fits
  have hd := d.fits
  simp only [List.length_append, List.length_cons]
  omega

/-- `b64_table`, zero outside the alphabet. -/
def b64Table (c : Char) : ℕ :=
  if 'A' ≤ c ∧ c ≤ 'Z' then c.toNat - 'A'.toNat
  else if 'a' ≤ c ∧ c ≤ 'z' then c.toNat - 'a'.toNat + 26
  else if '0' ≤ c ∧ c ≤ '9' then c.toNat - '0'.toNat + 52
  else if c = '+' then 62
  else if c = '/' then 63
  else 0

/-- `b64_valid`, which counts the padding sign. -/
def b64Valid (c : Char) : Bool :=
  ('A' ≤ c ∧ c ≤ 'Z') ∨ ('a' ≤ c ∧ c ≤ 'z') ∨ ('0' ≤ c ∧ c ≤ '9') ∨ c = '+' ∨ c = '/' ∨ c = '='

/-- One round of the decoding loop for every four cleaned characters. -/
def decodeQuads : Str → Str
  | a :: b :: c :: d :: rest =>
      let vc := if c ≠ '=' then b64Table c else 0
      let vd := if d ≠ '=' then b64Table d else 0
      let triple := b64Table a * 2^18 + b64Table b * 2^12 + vc * 2^6 + vd
      Char.ofNat (triple / 2^16 % 256) ::
        ((if c ≠ '=' then [Char.ofNat (triple / 2^8 % 256)] else []) ++
          (if d ≠ '=' then [Char.ofNat (triple % 256)] else []) ++ decodeQuads rest)
  | _ => []

/-- `base64_decode`; `none` is the return value -1. -/
def base64Decode (s : Str) : Option Str :=
  let clean := s.filter b64Valid
  if 4096 < clean.length then none
  else if clean.length % 4 ≠ 0 then none
  else some (decodeQuads clean)

example : base64Decode "AGJvYgBw" = some ("\x00bob\x00p" : Str) := by decide

end Xmppd.Util
