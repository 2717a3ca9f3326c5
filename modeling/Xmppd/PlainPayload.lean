import Xmppd.Auth
import Xmppd.GoStanza
import Xmppd.Scanning

/-!
# The payload of a PLAIN authentication

The decoded bytes are `authzid NUL authcid NUL passwd`. The C server finds the two
separators with one index in the array and takes terminated strings from there; the
Go server cuts slices. They give the same credentials except where the name is empty,
which the C server looks up, or where the password has a zero byte, which ends it for
the C server alone.
-/
namespace Xmppd.PlainPayload
open CStrings LibXml Util Scanning

/-- The scan of `auth_handle_sasl` in the array that holds the decoded bytes and a terminator. -/
def scanPlain (decoded : Str) : Option (Str × Str) :=
  if decoded.length < 3 then none
  else
    let buf := decoded ++ ['\x00']
    let i := if buf.head? = some '\x00' then 0 else advance (· ≠ '\x00') decoded 0
    let i := i+1
    if decoded.length ≤ i then none
    else
      let j := advance (· ≠ '\x00') decoded i + 1
      if decoded.length ≤ j then none else some (cstr buf i, cstr buf j)

/-- `parseSASLPlain`, with its indices. -/
def scanSlices (b : Str) : Option (Str × Str) :=
  let i := advance (· ≠ '\x00') b 0 + 1
  if b.length ≤ i then none
  else
    let j := advance (· ≠ '\x00') b i
    let authcid := (b.take j).drop i
    let j := j+1
    if b.length < j then none
    else
      let passwd := b.drop j
      if authcid = [] ∨ passwd = [] then none else some (authcid, passwd)

/-- The bytes are three fields with a zero byte between each two. -/
structure Fields (b z a p : Str) : Prop where
  eq : b = z ++ '\x00' :: (a ++ '\x00' :: p)
  zid : '\x00' ∉ z
  cid : '\x00' ∉ a

/-- No separator, one, or at least two. -/
theorem shapes (b : Str) :
    '\x00' ∉ b ∨ (∃ z r, b = z ++ '\x00' :: r ∧ '\x00' ∉ z ∧ '\x00' ∉ r) ∨ ∃ z a p, Fields b z a p := by
  by_cases hb : '\x00' ∈ b
  · obtain ⟨z, r, rfl, hz⟩ := List.eq_append_cons_of_mem hb
    by_cases hr : '\x00' ∈ r
    · obtain ⟨a, p, rfl, ha⟩ := List.eq_append_cons_of_mem hr
      exact .inr (.inr ⟨z, a, p, rfl, hz, ha⟩)
    · exact .inr (.inl ⟨z, r, rfl, hz, hr⟩)
  · exact .inl hb

/-- The fields are determined by the bytes. -/
theorem Fields.unique {b z a p z' a' p' : Str} (h : Fields b z a p) (h' : Fields b z' a' p') : z = z' ∧ a = a' ∧ p = p' := by
  have hz : z = z' := by
    rw [← takeWhile_ne h.zid, ← h.eq, h'.eq, takeWhile_ne h'.zid]
  have hrest : a ++ '\x00' :: p = a' ++ '\x00' :: p' := by
    have heq := h.eq.symm.trans h'.eq
    rw [hz] at heq
    exact List.cons.inj (List.append_cancel_left heq) |>.2
  have ha : a = a' := by
    rw [← takeWhile_ne h.cid, hrest, takeWhile_ne h'.cid]
  rw [ha] at hrest
  exact ⟨hz, ha, (List.cons.inj (List.append_cancel_left hrest)).2⟩

section
variable {b z a p r w : Str}

/-- The index at the end of a field. -/
theorem advance_field (hw : '\x00' ∉ w) : advance (· ≠ '\x00') (z ++ w ++ '\x00' :: r) z.length = z.length + w.length :=
  advance_append (all_ne hw) (by simp)

theorem advance_last (hw : '\x00' ∉ w) : advance (· ≠ '\x00') (z ++ w) z.length = z.length + w.length := by
  have h := @advance_append _ (· ≠ '\x00') z w [] (all_ne hw) (by simp)
  rwa [List.append_nil] at h

/-- The first loop of the C server need not be guarded. -/
theorem first_index (b : Str) :
    (if (b ++ ['\x00']).head? = some '\x00' then 0 else advance (· ≠ '\x00') b 0) = advance (· ≠ '\x00') b 0 := by
  cases b with
  | nil => simp [advance_eq]
  | cons c cs =>
      by_cases hc : c = '\x00'
      · simp [advance_eq, hc]
      · simp [hc]

theorem takeWhile_terminated (p : Str) : (p ++ ['\x00']).takeWhile (· ≠ '\x00') = p.takeWhile (· ≠ '\x00') := by
  induction p with
  | nil => rfl
  | cons c cs ih =>
      rw [List.cons_append, List.takeWhile_cons, List.takeWhile_cons, ih]

theorem first_field (hz : '\x00' ∉ z) : advance (· ≠ '\x00') (z ++ '\x00' :: r) 0 = z.length := by
  have h := @advance_field [] r z hz
  simpa using h

/-- The bytes with the first separator counted to what is passed. -/
theorem Fields.assoc (h : Fields b z a p) : b = (z ++ ['\x00']) ++ a ++ '\x00' :: p := by
  rw [h.eq]
  simp

theorem Fields.second_field (h : Fields b z a p) : advance (· ≠ '\x00') b (z.length+1) = z.length + 1 + a.length := by
  have hlen : z.length + 1 = (z ++ ['\x00']).length := by rw [List.length_append, List.length_singleton]
  rw [h.assoc, hlen]
  exact advance_field h.cid

theorem Fields.length_eq (h : Fields b z a p) : b.length = z.length + 1 + a.length + 1 + p.length := by
  rw [h.assoc]
  simp only [List.length_append, List.length_cons, List.length_nil]
  omega

theorem Fields.drop_first (h : Fields b z a p) (w : Str) : (b ++ w).drop (z.length+1) = a ++ '\x00' :: p ++ w := by
  have hlen : z.length + 1 = (z ++ ['\x00']).length := by rw [List.length_append, List.length_singleton]
  rw [h.assoc, hlen, List.append_assoc, List.append_assoc, List.drop_left]
  simp

theorem Fields.drop_second (h : Fields b z a p) (w : Str) : (b ++ w).drop (z.length + 1 + a.length + 1) = p ++ w := by
  rw [Nat.add_assoc, ← List.drop_drop, h.drop_first, List.append_assoc, ← List.drop_drop, List.drop_left]
  rfl

/-- What the C server takes the fields for. -/
theorem Fields.scanPlain (h : Fields b z a p) :
    scanPlain b = if p = [] then none else some (a, p.takeWhile (· ≠ '\x00')) := by
  have hfirst : advance (· ≠ '\x00') b 0 = z.length := h.eq ▸ first_field h.zid
  have hlen := h.length_eq
  have hname : cstr (b ++ ['\x00']) (z.length+1) = a := by
    rw [cstr, h.drop_first, List.append_assoc, List.cons_append, takeWhile_ne h.cid]
  have hpass : cstr (b ++ ['\x00']) (z.length + 1 + a.length + 1) = p.takeWhile (· ≠ '\x00') := by
    rw [cstr, h.drop_second, takeWhile_terminated]
  unfold PlainPayload.scanPlain
  dsimp only
  rw [first_index, hfirst, h.second_field, hname, hpass]
  cases p with
  | nil =>
      rw [List.length_nil] at hlen
      rw [if_pos rfl]
      split
      · rfl
      rw [if_neg (by omega), if_pos (by omega)]
  | cons c cs =>
      rw [List.length_cons] at hlen
      rw [if_neg (by omega), if_neg (by omega), if_neg (by omega), if_neg (List.cons_ne_nil c cs)]

/-- What the Go server takes the fields for. -/
theorem Fields.scanSlices (h : Fields b z a p) : scanSlices b = if a = [] ∨ p = [] then none else some (a, p) := by
  have hfirst : advance (· ≠ '\x00') b 0 = z.length := h.eq ▸ first_field h.zid
  have hlen := h.length_eq
  have hname : (b.take (z.length + 1 + a.length)).drop (z.length+1) = a := by
    have hdrop := h.drop_first []
    rw [List.append_nil, List.append_nil] at hdrop
    rw [List.drop_take, hdrop, Nat.add_sub_cancel_left, List.take_left]
  have hpass : b.drop (z.length + 1 + a.length + 1) = p := by
    have hdrop := h.drop_second []
    rwa [List.append_nil, List.append_nil] at hdrop
  unfold PlainPayload.scanSlices
  dsimp only
  rw [hfirst, h.second_field, hname, hpass, if_neg (by omega), if_neg (by omega)]

/-- Both refuse bytes with less than two separators. -/
theorem scan_short (h : '\x00' ∉ b ∨ ∃ z r, b = z ++ '\x00' :: r ∧ '\x00' ∉ z ∧ '\x00' ∉ r) :
    scanPlain b = none ∧ scanSlices b = none := by
  have hindex : b.length ≤ advance (· ≠ '\x00') b 0 + 1 ∨ b.length ≤ advance (· ≠ '\x00') b (advance (· ≠ '\x00') b 0 + 1) := by
    obtain hb | ⟨z, r, rfl, hz, hr⟩ := h
    · have hall := @advance_last [] b hb
      rw [List.nil_append, List.length_nil] at hall
      exact .inl (by omega)
    · have hassoc : z ++ '\x00' :: r = (z ++ ['\x00']) ++ r := by simp
      have hlen : z.length + 1 = (z ++ ['\x00']).length := by rw [List.length_append, List.length_singleton]
      right
      rw [first_field hz, hassoc, hlen, advance_last hr, List.length_append]
  constructor
  · unfold scanPlain
    dsimp only
    rw [first_index]
    split
    · rfl
    split
    · rfl
    rw [if_pos (by omega)]
  · unfold scanSlices
    dsimp only
    split
    · rfl
    rw [if_pos (by omega)]

/-! ## The definitions of the handlers -/

theorem Fields.splitPlain (h : Fields b z a p) :
    Auth.splitPlain b = if p = [] then none else some (a, p.takeWhile (· ≠ '\x00')) := by
  rw [Auth.splitPlain, h.eq, dropWhile_ne h.zid, List.drop_one, List.tail_cons]
  dsimp only
  rw [dropWhile_ne h.cid, takeWhile_ne h.cid, List.drop_one, List.tail_cons, if_neg (by simp)]

theorem splitPlain_eq (b : Str) : (if b.length < 3 then none else Auth.splitPlain b) = scanPlain b := by
  obtain hb | ⟨z, r, rfl, hz, hr⟩ | ⟨z, a, p, h⟩ := shapes b
  · rw [(scan_short (.inl hb)).1, Auth.splitPlain, dropWhile_ne_nil hb]
    simp
  · rw [(scan_short (.inr ⟨z, r, rfl, hz, hr⟩)).1, Auth.splitPlain, dropWhile_ne hz, List.drop_one, List.tail_cons,
      dropWhile_ne_nil hr]
    simp
  · have hlen := h.length_eq
    rw [h.scanPlain, h.splitPlain]
    cases p with
    | nil => simp
    | cons c cs =>
        rw [List.length_cons] at hlen
        rw [if_neg (by omega)]

theorem parseSASLPlain_eq (b : Str) : GoStanza.parseSASLPlain b = scanSlices b := by
  obtain hb | ⟨z, r, rfl, hz, hr⟩ | ⟨z, a, p, h⟩ := shapes b
  · rw [(scan_short (.inl hb)).2, GoStanza.parseSASLPlain, dropWhile_ne_nil hb]
  · rw [(scan_short (.inr ⟨z, r, rfl, hz, hr⟩)).2, GoStanza.parseSASLPlain, dropWhile_ne hz]
    dsimp only
    rw [dropWhile_ne_nil hr]
  · rw [h.scanSlices, GoStanza.parseSASLPlain, h.eq, dropWhile_ne h.zid]
    dsimp only
    rw [dropWhile_ne h.cid, takeWhile_ne h.cid]

end

/-- The name is empty although there is a password, or the password has a zero byte. -/
def Ambiguous (b : Str) : Prop := ∃ z a p, Fields b z a p ∧ p ≠ [] ∧ (a = [] ∨ '\x00' ∈ p)

/-- `auth_handle_sasl` looks up what the scan of the decoded bytes gives. -/
theorem credentials_scanPlain {stanza : Node} {b : Str} (hm : stanza.getProp "mechanism" = some ("PLAIN" : Str))
    (hc : stanza.content ≠ []) (hb : base64Decode stanza.content = some b) :
    Auth.credentials stanza = (scanPlain b).elim (.error "not-authorized") .ok := by
  unfold Auth.credentials
  rw [if_neg (fun h => h hm), if_neg hc, hb, ← splitPlain_eq]
  dsimp only
  split
  · rfl
  cases Auth.splitPlain b with
  | none => rfl
  | some c => rfl

/-- Both servers check the same name and password, or none. -/
theorem same_credentials_iff (b : Str) : scanPlain b = GoStanza.parseSASLPlain b ↔ ¬Ambiguous b := by
  rw [parseSASLPlain_eq]
  rcases shapes b with hb | hb | ⟨z, a, p, h⟩
  · rw [(scan_short (.inl hb)).1, (scan_short (.inl hb)).2]
    refine iff_of_true rfl ?_
    rintro ⟨z, a, p, h, -⟩
    exact hb (h.eq ▸ by simp)
  · rw [(scan_short (.inr hb)).1, (scan_short (.inr hb)).2]
    refine iff_of_true rfl ?_
    rintro ⟨z, a, p, h, -⟩
    obtain ⟨z', r, heq, hz', hr⟩ := hb
    have hz : z = z' := by rw [← takeWhile_ne h.zid, ← h.eq, heq, takeWhile_ne hz']
    rw [h.eq, hz] at heq
    exact hr ((List.cons.inj (List.append_cancel_left heq)).2 ▸ by simp)
  · have hamb : Ambiguous b ↔ p ≠ [] ∧ (a = [] ∨ '\x00' ∈ p) := by
      constructor
      · rintro ⟨z', a', p', h', hp'⟩
        obtain ⟨-, rfl, rfl⟩ := h.unique h'
        exact hp'
      · exact fun hp => ⟨z, a, p, h, hp⟩
    rw [hamb, h.scanPlain, h.scanSlices]
    by_cases hp : p = []
    · simp [hp]
    by_cases ha : a = []
    · simp [hp, ha]
    · have hpass : p.takeWhile (· ≠ '\x00') = p ↔ '\x00' ∉ p := by
        constructor
        · intro he hm
          rw [← he] at hm
          exact absurd (List.mem_takeWhile_imp hm) (by decide)
        · exact takeWhile_ne_self
      simp only [hp, ha, or_self, if_false, Option.some.injEq, Prod.mk.injEq, true_and, hpass, false_or, not_false_eq_true, ne_eq]

/-- A name `a` and a password of three bytes, the second of them zero. -/
def cutPassword : Str := "\x00a\x00b\x00c"

/-- The C server checks the first byte of the password, the Go server all three. -/
theorem cut_password : ¬∀ b : Str, b.length ≤ 3072 → scanPlain b = GoStanza.parseSASLPlain b := by
  intro h
  have hcut := h cutPassword (by decide)
  rw [← splitPlain_eq] at hcut
  exact absurd hcut (by decide)

end Xmppd.PlainPayload
