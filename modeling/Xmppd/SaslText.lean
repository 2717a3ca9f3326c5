import Xmppd.Base64Arrays
import Xmppd.Identity
import Xmppd.PlainPayload
import Xmppd.UserConf

/-!
# The text of a PLAIN authentication

The Go server trims the text of the element and decodes it as base64 that is broken by line
ends only; the C server passes over whatever is not base64. Where the Go server finds a name
and a password, the C server finds the same, unless the text is too long for its array or the
password has a zero byte. So both let the client in by the same password file, or neither.
-/
namespace Xmppd.SaslText
open CStrings LibXml Util ServerState User Auth Base64 Base64Arrays PlainPayload Scanning GoXml GoSession Programs Program

/-! ## Decoding -/

theorem base64Digit_eq {c : Char} {x : ℕ} (h : GoStanza.base64Digit c = some x) :
    b64Valid c = true ∧ b64Table c = x ∧ x < 64 ∧ c ≠ '=' := by
  have htable : b64Table c = x := by
    unfold GoStanza.base64Digit at h
    unfold b64Table
    split_ifs at h ⊢ <;> exact Option.some.inj h
  have hne : c ≠ '=' := by
    rintro rfl
    rw [show GoStanza.base64Digit '=' = none by decide] at h
    cases h
  have hvalid : b64Valid c = true := by
    unfold GoStanza.base64Digit at h
    unfold b64Valid
    rw [decide_eq_true_iff]
    split_ifs at h <;> tauto
  exact ⟨hvalid, htable, htable ▸ b64Table_lt c, hne⟩

theorem pad_valid : b64Valid '=' = true := by decide

/-- Padded groups are decoded alike. -/
theorem decodeQuanta_eq {s b : Str} (h : GoStanza.decodeQuanta s = some b) :
    (∀ c ∈ s, b64Valid c = true) ∧ s.length % 4 = 0 ∧ decodeQuads s = b := by
  fun_induction GoStanza.decodeQuanta s generalizing b with
  | case1 =>
      cases h
      exact ⟨fun c hc => absurd hc List.not_mem_nil, rfl, rfl⟩
  | case2 c₁ c₂ =>
      obtain ⟨x, hx, y, hy, hb⟩ : ∃ x, GoStanza.base64Digit c₁ = some x ∧ ∃ y, GoStanza.base64Digit c₂ = some y ∧ _ = some b := by
        simpa only [Option.bind_eq_bind, Option.bind_eq_some_iff] using h
      obtain ⟨hvx, htx, hltx, -⟩ := base64Digit_eq hx
      obtain ⟨hvy, hty, hlty, -⟩ := base64Digit_eq hy
      refine ⟨by simp [hvx, hvy, pad_valid], by simp, ?_⟩
      cases hb
      have hhigh : (x * 2^18 + y * 2^12) / 2^16 % 256 = x * 4 + y / 16 := by omega
      simp only [decodeQuads, htx, hty, ne_eq, not_true_eq_false, if_false, Nat.zero_mul, Nat.add_zero, hhigh, List.nil_append]
  | case3 c₁ c₂ c₃ =>
      obtain ⟨x, hx, y, hy, z, hz, hb⟩ : ∃ x, GoStanza.base64Digit c₁ = some x ∧ ∃ y, GoStanza.base64Digit c₂ = some y ∧
          ∃ z, GoStanza.base64Digit c₃ = some z ∧ _ = some b := by
        simpa only [Option.bind_eq_bind, Option.bind_eq_some_iff] using h
      obtain ⟨hvx, htx, hltx, -⟩ := base64Digit_eq hx
      obtain ⟨hvy, hty, hlty, -⟩ := base64Digit_eq hy
      obtain ⟨hvz, htz, hltz, hnz⟩ := base64Digit_eq hz
      refine ⟨by simp [hvx, hvy, hvz, pad_valid], by simp, ?_⟩
      cases hb
      have hhigh : (x * 2^18 + y * 2^12 + z * 2^6) / 2^16 % 256 = x * 4 + y / 16 := by omega
      have hmid : (x * 2^18 + y * 2^12 + z * 2^6) / 2^8 % 256 = y % 16 * 16 + z / 4 := by omega
      simp only [decodeQuads, htx, hty, htz, if_pos hnz, ne_eq, not_true_eq_false, if_false, Nat.add_zero, hhigh, hmid]
      rfl
  | case4 c₁ c₂ c₃ c₄ rest _ _ ih =>
      obtain ⟨x, hx, y, hy, z, hz, u, hu, more, hmore, hb⟩ : ∃ x, GoStanza.base64Digit c₁ = some x ∧
          ∃ y, GoStanza.base64Digit c₂ = some y ∧ ∃ z, GoStanza.base64Digit c₃ = some z ∧
            ∃ u, GoStanza.base64Digit c₄ = some u ∧ ∃ more, GoStanza.decodeQuanta rest = some more ∧ _ = some b := by
        simpa only [Option.bind_eq_bind, Option.bind_eq_some_iff] using h
      obtain ⟨hvx, htx, hltx, -⟩ := base64Digit_eq hx
      obtain ⟨hvy, hty, hlty, -⟩ := base64Digit_eq hy
      obtain ⟨hvz, htz, hltz, hnz⟩ := base64Digit_eq hz
      obtain ⟨hvu, htu, hltu, hnu⟩ := base64Digit_eq hu
      obtain ⟨hvalid, hlen, hquads⟩ := ih hmore
      refine ⟨by simpa [hvx, hvy, hvz, hvu] using hvalid, by rw [← hlen]; exact Nat.add_mod_right rest.length 4, ?_⟩
      cases hb
      have hhigh : (x * 2^18 + y * 2^12 + z * 2^6 + u) / 2^16 % 256 = x * 4 + y / 16 := by omega
      have hmid : (x * 2^18 + y * 2^12 + z * 2^6 + u) / 2^8 % 256 = y % 16 * 16 + z / 4 := by omega
      have hlow : (x * 2^18 + y * 2^12 + z * 2^6 + u) % 256 = z % 4 * 64 + u := by omega
      simp only [decodeQuads, htx, hty, htz, htu, hhigh, hmid, hlow, hquads, if_pos hnz, if_pos hnu]
      rfl
  | case5 => cases h

theorem isSpace_not_valid {c : Char} (h : GoStanza.isSpace c = true) : b64Valid c = false := by
  by_contra hv
  have hlt := toNat_le_of_b64Valid (Bool.eq_true_of_not_eq_false hv)
  have hcases : ∀ n : Fin 123, GoStanza.isSpace (Char.ofNat n.val) = true → b64Valid (Char.ofNat n.val) = false := by decide +kernel
  have hc := hcases ⟨c.toNat, hlt⟩
  rw [Char.ofNat_toNat] at hc
  exact hv (hc h)

theorem filter_dropWhile {p q : Char → Bool} (h : ∀ c, p c = true → q c = false) (l : List Char) :
    (l.dropWhile p).filter q = l.filter q := by
  induction l with
  | nil => rfl
  | cons c cs ih =>
      rw [List.dropWhile_cons]
      split
      · next hc => rw [ih, List.filter_cons_of_neg (by rw [h c hc]; decide)]
      · rfl

theorem relevant_trimSpace (t : Str) : relevant (GoStanza.trimSpace t) = relevant t := by
  have hspace : ∀ c, GoStanza.isSpace c = true → b64Valid c = false := fun c => isSpace_not_valid
  rw [← filter_b64Valid, ← filter_b64Valid, GoStanza.trimSpace, List.filter_reverse, filter_dropWhile hspace, List.filter_reverse,
    List.reverse_reverse, filter_dropWhile hspace]

/-- A text that is broken by line ends, with spaces around it. -/
theorem decodeString_eq {t b : Str} (h : GoStanza.decodeString (GoStanza.trimSpace t) = some b) (hlen : (relevant t).length ≤ 4096) :
    Util.base64Decode t = some b := by
  obtain ⟨hvalid, hwhole, hquads⟩ := decodeQuanta_eq h
  have hline : ∀ c, b64Valid c = true → decide (c ≠ '\n' ∧ c ≠ '\r') = true := by
    intro c hc
    apply decide_eq_true
    constructor <;> rintro rfl <;> revert hc <;> decide
  have hclean : t.filter b64Valid = (GoStanza.trimSpace t).filter fun c => c ≠ '\n' ∧ c ≠ '\r' := by
    rw [filter_b64Valid, ← relevant_trimSpace, ← filter_b64Valid, ← List.filter_eq_self.mpr hvalid, List.filter_filter]
    apply List.filter_congr
    intro c _
    cases hc : b64Valid c with
    | false => rfl
    | true => rw [hline c hc, Bool.and_true]
  rw [← filter_b64Valid] at hlen
  rw [Util.base64Decode, if_neg (by omega), hclean, if_neg (by omega), hquads]

/-! ## Names and passwords -/

/-- The name and the password of the Go server, without the zero byte that ends a password for the C server. -/
theorem credentials_eq {stanza : Node} {name password : Str} (hm : stanza.getProp "mechanism" = some ("PLAIN" : Str))
    (hlen : (relevant stanza.content).length ≤ 4096) (h : GoStanza.credentials stanza.content = some (name, password))
    (hp : '\x00' ∉ password) : credentials stanza = .ok (name, password) := by
  obtain ⟨b, hdecode, hparse⟩ := Option.bind_eq_some_iff.mp h
  have hc : stanza.content ≠ [] := by
    intro he
    rw [he] at hdecode
    cases hdecode
    cases hparse
  rw [credentials_scanPlain hm hc (decodeString_eq hdecode hlen)]
  rw [parseSASLPlain_eq] at hparse
  obtain hb | hb | ⟨z, a, p, hf⟩ := shapes b
  · rw [(scan_short (.inl hb)).2] at hparse
    cases hparse
  · rw [(scan_short (.inr hb)).2] at hparse
    cases hparse
  · rw [hf.scanSlices] at hparse
    rw [hf.scanPlain]
    split at hparse
    · cases hparse
    · next hne =>
      cases hparse
      rw [if_neg fun he => hne (.inr he), takeWhile_ne_self hp]
      rfl

/-! ## The two handlers -/

/-- A password is compared with the one in the file of the user. -/
def fromFiles (files : Str → Option Str) : (c : Call) → Result c → Prop
  | .checkPassword user password, r => r = UserConf.checkPassword (files user) password
  | _, _ => True

/-- Both servers find the same file under a name, or none, and read it alike. -/
def SameFile (srv : Server) (files : Str → Option Str) (name : Str) : Prop :=
  readFile srv (userPath srv.cfg name "user.conf") = (files name).map .text ∧ ∀ content ∈ files name, UserConf.Plain content

theorem userCheckPassword_alike {srv : Server} {files : Str → Option Str} {name : Str} (password : Str) (h : SameFile srv files name) :
    userCheckPassword srv name password = UserConf.checkPassword (files name) password := by
  obtain ⟨hread, hplain⟩ := h
  cases hfile : files name with
  | none =>
      rw [hfile] at hread
      unfold userCheckPassword UserConf.checkPassword
      rw [hread]
      rfl
  | some content =>
      rw [hfile] at hread
      rw [UserConf.userCheckPassword_eq password hread, UserConf.checkFile, UserConf.checkPassword,
        UserConf.checkLines_tokens password content.length (hplain content hfile)]

theorem accepts_iff {srv : Server} {i : ℕ} {stanza : Node} {name password : Str} (hl : srv.Live i)
    (hu : (srv.sess i).authenticated = false) (hc : credentials stanza = .ok (name, password)) :
    Identity.Accepts srv i stanza ↔ userCheckPassword srv name password = true := by
  constructor
  · intro h
    obtain ⟨passwd, hpasswd, hcheck⟩ := h.password
    rw [hc] at hpasswd
    cases hpasswd
    exact hcheck
  · intro h
    have hl₁ := (Server.modify_live srv i i fun s : ServerState.Session =>
      { s with
        jidLocal := snprintf 256 name
        jidDomain := srv.cfg.domain
        authenticated := true
        state := .authenticated }).mpr hl
    refine ⟨hl, hu, ?_⟩
    unfold authHandleSasl
    rw [hc]
    dsimp only
    rw [h]
    simp only [Bool.not_true, Bool.false_eq_true, if_false]
    rw [Server.sess_modify_self (by simpa [Server.sessionWrite] using hl)]
    dsimp only
    rw [Server.sessionWrite, Server.sess_modify_self hl₁]
    dsimp only
    rw [Server.sess_modify_self hl]

theorem handleSASL_eq {self : ℕ} {s : GoSession.Session} {node : XmlNode} {name password : Str} (files : Str → Option Str)
    (hs : s.authenticated = false) (hm : (node.attr "mechanism").map Char.toLower = "plain")
    (hc : GoStanza.credentials node.text = some (name, password)) :
    (GoStanza.handleSASL self s node).EnsuresGiven (fromFiles files) (fun _ => True) fun r =>
      r.1.authenticated = UserConf.checkPassword (files name) password ∧
        (r.1.authenticated = true → r.1.jidLocal = name) := by
  unfold GoStanza.handleSASL
  rw [if_neg (fun h => h hm), hc]
  refine ⟨trivial, fun ok hok => ?_⟩
  rw [← show ok = UserConf.checkPassword (files name) password from hok]
  cases ok with
  | true => exact ⟨trivial, fun _ _ => ⟨rfl, fun _ => rfl⟩⟩
  | false => exact ⟨trivial, fun _ _ => ⟨hs, fun h => absurd (hs.symm.trans h) Bool.false_ne_true⟩⟩

/-- The payload of alice on two lines, with spaces around it. -/
def brokenPlain : Str := "  AGFsaWNl\nAHBh\n"

def alicesFile : Str := "password = pa\n"

theorem alicesFile_plain : UserConf.Plain alicesFile where
  ascii := by
    have hall : (alicesFile.all fun c => c.toNat < 128) = true := by decide
    exact fun c hc => of_decide_eq_true (List.all_eq_true.mp hall c hc)
  null := by decide
  cr := by decide
  short := UserConf.shortLines_of_length (by decide)

end Xmppd.SaslText
