import Xmppd.Confinement

/-!
# The identity a session authenticates under

The name in a payload is used twice: as a component of the path of the password
file, and as the localpart of the session. Neither use checks that it is a name
an account can have. The path takes it as it is and the localpart cuts it, so one
account can be entered under several names.
-/
namespace Xmppd.Identity
open CStrings FileTree LibXml Util ServerState User Auth Accounts Confinement Installation

/-- The name in the payload. -/
def authcid (stanza : Node) : Str :=
  match credentials stanza with
  | .ok c => c.1
  | .error _ => []

/-- The file whose password is compared. -/
def checked (srv : Server) (stanza : Node) : Option Path :=
  locate srv (userPath srv.cfg (authcid stanza) "user.conf")

/-- The payload makes an unauthenticated session an authenticated one. -/
def Accepts (srv : Server) (i : ℕ) (stanza : Node) : Prop :=
  srv.Live i ∧ (srv.sess i).authenticated = false ∧ ((authHandleSasl srv i stanza).sess i).authenticated = true

/-- The localpart of the session afterwards. -/
def identity (srv : Server) (i : ℕ) (stanza : Node) : Str := ((authHandleSasl srv i stanza).sess i).jidLocal.str

/-- The session has the name of an account, spelled as in the payload, and the password
was checked in the directory of that name. -/
def Canonical (srv : Server) (i : ℕ) (stanza : Node) : Prop :=
  validUsername (identity srv i stanza) = true ∧ identity srv i stanza = authcid stanza ∧
    ∃ d, walk srv (identity srv i stanza) = some d ∧ checked srv stanza = some (d ++ [("user.conf" : Str)])

/-- The name is one for an account, and the path of its password file is not cut. -/
def Spelled (srv : Server) (stanza : Node) : Prop :=
  validUsername (authcid stanza) = true ∧ (authcid stanza).length < 256 ∧
    (srv.cfg.datadir.str ++ '/' :: (authcid stanza ++ ("/user.conf" : Str))).length < 1280

/-- In the root directory a step back leads nowhere. -/
def Looped (srv : Server) (s t : Node) : Prop :=
  home srv = some [] ∧
    (authcid s = ['.'] ∧ authcid t = ['.', '.'] ∨ authcid s = ['.', '.'] ∧ authcid t = ['.'])

/-! ## Acceptance -/

section
variable {srv : Server} {i : ℕ} {stanza : Node}

theorem Accepts.password (h : Accepts srv i stanza) : ∃ passwd, credentials stanza = .ok (authcid stanza, passwd) ∧
    userCheckPassword srv (authcid stanza) passwd = true := by
  obtain ⟨hl, hu, ha⟩ := h
  unfold authcid
  unfold authHandleSasl at ha
  split at ha
  · rw [Server.sessionWrite, Server.sess_modify_self hl, hu] at ha
    cases ha
  · next authcid passwd hc =>
    split at ha
    · rw [Server.sessionWrite, Server.sess_modify_self hl, hu] at ha
      cases ha
    · next hp =>
      rw [hc]
      exact ⟨passwd, rfl, by simpa using hp⟩

theorem Accepts.identity (h : Accepts srv i stanza) : identity srv i stanza = (authcid stanza).take 255 := by
  obtain ⟨passwd, hc, hp⟩ := h.password
  have hl := h.1
  have hl₁ := (Server.modify_live srv i i fun s : Session =>
    { s with
      jidLocal := snprintf 256 (authcid stanza)
      jidDomain := srv.cfg.domain
      authenticated := true
      state := .authenticated }).mpr hl
  unfold Identity.identity authHandleSasl
  rw [hc]
  dsimp only
  rw [hp]
  simp only [Bool.not_true, Bool.false_eq_true, if_false]
  rw [Server.sess_modify_self (by simpa [Server.sessionWrite] using hl)]
  dsimp only
  rw [Server.sessionWrite, Server.sess_modify_self hl₁]
  dsimp only
  rw [Server.sess_modify_self hl]
  rfl

/-- The file that was read is there. -/
theorem Accepts.checked (h : Accepts srv i stanza) : ∃ p, checked srv stanza = some p := by
  obtain ⟨passwd, -, hp⟩ := h.password
  unfold userCheckPassword readFile at hp
  unfold Identity.checked
  cases hq : locate srv (userPath srv.cfg (authcid stanza) "user.conf") with
  | some p => exact ⟨p, rfl⟩
  | none =>
      rw [hq] at hp
      cases hp

end

/-! ## Names and directories -/

section
variable {srv : Server} {name : Str} {q : Path}

theorem slash_not_mem (hv : validUsername name = true) : '/' ∉ name := by
  intro hm
  have hc := List.all_eq_true.mp (of_decide_eq_true hv).2 '/' hm
  revert hc
  decide

/-- Where the name of an account leads from the data directory. -/
theorem walk_valid (hv : validUsername name = true) (h : walk srv name = some q) :
    ∃ d, home srv = some d ∧
      (name = ['.'] ∧ q = d ∨ name = ['.', '.'] ∧ q = d.dropLast ∨
        (name ≠ ['.'] ∧ name ≠ ['.', '.']) ∧ q = d ++ [name]) := by
  have hne : name ≠ [] := (of_decide_eq_true hv).1
  rw [walk, List.splitOn_eq_singleton (slash_not_mem hv)] at h
  obtain ⟨d, hd, hq⟩ := Option.bind_eq_some_iff.mp h
  refine ⟨d, hd, ?_⟩
  unfold Tree.namei at hq
  split at hq
  · split at hq
    · next hc => exact Or.inl ⟨hc.resolve_left hne, (Option.some.inj hq).symm⟩
    · next hc =>
      split at hq
      · next hup => exact Or.inr (Or.inl ⟨hup, (Option.some.inj hq).symm⟩)
      · next hup => exact Or.inr (Or.inr ⟨⟨fun h => hc (Or.inr h), hup⟩, (Option.some.inj hq).symm⟩)
  · cases hq

/-- The data directory is one place, whatever is in the tree. -/
theorem home_agree {a b : Server} (hcfg : b.cfg = a.cfg) {d e : Path} (ha : home a = some d) (hb : home b = some e) :
    d = e := by
  unfold home Tree.below at ha hb
  rw [hcfg] at hb
  split at ha
  · next hd =>
    rw [if_pos hd] at hb
    exact (Option.some.inj ha).symm.trans (Option.some.inj hb)
  · next hd =>
    rw [if_neg hd] at hb
    exact Tree.namei_agree ha hb

theorem path_fits_iff (cfg : Config) (name : Str) :
    (cfg.datadir.str ++ '/' :: (name ++ ("/user.conf" : Str))).length < 1280 ↔ 10 ≤ spare cfg name := by
  have hlen : ("/user.conf" : Str).length = 10 := by decide
  rw [List.length_append, List.length_cons, List.length_append, hlen, spare]
  omega

end

section
variable {srv : Server} {i : ℕ} {stanza : Node}

/-- The file that was read is `user.conf` where the path is not cut. -/
theorem checked_eq (hn : (authcid stanza).length < 256) {p : Path} (hp : checked srv stanza = some p) :
    ∃ q, walk srv (authcid stanza) = some q ∧
      (10 ≤ spare srv.cfg (authcid stanza) ↔ p = q ++ [("user.conf" : Str)]) := by
  obtain ⟨q, hq, -, hpq⟩ := locate_walk hn (by decide) (by decide) (by decide) hp
  have hlen : ("user.conf" : Str).length = 9 := by decide
  refine ⟨q, hq, ?_⟩
  constructor
  · intro hfits
    rw [hpq, if_neg (by omega), List.take_of_length_le (by omega)]
  · intro he
    rw [hpq] at he
    split at he
    · have hlength := congrArg List.length he
      simp at hlength
    · have hname := congrArg List.length (List.cons.inj (List.append_cancel_left he)).1
      rw [List.length_take, hlen] at hname
      omega

theorem canonical_iff_spelled (h : Accepts srv i stanza) : Canonical srv i stanza ↔ Spelled srv stanza := by
  obtain ⟨p, hp⟩ := h.checked
  unfold Canonical Spelled
  rw [path_fits_iff, h.identity]
  constructor
  · rintro ⟨hv, hid, d, hd, hc⟩
    rw [hid] at hv hd
    have hn : (authcid stanza).length < 256 := by
      have hlen := List.length_take_le 255 (authcid stanza)
      rw [hid] at hlen
      omega
    obtain ⟨q, hq, hfits⟩ := checked_eq hn hc
    have hdq : d = q := Option.some.inj (hd.symm.trans hq)
    exact ⟨hv, hn, hfits.mpr (by rw [hdq])⟩
  · rintro ⟨hv, hn, hfits⟩
    have hid : (authcid stanza).take 255 = authcid stanza := List.take_of_length_le (by omega)
    obtain ⟨q, hq, hfile⟩ := checked_eq hn hp
    rw [hid]
    exact ⟨hv, rfl, q, hq, by rw [hp, hfile.mp hfits]⟩

end

/-- Where the password file of a spelled name stands. -/
theorem Spelled.place {srv : Server} {i : ℕ} {stanza : Node} (hs : Spelled srv stanza) (h : Accepts srv i stanza) :
    ∃ d q, home srv = some d ∧ checked srv stanza = some (q ++ [("user.conf" : Str)]) ∧
      (authcid stanza = ['.'] ∧ q = d ∨ authcid stanza = ['.', '.'] ∧ q = d.dropLast ∨
        (authcid stanza ≠ ['.'] ∧ authcid stanza ≠ ['.', '.']) ∧ q = d ++ [authcid stanza]) := by
  obtain ⟨hv, hn, hfits⟩ := hs
  obtain ⟨p, hp⟩ := h.checked
  obtain ⟨q, hq, hfile⟩ := checked_eq hn hp
  obtain ⟨d, hd, hcases⟩ := walk_valid hv hq
  refine ⟨d, q, hd, ?_, hcases⟩
  rw [hp, hfile.mp ((path_fits_iff _ _).mp hfits)]

/-- A directory is its own parent at the root only. -/
theorem dropLast_eq_self {d : Path} (h : d.dropLast = d) : d = [] := by
  have hlen := congrArg List.length h
  rw [List.length_dropLast] at hlen
  apply List.eq_nil_of_length_eq_zero
  omega

theorem place_of_root {name : Str} {q : Path}
    (h : name = ['.'] ∧ q = [] ∨ name = ['.', '.'] ∧ q = ([] : Path).dropLast ∨
      (name ≠ ['.'] ∧ name ≠ ['.', '.']) ∧ q = [] ++ [name]) (hname : name = ['.'] ∨ name = ['.', '.']) : q = [] := by
  rcases h with ⟨-, hq⟩ | ⟨-, hq⟩ | ⟨⟨hone, htwo⟩, -⟩
  · exact hq
  · exact hq
  · exact absurd hname (not_or.mpr ⟨hone, htwo⟩)

/-- Two payloads that were accepted: each session is canonical, and the same password file
gives the same localpart, exactly if both names are names of accounts whose paths are not
cut and they do not step back from the root. -/
theorem identity_canonical_iff {a b : Server} {i j : ℕ} {s t : Node} (hcfg : b.cfg = a.cfg) (ha : Accepts a i s)
    (hb : Accepts b j t) :
    (Canonical a i s ∧ Canonical b j t ∧ (checked a s = checked b t → identity a i s = identity b j t)) ↔
      Spelled a s ∧ Spelled b t ∧ ¬Looped a s t := by
  rw [canonical_iff_spelled ha, canonical_iff_spelled hb]
  constructor
  · rintro ⟨hs, ht, hsame⟩
    refine ⟨hs, ht, ?_⟩
    rintro ⟨hroot, hnames⟩
    obtain ⟨d, q, hd, hq, hcases⟩ := hs.place ha
    obtain ⟨e, r, he, hr, hcases'⟩ := ht.place hb
    obtain rfl : d = e := home_agree hcfg hd he
    obtain rfl : d = [] := Option.some.inj (hd.symm.trans hroot)
    have hfile : checked a s = checked b t := by
      rw [hq, hr, place_of_root hcases (hnames.imp And.left And.left), place_of_root hcases' (hnames.symm.imp And.right And.right)]
    have hfull := hsame hfile
    rw [ha.identity, hb.identity, List.take_of_length_le (Nat.le_of_lt_succ hs.2.1),
      List.take_of_length_le (Nat.le_of_lt_succ ht.2.1)] at hfull
    rcases hnames with ⟨h₁, h₂⟩ | ⟨h₁, h₂⟩
    · rw [h₁, h₂] at hfull
      cases hfull
    · rw [h₁, h₂] at hfull
      cases hfull
  · rintro ⟨hs, ht, hloop⟩
    refine ⟨hs, ht, ?_⟩
    intro hfile
    rw [ha.identity, hb.identity]
    apply congrArg (List.take 255)
    obtain ⟨d, q, hd, hq, hcases⟩ := hs.place ha
    obtain ⟨e, r, he, hr, hcases'⟩ := ht.place hb
    obtain rfl : d = e := home_agree hcfg hd he
    obtain rfl : q = r := by
      rw [hq, hr] at hfile
      exact List.append_cancel_right (Option.some.inj hfile)
    rcases hcases with ⟨h₁, h₂⟩ | ⟨h₁, h₂⟩ | ⟨h₁, h₂⟩
    · rcases hcases' with ⟨h₃, h₄⟩ | ⟨h₃, h₄⟩ | ⟨h₃, h₄⟩
      · rw [h₁, h₃]
      · have hroot := dropLast_eq_self (h₄.symm.trans h₂)
        exact absurd ⟨by rw [hd, hroot], Or.inl ⟨h₁, h₃⟩⟩ hloop
      · have hlen := congrArg List.length (h₂.symm.trans h₄)
        simp at hlen
    · rcases hcases' with ⟨h₃, h₄⟩ | ⟨h₃, h₄⟩ | ⟨h₃, h₄⟩
      · have hroot := dropLast_eq_self (h₂.symm.trans h₄)
        exact absurd ⟨by rw [hd, hroot], Or.inr ⟨h₁, h₃⟩⟩ hloop
      · rw [h₁, h₃]
      · have hlen := congrArg List.length (h₂.symm.trans h₄)
        rw [List.length_dropLast, List.length_append, List.length_singleton] at hlen
        omega
    · rcases hcases' with ⟨h₃, h₄⟩ | ⟨h₃, h₄⟩ | ⟨h₃, h₄⟩
      · have hlen := congrArg List.length (h₂.symm.trans h₄)
        simp at hlen
      · have hlen := congrArg List.length (h₂.symm.trans h₄)
        rw [List.length_dropLast, List.length_append, List.length_singleton] at hlen
        omega
      · exact (List.cons.inj (List.append_cancel_left (h₂.symm.trans h₄))).1

/-- An `<auth>` element with this payload. -/
def authElement (payload : Str) : Node := .element "auth" Stanza.saslNs [attr "mechanism" "PLAIN"] [.text payload]

instance decidableAccepts (srv : Server) (i : ℕ) (stanza : Node) : Decidable (Accepts srv i stanza) :=
  inferInstanceAs (Decidable (_ ∧ _ ∧ _))

def connected : Server := exampleServer.serverAccept

/-- The payload for the name `./alice` with the password of alice. -/
def dottedPlain : Str := "AC4vYWxpY2UAcGE="

theorem users_canonical : Canonical connected 0 (authElement alicePlain) ∧ Canonical connected 0 (authElement bobPlain) ∧
    (checked connected (authElement alicePlain) = checked connected (authElement bobPlain) →
      identity connected 0 (authElement alicePlain) = identity connected 0 (authElement bobPlain)) := by
  have ha : Accepts connected 0 (authElement alicePlain) ∧ Accepts connected 0 (authElement bobPlain) := by decide +kernel
  refine (identity_canonical_iff rfl ha.1 ha.2).mpr ⟨?_, ?_, ?_⟩
  · exact ⟨by decide +kernel, by decide +kernel, by decide +kernel⟩
  · exact ⟨by decide +kernel, by decide +kernel, by decide +kernel⟩
  · intro hloop
    have hroot := hloop.1
    revert hroot
    decide +kernel

/-- The password of alice is checked, and the session is not one of alice. -/
theorem dotted_alice : Accepts connected 0 (authElement dottedPlain) ∧ Accepts connected 0 (authElement alicePlain) ∧
    checked connected (authElement dottedPlain) = checked connected (authElement alicePlain) ∧
    validUsername (identity connected 0 (authElement dottedPlain)) = false ∧
    identity connected 0 (authElement dottedPlain) ≠ identity connected 0 (authElement alicePlain) := by
  decide +kernel

end Xmppd.Identity
