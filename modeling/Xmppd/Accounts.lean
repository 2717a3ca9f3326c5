import Xmppd.Coherence

/-!
# Users and their addresses

An account name is made of letters, digits, dots, dashes and underscores and is
neither of the two directory names a path can go back by. It is therefore one
component of a path, so that different users have different files, and it ends
where an address has its first `@`.
-/
namespace Xmppd.Accounts
open CStrings FileTree LibXml Util ServerState User Roster Message Presence RosterStore Offline

/-- A name the account tools can make a directory for. -/
structure Username where
  buf : Buf 256
  valid : validUsername buf.str = true
  proper : buf.str ≠ ['.'] ∧ buf.str ≠ ['.', '.']
deriving DecidableEq

namespace Username

def str (u : Username) : Str := u.buf.str

def ofStr (s : Str) : Option Username :=
  if h : s.length < 256 ∧ validUsername s = true ∧ s ≠ ['.'] ∧ s ≠ ['.', '.'] then
    some ⟨⟨s, h.1⟩, h.2.1, h.2.2⟩
  else none

theorem ext_str {u v : Username} (h : u.str = v.str) : u = v := by
  cases u with
  | mk b hv hp =>
      cases v with
      | mk c hv' hp' =>
          obtain rfl : b = c := Buf.ext h
          rfl

theorem ofStr_eq_some {s : Str} {u : Username} (h : ofStr s = some u) : u.str = s := by
  unfold ofStr at h
  split_ifs at h
  cases h
  rfl

@[simp] theorem ofStr_str (u : Username) : ofStr u.str = some u := by
  unfold ofStr
  rw [dif_pos ⟨u.buf.fits, u.valid, u.proper⟩]
  rfl

theorem ne_nil (u : Username) : u.str ≠ [] := (of_decide_eq_true u.valid).1

theorem not_mem (u : Username) {c : Char} (hc : (c.isAlphanum || c = '.' || c = '-' || c = '_') = false) :
    c ∉ u.str := by
  intro h
  have ha := List.all_eq_true.mp (of_decide_eq_true u.valid).2 c h
  have hn : ¬(c.isAlphanum = true ∨ c = '.' ∨ c = '-' ∨ c = '_') := by
    simpa [and_assoc] using hc
  exact hn (of_decide_eq_true ha)

theorem plain (u : Username) : Tree.Plain u.str :=
  ⟨u.ne_nil, u.proper.1, u.proper.2, u.not_mem (by decide)⟩

end Username

/-! ## Files -/

/-- The data directory. -/
def home (srv : Server) : Option Path := srv.files.below srv.cfg.cwd srv.cfg.datadir.str

/-- What is left of the path buffer behind a name. -/
def spare (cfg : Config) (name : Str) : ℕ := 1278 - (cfg.datadir.str.length + name.length)

/-- What is left of the path buffer behind the user's directory. -/
def room (cfg : Config) (u : Username) : ℕ := 1278 - (cfg.datadir.str.length + u.str.length)

theorem userPath_short (cfg : Config) {name : Str} (hn : name.length < 256) (file : Str) :
    userPath cfg name file = cfg.datadir.str ++ '/' :: (name ++ ('/' :: file).take (spare cfg name)) := by
  have hd := cfg.datadir.fits
  have h₁ : cfg.datadir.str.length ≤ 1279 := by omega
  have h₂ : name.length ≤ 1279 - cfg.datadir.str.length - 1 := by omega
  have h₃ : 1279 - cfg.datadir.str.length - 1 - name.length = spare cfg name := by
    unfold spare
    omega
  have h₄ : ∃ k, 1279 - cfg.datadir.str.length = k + 1 ∧ 1279 - cfg.datadir.str.length - 1 = k :=
    ⟨1278 - cfg.datadir.str.length, by omega, by omega⟩
  obtain ⟨k, hk, hk'⟩ := h₄
  unfold userPath
  rw [snprintf_str, List.append_assoc, List.cons_append, List.take_append, List.take_of_length_le h₁]
  rw [show 1280 - 1 - cfg.datadir.str.length = k + 1 from hk, List.take_succ_cons]
  rw [hk'] at h₂ h₃
  rw [List.take_append, List.take_of_length_le h₂, h₃]

/-- A file stands in the directory of the name, unless the path is cut off there. -/
theorem locate_plain {srv : Server} {name file : Str} (hplain : Tree.Plain name) (hn : name.length < 256) (hs : '/' ∉ file)
    (hne : file ≠ []) (hf : file.head? ≠ some '.') {p : Path} (h : locate srv (userPath srv.cfg name file) = some p) :
    ∃ d, home srv = some d ∧
      p = d ++ name :: if spare srv.cfg name ≤ 1 then [] else [file.take (spare srv.cfg name - 1)] := by
  rw [locate, userPath_short srv.cfg hn, Tree.resolve_below] at h
  obtain ⟨d, hd, hn⟩ := Option.bind_eq_some_iff.mp h
  refine ⟨d, hd, ?_⟩
  cases hr : spare srv.cfg name with
  | zero =>
      rw [hr, List.take_zero, List.append_nil, List.splitOn_eq_singleton hplain.2.2.2] at hn
      simpa using Tree.namei_last hplain hn
  | succ k =>
      have hsk : '/' ∉ file.take k := fun hm => hs (List.mem_of_mem_take hm)
      rw [hr, List.take_succ_cons, List.splitOn_append_cons_self,
        List.splitOn_eq_singleton hplain.2.2.2, List.singleton_append, List.splitOn_eq_singleton hsk] at hn
      cases k with
      | zero => exact Tree.namei_stay hplain hn
      | succ m =>
          rw [if_neg (by omega), Nat.add_sub_cancel]
          refine Tree.namei_two hplain ?_ hn
          obtain ⟨c, cs, rfl⟩ := List.exists_cons_of_ne_nil hne
          have hdot : c ≠ '.' := fun h => hf (by rw [h]; rfl)
          rw [List.take_succ_cons] at hsk ⊢
          refine ⟨by simp, ?_, ?_, hsk⟩
          · exact fun he => hdot (List.cons.inj he).1
          · exact fun he => hdot (List.cons.inj he).1

theorem locate_userPath {srv : Server} {u : Username} {file : Str} (hs : '/' ∉ file) (hne : file ≠ [])
    (hf : file.head? ≠ some '.') {p : Path} (h : locate srv (userPath srv.cfg u.str file) = some p) :
    ∃ d, home srv = some d ∧
      p = d ++ u.str :: if room srv.cfg u ≤ 1 then [] else [file.take (room srv.cfg u - 1)] :=
  locate_plain u.plain u.buf.fits hs hne hf h

/-- No two names share a roster file. -/
theorem rosterFile_inj_plain {srv : Server} {name other : Str} {p : Path} (hname : Tree.Plain name) (hn : name.length < 256)
    (hother : Tree.Plain other) (ho : other.length < 256) (h : rosterFile srv name = some p)
    (h' : rosterFile srv other = some p) : name = other := by
  obtain ⟨d, hd, he⟩ := locate_plain hname hn (by decide) (by decide) (by decide) h
  obtain ⟨d', hd', he'⟩ := locate_plain hother ho (by decide) (by decide) (by decide) h'
  obtain rfl : d = d' := Option.some.inj (hd.symm.trans hd')
  exact (List.cons.inj (List.append_cancel_left (he.symm.trans he'))).1

section
variable {srv : Server} {u v : Username} {p q : Path}

theorem rosterFile_eq_some (h : rosterFile srv u.str = some p) :
    ∃ d, home srv = some d ∧
      p = d ++ u.str :: if room srv.cfg u ≤ 1 then [] else [("roster.xml" : Str).take (room srv.cfg u - 1)] :=
  locate_userPath (by decide) (by decide) (by decide) h

theorem offlinePath_eq_some (h : offlinePath srv u.str = some p) :
    ∃ d, home srv = some d ∧
      p = d ++ u.str :: if room srv.cfg u ≤ 1 then [] else [("offline" : Str).take (room srv.cfg u - 1)] :=
  locate_userPath (by decide) (by decide) (by decide) h

/-- No two users share a roster file. -/
theorem rosterFile_inj (hu : rosterFile srv u.str = some p) (hv : rosterFile srv v.str = some p) : u = v :=
  Username.ext_str (rosterFile_inj_plain u.plain u.buf.fits v.plain v.buf.fits hu hv)

/-- No roster file stands in an offline directory. -/
theorem rosterFile_apart (hu : rosterFile srv u.str = some p) (hv : offlinePath srv v.str = some q) :
    p.dropLast ≠ q := by
  obtain ⟨d, hd, rfl⟩ := rosterFile_eq_some hu
  obtain ⟨d', hd', rfl⟩ := offlinePath_eq_some hv
  obtain rfl : d = d' := Option.some.inj (hd.symm.trans hd')
  by_cases h : room srv.cfg u ≤ 1
  · rw [if_pos h, List.dropLast_concat]
    intro he
    have hl := congrArg List.length he
    simp only [List.length_append, List.length_cons] at hl
    omega
  · rw [if_neg h, List.append_cons, List.dropLast_concat]
    intro he
    have hs := List.append_cancel_left he
    obtain rfl : u = v := Username.ext_str (List.cons.inj hs).1
    rw [if_neg h] at hs
    cases (List.cons.inj hs).2

end

/-! ## Addresses -/

def bareOf (cfg : Config) (u : Username) : Buf 512 := jidBare u.buf cfg.domain

theorem bareOf_str (cfg : Config) (u : Username) : (bareOf cfg u).str = u.str ++ '@' :: cfg.domain.str :=
  jidBare_str _ _

theorem bareOf_inj {cfg : Config} {u v : Username} (h : bareOf cfg u = bareOf cfg v) : u = v := by
  have hs := congrArg Buf.str h
  rw [bareOf_str, bareOf_str] at hs
  exact Username.ext_str (List.append_cancel_right hs)

/-- The bare address of a user, at a domain that can be one. -/
def IsLocal (cfg : Config) (b : Buf 512) : Prop := '/' ∉ cfg.domain.str ∧ ∃ u, b = bareOf cfg u

/-- The user whose bare or full address this is, at a domain that can be one. -/
def addressee (cfg : Config) (dest : Str) : Option Username :=
  (Username.ofStr (dest.takeWhile (· ≠ '@'))).filter fun u =>
    '/' ∉ cfg.domain.str ∧ (dest = (bareOf cfg u).str ∨ (bareOf cfg u).str ++ ['/'] <+: dest)

theorem addressee_eq_some {cfg : Config} {dest : Str} {u : Username} (h : addressee cfg dest = some u) :
    '/' ∉ cfg.domain.str ∧
      (dest = u.str ++ '@' :: cfg.domain.str ∨
        ∃ resource, dest = u.str ++ '@' :: (cfg.domain.str ++ '/' :: resource)) := by
  obtain ⟨-, hp⟩ := Option.filter_eq_some_iff.mp h
  obtain ⟨hd, hor⟩ := of_decide_eq_true hp
  refine ⟨hd, ?_⟩
  rw [bareOf_str] at hor
  rcases hor with h | ⟨r, hr⟩
  · exact Or.inl h
  · exact Or.inr ⟨r, by rw [← hr]; simp⟩

theorem findIdx_append {p : Char → Bool} {l : Str} (hl : ∀ c ∈ l, p c = false) {c : Char} (hc : p c = true)
    (rest : Str) : (l ++ c :: rest).findIdx? p = some l.length := by
  induction l with
  | nil => simp [List.findIdx?_cons, hc]
  | cons x xs ih =>
      rw [List.cons_append, List.findIdx?_cons, hl x (by simp),
        ih fun c hm => hl c (by simp [hm])]
      simp

/-- The parser finds the user and the domain. -/
theorem jidParse_addressee {cfg : Config} {dest : Str} {u : Username} (h : addressee cfg dest = some u)
    (buf : Jid) :
    (jidParse buf dest).jid.localpart = u.buf ∧ (jidParse buf dest).jid.domain = cfg.domain := by
  obtain ⟨hd, hor⟩ := addressee_eq_some h
  obtain ⟨tail, rfl, htail⟩ : ∃ tail, dest = u.str ++ '@' :: tail ∧
      (tail = cfg.domain.str ∨ ∃ resource, tail = cfg.domain.str ++ '/' :: resource) := by
    rcases hor with rfl | ⟨r, rfl⟩
    · exact ⟨_, rfl, Or.inl rfl⟩
    · exact ⟨_, rfl, Or.inr ⟨r, rfl⟩⟩
  have hat : (u.str ++ '@' :: tail).findIdx? (· == '@') = some u.str.length := by
    refine findIdx_append ?_ rfl tail
    intro c hc
    simp only [beq_eq_false_iff_ne]
    rintro rfl
    exact u.not_mem (by decide) hc
  have hne : u.str ++ '@' :: tail ≠ [] := by simp
  obtain ⟨n, hn⟩ : ∃ n, u.str.length = n + 1 :=
    Nat.exists_eq_succ_of_ne_zero fun h => u.ne_nil (List.eq_nil_of_length_eq_zero h)
  have htake : (u.str ++ '@' :: tail).take (n+1) = u.str := by rw [← hn]; simp
  have hdrop : (u.str ++ '@' :: tail).drop (n+1+1) = tail := by
    rw [← hn, ← List.drop_drop, List.drop_left]
    rfl
  have hloc : snprintf 256 u.str = u.buf := snprintf_buf u.buf
  have hslash : ∀ c ∈ u.str ++ '@' :: cfg.domain.str, (c == '/') = false := by
    intro c hc
    simp only [beq_eq_false_iff_ne]
    rintro rfl
    rcases List.mem_append.mp hc with hc | hc
    · exact u.not_mem (by decide) hc
    · rcases List.mem_cons.mp hc with hc | hc
      · cases hc
      · exact hd hc
  have hp : jidParse buf (u.str ++ '@' :: tail) =
      parseDomain { Jid.cleared with localpart := snprintf 256 ((u.str ++ '@' :: tail).take (n+1)) }
        (u.str ++ '@' :: tail) (n+1+1) := by
    unfold jidParse
    rw [if_neg hne, hat, hn]
    rfl
  rw [hp, htake, hloc]
  unfold parseDomain
  dsimp only
  rw [hdrop]
  rcases htail with rfl | ⟨resource, rfl⟩
  · rw [List.findIdx?_eq_none_iff.mpr hslash]
    dsimp only
    split_ifs with he
    · exact ⟨rfl, Buf.ext he.symm⟩
    · exact ⟨rfl, snprintf_buf cfg.domain⟩
  · have hs : (u.str ++ '@' :: (cfg.domain.str ++ '/' :: resource)).findIdx? (· == '/') =
        some (n + 2 + cfg.domain.str.length) := by
      rw [← List.cons_append, ← List.append_assoc, findIdx_append hslash rfl resource]
      simp only [List.length_append, List.length_cons, hn]
      congr 1
      omega
    have hlen := cfg.domain.fits
    rw [hs]
    dsimp only
    have hdl : (n + 2 + cfg.domain.str.length + 2 ^ 64 - (n + 1 + 1)) % 2 ^ 64 = cfg.domain.str.length := by
      omega
    rw [hdl]
    split_ifs with he
    · exact ⟨rfl, Buf.ext (List.eq_nil_of_length_eq_zero he).symm⟩
    · refine ⟨rfl, ?_⟩
      rw [List.take_left]
      exact snprintf_buf cfg.domain

theorem bare_addressee {cfg : Config} {dest : Str} {u : Username} (h : addressee cfg dest = some u)
    (buf : Jid) : (jidParse buf dest).jid.bare = bareOf cfg u := by
  obtain ⟨hl, hd⟩ := jidParse_addressee h buf
  rw [Jid.bare, hl, hd]
  rfl

theorem addressee_bareOf {cfg : Config} (hd : '/' ∉ cfg.domain.str) (u : Username) :
    addressee cfg (bareOf cfg u).str = some u := by
  have ht : (u.str ++ '@' :: cfg.domain.str).takeWhile (· ≠ '@') = u.str := by
    rw [List.takeWhile_append_of_pos]
    · simp
    · intro c hc
      simp only [decide_eq_true_eq]
      rintro rfl
      exact u.not_mem (by decide) hc
  unfold addressee
  rw [bareOf_str, ht, Username.ofStr_str, Option.filter_some, if_pos]
  exact decide_eq_true ⟨hd, Or.inl (bareOf_str cfg u).symm⟩

/-- A roster item for a user leads to the user's session. -/
theorem contactOf_local {srv : Server} {item : RosterItem} {u : Username} (hd : '/' ∉ srv.cfg.domain.str)
    (hj : item.jid = bareOf srv.cfg u) (buf : Jid) :
    contactOf srv buf item = srv.sessionFindByJid (bareOf srv.cfg u).str := by
  unfold contactOf
  rw [hj, bare_addressee (addressee_bareOf hd u)]

end Xmppd.Accounts
