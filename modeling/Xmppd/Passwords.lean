import Mathlib.Data.List.TakeWhile
import Xmppd.Installation

/-!
# Stored passwords

An account file holds one line, with the password as it was given. The reader of
that line takes as much of it as its buffer holds, ends it at the first line end
and trims it. A password that has none of what is cut off is the one password
that is accepted afterwards; any other is not accepted any more.
-/
namespace Xmppd.Passwords
open CStrings FileTree LibXml ServerState User Installation

/-! ## Trimming -/

theorem isPrefix_trimRight (s : Str) : trimRight s <+: s := by
  have h := List.dropWhile_suffix isSpace (l := s.reverse)
  rw [← List.reverse_prefix, List.reverse_reverse] at h
  exact h

theorem trimRight_eq_self {s : Str} (h : s.getLast?.any isSpace = false) : trimRight s = s := by
  unfold trimRight
  have hs : s.reverse.dropWhile isSpace = s.reverse := by
    cases hr : s.reverse with
    | nil => rfl
    | cons c cs =>
        rw [← List.head?_reverse, hr] at h
        rw [List.dropWhile_cons_of_neg (by simpa using h)]
  rw [hs, List.reverse_reverse]

theorem getLast_trimRight (s : Str) : (trimRight s).getLast?.any isSpace = false := by
  unfold trimRight
  rw [List.getLast?_reverse]
  cases h : s.reverse.dropWhile isSpace with
  | nil => rfl
  | cons c cs =>
      have hc := List.head_dropWhile_not isSpace (l := s.reverse) (by simp [h])
      simpa [h] using hc

theorem dropWhile_eq_self {s : Str} (h : s.head?.any isSpace = false) : s.dropWhile isSpace = s := by
  cases s with
  | nil => rfl
  | cons c cs => rw [List.dropWhile_cons_of_neg (by simpa using h)]

theorem head_dropWhile (s : Str) : (s.dropWhile isSpace).head?.any isSpace = false := by
  cases h : s.dropWhile isSpace with
  | nil => rfl
  | cons c cs =>
      have hc := List.head_dropWhile_not isSpace (l := s) (by simp [h])
      simpa [h] using hc

/-! ## The line that is read -/

/-- A character that does not end the line in the buffer. -/
def inLine (c : Char) : Bool := c ≠ '\n' ∧ c ≠ '\r' ∧ c ≠ '\x00'

/-- What the reader makes of a password in the file. -/
def stored (password : Str) : Str := trimRight (((password.take 1012).takeWhile inLine).dropWhile isSpace)

/-- A password with nothing that is cut off. -/
def Verbatim (password : Str) : Prop :=
  password.length ≤ 1012 ∧ (password.all fun c => c ≠ '\n' ∧ c ≠ '\r') = true ∧
    password.head?.any isSpace = false ∧ password.getLast?.any isSpace = false

instance (password : Str) : Decidable (Verbatim password) := inferInstanceAs (Decidable (_ ∧ _))

/-- Cutting a text off behind a line end leaves the part before it alone. -/
theorem takeWhile_cut (s : Str) (n : ℕ) :
    ((s.takeWhile (· ≠ '\n') ++ (s.dropWhile (· ≠ '\n')).take 1).take n).takeWhile inLine =
      (s.take n).takeWhile inLine := by
  induction s generalizing n with
  | nil => rfl
  | cons c cs ih =>
      cases n with
      | zero => rfl
      | succ n =>
          by_cases hc : c = '\n'
          · subst hc
            simp [inLine]
          · rw [List.takeWhile_cons_of_pos (by simpa using hc), List.dropWhile_cons_of_pos (by simpa using hc),
              List.cons_append, List.take_succ_cons, List.take_succ_cons, List.takeWhile_cons, List.takeWhile_cons, ih]

theorem confLine_passwordLine (password : Str) :
    confLine (fgets (("password = " : Str) ++ password ++ ['\n'])) = some (("password" : Str), stored password) := by
  have hline : (fgets (("password = " : Str) ++ password ++ ['\n'])).takeWhile inLine =
      ("password = " : Str) ++ (password.take 1012).takeWhile inLine := by
    unfold fgets
    rw [takeWhile_cut, List.append_assoc, List.take_append, List.takeWhile_append_of_pos (List.all_eq_true.mp (by decide))]
    congr 1
    change ((password ++ ['\n']).take 1012).takeWhile inLine = _
    rw [List.take_append]
    by_cases hlen : password.length < 1012
    · rw [List.take_of_length_le (by omega), show 1012 - password.length = (1011 - password.length) + 1 by omega,
        List.take_succ_cons, List.takeWhile_append]
      split
      · next hall => simp [inLine, (List.takeWhile_prefix inLine (l := password)).eq_of_length hall]
      · rfl
    · rw [show 1012 - password.length = 0 by omega, List.take_zero, List.append_nil]
  unfold confLine stored
  rw [show (fun c : Char => decide (c ≠ '\n' ∧ c ≠ '\r' ∧ c ≠ '\x00')) = inLine from rfl, hline]
  generalize (password.take 1012).takeWhile inLine = value
  rfl

theorem stored_eq_self {password : Str} (h0 : '\x00' ∉ password) : stored password = password ↔ Verbatim password := by
  constructor
  · intro h
    have hpre : ((password.take 1012).takeWhile inLine).dropWhile isSpace <:+ (password.take 1012).takeWhile inLine :=
      List.dropWhile_suffix _
    have htrim := (isPrefix_trimRight (((password.take 1012).takeWhile inLine).dropWhile isSpace)).length_le
    have htake := (List.takeWhile_prefix inLine (l := password.take 1012)).length_le
    have hcut := List.length_take_le 1012 password
    have hdrop := hpre.length_le
    have hlen : (stored password).length = password.length := by rw [h]
    unfold stored at hlen
    have hshort : password.length ≤ 1012 := by omega
    have hall : (password.take 1012).takeWhile inLine = password := by
      have hp := List.takeWhile_prefix inLine (l := password.take 1012)
      rw [List.take_of_length_le hshort] at hp htake hdrop htrim hlen ⊢
      exact hp.eq_of_length (by omega)
    have hhead : password.dropWhile isSpace = password := by
      rw [hall] at hpre hdrop htrim hlen
      exact hpre.eq_of_length (by omega)
    refine ⟨hshort, ?_, ?_, ?_⟩
    · rw [List.all_eq_true]
      intro c hc
      rw [← hall] at hc
      have hin := List.mem_takeWhile_imp hc
      unfold inLine at hin
      exact decide_eq_true ⟨(of_decide_eq_true hin).1, (of_decide_eq_true hin).2.1⟩
    · have hd := head_dropWhile password
      rwa [hhead] at hd
    · have ht := getLast_trimRight password
      unfold stored at h
      rw [hall, hhead] at h
      rwa [h] at ht
  · rintro ⟨hlen, hin, hhead, hlast⟩
    have hall : password.takeWhile inLine = password := by
      rw [List.takeWhile_eq_self_iff]
      intro c hc
      have hc0 : c ≠ '\x00' := fun he => h0 (he ▸ hc)
      have hc := of_decide_eq_true (List.all_eq_true.mp hin c hc)
      exact decide_eq_true ⟨hc.1, hc.2, hc0⟩
    unfold stored
    rw [List.take_of_length_le hlen, hall, dropWhile_eq_self hhead, trimRight_eq_self hlast]

/-- What decides a login, once the file has been written. -/
theorem userCheckPassword_stored {srv : Server} {username password : Str}
    (h : readFile srv (userPath srv.cfg username "user.conf") = some (passwordLine password)) (attempt : Str) :
    userCheckPassword srv username attempt = decide (stored password = attempt) := by
  obtain ⟨lines, hlines⟩ : ∃ lines, fgetsLines (("password = " : Str) ++ password ++ ['\n']).length
      (("password = " : Str) ++ password ++ ['\n']) = fgets (("password = " : Str) ++ password ++ ['\n']) :: lines :=
    ⟨_, rfl⟩
  unfold userCheckPassword
  rw [h, passwordLine]
  dsimp only
  rw [hlines, List.filterMap_cons, confLine_passwordLine]
  dsimp only
  rw [List.find?_cons_of_pos (by simp)]

theorem accepted_iff {srv : Server} {username password : Str} (h0 : '\x00' ∉ password)
    (h : readFile srv (userPath srv.cfg username "user.conf") = some (passwordLine password)) :
    (∀ attempt, '\x00' ∉ attempt → (userCheckPassword srv username attempt = true ↔ attempt = password)) ↔
      Verbatim password := by
  rw [← stored_eq_self h0]
  constructor
  · intro hall
    have hp := (hall password h0).mpr rfl
    rw [userCheckPassword_stored h] at hp
    exact of_decide_eq_true hp
  · intro hs attempt _
    rw [userCheckPassword_stored h, hs, decide_eq_true_iff]
    exact eq_comm

/-! ## The files of a new account -/

theorem userDir_length (cfg : Config) (username : Str) : (userDir cfg username).length ≤ 1279 := by
  unfold userDir
  rw [snprintf_str]
  exact List.length_take_le _ _

theorem userDir_ne_nil (cfg : Config) (username : Str) : userDir cfg username ≠ [] := by
  intro h
  have hlen := congrArg List.length h
  unfold userDir at hlen
  rw [snprintf_str, List.length_take, List.length_append, List.length_cons, List.length_nil] at hlen
  omega

theorem fileIn_userDir (cfg : Config) (username : Str) {file : Str} (hf : file.length < 256) :
    fileIn (userDir cfg username) file = userDir cfg username ++ '/' :: file := by
  unfold fileIn
  have hd := userDir_length cfg username
  apply snprintf_fits
  simp only [List.length_append, List.length_cons]
  omega

/-- The path of an account file goes through the user's directory, as far as it fits. -/
theorem userPath_userDir (cfg : Config) (username file : Str) :
    userPath cfg username file =
      userDir cfg username ++ ('/' :: file).take (1279 - (cfg.datadir.str ++ '/' :: username).length) := by
  unfold userPath userDir
  rw [snprintf_str, snprintf_str, List.take_append]

theorem locate_below {srv : Server} {dir : Str} (hd : dir ≠ []) {p : Path} (hp : locate srv dir = some p)
    (hdir : srv.files.isDir p = true) {name : Str} (hn : Tree.Plain name) :
    locate srv (dir ++ '/' :: name) = some (p ++ [name]) := by
  rw [locate] at hp ⊢
  rw [Tree.resolve_append _ _ hd, hp, Option.bind_some, List.splitOn_eq_singleton hn.2.2.2,
    Tree.namei_plain _ hn _ _ hdir]
  rfl

theorem eq_of_not_failed {b : Bool} {x : Option Server} {srv : Server} (h : (if b then none else x) = some srv) :
    x = some srv := by
  split_ifs at h
  exact h

theorem userCreate_eq_zero {srv srv' : Server} {o : Oracle} {username password : Str}
    (h : userCreate srv o username password = (srv', 0)) :
    ∃ s₁ s₂ s₃, mkdir srv (userDir srv.cfg username) = some s₁ ∧
      writeFile s₁ (fileIn (userDir srv.cfg username) "user.conf") (passwordLine password) = some s₂ ∧
      writeFile s₂ (fileIn (userDir srv.cfg username) "roster.xml") emptyRoster = some s₃ ∧
      mkdir s₃ (fileIn (userDir srv.cfg username) "offline") = some srv' := by
  unfold userCreate at h
  split at h
  · cases h
  split at h
  · cases h
  dsimp only at h
  split at h
  · cases h
  next s₁ h₁ =>
  split at h
  · cases h
  next s₂ h₂ =>
  split at h
  · cases h
  next s₃ h₃ =>
  split at h
  · cases h
  next s₄ h₄ =>
  cases h
  exact ⟨s₁, s₂, s₃, eq_of_not_failed h₁, eq_of_not_failed h₂, eq_of_not_failed h₃, eq_of_not_failed h₄⟩

/-- Nothing lies at the place of the user's directory or below it. -/
def Unused (srv : Server) (username : Str) : Prop :=
  ∀ p, locate srv (userDir srv.cfg username) = some p → ∀ e ∈ srv.files.entries, ¬p <+: e.1

theorem lookup_eq_none {t : FileTree.Tree Content} {p q : Path} (h : ∀ e ∈ t.entries, ¬p <+: e.1) (hq : p <+: q) :
    t.lookup q = none := by
  unfold Tree.lookup
  rw [Option.map_eq_none_iff, List.find?_eq_none]
  intro e he heq
  rw [← of_decide_eq_true heq] at hq
  exact h e he hq

/-- A directory is still found and is one, and only one entry has changed. -/
structure Changed (s s' : Server) (dir : Str) (p q : Path) : Prop where
  cfg : s'.cfg = s.cfg
  place : locate s' dir = some p
  isDir : s'.files.isDir p = true
  rest : ∀ r, r ≠ q → s'.files.lookup r = s.files.lookup r

section
variable {s s' : Server} {dir name : Str} {p : Path}

theorem changed_mkdir (h : mkdir s dir = some s') (hp : locate s dir = some p) :
    Changed s s' dir p p ∧ s'.files.lookup p = some .dir := by
  obtain ⟨q, t, hq, ht, rfl⟩ := mkdir_eq_some h
  obtain rfl : p = q := Option.some.inj (hp.symm.trans hq)
  obtain ⟨hnew, rfl⟩ := Tree.mkdir_eq_some ht
  have hgrow := Tree.isDir_put_dir s.files (Tree.not_isDir_of_not_present hnew)
  refine ⟨⟨rfl, ?_, ?_, ?_⟩, Tree.lookup_put_self _ _ _⟩
  · exact Tree.namei_mono (fun r hr => (hgrow r).mpr (Or.inl hr)) hp
  · exact (hgrow p).mpr (Or.inr rfl)
  · intro r hr
    exact Tree.lookup_put_of_ne _ _ hr

theorem changed_mkdir_below (hd : dir ≠ []) (hn : Tree.Plain name) (hp : locate s dir = some p)
    (hdir : s.files.isDir p = true) (h : mkdir s (dir ++ '/' :: name) = some s') :
    Changed s s' dir p (p ++ [name]) := by
  obtain ⟨q, t, hq, ht, rfl⟩ := mkdir_eq_some h
  obtain rfl : p ++ [name] = q := Option.some.inj ((locate_below hd hp hdir hn).symm.trans hq)
  obtain ⟨hnew, rfl⟩ := Tree.mkdir_eq_some ht
  have hgrow := Tree.isDir_put_dir s.files (Tree.not_isDir_of_not_present hnew)
  refine ⟨rfl, ?_, ?_, ?_⟩
  · exact Tree.namei_mono (fun r hr => (hgrow r).mpr (Or.inl hr)) hp
  · exact (hgrow p).mpr (Or.inl hdir)
  · intro r hr
    exact Tree.lookup_put_of_ne _ _ hr

theorem changed_writeFile_below (hd : dir ≠ []) (hn : Tree.Plain name) (hp : locate s dir = some p)
    (hdir : s.files.isDir p = true) {c : Content} (h : writeFile s (dir ++ '/' :: name) c = some s') :
    Changed s s' dir p (p ++ [name]) ∧ s'.files.content (p ++ [name]) = some c := by
  obtain ⟨q, t, hq, ht, rfl⟩ := writeFile_eq_some h
  obtain rfl : p ++ [name] = q := Option.some.inj ((locate_below hd hp hdir hn).symm.trans hq)
  refine ⟨⟨rfl, ?_, ?_, ?_⟩, Tree.content_write_self ht⟩
  · exact (Tree.resolve_write ht _ _).trans hp
  · exact (Tree.isDir_write ht p).trans hdir
  · intro r hr
    exact Tree.lookup_write_of_ne ht hr

end

/-- A new account: its directory, the line in its file, and nothing else but the roster and the store. -/
structure Account (srv srv' : Server) (username password : Str) (p : Path) : Prop where
  cfg : srv'.cfg = srv.cfg
  place : locate srv' (userDir srv.cfg username) = some p
  dir : srv'.files.lookup p = some .dir
  conf : srv'.files.content (p ++ [("user.conf" : Str)]) = some (passwordLine password)
  rest : ∀ name, name ∉ [("user.conf" : Str), ("roster.xml" : Str), ("offline" : Str)] →
    srv'.files.lookup (p ++ [name]) = srv.files.lookup (p ++ [name])

theorem userCreate_account {srv srv' : Server} {o : Oracle} {username password : Str}
    (h : userCreate srv o username password = (srv', 0)) :
    ∃ p, locate srv (userDir srv.cfg username) = some p ∧ Account srv srv' username password p := by
  obtain ⟨s₁, s₂, s₃, h₁, h₂, h₃, h₄⟩ := userCreate_eq_zero h
  obtain ⟨p, -, hp, -, -⟩ := mkdir_eq_some h₁
  have hd := userDir_ne_nil srv.cfg username
  rw [fileIn_userDir srv.cfg username (by decide)] at h₂ h₃ h₄
  obtain ⟨c₁, hself⟩ := changed_mkdir h₁ hp
  obtain ⟨c₂, hconf⟩ := changed_writeFile_below hd (by unfold Tree.Plain; decide) c₁.place c₁.isDir h₂
  obtain ⟨c₃, -⟩ := changed_writeFile_below hd (by unfold Tree.Plain; decide) c₂.place c₂.isDir h₃
  have c₄ := changed_mkdir_below hd (by unfold Tree.Plain; decide) c₃.place c₃.isDir h₄
  have hne : ∀ name : Name, p ≠ p ++ [name] := by
    intro name he
    have hlen := congrArg List.length he
    rw [List.length_append, List.length_singleton] at hlen
    omega
  refine ⟨p, hp, ?_, c₄.place, ?_, ?_, ?_⟩
  · rw [c₄.cfg, c₃.cfg, c₂.cfg, c₁.cfg]
  · rw [c₄.rest p (hne _), c₃.rest p (hne _), c₂.rest p (hne _), hself]
  · have hoffline : p ++ [("user.conf" : Str)] ≠ p ++ [("offline" : Str)] :=
      fun he => absurd (List.append_cancel_left he) (by decide)
    have hroster : p ++ [("user.conf" : Str)] ≠ p ++ [("roster.xml" : Str)] :=
      fun he => absurd (List.append_cancel_left he) (by decide)
    unfold Tree.content at hconf ⊢
    rw [c₄.rest _ hoffline, c₃.rest _ hroster]
    exact hconf
  · intro name hname
    simp only [List.mem_cons, List.not_mem_nil, or_false, not_or] at hname
    have hsame : ∀ other : Name, name ≠ other → p ++ [name] ≠ p ++ [other] :=
      fun other hother he => hother (List.cons.inj (List.append_cancel_left he)).1
    rw [c₄.rest _ (hsame _ hname.2.2), c₃.rest _ (hsame _ hname.2.1), c₂.rest _ (hsame _ hname.1),
      c₁.rest _ (hne name).symm]

/-! ## Logging in afterwards -/

/-- A beginning of the file name is a name, of none of the files. -/
theorem cut_plain {k : ℕ} (hk : k < 9) (h0 : k ≠ 0) : Tree.Plain (("user.conf" : Str).take k) ∧
    ("user.conf" : Str).take k ∉ [("user.conf" : Str), ("roster.xml" : Str), ("offline" : Str)] := by
  have hcases : k = 1 ∨ k = 2 ∨ k = 3 ∨ k = 4 ∨ k = 5 ∨ k = 6 ∨ k = 7 ∨ k = 8 := by omega
  rcases hcases with rfl | rfl | rfl | rfl | rfl | rfl | rfl | rfl <;>
    exact ⟨by unfold Tree.Plain; decide, by decide⟩

/-- Behind a cut path there is no account file. -/
theorem readFile_cut {srv srv' : Server} {username password : Str} {p : Path} (hunused : Unused srv username)
    (hp : locate srv (userDir srv.cfg username) = some p) (h : Account srv srv' username password p)
    (hcut : ¬(srv.cfg.datadir.str.length + username.length ≤ 1268)) :
    readFile srv' (userPath srv'.cfg username "user.conf") = none := by
  have hnone : ∀ q, locate srv' (userPath srv'.cfg username "user.conf") = some q → srv'.files.content q = none := by
    intro q hq
    have hdir : srv'.files.isDir p = true := by
      unfold Tree.isDir
      rw [h.dir]
      cases p <;> rfl
    have hself : srv'.files.content p = none := by
      unfold Tree.content
      rw [h.dir]
    rw [h.cfg, userPath_userDir, List.length_append, List.length_cons] at hq
    cases hk : 1279 - (srv.cfg.datadir.str.length + (username.length + 1)) with
    | zero =>
        rw [hk, List.take_zero, List.append_nil, h.place] at hq
        rw [← Option.some.inj hq]
        exact hself
    | succ k =>
        rw [hk, List.take_succ_cons] at hq
        have hshort : k < 9 := by omega
        by_cases hk0 : k = 0
        · rw [hk0, List.take_zero, locate, Tree.resolve_append _ _ (userDir_ne_nil srv.cfg username)] at hq
          change (locate srv' (userDir srv.cfg username)).bind _ = some q at hq
          rw [h.place, Option.bind_some] at hq
          have hqp : some p = some q := by simpa [Tree.namei_cons, Tree.namei_nil, hdir] using hq
          rw [← Option.some.inj hqp]
          exact hself
        · obtain ⟨hplain, hother⟩ := cut_plain hshort hk0
          rw [locate_below (userDir_ne_nil srv.cfg username) h.place hdir hplain] at hq
          rw [← Option.some.inj hq]
          unfold Tree.content
          rw [h.rest _ hother, lookup_eq_none (hunused p hp) (List.prefix_append p _)]
  unfold readFile
  cases hq : locate srv' (userPath srv'.cfg username "user.conf") with
  | none => rfl
  | some q => exact hnone q hq

theorem readFile_whole {srv srv' : Server} {username password : Str} {p : Path}
    (h : Account srv srv' username password p) (hfit : srv.cfg.datadir.str.length + username.length ≤ 1268) :
    readFile srv' (userPath srv'.cfg username "user.conf") = some (passwordLine password) := by
  have hdir : srv'.files.isDir p = true := by
    unfold Tree.isDir
    rw [h.dir]
    cases p <;> rfl
  have hwhole : userPath srv.cfg username "user.conf" = userDir srv.cfg username ++ '/' :: ("user.conf" : Str) := by
    rw [userPath_userDir, List.take_of_length_le]
    simp only [List.length_append, List.length_cons]
    have hlen : (("user.conf" : Str)).length = 9 := rfl
    omega
  unfold readFile
  rw [h.cfg, hwhole, locate_below (userDir_ne_nil srv.cfg username) h.place hdir (by unfold Tree.Plain; decide),
    Option.bind_some]
  exact h.conf

theorem unused_dave : Unused exampleServer "dave" := by
  have hp : locate exampleServer (userDir exampleServer.cfg "dave") = some [("data" : Str), ("dave" : Str)] := by decide
  intro p hp'
  rw [hp] at hp'
  rw [← Option.some.inj hp']
  decide

def created (password : Str) : Server := (userCreate exampleServer exampleOracle "dave" password).1

theorem created_dave (password : Str) : userCreate exampleServer exampleOracle "dave" password = (created password, 0) :=
  Prod.ext rfl rfl

end Xmppd.Passwords
