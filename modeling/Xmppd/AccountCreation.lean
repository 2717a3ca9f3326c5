import Xmppd.Passwords

/-!
# Creations that fail

An account is made in four operations, and each of them may fail. The first one makes
the directory, but an account is looked for by its `user.conf`, which only the second
one writes. What was made before a failure stays: a second attempt at the same name
finds the directory in its way, or an account nobody was told of.
-/
namespace Xmppd.AccountCreation
open CStrings FileTree LibXml ServerState User Passwords Installation

/-- Whatever is in the tree lies in a directory. -/
def Rooted (t : FileTree.Tree Content) : Prop := ∀ e ∈ t.entries, t.isDir e.1.dropLast = true

/-- Nothing is below a place where no directory is. -/
theorem Rooted.lookup_below {t : FileTree.Tree Content} (ht : Rooted t) {p : Path} (hp : t.isDir p = false) (name : Name) :
    t.lookup (p ++ [name]) = none := by
  unfold Tree.lookup
  rw [Option.map_eq_none_iff, List.find?_eq_none]
  intro e he heq
  have hdir := ht e he
  rw [of_decide_eq_true heq, List.dropLast_concat, hp] at hdir
  cases hdir

/-- Below a place where nothing is there is nothing. -/
theorem Rooted.lookup_under {t : FileTree.Tree Content} (ht : Rooted t) {p : Path} (hp : t.present p = false) (n : ℕ) :
    ∀ q, p <+: q → q.length = p.length + n → t.lookup q = none := by
  induction n with
  | zero =>
      intro q hq hlen
      rw [← hq.eq_of_length hlen.symm]
      unfold Tree.present at hp
      rw [Bool.or_eq_false_iff] at hp
      exact Option.not_isSome_iff_eq_none.mp (by rw [hp.2]; decide)
  | succ n ih =>
      intro q hq hlen
      have hne : q ≠ [] := by
        rintro rfl
        simp at hlen
      have hpre : p <+: q.dropLast := by
        rw [← List.dropLast_concat_getLast hne] at hq
        rcases List.prefix_concat_iff.mp hq with he | he
        · rw [he, List.dropLast_concat_getLast hne] at hlen
          omega
        · exact he
      have hup := ih q.dropLast hpre (by rw [List.length_dropLast]; omega)
      have hdir : t.isDir q.dropLast = false := by
        cases hq' : q.dropLast with
        | nil =>
            rw [hq', List.prefix_nil] at hpre
            rw [hpre] at hp
            cases hp
        | cons c cs =>
            rw [hq'] at hup
            simp [Tree.isDir, hup]
      have hbelow := ht.lookup_below hdir (q.getLast hne)
      rwa [List.dropLast_concat_getLast hne] at hbelow

theorem not_isDir_of_lookup {t : FileTree.Tree Content} {p : Path} {name : Name} (h : t.lookup (p ++ [name]) = none) :
    t.isDir (p ++ [name]) = false := by
  unfold Tree.isDir
  rw [h]
  cases p with
  | nil => rfl
  | cons q qs => rfl

section
variable {s : Server} {dir name : Str} {p : Path}

/-- In a directory a file can be written where nothing is. -/
theorem writeFile_below_some (hd : dir ≠ []) (hn : Tree.Plain name) (hp : locate s dir = some p) (hdir : s.files.isDir p = true)
    (hfree : s.files.lookup (p ++ [name]) = none) (c : Content) : ∃ s', writeFile s (dir ++ '/' :: name) c = some s' := by
  have hnot := not_isDir_of_lookup hfree
  have hw : s.files.writable (p ++ [name]) = true := by
    rw [Tree.writable, List.dropLast_concat, hdir, hnot]
    rfl
  refine ⟨{ s with files := { s.files.put (p ++ [name]) (.file c) with written := s.files.written ++ [p ++ [name]] } }, ?_⟩
  rw [writeFile, locate_below hd hp hdir hn, Option.bind_some, Tree.write, if_pos hw]
  rfl

theorem mkdir_below_some (hd : dir ≠ []) (hn : Tree.Plain name) (hp : locate s dir = some p) (hdir : s.files.isDir p = true)
    (hfree : s.files.lookup (p ++ [name]) = none) : ∃ s', mkdir s (dir ++ '/' :: name) = some s' := by
  have hnot := not_isDir_of_lookup hfree
  have hm : (s.files.isDir (p ++ [name]).dropLast && !s.files.present (p ++ [name])) = true := by
    rw [List.dropLast_concat, hdir, Tree.present, hnot, hfree]
    rfl
  refine ⟨{ s with files := s.files.put (p ++ [name]) .dir }, ?_⟩
  rw [mkdir, locate_below hd hp hdir hn, Option.bind_some, Tree.mkdir, if_pos hm]
  rfl

end

section
variable {srv s₁ : Server} {o : Oracle} {username : Str}

/-- Once the directory has been made, the other operations can only fail by themselves, and it stays. -/
theorem rest_succeeds (hr : Rooted srv.files) (h₁ : mkdir srv (userDir srv.cfg username) = some s₁) (password : Str) :
    ∃ p s₂ s₃ s₄, srv.files.isDir p = false ∧ s₁.files.isDir p = true ∧
      writeFile s₁ (fileIn (userDir srv.cfg username) "user.conf") (passwordLine password) = some s₂ ∧ s₂.files.isDir p = true ∧
      writeFile s₂ (fileIn (userDir srv.cfg username) "roster.xml") emptyRoster = some s₃ ∧ s₃.files.isDir p = true ∧
      mkdir s₃ (fileIn (userDir srv.cfg username) "offline") = some s₄ := by
  obtain ⟨p, t, hp, ht, -⟩ := mkdir_eq_some h₁
  have hd := userDir_ne_nil srv.cfg username
  have hnew := Tree.not_isDir_of_not_present (Tree.mkdir_eq_some ht).1
  have hself : ∀ name : Name, p ++ [name] ≠ p := by
    intro name he
    have hlen := congrArg List.length he
    rw [List.length_append, List.length_singleton] at hlen
    omega
  rw [fileIn_userDir srv.cfg username (by decide), fileIn_userDir srv.cfg username (by decide),
    fileIn_userDir srv.cfg username (by decide)]
  obtain ⟨c₁, -⟩ := changed_mkdir h₁ hp
  have hfree₁ : ∀ name : Name, s₁.files.lookup (p ++ [name]) = none := by
    intro name
    rw [c₁.rest _ (hself name), hr.lookup_below hnew name]
  obtain ⟨s₂, h₂⟩ := writeFile_below_some hd (by unfold Tree.Plain; decide) c₁.place c₁.isDir (hfree₁ ("user.conf" : Str))
    (passwordLine password)
  obtain ⟨c₂, -⟩ := changed_writeFile_below hd (by unfold Tree.Plain; decide) c₁.place c₁.isDir h₂
  have hfree₂ : s₂.files.lookup (p ++ [("roster.xml" : Str)]) = none := by
    rw [c₂.rest _ (by simp), hfree₁]
  obtain ⟨s₃, h₃⟩ := writeFile_below_some hd (by unfold Tree.Plain; decide) c₂.place c₂.isDir hfree₂ emptyRoster
  obtain ⟨c₃, -⟩ := changed_writeFile_below hd (by unfold Tree.Plain; decide) c₂.place c₂.isDir h₃
  have hfree₃ : s₃.files.lookup (p ++ [("offline" : Str)]) = none := by
    rw [c₃.rest _ (by simp), c₂.rest _ (by simp), hfree₁]
  obtain ⟨s₄, h₄⟩ := mkdir_below_some hd (by unfold Tree.Plain; decide) c₃.place c₃.isDir hfree₃
  exact ⟨p, s₂, s₃, s₄, hnew, c₁.isDir, h₂, c₂.isDir, h₃, c₃.isDir, h₄⟩

/-- One of the operations behind the first one fails. -/
def FailsLater (o : Oracle) : Prop := o.failConf = true ∨ o.failRoster = true ∨ o.failOffline = true

/-- The four operations, when the first one is carried out. -/
theorem created_or_left (hr : Rooted srv.files) (hv : validUsername username = true) (he : userExists srv username = false)
    (hm : o.failMkdir = false) (h₁ : mkdir srv (userDir srv.cfg username) = some s₁) (password : Str) :
    (¬FailsLater o → (userCreate srv o username password).2 = 0) ∧
      (FailsLater o → (userCreate srv o username password).2 < 0 ∧ (userCreate srv o username password).1.files ≠ srv.files) := by
  obtain ⟨p, s₂, s₃, s₄, hnew, hd₁, h₂, hd₂, h₃, hd₃, h₄⟩ := rest_succeeds hr h₁ password
  have hleft : ∀ s : Server, s.files.isDir p = true → s.files ≠ srv.files := by
    intro s hs he
    rw [he, hnew] at hs
    cases hs
  unfold FailsLater
  rw [userCreate, hv, he]
  simp only [Bool.not_true, Bool.false_eq_true, if_false]
  rw [hm, h₁]
  simp only [Bool.false_eq_true, if_false]
  cases o.failConf with
  | true => exact ⟨fun h => absurd (.inl rfl) h, fun _ => ⟨(by decide : (-3 : ℤ) < 0), hleft s₁ hd₁⟩⟩
  | false =>
      rw [h₂]
      simp only [Bool.false_eq_true, if_false]
      cases o.failRoster with
      | true => exact ⟨fun h => absurd (.inr (.inl rfl)) h, fun _ => ⟨(by decide : (-3 : ℤ) < 0), hleft s₂ hd₂⟩⟩
      | false =>
          rw [h₃]
          simp only [Bool.false_eq_true, if_false]
          cases o.failOffline with
          | true => exact ⟨fun h => absurd (.inr (.inr rfl)) h, fun _ => ⟨(by decide : (-3 : ℤ) < 0), hleft s₃ hd₃⟩⟩
          | false =>
              rw [h₄]
              refine ⟨fun _ => rfl, ?_⟩
              rintro (h | h | h)
              · cases h
              · cases h
              · cases h

end

/-- No operation fails by itself. -/
def AllSucceed (o : Oracle) : Prop := o.failMkdir = false ∧ ¬FailsLater o

/-- A creation that fails leaves the directory as it was, and no later one fails on its account. -/
def AllOrNothing (srv : Server) (o : Oracle) (username password : Str) : Prop :=
  (userCreate srv o username password).2 < 0 →
    (userCreate srv o username password).1.files = srv.files ∧
      ∀ o' password', AllSucceed o' → (userCreate srv o' username password').2 = 0 →
        (userCreate (userCreate srv o username password).1 o' username password').2 = 0

/-- A creation is all or nothing unless it makes the directory and fails after that. -/
theorem all_or_nothing_iff {srv : Server} (hr : Rooted srv.files) (o : Oracle) (username password : Str) :
    AllOrNothing srv o username password ↔
      validUsername username = false ∨ userExists srv username = true ∨ o.failMkdir = true ∨
        mkdir srv (userDir srv.cfg username) = none ∨ ¬FailsLater o := by
  have hsame : (userCreate srv o username password).1.files = srv.files → AllOrNothing srv o username password := by
    intro hfiles _
    obtain ⟨t, ht⟩ := userCreate_filesOnly srv o username password
    have hfiles' : t = srv.files := by
      rw [ht] at hfiles
      exact hfiles
    have hsrv : (userCreate srv o username password).1 = srv := by rw [ht, hfiles']
    rw [hsrv]
    exact ⟨rfl, fun o' password' _ h => h⟩
  cases hv : validUsername username with
  | false => exact iff_of_true (hsame (by rw [userCreate, hv]; rfl)) (.inl rfl)
  | true =>
  cases he : userExists srv username with
  | true => exact iff_of_true (hsame (by rw [userCreate, hv, he]; rfl)) (.inr (.inl rfl))
  | false =>
  cases hm : o.failMkdir with
  | true => exact iff_of_true (hsame (by rw [userCreate, hv, he, hm]; rfl)) (.inr (.inr (.inl rfl)))
  | false =>
  cases h₁ : mkdir srv (userDir srv.cfg username) with
  | none =>
      have hkept : (userCreate srv o username password).1.files = srv.files := by
        simp only [userCreate, hv, he, hm, h₁]
        rfl
      exact iff_of_true (hsame hkept) (.inr (.inr (.inr (.inl rfl))))
  | some s₁ =>
      obtain ⟨hdone, hleft⟩ := created_or_left hr hv he hm h₁ password
      constructor
      · intro h
        refine .inr (.inr (.inr (.inr fun hfail => ?_)))
        obtain ⟨hneg, hne⟩ := hleft hfail
        exact hne (h hneg).1
      · rintro (h | h | h | h | h)
        · cases h
        · cases h
        · cases h
        · cases h
        · intro hneg
          rw [hdone h] at hneg
          exact absurd hneg (by decide)

/-- The file of the account cannot be opened. -/
def confFails : Oracle := { exampleOracle with failConf := true }

theorem rooted_example : Rooted exampleServer.files := by
  have h : exampleServer.files.entries.all (fun e => exampleServer.files.isDir e.1.dropLast) = true := by decide +kernel
  exact List.all_eq_true.mp h

theorem dave_created_or_not :
    Rooted exampleServer.files ∧ (AllOrNothing exampleServer exampleOracle "dave" "secret" ↔
      validUsername "dave" = false ∨ userExists exampleServer "dave" = true ∨ exampleOracle.failMkdir = true ∨
        mkdir exampleServer (userDir exampleServer.cfg "dave") = none ∨ ¬FailsLater exampleOracle) :=
  ⟨rooted_example, all_or_nothing_iff rooted_example exampleOracle "dave" "secret"⟩

/-- The directory that was made is in the way of every later creation. -/
theorem dave_blocked :
    Rooted exampleServer.files ∧ ¬AllOrNothing exampleServer confFails "dave" "secret" ∧
      (userCreate exampleServer exampleOracle "dave" "secret").2 = 0 ∧
      (userCreate (userCreate exampleServer confFails "dave" "secret").1 exampleOracle "dave" "secret").2 = -3 := by
  have hsecond : (userCreate (userCreate exampleServer confFails "dave" "secret").1 exampleOracle "dave" "secret").2 = -3 := by
    decide +kernel
  have hfirst : (userCreate exampleServer exampleOracle "dave" "secret").2 = 0 := by decide +kernel
  refine ⟨rooted_example, ?_, hfirst, hsecond⟩
  intro h
  have hlater := (h (by decide +kernel)).2 exampleOracle "secret" ⟨rfl, by unfold FailsLater; decide⟩ hfirst
  rw [hsecond] at hlater
  exact absurd hlater (by decide)

end Xmppd.AccountCreation
