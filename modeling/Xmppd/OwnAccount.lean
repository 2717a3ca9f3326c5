import Xmppd.AccountCreation
import Xmppd.Frames

/-!
# Registration and one's own account

One handler makes accounts, changes passwords and removes accounts. What it does
depends on the type of the request, on two scans of the children, of which one takes
the first match and the other the last, and on whether the session has authenticated.
An authenticated session reaches the directory of its own name and nothing else; any
other makes a directory that was not there.
-/
namespace Xmppd.OwnAccount
open CStrings FileTree LibXml ServerState User Auth Stanza Frames Passwords AccountCreation Installation

/-- Without `..` a path leads downwards. -/
theorem namei_prefix {t : FileTree.Tree Content} {cs : List Name} (hcs : ∀ c ∈ cs, c ≠ ['.', '.']) {r : Path} :
    ∀ {cur : Path}, t.namei cur cs = some r → cur <+: r := by
  induction cs with
  | nil =>
      intro cur h
      obtain rfl := Option.some.inj h
      exact List.prefix_refl cur
  | cons c cs ih =>
      intro cur h
      have hrest : ∀ d ∈ cs, d ≠ ['.', '.'] := fun d hd => hcs d (List.mem_cons_of_mem c hd)
      unfold Tree.namei at h
      split at h
      · split at h
        · exact ih hrest h
        · rw [if_neg (hcs c List.mem_cons_self)] at h
          exact (List.prefix_append cur [c]).trans (ih hrest h)
      · cases h

/-- Where the path leads, the directory is on the way. -/
def Beneath (srv : Server) (dir path : Str) : Prop := ∀ r, locate srv path = some r → ∃ p, locate srv dir = some p ∧ p <+: r

theorem Beneath.refl (srv : Server) (dir : Str) : Beneath srv dir dir := fun r hr => ⟨r, hr, List.prefix_refl r⟩

theorem Beneath.append (srv : Server) {dir rest : Str} (hd : dir ≠ []) (hrest : ∀ c ∈ rest.splitOn '/', c ≠ ['.', '.']) :
    Beneath srv dir (dir ++ '/' :: rest) := by
  intro r hr
  rw [locate, Tree.resolve_append _ _ hd] at hr
  obtain ⟨p, hp, hnamei⟩ := Option.bind_eq_some_iff.mp hr
  exact ⟨p, hp, namei_prefix hrest hnamei⟩

/-- Something is gone below the directory, and nothing is new or changed. -/
structure Pruned (dir : Str) (a b : Server) : Prop where
  cfg : b.cfg = a.cfg
  outside : ∀ q, (∀ p, locate a dir = some p → ¬p <+: q) → b.files.lookup q = a.files.lookup q
  isDir : ∀ q, b.files.isDir q = true → a.files.isDir q = true
  content : ∀ q, b.files.content q = a.files.content q ∨ b.files.content q = none

namespace Pruned
variable {dir : Str} {a b c : Server}

theorem refl (srv : Server) : Pruned dir srv srv := ⟨rfl, fun _ _ => rfl, fun _ h => h, fun _ => .inl rfl⟩

/-- What is still found was found before at the same place. -/
theorem locate (h : Pruned dir a b) {path : Str} {p : Path} (hp : User.locate b path = some p) : User.locate a path = some p := by
  unfold User.locate at hp ⊢
  rw [h.cfg] at hp
  exact Tree.namei_mono h.isDir hp

theorem trans (hab : Pruned dir a b) (hbc : Pruned dir b c) : Pruned dir a c := by
  constructor
  · exact hbc.cfg.trans hab.cfg
  · intro q hq
    rw [hbc.outside q fun p hp => hq p (hab.locate hp), hab.outside q hq]
  · exact fun q hq => hab.isDir q (hbc.isDir q hq)
  · intro q
    rcases hbc.content q with hc | hc
    · rw [hc]
      exact hab.content q
    · exact .inr hc

theorem foldl {α : Type} {f : Server → α → Server} {l : List α} (hf : ∀ srv, ∀ x ∈ l, Pruned dir srv (f srv x)) :
    ∀ srv, Pruned dir srv (l.foldl f srv) := by
  induction l with
  | nil => exact refl
  | cons x xs ih =>
      intro srv
      exact (hf srv x List.mem_cons_self).trans (ih (fun srv y hy => hf srv y (List.mem_cons_of_mem x hy)) _)

end Pruned

section
variable {srv : Server} {dir path : Str}

theorem lookup_remove_self (t : FileTree.Tree Content) (p : Path) : (t.remove p).lookup p = none := by
  simp [Tree.lookup, Tree.remove]

theorem isDir_remove (t : FileTree.Tree Content) (p q : Path) (h : (t.remove p).isDir q = true) : t.isDir q = true := by
  by_cases hq : q = p
  · subst hq
    cases q with
    | nil => rfl
    | cons n ns => simp [Tree.isDir, lookup_remove_self] at h
  · cases q with
    | nil => rfl
    | cons n ns => simpa only [Tree.isDir, Tree.lookup_remove_of_ne t hq] using h

theorem content_remove (t : FileTree.Tree Content) (p q : Path) :
    (t.remove p).content q = t.content q ∨ (t.remove p).content q = none := by
  by_cases hq : q = p
  · subst hq
    right
    simp [Tree.content, lookup_remove_self]
  · left
    simp only [Tree.content, Tree.lookup_remove_of_ne t hq]

/-- Removing one entry below the directory. -/
theorem pruned_remove {r : Path} (h : Beneath srv dir path) (hr : locate srv path = some r) :
    Pruned dir srv { srv with files := srv.files.remove r } := by
  obtain ⟨p, hp, hpre⟩ := h r hr
  refine ⟨rfl, ?_, isDir_remove srv.files r, content_remove srv.files r⟩
  intro q hq
  apply Tree.lookup_remove_of_ne
  rintro rfl
  exact hq p hp hpre

theorem pruned_unlink (h : Beneath srv dir path) : Pruned dir srv (unlink srv path) := by
  unfold unlink
  cases hr : locate srv path with
  | none => exact .refl srv
  | some r =>
      dsimp only
      unfold Tree.unlink
      split
      · exact pruned_remove h hr
      · exact .refl srv

theorem pruned_rmdir (h : Beneath srv dir path) : Pruned dir srv (rmdir srv path) := by
  unfold rmdir
  cases hr : locate srv path with
  | none => exact .refl srv
  | some r =>
      dsimp only
      unfold Tree.rmdir
      split
      · exact pruned_remove h hr
      · exact .refl srv

theorem mem_listDir {n : Str} (h : n ∈ listDir srv path) : '/' ∉ n ∧ n.head? ≠ some '.' := by
  unfold listDir at h
  split at h
  · split at h
    · obtain ⟨hn, hdot⟩ := List.mem_filter.mp h
      have hslash := (List.mem_filter.mp hn).2
      exact ⟨by simpa using hslash, of_decide_eq_true hdot⟩
    · exact absurd h List.not_mem_nil
  · exact absurd h List.not_mem_nil

end

/-! ## Removal -/

section
variable {srv : Server} {dir : Str}

/-- A file of the directory. -/
theorem beneath_file (hd : dir ≠ []) {file : Str} (hs : '/' ∉ file) (hup : file ≠ ['.', '.']) : Beneath srv dir (dir ++ '/' :: file) := by
  apply Beneath.append srv hd
  rw [List.splitOn_eq_singleton hs, List.forall_mem_singleton]
  exact hup

/-- A stored message, whose name may be cut. -/
theorem beneath_stored (hd : dir ≠ []) {store n : Str} (hs : '/' ∉ store) (hup : store ≠ ['.', '.']) (hn : '/' ∉ n)
    (hdot : n.head? ≠ some '.') (k : ℕ) : Beneath srv dir (dir ++ '/' :: (store ++ '/' :: n.take k)) := by
  apply Beneath.append srv hd
  have hk : '/' ∉ n.take k := fun hm => hn (List.mem_of_mem_take hm)
  have hsplit : (store ++ '/' :: n.take k).splitOn '/' = [store, n.take k] := by
    have happ := List.splitOn_append_cons_self (a := '/') store (n.take k)
    rw [happ, List.splitOn_eq_singleton hs, List.splitOn_eq_singleton hk]
    rfl
  rw [hsplit]
  intro c hc
  rcases List.mem_cons.mp hc with rfl | hc
  · exact hup
  · rw [List.mem_singleton.mp hc]
    intro he
    apply hdot
    cases n with
    | nil => simp at he
    | cons x xs =>
        cases k with
        | zero => simp at he
        | succ k =>
            rw [List.take_succ_cons] at he
            rw [(List.cons.inj he).1]
            rfl

theorem fpath_eq (hdir : dir.length ≤ 1279) (n : Str) :
    (snprintf 1792 (dir ++ '/' :: ("offline" : Str) ++ '/' :: n)).str =
      dir ++ '/' :: (("offline" : Str) ++ '/' :: n.take (1782 - dir.length)) := by
  have hlen : (dir ++ '/' :: ("offline" : Str)).length = dir.length + 8 := by
    rw [List.length_append]
    rfl
  obtain ⟨k, hk⟩ : ∃ k, 1791 - (dir.length + 8) = k + 1 := ⟨1790 - (dir.length + 8), by omega⟩
  rw [snprintf_str, List.take_append, List.take_of_length_le (by omega), hlen, show 1792 - 1 - (dir.length + 8) = k + 1 from hk,
    List.take_succ_cons, show 1782 - dir.length = k by omega]
  simp

theorem readFile_unlink (srv : Server) (path : Str) : readFile (unlink srv path) path = none := by
  cases hr : locate srv path with
  | none =>
      have hsame : unlink srv path = srv := by rw [unlink, hr]
      rw [hsame, readFile, hr, Option.bind_none]
  | some r =>
      have hunlink : unlink srv path = { srv with files := srv.files.unlink r } := by rw [unlink, hr]
      have hplace : locate { srv with files := srv.files.unlink r } path = some r :=
        (Tree.resolve_congr (Tree.isDir_unlink srv.files r) srv.cfg.cwd path).trans hr
      rw [hunlink, readFile, hplace, Option.bind_some, Tree.content_unlink, if_pos rfl]

theorem Pruned.readFile_none {a b : Server} (h : Pruned dir a b) {path : Str} (ha : readFile a path = none) : readFile b path = none := by
  unfold readFile at ha ⊢
  cases hr : User.locate b path with
  | none => rfl
  | some r =>
      rw [h.locate hr, Option.bind_some] at ha
      rw [Option.bind_some]
      exact (h.content r).elim (fun he => he.trans ha) id

/-- `user_delete` removes what is below the user's directory, and the directory. -/
theorem pruned_userDelete (srv : Server) (username : Str) : Pruned (userDir srv.cfg username) srv (userDelete srv username) := by
  have hd := userDir_ne_nil srv.cfg username
  have hlen := userDir_length srv.cfg username
  unfold userDelete
  dsimp only
  rw [fileIn_userDir srv.cfg username (by decide), fileIn_userDir srv.cfg username (by decide),
    fileIn_userDir srv.cfg username (by decide)]
  generalize userDir srv.cfg username = dir at hd hlen
  have hfold : Pruned dir srv ((listDir srv (dir ++ '/' :: ("offline" : Str))).foldl
      (fun srv n => unlink srv (snprintf 1792 (dir ++ '/' :: ("offline" : Str) ++ '/' :: n)).str) srv) := by
    apply Pruned.foldl
    intro a n hn
    obtain ⟨hslash, hdot⟩ := mem_listDir hn
    rw [fpath_eq hlen]
    exact pruned_unlink (beneath_stored hd (by decide) (by decide) hslash hdot _)
  refine (((hfold.trans (pruned_rmdir ?_)).trans (pruned_unlink ?_)).trans (pruned_unlink ?_)).trans (pruned_rmdir (.refl _ dir))
  · exact beneath_file hd (by decide) (by decide)
  · exact beneath_file hd (by decide) (by decide)
  · exact beneath_file hd (by decide) (by decide)

/-- What an account is recognized by. -/
def account (srv : Server) (username : Str) : Option Content := readFile srv (fileIn (userDir srv.cfg username) "user.conf")

theorem account_userDelete (srv : Server) (username : Str) : account (userDelete srv username) username = none := by
  have hd := userDir_ne_nil srv.cfg username
  have hcfg := (pruned_userDelete srv username).cfg
  unfold account
  rw [hcfg]
  unfold userDelete
  dsimp only
  rw [fileIn_userDir srv.cfg username (by decide), fileIn_userDir srv.cfg username (by decide),
    fileIn_userDir srv.cfg username (by decide)]
  generalize userDir srv.cfg username = dir at hd
  have hroster : ∀ s : Server, Pruned dir s (unlink s (dir ++ '/' :: ("roster.xml" : Str))) :=
    fun s => pruned_unlink (beneath_file hd (by decide) (by decide))
  exact ((hroster _).trans (pruned_rmdir (.refl _ dir))).readFile_none (readFile_unlink _ _)

end

/-! ## Passwords and new accounts -/

section
variable {srv : Server} {username : Str}

theorem userDir_short (cfg : Config) (h : username.length < 256) : userDir cfg username = cfg.datadir.str ++ '/' :: username := by
  have hd := cfg.datadir.fits
  apply snprintf_fits
  simp only [List.length_append, List.length_cons]
  omega

/-- The file of the password, even where its path is cut. -/
theorem beneath_userPath (srv : Server) (username : Str) : Beneath srv (userDir srv.cfg username) (userPath srv.cfg username "user.conf") := by
  rw [userPath_userDir]
  cases hk : 1279 - (srv.cfg.datadir.str ++ '/' :: username).length with
  | zero =>
      rw [List.take_zero, List.append_nil]
      exact .refl srv _
  | succ k =>
      rw [List.take_succ_cons]
      apply beneath_file (userDir_ne_nil srv.cfg username)
      · exact fun hm => absurd (List.mem_of_mem_take hm) (by decide)
      · intro he
        have hhead : (("user.conf" : Str).take k).head? = some '.' := by rw [he]; rfl
        cases k with
        | zero => cases hhead
        | succ k => cases hhead

theorem userChangePassword_outside (srv : Server) (username password : Str) {q : Path}
    (hq : ∀ p, locate srv (userDir srv.cfg username) = some p → ¬p <+: q) :
    (userChangePassword srv username password).1.files.lookup q = srv.files.lookup q := by
  unfold userChangePassword
  cases hw : writeFile srv (userPath srv.cfg username "user.conf") (passwordLine password) with
  | none => rfl
  | some b =>
      obtain ⟨r, t, hr, ht, rfl⟩ := User.writeFile_eq_some hw
      obtain ⟨p, hp, hpre⟩ := beneath_userPath srv username r hr
      apply Tree.lookup_write_of_ne ht
      rintro rfl
      exact hq p hp hpre

/-- A change of the password leaves an account where one was. -/
theorem account_userChangePassword (password name : Str) (h : (account srv name).isSome = true) :
    (account (userChangePassword srv username password).1 name).isSome = true := by
  unfold userChangePassword
  cases hw : writeFile srv (userPath srv.cfg username "user.conf") (passwordLine password) with
  | none => exact h
  | some b =>
      obtain ⟨r, t, hr, ht, rfl⟩ := User.writeFile_eq_some hw
      have hplace : locate { srv with files := t } (fileIn (userDir srv.cfg name) "user.conf") =
          locate srv (fileIn (userDir srv.cfg name) "user.conf") := Tree.resolve_write ht _ _
      unfold account readFile at h ⊢
      rw [hplace]
      cases hl : locate srv (fileIn (userDir srv.cfg name) "user.conf") with
      | none =>
          rw [hl] at h
          cases h
      | some q =>
          rw [hl, Option.bind_some] at h
          rw [Option.bind_some]
          by_cases hq : q = r
          · rw [hq, Tree.content_write_self ht]
            rfl
          · rwa [Tree.content, Tree.lookup_write_of_ne ht hq]

/-- The files that are new or changed lie in one directory, which is new. -/
def InNew (srv : Server) (dir : Str) (t : FileTree.Tree Content) : Prop :=
  ∃ p, locate srv dir = some p ∧ srv.files.present p = false ∧ ∀ q, ¬p <+: q → t.lookup q = srv.files.lookup q

/-- A creation makes its directory, or nothing. -/
theorem userCreate_outside (srv : Server) (o : Oracle) (username password : Str) :
    (userCreate srv o username password).1.files = srv.files ∨
      validUsername username = true ∧ InNew srv (userDir srv.cfg username) (userCreate srv o username password).1.files := by
  rcases userCreate_new srv o username password with hsame | ⟨hv, -⟩
  · exact .inl (congrArg Server.files hsame)
  unfold userCreate
  rw [hv]
  simp only [Bool.not_true, Bool.false_eq_true, if_false]
  split
  · exact .inl rfl
  split
  · exact .inl rfl
  next s₁ h₁ =>
  have hd := userDir_ne_nil srv.cfg username
  obtain ⟨p, t, hp, ht, -⟩ := mkdir_eq_some (eq_of_not_failed h₁)
  have hnew := (Tree.mkdir_eq_some ht).1
  obtain ⟨c₁, -⟩ := changed_mkdir (eq_of_not_failed h₁) hp
  have hbelow : ∀ {q : Path} (name : Name), ¬p <+: q → q ≠ p ++ [name] := fun name hq he => hq (he ▸ List.prefix_append p [name])
  have hself : ∀ {q : Path}, ¬p <+: q → q ≠ p := fun hq he => hq (he ▸ List.prefix_refl p)
  have hout : ∀ s : Server, (∀ q, ¬p <+: q → s.files.lookup q = srv.files.lookup q) → InNew srv (userDir srv.cfg username) s.files :=
    fun s hs => ⟨p, hp, hnew, hs⟩
  have o₁ : ∀ q, ¬p <+: q → s₁.files.lookup q = srv.files.lookup q := fun q hq => c₁.rest q (hself hq)
  rw [fileIn_userDir srv.cfg username (by decide), fileIn_userDir srv.cfg username (by decide),
    fileIn_userDir srv.cfg username (by decide)]
  right
  refine ⟨trivial, ?_⟩
  split
  · exact hout s₁ o₁
  next s₂ h₂ =>
  obtain ⟨c₂, -⟩ := changed_writeFile_below hd (by unfold Tree.Plain; decide) c₁.place c₁.isDir (eq_of_not_failed h₂)
  have o₂ : ∀ q, ¬p <+: q → s₂.files.lookup q = srv.files.lookup q := fun q hq => (c₂.rest q (hbelow _ hq)).trans (o₁ q hq)
  split
  · exact hout s₂ o₂
  next s₃ h₃ =>
  obtain ⟨c₃, -⟩ := changed_writeFile_below hd (by unfold Tree.Plain; decide) c₂.place c₂.isDir (eq_of_not_failed h₃)
  have o₃ : ∀ q, ¬p <+: q → s₃.files.lookup q = srv.files.lookup q := fun q hq => (c₃.rest q (hbelow _ hq)).trans (o₂ q hq)
  split
  · exact hout s₃ o₃
  next s₄ h₄ =>
  have c₄ := changed_mkdir_below hd (by unfold Tree.Plain; decide) c₃.place c₃.isDir (eq_of_not_failed h₄)
  exact hout s₄ fun q hq => (c₄.rest q (hbelow _ hq)).trans (o₃ q hq)

/-- Where the path of the directory is cut, it is the directory of a shorter name. -/
theorem userDir_valid (cfg : Config) (hv : validUsername username = true) :
    ∃ u, validUsername u = true ∧ userDir cfg username = cfg.datadir.str ++ '/' :: u := by
  have hd := cfg.datadir.fits
  obtain ⟨k, hk⟩ : ∃ k, 1279 - cfg.datadir.str.length = k + 2 := ⟨1277 - cfg.datadir.str.length, by omega⟩
  refine ⟨username.take (k+1), ?_, ?_⟩
  · obtain ⟨hne, hall⟩ := of_decide_eq_true hv
    apply decide_eq_true
    constructor
    · obtain ⟨c, cs, rfl⟩ := List.exists_cons_of_ne_nil hne
      simp
    · rw [List.all_eq_true] at hall ⊢
      exact fun c hc => hall c (List.mem_of_mem_take hc)
  · unfold userDir
    rw [snprintf_str, List.take_append, List.take_of_length_le (by omega), show 1280 - 1 - cfg.datadir.str.length = k + 2 from hk,
      List.take_succ_cons]

end

/-! ## The handler -/

/-- The session asks for its account to be removed. -/
def Removes (srv : Server) (i : ℕ) (stanza : Node) : Prop :=
  (srv.sess i).authenticated = true ∧ stanza.prop "type" = "set" ∧
    ((stanza.firstElement.getD (.text [])).findChild "remove").isSome = true

/-- What a registration request does to the files and to the mark of its session. -/
structure OwnOnly (srv : Server) (i : ℕ) (stanza : Node) (srv' : Server) : Prop where
  own : (srv.sess i).authenticated = true → ∀ q,
    (∀ p, locate srv (srv.cfg.datadir.str ++ '/' :: (srv.sess i).jidLocal.str) = some p → ¬p <+: q) →
      srv'.files.lookup q = srv.files.lookup q
  other : (srv.sess i).authenticated = false →
    srv'.files = srv.files ∨ ∃ u, validUsername u = true ∧ InNew srv (srv.cfg.datadir.str ++ '/' :: u) srv'.files
  marked : (srv'.sess i).teardownPending = true ↔ (srv.sess i).teardownPending = true ∨ Removes srv i stanza
  removed : (srv.sess i).authenticated = true → (account srv (srv.sess i).jidLocal.str).isSome = true →
    (Removes srv i stanza ↔ account srv' (srv.sess i).jidLocal.str = none)

section
variable {srv a b : Server} {i : ℕ} {o : Oracle} {stanza : Node}

theorem isSome_ne_none {α : Type} {x : Option α} (h : x.isSome = true) : x ≠ none := by
  rintro rfl
  cases h

/-- The files and the mark are as they were. -/
structure Answered (srv : Server) (i : ℕ) (b : Server) : Prop where
  cfg : b.cfg = srv.cfg
  files : b.files = srv.files
  mark : (b.sess i).teardownPending = (srv.sess i).teardownPending

theorem Answered.refl (srv : Server) (i : ℕ) : Answered srv i srv := ⟨rfl, rfl, rfl⟩

/-- Writing to any session. -/
theorem Answered.write (srv : Server) (i t : ℕ) (x : Out) : Answered srv i (srv.sessionWrite t x) :=
  ⟨rfl, rfl, Server.sess_modify_congr Session.teardownPending srv t i _ fun _ => rfl⟩

theorem account_congr (hcfg : b.cfg = a.cfg) (hfiles : b.files = a.files) (name : Str) : account b name = account a name := by
  unfold account readFile locate
  rw [hcfg, hfiles]

theorem OwnOnly.of_answered (h : Answered srv i b) (hno : ¬Removes srv i stanza) : OwnOnly srv i stanza b where
  own _ q _ := by rw [h.files]
  other _ := .inl h.files
  marked := by rw [h.mark, or_iff_left hno]
  removed _ hsome := by
    rw [account_congr h.cfg h.files]
    exact iff_of_false hno (isSome_ne_none hsome)

theorem routeReply_ownOnly (hno : ¬Removes srv i stanza) : OwnOnly srv i stanza (routeReply srv i o stanza) := by
  apply OwnOnly.of_answered _ hno
  unfold routeReply
  dsimp only
  split
  · exact .refl srv i
  split
  · exact .write srv i _ _
  · exact .refl srv i

/-- A change of the password of the session's own account. -/
theorem password_ownOnly (hno : ¬Removes srv i stanza) (hauth : (srv.sess i).authenticated = true) (password : Str)
    (h : Answered (userChangePassword srv (srv.sess i).jidLocal.str password).1 i b) : OwnOnly srv i stanza b := by
  obtain ⟨t, ht⟩ := filesOnly_userChangePassword srv (srv.sess i).jidLocal.str password
  constructor
  · intro _ q hq
    rw [h.files]
    rw [← userDir_short srv.cfg (srv.sess i).jidLocal.fits] at hq
    exact userChangePassword_outside srv _ password hq
  · intro hnot
    rw [hauth] at hnot
    cases hnot
  · have hmark : (b.sess i).teardownPending = (srv.sess i).teardownPending := by
      rw [h.mark, ht]
      rfl
    rw [hmark, or_iff_left hno]
  · intro _ hsome
    have hkept : (account (userChangePassword srv (srv.sess i).jidLocal.str password).1 (srv.sess i).jidLocal.str).isSome = true :=
      account_userChangePassword password (srv.sess i).jidLocal.str hsome
    rw [account_congr h.cfg h.files]
    exact iff_of_false hno (isSome_ne_none hkept)

/-- A creation, which only a session that has not authenticated asks for. -/
theorem create_ownOnly (hauth : (srv.sess i).authenticated = false) (username password : Str)
    (h : Answered (userCreate srv o username password).1 i b) : OwnOnly srv i stanza b := by
  obtain ⟨t, ht⟩ := userCreate_filesOnly srv o username password
  have hno : ¬Removes srv i stanza := by
    rintro ⟨hyes, -⟩
    rw [hauth] at hyes
    cases hyes
  constructor
  · intro hyes
    rw [hauth] at hyes
    cases hyes
  · intro _
    rw [h.files]
    rcases userCreate_outside srv o username password with hsame | ⟨hv, hnew⟩
    · exact .inl hsame
    · obtain ⟨u, hu, hdir⟩ := userDir_valid srv.cfg hv
      rw [hdir] at hnew
      exact .inr ⟨u, hu, hnew⟩
  · have hmark : (b.sess i).teardownPending = (srv.sess i).teardownPending := by
      rw [h.mark, ht]
      rfl
    rw [hmark, or_iff_left hno]
  · intro hyes
    rw [hauth] at hyes
    cases hyes

/-- The removal of the session's own account, with the mark. -/
theorem remove_ownOnly (hyes : Removes srv i stanza) (h : Answered srv i a)
    (hname : (a.sess i).jidLocal = (srv.sess i).jidLocal) (hla : a.Live i) :
    OwnOnly srv i stanza ((userDelete a (a.sess i).jidLocal.str).modify i fun s => { s with teardownPending := true }) := by
  rw [hname]
  have hpruned := pruned_userDelete a (srv.sess i).jidLocal.str
  obtain ⟨t, ht⟩ := filesOnly_userDelete a (srv.sess i).jidLocal.str
  have hlive : (userDelete a (srv.sess i).jidLocal.str).Live i := by
    rw [ht]
    exact hla
  constructor
  · intro _ q hq
    rw [Server.modify_files, ← h.files]
    apply hpruned.outside q
    intro p hp
    rw [locate, h.files, h.cfg, userDir_short srv.cfg (srv.sess i).jidLocal.fits] at hp
    exact hq p hp
  · intro hnot
    rw [hyes.1] at hnot
    cases hnot
  · rw [Server.sess_modify_self hlive]
    exact iff_of_true rfl (.inr hyes)
  · intro _ _
    refine iff_of_true hyes ?_
    exact account_userDelete a (srv.sess i).jidLocal.str

theorem registerSet_ownOnly (hl : srv.Live i) (htype : stanza.prop "type" = "set") :
    OwnOnly srv i stanza (registerSet srv i o stanza) := by
  unfold registerSet
  dsimp only
  by_cases hremove : ((stanza.firstElement.getD (.text [])).findChild "remove").isSome = true
  · rw [if_pos hremove]
    cases hauth : (srv.sess i).authenticated with
    | false =>
        rw [if_pos (by decide)]
        refine .of_answered (.write srv i i _) ?_
        rintro ⟨hyes, -⟩
        rw [hauth] at hyes
        cases hyes
    | true =>
        rw [if_neg (by decide)]
        exact remove_ownOnly ⟨hauth, htype, hremove⟩ (.write srv i i _)
          (Server.sess_modify_congr Session.jidLocal srv i i _ fun _ => rfl) ((Server.modify_live srv i i _).mpr hl)
  · have hno : ¬Removes srv i stanza := fun h => hremove h.2.2
    rw [if_neg hremove]
    split
    · exact .of_answered (.write srv i i _) hno
    cases hauth : (srv.sess i).authenticated with
    | false =>
        rw [if_pos (by decide)]
        unfold registerCreate
        dsimp only
        split
        · exact create_ownOnly hauth _ _ (.write _ i i _)
        split
        · exact create_ownOnly hauth _ _ (.write _ i i _)
        split
        · exact create_ownOnly hauth _ _ (.write _ i i _)
        · exact create_ownOnly hauth _ _ (.write _ i i _)
    | true =>
        rw [if_neg (by decide)]
        split
        · exact .of_answered (.write srv i i _) hno
        next huname =>
        rw [not_not.mp huname]
        split
        · exact password_ownOnly hno hauth _ (.write _ i i _)
        · exact password_ownOnly hno hauth _ (.write _ i i _)

theorem registerHandleIq_ownOnly (hl : srv.Live i) : OwnOnly srv i stanza (registerHandleIq srv i o stanza) := by
  unfold registerHandleIq
  split
  · next htype =>
    refine .of_answered (.write srv i i _) ?_
    rintro ⟨-, hset, -⟩
    rw [hset] at htype
    exact absurd htype (by decide)
  split
  · next htype => exact registerSet_ownOnly hl htype
  · next htype => exact .of_answered (.write srv i i _) fun h => htype h.2.1

/-- Whatever a registration request holds, only the account of its session is touched. -/
theorem registration_own (hr : Rooted srv.files) (hl : srv.Live i) (hname : stanza.name = "iq") (hchild : childNs stanza = registerNs)
    (o : Oracle) :
    OwnOnly srv i stanza (stanzaRoute srv i o stanza) ∧
      ((srv.sess i).authenticated = false →
        ∀ q e, srv.files.lookup q = some e → (stanzaRoute srv i o stanza).files.lookup q = some e) := by
  have hown : OwnOnly srv i stanza (stanzaRoute srv i o stanza) := by
    unfold stanzaRoute
    split
    · unfold routeBeforeAuth
      rw [hname, if_neg fun h => absurd h.1 (by decide), if_pos rfl, if_pos hchild]
      exact registerHandleIq_ownOnly hl
    · unfold handleIq
      dsimp only
      split
      · next hreply =>
        apply routeReply_ownOnly
        rintro ⟨-, hset, -⟩
        rw [hset] at hreply
        exact absurd hreply (by decide)
      · rw [hchild, if_neg (by decide), if_neg (by decide), if_neg (by decide), if_neg (by decide), if_neg (by decide)]
        exact registerHandleIq_ownOnly hl
  refine ⟨hown, fun hauth q e hq => ?_⟩
  rcases hown.other hauth with hsame | ⟨u, -, p, -, hnew, hout⟩
  · rw [hsame, hq]
  · have hapart : ¬p <+: q := by
      intro hpre
      have hlen := hpre.length_le
      rw [hr.lookup_under hnew (q.length - p.length) q hpre (by omega)] at hq
      cases hq
    rw [hout q hapart, hq]

end

def aliceIn : Server := exampleServer.serverAccept.modify 0 fun s =>
  { s with jidLocal := snprintf 256 "alice", authenticated := true, state := .authenticated }

def farewell : Node := elem "iq" [attr "type" "set"] [.element "query" registerNs [] [.element "remove" registerNs [] []]]

/-- The account of alice goes, and her session with it. -/
theorem farewell_own :
    aliceIn.Live 0 ∧ farewell.name = "iq" ∧ childNs farewell = registerNs ∧ Removes aliceIn 0 farewell ∧
      (account aliceIn (aliceIn.sess 0).jidLocal.str).isSome = true ∧
      OwnOnly aliceIn 0 farewell (stanzaRoute aliceIn 0 exampleOracle farewell) := by
  have hr : Rooted aliceIn.files := rooted_example
  have hl : aliceIn.Live 0 := by decide +kernel
  exact ⟨hl, rfl, rfl, by unfold Removes; decide +kernel, by decide +kernel, (registration_own hr hl rfl rfl exampleOracle).1⟩

end Xmppd.OwnAccount
