import Xmppd.FileTree
import Xmppd.GoSession

/-!
# Creating an account in the Go server

`user.Create` by its calls of the operating system. The existence check looks for
`user.conf`; what decides between sessions that create the same account is the
call that makes the user's directory, which succeeds once. Any call may also
fail for other reasons.
-/
namespace Xmppd.GoRegistration
open CStrings FileTree Programs Program
open GoSession (Created)

inductive FileCall where
  | stat (p : Path)
  | mkdir (p : Path)
  | writeFile (p : Path) (content : Str)

/-- Every call reports whether it succeeded. -/
abbrev Succeeds (_ : FileCall) : Type := Bool

abbrev Creation := Program FileCall Succeeds Created

/-- `filepath.Join` of the data directory and a name without slashes. -/
def userDir (dataDir : Path) (username : Str) : Path :=
  if username = "." then dataDir
  else if username = ".." then dataDir.dropLast
  else dataDir ++ [username]

def confFile (dir : Path) : Path := dir ++ [("user.conf" : Str)]

def rosterFile (dir : Path) : Path := dir ++ [("roster.xml" : Str)]

def offlineDir (dir : Path) : Path := dir ++ [("offline" : Str)]

def passwordLine (password : Str) : Str := ("password = " : Str) ++ password ++ ['\n']

def emptyRoster : Str := "<?xml version=\"1.0\"?>\n<roster/>\n"

/-! The calls of `Create`, from the last one back to the first. -/

def makeOffline (dir : Path) : Creation := do
  let made ← perform (FileCall.mkdir (offlineDir dir))
  pure (if made then .ok else .failed)

def writeRoster (dir : Path) : Creation := do
  let written ← perform (FileCall.writeFile (rosterFile dir) emptyRoster)
  if written then makeOffline dir else pure .failed

def writeConf (dir : Path) (password : Str) : Creation := do
  let written ← perform (FileCall.writeFile (confFile dir) (passwordLine password))
  if written then writeRoster dir else pure .failed

def makeDir (dir : Path) (password : Str) : Creation := do
  let made ← perform (FileCall.mkdir dir)
  if made then writeConf dir password else pure .failed

section
variable (isLetterOrDigit : Char → Bool)

/-- `ValidUsername`, given the letters and digits of the Unicode tables. -/
def validUsername (s : Str) : Bool :=
  s ≠ [] ∧ s.all fun c => isLetterOrDigit c ∨ c = '.' ∨ c = '-' ∨ c = '_'

/-- `Create`. -/
def create (dataDir : Path) (username password : Str) : Creation :=
  if !validUsername isLetterOrDigit username then pure .invalidUsername
  else do
    let found ← perform (FileCall.stat (confFile (userDir dataDir username)))
    if found then pure .conflict else makeDir (userDir dataDir username) password

end

/-! ## The calls on the directory tree -/

/-- Whether a call that could succeed does; a write that fails leaves the file as
it was or with any content. -/
inductive Fate where
  | succeeds
  | fails (left : Option Str)
deriving DecidableEq, Repr

structure Disk where
  tree : FileTree.Tree Str
  clock : ℕ := 0

/-- What a call does to the tree, and whether it reports success. -/
def carryOut (t : FileTree.Tree Str) : Fate → FileCall → Bool × FileTree.Tree Str
  | .succeeds, .stat p => (t.present p, t)
  | .succeeds, .mkdir p => ((t.mkdir p).isSome, (t.mkdir p).getD t)
  | .succeeds, .writeFile p c => ((t.write p c).isSome, (t.write p c).getD t)
  | .fails (some c), .writeFile p _ => (false, (t.write p c).getD t)
  | .fails _, _ => (false, t)

def answer (fate : ℕ → Fate) (_ : ℕ) (c : FileCall) (d : Disk) : Bool × Disk :=
  ((carryOut d.tree (fate d.clock) c).1, ⟨(carryOut d.tree (fate d.clock) c).2, d.clock + 1⟩)

/-- Sessions that create one account, each with its password. -/
def start (isLetterOrDigit : Char → Bool) (dataDir : Path) (username : Str) (password : ℕ → Str) (t : FileTree.Tree Str) :
    Pool FileCall Succeeds Disk Created :=
  ⟨⟨t, 0⟩, fun i => create isLetterOrDigit dataDir username (password i)⟩

/-! ## The calls that change nothing, and those that succeed -/

section
variable {t : FileTree.Tree Str} {p q : Path} {fate : Fate} {c : Str}

theorem present_congr {u : FileTree.Tree Str} (h : u.lookup p = t.lookup p) : u.present p = t.present p := by
  cases p with
  | nil => simp [FileTree.Tree.present]
  | cons n ns => simp only [FileTree.Tree.present, FileTree.Tree.isDir, h]

theorem carryOut_stat : (carryOut t fate (.stat p)).2 = t := by
  cases fate with
  | succeeds => rfl
  | fails left => cases left <;> rfl

/-- A directory is made where nothing was. -/
theorem carryOut_mkdir (h : (carryOut t fate (.mkdir p)).1 = true) :
    t.present p = false ∧ (carryOut t fate (.mkdir p)).2.present p = true := by
  cases fate with
  | fails left => cases left <;> cases h
  | succeeds =>
      obtain ⟨u, hu⟩ := Option.isSome_iff_exists.mp h
      obtain ⟨hp, rfl⟩ := FileTree.Tree.mkdir_eq_some hu
      refine ⟨hp, ?_⟩
      change ((t.mkdir p).getD t).present p = true
      simp [hu, FileTree.Tree.present]

theorem carryOut_mkdir_failed (h : (carryOut t fate (.mkdir p)).1 = false) : (carryOut t fate (.mkdir p)).2 = t := by
  cases fate with
  | fails left => cases left <;> rfl
  | succeeds =>
      change (t.mkdir p).getD t = t
      rw [Option.not_isSome_iff_eq_none.mp (Bool.eq_false_iff.mp h)]
      rfl

/-- A file that was written without an error holds what was written. -/
theorem carryOut_writeFile (h : (carryOut t fate (.writeFile p c)).1 = true) :
    (carryOut t fate (.writeFile p c)).2.content p = some c := by
  cases fate with
  | fails left => cases left <;> cases h
  | succeeds =>
      obtain ⟨u, hu⟩ := Option.isSome_iff_exists.mp h
      change ((t.write p c).getD t).content p = some c
      rw [hu]
      exact FileTree.Tree.content_write_self hu

/-- The path a call may change. -/
def FileCall.path : FileCall → Path
  | .stat p => p
  | .mkdir p => p
  | .writeFile p _ => p

theorem carryOut_lookup (t : FileTree.Tree Str) (fate : Fate) (c : FileCall) (h : q ≠ c.path) : (carryOut t fate c).2.lookup q = t.lookup q := by
  have hwrite : ∀ (p : Path) (x : Str), q ≠ p → ((t.write p x).getD t).lookup q = t.lookup q := by
    intro p x hq
    cases hw : t.write p x with
    | none => rfl
    | some u => exact FileTree.Tree.lookup_write_of_ne hw hq
  cases c with
  | stat p => rw [carryOut_stat]
  | mkdir p =>
      cases fate with
      | fails left => cases left <;> rfl
      | succeeds =>
          change ((t.mkdir p).getD t).lookup q = t.lookup q
          cases hm : t.mkdir p with
          | none => rfl
          | some u =>
              obtain ⟨-, rfl⟩ := FileTree.Tree.mkdir_eq_some hm
              exact FileTree.Tree.lookup_put_of_ne t _ h
  | writeFile p x =>
      cases fate with
      | succeeds => exact hwrite p x h
      | fails left =>
          cases left with
          | none => rfl
          | some l => exact hwrite p l h

end

theorem confFile_ne_dir (dir : Path) : dir ≠ confFile dir := by
  intro h
  have hlen := congrArg List.length h
  simp [confFile] at hlen

theorem rosterFile_ne (dir : Path) : dir ≠ rosterFile dir ∧ confFile dir ≠ rosterFile dir := by
  constructor
  · intro h
    have hlen := congrArg List.length h
    simp [rosterFile] at hlen
  · intro h
    have hname := List.append_cancel_left h
    revert hname
    decide

theorem offlineDir_ne (dir : Path) : dir ≠ offlineDir dir ∧ confFile dir ≠ offlineDir dir := by
  constructor
  · intro h
    have hlen := congrArg List.length h
    simp [offlineDir] at hlen
  · intro h
    have hname := List.append_cancel_left h
    revert hname
    decide

/-! ## One session makes the directory -/

section
variable (dir : Path) (password : Str)

/-- A session that has the directory: what it has done so far. -/
inductive Inside (t : FileTree.Tree Str) : Creation → Prop
  | made : Inside t (writeConf dir password)
  | conf : t.content (confFile dir) = some (passwordLine password) → Inside t (writeRoster dir)
  | roster : t.content (confFile dir) = some (passwordLine password) → Inside t (makeOffline dir)
  | created : t.content (confFile dir) = some (passwordLine password) → Inside t (.done .ok)
  | failed : Inside t (.done .failed)

end

section
variable (isLetterOrDigit : Char → Bool) (dataDir : Path) (username : Str) (password : ℕ → Str)

/-- A session that has not made the directory, or has ended without it. -/
inductive Outside (i : ℕ) : Creation → Prop
  | start : Outside i (create isLetterOrDigit dataDir username (password i))
  | checked : Outside i (makeDir (userDir dataDir username) (password i))
  | refused {r : Created} : r ≠ .ok → Outside i (.done r)

/-- Nobody has made the directory, or one session has. -/
inductive Stage (p : Pool FileCall Succeeds Disk Created) : Prop
  | vacant : p.shared.tree.present (userDir dataDir username) = false →
      (∀ i, Outside isLetterOrDigit dataDir username password i (p.threads i)) → Stage p
  | taken (w : ℕ) : p.shared.tree.present (userDir dataDir username) = true →
      Inside (userDir dataDir username) (password w) p.shared.tree (p.threads w) →
      (∀ i, i ≠ w → Outside isLetterOrDigit dataDir username password i (p.threads i)) → Stage p

variable {isLetterOrDigit dataDir username password}
variable (fate : ℕ → Fate) {p : Pool FileCall Succeeds Disk Created} {i : ℕ}

theorem outside_step (h : Outside isLetterOrDigit dataDir username password i (p.threads i)) :
    ((Pool.step (answer fate) p i).shared.tree = p.shared.tree ∧
      Outside isLetterOrDigit dataDir username password i ((Pool.step (answer fate) p i).threads i)) ∨
    (p.shared.tree.present (userDir dataDir username) = false ∧
      (Pool.step (answer fate) p i).shared.tree.present (userDir dataDir username) = true ∧
      (Pool.step (answer fate) p i).threads i = writeConf (userDir dataDir username) (password i)) := by
  generalize hi : p.threads i = q at h
  cases h with
  | refused hr =>
      rw [Pool.step_of_done hi, hi]
      exact Or.inl ⟨rfl, .refused hr⟩
  | start =>
      cases hv : validUsername isLetterOrDigit username with
      | false =>
          have hdone : p.threads i = .done .invalidUsername := by
            rw [hi, create, hv]
            rfl
          rw [Pool.step_of_done hdone, hdone]
          exact Or.inl ⟨rfl, .refused (by decide)⟩
      | true =>
          have hcall : p.threads i = .call (.stat (confFile (userDir dataDir username)))
              fun found => if found then pure .conflict else makeDir (userDir dataDir username) (password i) := by
            rw [hi, create, hv]
            rfl
          rw [Pool.step_shared hcall, Pool.step_self hcall]
          refine Or.inl ⟨carryOut_stat, ?_⟩
          split
          · exact .refused (by decide)
          · exact .checked
  | checked =>
      rw [Pool.step_shared hi, Pool.step_self hi]
      cases hm : (carryOut p.shared.tree (fate p.shared.clock) (.mkdir (userDir dataDir username))).1 with
      | false =>
          refine Or.inl ⟨carryOut_mkdir_failed hm, ?_⟩
          dsimp only [answer]
          rw [hm]
          exact .refused (by decide)
      | true =>
          obtain ⟨hbefore, hafter⟩ := carryOut_mkdir hm
          refine Or.inr ⟨hbefore, hafter, ?_⟩
          dsimp only [answer]
          rw [hm]
          rfl

/-- The session that has the directory keeps it, and its password once that is written. -/
theorem inside_step {dir : Path} {password : Str} (h : Inside dir password p.shared.tree (p.threads i)) :
    (Pool.step (answer fate) p i).shared.tree.present dir = p.shared.tree.present dir ∧
      Inside dir password (Pool.step (answer fate) p i).shared.tree ((Pool.step (answer fate) p i).threads i) := by
  generalize hi : p.threads i = q at h
  cases h with
  | made =>
      rw [Pool.step_shared hi, Pool.step_self hi]
      refine ⟨present_congr (carryOut_lookup _ _ _ (confFile_ne_dir dir)), ?_⟩
      dsimp only [answer, Program.bind]
      split
      · next hw => exact .conf (carryOut_writeFile hw)
      · exact .failed
  | conf hc =>
      rw [Pool.step_shared hi, Pool.step_self hi]
      refine ⟨present_congr (carryOut_lookup _ _ _ (rosterFile_ne dir).1), ?_⟩
      have hkept := carryOut_lookup p.shared.tree (fate p.shared.clock)
        (.writeFile (rosterFile dir) emptyRoster) (rosterFile_ne dir).2
      dsimp only [answer, Program.bind]
      split
      · exact .roster (by rw [FileTree.Tree.content, hkept]; exact hc)
      · exact .failed
  | roster hc =>
      rw [Pool.step_shared hi, Pool.step_self hi]
      refine ⟨present_congr (carryOut_lookup _ _ _ (offlineDir_ne dir).1), ?_⟩
      have hkept := carryOut_lookup p.shared.tree (fate p.shared.clock)
        (.mkdir (offlineDir dir)) (offlineDir_ne dir).2
      dsimp only [answer, Program.bind]
      split
      · exact .created (by rw [FileTree.Tree.content, hkept]; exact hc)
      · exact .failed
  | created hc =>
      rw [Pool.step_of_done hi, hi]
      exact ⟨rfl, .created hc⟩
  | failed =>
      rw [Pool.step_of_done hi, hi]
      exact ⟨rfl, .failed⟩

/-- The first call of a session that creates the account is no result. -/
theorem outside_not_ok {q : Creation} (h : Outside isLetterOrDigit dataDir username password i q) : q ≠ .done .ok := by
  intro hq
  cases h with
  | refused hr => exact hr (Program.done.inj hq)
  | checked => cases hq
  | start =>
      unfold create at hq
      split at hq
      · cases hq
      · cases hq

theorem inside_ok {dir : Path} {password : Str} {t : FileTree.Tree Str} (h : Inside dir password t (.done .ok)) :
    t.content (confFile dir) = some (passwordLine password) := by
  cases h with
  | created hc => exact hc

theorem stage_step (h : Stage isLetterOrDigit dataDir username password p) :
    Stage isLetterOrDigit dataDir username password (Pool.step (answer fate) p i) := by
  cases h with
  | vacant habsent hout =>
      have hothers : ∀ j, j ≠ i → Outside isLetterOrDigit dataDir username password j
          ((Pool.step (answer fate) p i).threads j) := by
        intro j hj
        rw [Pool.step_other hj]
        exact hout j
      rcases outside_step fate (hout i) with ⟨htree, hi⟩ | ⟨-, hpresent, hi⟩
      · apply Stage.vacant
        · rw [htree]
          exact habsent
        · intro j
          by_cases hj : j = i
          · rw [hj]
            exact hi
          · exact hothers j hj
      · refine .taken i hpresent ?_ hothers
        rw [hi]
        exact .made
  | taken w hpresent hin hout =>
      by_cases hw : i = w
      · subst hw
        obtain ⟨hkept, hi⟩ := inside_step fate hin
        refine .taken i (hkept.trans hpresent) hi ?_
        intro j hj
        rw [Pool.step_other hj]
        exact hout j hj
      · rcases outside_step fate (hout i hw) with ⟨htree, hi⟩ | ⟨habsent, -, -⟩
        · refine .taken w (by rw [htree]; exact hpresent) ?_ ?_
          · rw [htree, Pool.step_other (Ne.symm hw)]
            exact hin
          · intro j hj
            by_cases hji : j = i
            · rw [hji]
              exact hi
            · rw [Pool.step_other hji]
              exact hout j hj
        · rw [hpresent] at habsent
          cases habsent

end

/-- However the calls interleave and whichever fail, at most one session is told that it
has created the account, and its password is then the one on disk. -/
theorem created_once (isLetterOrDigit : Char → Bool) (dataDir : Path) (username : Str) (password : ℕ → Str) (t : FileTree.Tree Str)
    (fate : ℕ → Fate) (habsent : t.present (userDir dataDir username) = false) (schedule : List ℕ) :
    let p := Pool.run (answer fate) (start isLetterOrDigit dataDir username password t) schedule
    (∀ i j, p.threads i = .done .ok → p.threads j = .done .ok → i = j) ∧
      ∀ k, p.threads k = .done .ok →
        p.shared.tree.content (confFile (userDir dataDir username)) = some (passwordLine (password k)) := by
  have hinit : Stage isLetterOrDigit dataDir username password (start isLetterOrDigit dataDir username password t) :=
    .vacant habsent fun _ => .start
  have hmeets : Pool.Meets (answer fate) (fun _ _ => True) (start isLetterOrDigit dataDir username password t) schedule :=
    Pool.meets_of_forall (fun _ _ => trivial) schedule _
  have hstage := Pool.run_invariant (fun p i h _ => stage_step fate h) schedule _ hinit hmeets
  generalize Pool.run (answer fate) (start isLetterOrDigit dataDir username password t) schedule = p at hstage
  cases hstage with
  | vacant _ hout =>
      exact ⟨fun i _ hi _ => absurd hi (outside_not_ok (hout i)), fun k hk => absurd hk (outside_not_ok (hout k))⟩
  | taken w _ hin hout =>
      have hwinner : ∀ i, p.threads i = .done .ok → i = w := by
        intro i hi
        by_contra hne
        exact outside_not_ok (hout i hne) hi
      refine ⟨fun i j hi hj => (hwinner i hi).trans (hwinner j hj).symm, ?_⟩
      intro k hk
      have hkw := hwinner k hk
      subst hkw
      exact inside_ok (hk ▸ hin)

def dataTree : FileTree.Tree Str := ⟨[([("data" : Str)], .dir)], []⟩

def twoPasswords (i : ℕ) : Str := if i = 0 then "first" else "second"

/-- Both sessions find no account, the second makes the directory first, and the first
session's attempt fails. -/
theorem second_session_creates :
    let p := Pool.run (answer fun _ => .succeeds) (start Char.isAlphanum [("data" : Str)] "alice" twoPasswords dataTree)
      [0, 1, 1, 0, 1, 1, 1]
    p.threads 1 = .done .ok ∧ (∀ i, p.threads i = .done .ok → i = 1) ∧
      p.shared.tree.content (confFile (userDir [("data" : Str)] "alice")) = some (passwordLine "second") := by
  have hcreated := created_once Char.isAlphanum [("data" : Str)] "alice" twoPasswords dataTree (fun _ => .succeeds) (by decide)
    [0, 1, 1, 0, 1, 1, 1]
  refine ⟨rfl, ?_, hcreated.2 1 rfl⟩
  intro i hi
  exact hcreated.1 i 1 hi rfl

end Xmppd.GoRegistration
