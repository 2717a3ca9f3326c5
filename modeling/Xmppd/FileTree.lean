import Mathlib.Data.List.Basic

/-!
# Directory trees

A tree maps resolved paths to directories and files; the empty path is the root
and always a directory. Names are resolved component by component, as the kernel
does without symbolic links: every component is looked up in a directory, an
empty component and `.` stay there, and `..` moves to the parent. The order of
the entries is the order in which a directory is listed and has no other
meaning. The tree also remembers which files were created or overwritten.
-/
namespace Xmppd.FileTree

abbrev Name := List Char
abbrev Path := List Name

inductive Entry (κ : Type) where
  | dir
  | file (content : κ)
deriving DecidableEq, Repr

structure Tree (κ : Type) where
  entries : List (Path × Entry κ)
  written : List Path := []
deriving DecidableEq, Repr

namespace Tree
variable {κ : Type}

def lookup (t : Tree κ) (p : Path) : Option (Entry κ) :=
  (t.entries.find? fun e => e.1 = p).map Prod.snd

def isDir (t : Tree κ) (p : Path) : Bool :=
  match p, t.lookup p with
  | [], _ => true
  | _, some .dir => true
  | _, _ => false

/-- `stat` succeeds. -/
def present (t : Tree κ) (p : Path) : Bool := t.isDir p || (t.lookup p).isSome

def content (t : Tree κ) (p : Path) : Option κ :=
  match t.lookup p with
  | some (.file c) => some c
  | _ => none

def put (t : Tree κ) (p : Path) (e : Entry κ) : Tree κ :=
  { t with entries := (p, e) :: t.entries.filter fun e => e.1 ≠ p }

def remove (t : Tree κ) (p : Path) : Tree κ :=
  { t with entries := t.entries.filter fun e => e.1 ≠ p }

/-- A file can be created or overwritten here: its directory exists and no
directory has its name. -/
def writable (t : Tree κ) (p : Path) : Bool := t.isDir p.dropLast && !t.isDir p

/-- Opening for writing and writing the whole content, with failure leaving the
tree as it was. -/
def write (t : Tree κ) (p : Path) (c : κ) : Option (Tree κ) :=
  if t.writable p then some { t.put p (.file c) with written := t.written ++ [p] } else none

def mkdir (t : Tree κ) (p : Path) : Option (Tree κ) :=
  if t.isDir p.dropLast && !t.present p then some (t.put p .dir) else none

def unlink (t : Tree κ) (p : Path) : Tree κ :=
  match t.lookup p with
  | some (.file _) => t.remove p
  | _ => t

/-- The names in a directory; what has a slash in it is no name. -/
def readdir (t : Tree κ) (p : Path) : List Name :=
  (t.entries.filterMap fun e => if e.1 ≠ [] ∧ e.1.dropLast = p then e.1.getLast? else none).filter
    fun n => !n.contains '/'

def rmdir (t : Tree κ) (p : Path) : Tree κ :=
  if p ≠ [] ∧ t.isDir p ∧ t.readdir p = [] then t.remove p else t

/-- Walking the remaining components from a directory already reached. -/
def namei (t : Tree κ) : Path → List Name → Option Path
  | cur, [] => some cur
  | cur, c :: cs =>
      if t.isDir cur then
        if c = [] ∨ c = ['.'] then t.namei cur cs
        else if c = ['.', '.'] then t.namei cur.dropLast cs
        else t.namei (cur ++ [c]) cs
      else none

/-- A path string, relative to the working directory unless it starts with a slash. -/
def resolve (t : Tree κ) (cwd : Path) (s : List Char) : Option Path :=
  t.namei (if s.head? = some '/' then [] else cwd) (s.splitOn '/')

@[simp] theorem lookup_put_self (t : Tree κ) (p : Path) (e : Entry κ) :
    (t.put p e).lookup p = some e := by simp [lookup, put]

theorem lookup_put_of_ne (t : Tree κ) {p q : Path} (e : Entry κ) (h : q ≠ p) :
    (t.put p e).lookup q = t.lookup q := by
  simp only [lookup, put, List.find?_cons, decide_eq_false h.symm, List.find?_filter]
  congr 2
  funext x
  by_cases hx : x.1 = q
  · simp [hx, h]
  · simp [hx]

theorem content_put_self (t : Tree κ) (p : Path) (c : κ) :
    (t.put p (.file c)).content p = some c := by simp [content]

theorem content_put_of_ne (t : Tree κ) {p q : Path} (e : Entry κ) (h : q ≠ p) :
    (t.put p e).content q = t.content q := by simp only [content, lookup_put_of_ne t e h]

@[simp] theorem isDir_root (t : Tree κ) : t.isDir [] = true := by simp [isDir]

/-- Writing a file where no directory was leaves every directory in place. -/
theorem isDir_put_file (t : Tree κ) {p : Path} (c : κ) (hp : t.isDir p = false) (q : Path) :
    (t.put p (.file c)).isDir q = t.isDir q := by
  by_cases hq : q = p
  · subst hq
    rw [hp]
    cases q with
    | nil => simp at hp
    | cons n ns => simp [isDir]
  · cases q with
    | nil => simp
    | cons n ns => simp only [isDir, lookup_put_of_ne t _ hq]

theorem isDir_put_dir (t : Tree κ) {q : Path} (hq : t.isDir q = false) (r : Path) :
    (t.put q .dir).isDir r = true ↔ t.isDir r = true ∨ r = q := by
  by_cases hr : r = q
  · rw [hr]
    cases q with
    | nil => simp at hq
    | cons n ns => simp [isDir]
  · cases r with
    | nil => simp
    | cons n ns => simp only [isDir, lookup_put_of_ne t _ hr, hr, or_false]

/-- Removing a file leaves every directory and every other file in place. -/
theorem lookup_remove_of_ne (t : Tree κ) {p q : Path} (h : q ≠ p) :
    (t.remove p).lookup q = t.lookup q := by
  simp only [lookup, remove, List.find?_filter]
  congr 2
  funext x
  by_cases hx : x.1 = q
  · simp [hx, h]
  · simp [hx]

theorem isDir_unlink (t : Tree κ) (p q : Path) : (t.unlink p).isDir q = t.isDir q := by
  unfold unlink
  split
  · rename_i c hp
    by_cases hq : q = p
    · subst hq
      have hn : (t.remove q).lookup q = none := by simp [lookup, remove]
      cases q with
      | nil => simp
      | cons n ns => simp only [isDir, hn, hp]
    · cases q with
      | nil => simp
      | cons n ns => simp only [isDir, lookup_remove_of_ne t hq]
  · rfl

theorem content_unlink_of_ne (t : Tree κ) {p q : Path} (h : q ≠ p) :
    (t.unlink p).content q = t.content q := by
  unfold unlink
  split
  · simp only [content, lookup_remove_of_ne t h]
  · rfl

theorem content_unlink (t : Tree κ) (p q : Path) :
    (t.unlink p).content q = if q = p then none else t.content q := by
  by_cases hq : q = p
  · rw [if_pos hq, hq]
    unfold unlink
    cases hp : t.lookup p with
    | none => simp [content, hp]
    | some e =>
        cases e with
        | dir => simp [content, hp]
        | file c =>
            have hgone : (t.remove p).lookup p = none := by simp [lookup, remove]
            simp [content, hgone]
  · rw [if_neg hq, content_unlink_of_ne t hq]

theorem namei_nil (t : Tree κ) (cur : Path) : t.namei cur [] = some cur := rfl

theorem namei_cons (t : Tree κ) (cur : Path) (c : Name) (cs : List Name) :
    t.namei cur (c :: cs) =
      if t.isDir cur then
        if c = [] ∨ c = ['.'] then t.namei cur cs
        else if c = ['.', '.'] then t.namei cur.dropLast cs
        else t.namei (cur ++ [c]) cs
      else none := rfl

theorem namei_congr {t u : Tree κ} (h : ∀ q, u.isDir q = t.isDir q) (cs : List Name) :
    ∀ cur, u.namei cur cs = t.namei cur cs := by
  induction cs with
  | nil => intro cur; rfl
  | cons c cs ih =>
      intro cur
      simp only [namei_cons, h, ih]

/-- More directories lead to no other place. -/
theorem namei_mono {t u : Tree κ} (h : ∀ q, t.isDir q = true → u.isDir q = true) {cs : List Name} {q : Path} :
    ∀ {cur : Path}, t.namei cur cs = some q → u.namei cur cs = some q := by
  induction cs with
  | nil => exact id
  | cons c cs ih =>
      intro cur hw
      rw [namei_cons] at hw ⊢
      split at hw
      · next hcur =>
        rw [if_pos (h cur hcur)]
        split at hw
        · next hc =>
          rw [if_pos hc]
          exact ih hw
        · next hc =>
          rw [if_neg hc]
          split at hw
          · next hup =>
            rw [if_pos hup]
            exact ih hw
          · next hup =>
            rw [if_neg hup]
            exact ih hw
      · cases hw

/-- Two trees that both lead somewhere lead to one place. -/
theorem namei_agree {t u : Tree κ} {cs : List Name} {p q : Path} :
    ∀ {cur : Path}, t.namei cur cs = some p → u.namei cur cs = some q → p = q := by
  induction cs with
  | nil => exact fun ht hu => (Option.some.inj ht).symm.trans (Option.some.inj hu)
  | cons c cs ih =>
      intro cur ht hu
      rw [namei_cons] at ht hu
      split at ht
      · split at hu
        · split at ht
          · next hc =>
            rw [if_pos hc] at hu
            exact ih ht hu
          · next hc =>
            rw [if_neg hc] at hu
            split at ht
            · next hup =>
              rw [if_pos hup] at hu
              exact ih ht hu
            · next hup =>
              rw [if_neg hup] at hu
              exact ih ht hu
        · cases hu
      · cases ht

theorem resolve_congr {t u : Tree κ} (h : ∀ q, u.isDir q = t.isDir q) (cwd : Path) (s : List Char) :
    u.resolve cwd s = t.resolve cwd s := namei_congr h _ _

theorem namei_append (t : Tree κ) (cs ds : List Name) :
    ∀ cur, t.namei cur (cs ++ ds) = (t.namei cur cs).bind fun p => t.namei p ds := by
  induction cs with
  | nil => intro cur; rfl
  | cons c cs ih =>
      intro cur
      simp only [List.cons_append, namei_cons, ih]
      split_ifs <;> rfl

/-- A path string is resolved up to a slash, and the rest from there. -/
theorem resolve_append (t : Tree κ) (cwd : Path) {dir : List Char} (hd : dir ≠ []) (rest : List Char) :
    t.resolve cwd (dir ++ '/' :: rest) =
      (t.resolve cwd dir).bind fun d => t.namei d (rest.splitOn '/') := by
  have hh : (dir ++ '/' :: rest).head? = dir.head? := by
    cases dir with
    | nil => exact absurd rfl hd
    | cons c cs => rfl
  unfold resolve
  rw [hh, List.splitOn_append_cons_self, namei_append]

/-- The directory that paths below a directory start from; below no directory is
below the root. -/
def below (t : Tree κ) (cwd : Path) (dir : List Char) : Option Path :=
  if dir = [] then some [] else t.resolve cwd dir

theorem resolve_below (t : Tree κ) (cwd : Path) (dir rest : List Char) :
    t.resolve cwd (dir ++ '/' :: rest) =
      (t.below cwd dir).bind fun d => t.namei d (rest.splitOn '/') := by
  unfold below
  split_ifs with hd
  · subst hd
    have hs : List.splitOn '/' ('/' :: rest) = [] :: rest.splitOn '/' :=
      List.splitOn_append_cons_self [] rest
    simp [resolve, hs, namei_cons]
  · exact resolve_append t cwd hd rest

/-- A component that names an entry of the directory itself. -/
def Plain (n : Name) : Prop := n ≠ [] ∧ n ≠ ['.'] ∧ n ≠ ['.', '.'] ∧ '/' ∉ n

theorem namei_plain (t : Tree κ) {n : Name} (hn : Plain n) (cur : Path) (cs : List Name)
    (hd : t.isDir cur = true) : t.namei cur (n :: cs) = t.namei (cur ++ [n]) cs := by
  simp [namei_cons, hd, hn.1, hn.2.1, hn.2.2.1]

theorem namei_last {t : Tree κ} {n : Name} (hn : Plain n) {cur p : Path}
    (h : t.namei cur [n] = some p) : p = cur ++ [n] := by
  simp only [namei_cons, namei_nil, hn.1, hn.2.1, hn.2.2.1, or_self, if_false] at h
  split_ifs at h
  exact (Option.some.inj h).symm

theorem namei_stay {t : Tree κ} {n : Name} (hn : Plain n) {cur p : Path}
    (h : t.namei cur [n, []] = some p) : p = cur ++ [n] := by
  simp only [namei_cons, namei_nil, hn.1, hn.2.1, hn.2.2.1, or_self, true_or, if_false, if_true] at h
  split_ifs at h
  exact (Option.some.inj h).symm

theorem namei_two {t : Tree κ} {n m : Name} (hn : Plain n) (hm : Plain m) {cur p : Path}
    (h : t.namei cur [n, m] = some p) : p = cur ++ [n, m] := by
  simp only [namei_cons, namei_nil, hn.1, hn.2.1, hn.2.2.1, hm.1, hm.2.1, hm.2.2.1, or_self, if_false] at h
  split_ifs at h
  rw [← Option.some.inj h, List.append_assoc]
  rfl

theorem resolve_plain {t : Tree κ} {cwd : Path} {dir : List Char} (hd : dir ≠ []) {n : Name}
    (hn : Plain n) {q : Path} (h : t.resolve cwd (dir ++ '/' :: n) = some q) :
    ∃ d, t.resolve cwd dir = some d ∧ t.isDir d = true ∧ q = d ++ [n] := by
  rw [resolve_append t cwd hd, List.splitOn_eq_singleton hn.2.2.2] at h
  obtain ⟨d, hr, hq⟩ := Option.bind_eq_some_iff.mp h
  by_cases hi : t.isDir d = true
  · rw [namei_plain t hn d [] hi] at hq
    exact ⟨d, hr, hi, (Option.some.inj hq).symm⟩
  · simp [namei_cons, hi] at hq

theorem write_eq_some {t u : Tree κ} {p : Path} {c : κ} (h : t.write p c = some u) :
    t.writable p = true ∧ u = { t.put p (.file c) with written := t.written ++ [p] } := by
  unfold write at h
  split_ifs at h with hw
  exact ⟨hw, (Option.some.inj h).symm⟩

theorem mkdir_eq_some {t u : Tree κ} {p : Path} (h : t.mkdir p = some u) : t.present p = false ∧ u = t.put p .dir := by
  unfold mkdir at h
  split_ifs at h with hm
  simp only [Bool.and_eq_true, Bool.not_eq_true'] at hm
  exact ⟨hm.2, (Option.some.inj h).symm⟩

theorem not_isDir_of_not_present {t : Tree κ} {p : Path} (h : t.present p = false) : t.isDir p = false := by
  unfold present at h
  exact (Bool.or_eq_false_iff.mp h).1

theorem writable_not_isDir {t : Tree κ} {p : Path} (h : t.writable p = true) :
    t.isDir p = false := by
  simp only [writable, Bool.and_eq_true, Bool.not_eq_true'] at h
  exact h.2

section
variable {t u : Tree κ} {p : Path} {c : κ} (h : t.write p c = some u)
include h

theorem isDir_write (q : Path) : u.isDir q = t.isDir q := by
  obtain ⟨hw, rfl⟩ := write_eq_some h
  exact isDir_put_file t c (writable_not_isDir hw) q

theorem content_write_self : u.content p = some c := by
  obtain ⟨-, rfl⟩ := write_eq_some h
  exact content_put_self t p c

theorem lookup_write_of_ne {q : Path} (hq : q ≠ p) : u.lookup q = t.lookup q := by
  obtain ⟨-, rfl⟩ := write_eq_some h
  exact lookup_put_of_ne t _ hq

/-- The written file is found under every path that led to its place. -/
theorem resolve_write (cwd : Path) (s : List Char) : u.resolve cwd s = t.resolve cwd s :=
  resolve_congr (isDir_write h) cwd s

end

end Tree

end Xmppd.FileTree
