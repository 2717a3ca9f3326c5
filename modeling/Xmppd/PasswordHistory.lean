import Xmppd.Identity
import Xmppd.Revisions

/-!
# The last password counts

Accounts are made, changed and removed by the registration requests of different sessions, in
between which rosters and messages are stored and other accounts come and go. The file of a
user's password is touched by the requests for this user alone, so that after any run it holds
what the last of them left there, and that is what a login is checked against.
-/
namespace Xmppd.PasswordHistory
open CStrings FileTree LibXml Util ServerState User Roster Message Streams Auth Stanza EventLoop Frames
open Accounts AccountCreation Passwords OwnAccount Revisions Installation

/-! ## Requests for a user -/

/-- What is left of the requests for a user. -/
inductive Deed where
  | set (password : Str)
  | drop
deriving DecidableEq, Repr

/-- `user_create` as far as the file of the password. -/
def reaches (srv : Server) (o : Oracle) (username password : Str) : Option Server :=
  if validUsername username = true ∧ userExists srv username = false then
    (if o.failMkdir then none else mkdir srv (userDir srv.cfg username)).bind fun srv' =>
      if o.failConf then none else writeFile srv' (fileIn (userDir srv.cfg username) "user.conf") (passwordLine password)
  else none

/-- What a request does for the user. -/
def deedOf (u : Username) (srv : Server) (o : Oracle) : Request → Option Deed
  | .remove username => if username = u.str then some .drop else none
  | .create username password => if username = u.str ∧ (reaches srv o username password).isSome then some (.set password) else none
  | .change username password =>
      if username = u.str ∧ (userChangePassword srv username password).2 = 0 then some (.set password) else none

/-- What a stanza does for the user. -/
def done (u : Username) (srv : Server) (i : ℕ) (o : Oracle) (stanza : Node) : Option Deed :=
  if stanza.name = "iq" ∧ childNs stanza = registerNs then (request srv i stanza).bind (deedOf u srv o) else none

def deed (u : Username) (srv : Server) (e : Step) : Option Deed :=
  (routes srv e).bind fun r => done u (addDepth srv r.1 (-1)) r.1 r.2.1 r.2.2

def deeds (u : Username) : Server → List Step → List Deed
  | _, [] => []
  | srv, e :: es => (deed u srv e).toList ++ deeds u (step srv e) es

/-- What the file holds after a deed. -/
def Deed.content : Deed → Option Content
  | .set password => some (passwordLine password)
  | .drop => none

/-- Who has logged in and asks for something has the name of a directory. -/
def Proper (srv : Server) (i : ℕ) (_ : Oracle) (stanza : Node) : Prop :=
  Registers stanza → (srv.sess i).authenticated = true → Tree.Plain (srv.sess i).jidLocal.str

instance (srv : Server) (i : ℕ) (o : Oracle) (stanza : Node) : Decidable (Proper srv i o stanza) :=
  inferInstanceAs (Decidable ((_ ∧ _) → _ → (_ ∧ _ ∧ _ ∧ _)))

/-! ## Places -/

def dirOf (d : Path) (u : Username) : Path := d ++ [u.str]

def confOf (d : Path) (u : Username) : Path := d ++ [u.str, "user.conf"]

/-- A change that is not to the user's password, nor to the directories above it. -/
def Elsewhere (d : Path) (u : Username) (k : Change) (q : Path) : Prop := q ≠ confOf d u ∧ (k = .rmdir → ¬q <+: dirOf d u)

/-- The data directory is short enough for the buffers of the paths and does not lead back up. -/
structure Sane (cfg : Config) : Prop where
  short : cfg.datadir.str.length ≤ 1012
  down : ∀ c ∈ cfg.datadir.str.splitOn '/', c ≠ ['.', '.']

section
variable {cfg : Config} {d p q : Path} {u : Username} {t : FileTree.Tree Content}

theorem userPath_uncut (hc : Sane cfg) (name : Buf 256) {f : Str} (hf : f.length ≤ 10) :
    userPath cfg name.str f = (cfg.datadir.str ++ '/' :: name.str) ++ '/' :: f := by
  have hn := name.fits
  have hd := hc.short
  apply snprintf_fits
  simp only [List.length_append, List.length_cons]
  omega

/-- No other name has the directory of the user. -/
theorem userDir_inj (hc : Sane cfg) {username : Str} (h : userDir cfg username = cfg.datadir.str ++ '/' :: u.str) : username = u.str := by
  have hlen := congrArg List.length h
  have hn := u.buf.fits
  have hd := hc.short
  change u.str.length < 256 at hn
  unfold userDir at h hlen
  rw [snprintf_str] at h hlen
  simp only [List.length_take, List.length_append, List.length_cons] at hlen
  rw [List.take_of_length_le (by simp only [List.length_append, List.length_cons]; omega)] at h
  exact (List.cons.inj (List.append_cancel_left h)).2

/-- A name that has no slash leads no more than one step down. -/
theorem namei_one {n : Name} (h : t.namei d [n] = some p) : p.length ≤ d.length ∨ p = d ++ [n] := by
  unfold Tree.namei at h
  split at h
  · split at h
    · exact .inl (by rw [← Option.some.inj h])
    split at h
    · left
      rw [← Option.some.inj h, List.length_dropLast]
      omega
    · exact .inr (Option.some.inj h).symm
  · cases h

theorem resolve_one {dir n : Str} {cwd : Path} (hs : '/' ∉ n) (h : t.resolve cwd (dir ++ '/' :: n) = some p) :
    ∃ d, t.below cwd dir = some d ∧ (p.length ≤ d.length ∨ p = d ++ [n]) := by
  rw [Tree.resolve_below, List.splitOn_eq_singleton hs] at h
  obtain ⟨d, hd, hp⟩ := Option.bind_eq_some_iff.mp h
  exact ⟨d, hd, namei_one hp⟩

/-- Two trees that both have the data directory have it in one place. -/
theorem below_agree {t' : FileTree.Tree Content} {dir : Str} {cwd d' : Path} (h : t.below cwd dir = some d)
    (h' : t'.below cwd dir = some d') : d = d' := by
  unfold Tree.below at h h'
  split at h
  · next he =>
    rw [if_pos he] at h'
    exact Option.some.inj (h.symm.trans h')
  · next he =>
    rw [if_neg he] at h'
    exact Tree.namei_agree h h'

/-- A path that does not lead back up needs only the directories on its way. -/
theorem namei_stays {t' : FileTree.Tree Content} {cs : List Name} (hcs : ∀ c ∈ cs, c ≠ ['.', '.'])
    (hdirs : ∀ q, q <+: p → t.isDir q = true → t'.isDir q = true) : ∀ {cur : Path}, t.namei cur cs = some p → t'.namei cur cs = some p := by
  induction cs with
  | nil => exact id
  | cons c cs ih =>
      intro cur h
      have hcur := namei_prefix hcs h
      have hrest : ∀ c ∈ cs, c ≠ ['.', '.'] := fun x hx => hcs x (List.mem_cons_of_mem c hx)
      unfold Tree.namei at h ⊢
      split at h
      · next hdir =>
        rw [if_pos (hdirs cur hcur hdir)]
        split at h
        · next hstay =>
          rw [if_pos hstay]
          exact ih hrest h
        · next hstay =>
          rw [if_neg hstay, if_neg (hcs c List.mem_cons_self)]
          rw [if_neg (hcs c List.mem_cons_self)] at h
          exact ih hrest h
      · cases h

theorem below_stays {t' : FileTree.Tree Content} (hc : Sane cfg) (hdirs : ∀ q, q <+: d → t.isDir q = true → t'.isDir q = true)
    (h : t.below cfg.cwd cfg.datadir.str = some d) : t'.below cfg.cwd cfg.datadir.str = some d := by
  unfold Tree.below at h ⊢
  split at h
  · next he =>
    rw [if_pos he]
    exact h
  · next he =>
    rw [if_neg he]
    exact namei_stays hc.down hdirs h

theorem confOf_eq (d : Path) (u : Username) : confOf d u = dirOf d u ++ [("user.conf" : Str)] := by
  simp [confOf, dirOf]

theorem ne_confOf {n : Name} (hn : n ≠ ("user.conf" : Str)) : p ++ [n] ≠ confOf d u := by
  rw [confOf_eq]
  intro h
  exact hn (List.cons.inj (List.append_inj' h rfl).2).1

theorem letter_ne {n : Name} (h : Letter n) : n ≠ ("user.conf" : Str) := by
  rintro rfl
  rcases h.2.2 with h | h
  · exact absurd h (by decide)
  · exact absurd h (by decide)

/-- Rosters and messages are stored elsewhere. -/
theorem permits_elsewhere (hc : Sane cfg) (d : Path) (u : Username) : Permits (Elsewhere d u) cfg := by
  have hplain : ∀ {dir n : Str} {t : FileTree.Tree Content} {q : Path}, dir ≠ [] → Tree.Plain n → n ≠ ("user.conf" : Str) →
      t.resolve cfg.cwd (dir ++ '/' :: n) = some q → q ≠ confOf d u := by
    intro dir n t q hdir hn hne hq
    obtain ⟨r, -, -, rfl⟩ := Tree.resolve_plain hdir hn hq
    exact ne_confOf hne
  have hlong : ∀ name : Buf 256, cfg.datadir.str ++ '/' :: name.str ≠ [] := fun name => by simp
  constructor
  · intro name t q hq
    rw [userPath_uncut hc name (by decide)] at hq
    exact ⟨hplain (hlong name) (by unfold Tree.Plain; decide) (by decide) hq, nofun⟩
  · intro name t q hq
    rw [offlineDir, userPath_uncut hc name (by decide)] at hq
    exact ⟨hplain (hlong name) (by unfold Tree.Plain; decide) (by decide) hq, nofun⟩
  · intro name n hn t q hq
    have hshort : (offlineDir cfg name.str).length ≤ 1279 := by
      unfold offlineDir userPath
      rw [snprintf_str]
      exact List.length_take_le _ _
    have hnonempty : offlineDir cfg name.str ≠ [] := by
      rw [offlineDir, userPath_uncut hc name (by decide)]
      simp
    have hfile : fileIn (offlineDir cfg name.str) n = offlineDir cfg name.str ++ '/' :: n := by
      have h63 := hn.2.1
      apply snprintf_fits
      simp only [List.length_append, List.length_cons]
      omega
    rw [hfile] at hq
    have hne := hplain hnonempty hn.1 (letter_ne hn) hq
    exact ⟨⟨hne, nofun⟩, hne, nofun⟩

/-! ## What changes leave -/

theorem isDir_of_lookup {t t' : FileTree.Tree Content} (h : t'.lookup q = t.lookup q) : t'.isDir q = t.isDir q := by
  unfold Tree.isDir
  rw [h]

theorem isDir_rmdir_of_ne {t : FileTree.Tree Content} (hne : q ≠ p) : (t.rmdir p).isDir q = t.isDir q := by
  unfold Tree.rmdir
  split
  · exact isDir_of_lookup (Tree.lookup_remove_of_ne t hne)
  · rfl

theorem edit_dirs {P : Change → Path → Prop} {r : Path} (hP : ∀ q, P .rmdir q → ¬q <+: r) {t t' : FileTree.Tree Content} (h : Edit P t t')
    (hq : q <+: r) (hdir : t.isDir q = true) : t'.isDir q = true := by
  cases h with
  | write hw _ => rwa [Tree.isDir_write hw]
  | mkdir hm _ =>
      obtain ⟨hnew, rfl⟩ := Tree.mkdir_eq_some hm
      exact (Tree.isDir_put_dir t (Tree.not_isDir_of_not_present hnew) q).mpr (.inl hdir)
  | unlink p _ => rwa [Tree.isDir_unlink]
  | rmdir p hp =>
      rwa [isDir_rmdir_of_ne]
      rintro rfl
      exact hP _ hp hq

theorem edited_dirs {P : Change → Path → Prop} {r : Path} (hP : ∀ q, P .rmdir q → ¬q <+: r) {t t' : FileTree.Tree Content} (h : Edited P t t')
    (hq : q <+: r) (hdir : t.isDir q = true) : t'.isDir q = true := by
  induction h with
  | refl => exact hdir
  | tail _ he ih => exact edit_dirs hP he hq ih

theorem edited_content {P : Change → Path → Prop} (hP : ∀ k, ¬P k p) {t t' : FileTree.Tree Content} (h : Edited P t t') :
    t'.content p = t.content p := by
  have hne : ∀ {k q}, P k q → p ≠ q := by
    rintro k q hq rfl
    exact hP k hq
  induction h with
  | refl => rfl
  | @tail b c _ he ih =>
      rw [← ih]
      cases he with
      | write hw hp => simp only [Tree.content, Tree.lookup_write_of_ne hw (hne hp)]
      | mkdir hm hp =>
          obtain ⟨-, rfl⟩ := Tree.mkdir_eq_some hm
          exact Tree.content_put_of_ne b .dir (hne hp)
      | unlink q hp => exact Tree.content_unlink_of_ne b (hne hp)
      | rmdir q hp =>
          unfold Tree.rmdir
          split
          · simp only [Tree.content, Tree.lookup_remove_of_ne b (hne hp)]
          · rfl

end

/-! ## The file of the password -/

/-- The data directory is in its place, and where the file is, its directories are. -/
structure Kept (d : Path) (u : Username) (srv : Server) : Prop where
  home : home srv = some d
  housed : srv.files.content (confOf d u) ≠ none → srv.files.isDir d = true ∧ srv.files.isDir (dirOf d u) = true

section
variable {srv b : Server} {d p q : Path} {u : Username}

theorem kept_of_rooted (hr : Rooted srv.files) (hhome : home srv = some d) : Kept d u srv := by
  have hparent : ∀ {p : Path} {e}, srv.files.lookup p = some e → srv.files.isDir p.dropLast = true := by
    intro p e h
    obtain ⟨x, hx, -⟩ := Option.map_eq_some_iff.mp h
    have hp := List.find?_some hx
    rw [← of_decide_eq_true hp]
    exact hr x (List.mem_of_find?_eq_some hx)
  refine ⟨hhome, fun h => ?_⟩
  have hdir : srv.files.isDir (dirOf d u) = true := by
    cases hl : srv.files.lookup (confOf d u) with
    | none =>
        unfold Tree.content at h
        rw [hl] at h
        exact absurd rfl h
    | some e =>
        have hp := hparent hl
        rwa [confOf_eq, List.dropLast_concat] at hp
  refine ⟨?_, hdir⟩
  cases hl : srv.files.lookup (dirOf d u) with
  | none =>
      unfold Tree.isDir at hdir
      rw [hl] at hdir
      simp [dirOf] at hdir
  | some e =>
      have hp := hparent hl
      rwa [dirOf, List.dropLast_concat] at hp

/-- Where the user's directory is. -/
theorem locate_dir (hhome : home srv = some d) (hdir : srv.files.isDir d = true) :
    locate srv (srv.cfg.datadir.str ++ '/' :: u.str) = some (dirOf d u) := by
  have hbelow : srv.files.below srv.cfg.cwd srv.cfg.datadir.str = some d := hhome
  rw [locate, Tree.resolve_below, hbelow, Option.bind_some, List.splitOn_eq_singleton u.plain.2.2.2,
    Tree.namei_plain _ u.plain _ _ hdir]
  rfl

theorem locate_conf (hc : Sane srv.cfg) (hhome : home srv = some d) (hd : srv.files.isDir d = true)
    (hdir : srv.files.isDir (dirOf d u) = true) : locate srv (userPath srv.cfg u.str "user.conf") = some (confOf d u) := by
  have huncut := userPath_uncut hc u.buf (f := "user.conf") (by decide)
  change userPath srv.cfg u.str "user.conf" = (srv.cfg.datadir.str ++ '/' :: u.str) ++ '/' :: ("user.conf" : Str) at huncut
  rw [huncut, locate_below (by simp) (locate_dir hhome hd) hdir (by unfold Tree.Plain; decide), confOf_eq]

/-- If the path leads anywhere, it leads to the file. -/
theorem conf_of_locate (hc : Sane srv.cfg) (hhome : home srv = some d) (h : locate srv (userPath srv.cfg u.str "user.conf") = some q) :
    q = confOf d u ∧ srv.files.isDir d = true ∧ srv.files.isDir (dirOf d u) = true := by
  have huncut := userPath_uncut hc u.buf (f := "user.conf") (by decide)
  change userPath srv.cfg u.str "user.conf" = (srv.cfg.datadir.str ++ '/' :: u.str) ++ '/' :: ("user.conf" : Str) at huncut
  rw [huncut] at h
  obtain ⟨r, hr, hdir, rfl⟩ := Tree.resolve_plain (by simp) (by unfold Tree.Plain; decide) h
  rw [Tree.resolve_below, List.splitOn_eq_singleton u.plain.2.2.2] at hr
  obtain ⟨d', hd', hr⟩ := Option.bind_eq_some_iff.mp hr
  obtain rfl : d = d' := Option.some.inj (hhome.symm.trans hd')
  obtain rfl := Tree.namei_last u.plain hr
  refine ⟨(confOf_eq d u).symm, ?_, hdir⟩
  unfold Tree.namei at hr
  split at hr
  · assumption
  · cases hr

/-- What is read under the user's name is what is in the file. -/
theorem readFile_conf (hc : Sane srv.cfg) (hk : Kept d u srv) :
    readFile srv (userPath srv.cfg u.str "user.conf") = srv.files.content (confOf d u) := by
  by_cases hnone : srv.files.content (confOf d u) = none
  · unfold readFile
    cases hl : locate srv (userPath srv.cfg u.str "user.conf") with
    | none => rw [hnone, Option.bind_none]
    | some q => rw [(conf_of_locate hc hk.home hl).1, Option.bind_some]
  · obtain ⟨hd, hdir⟩ := hk.housed hnone
    rw [readFile, locate_conf hc hk.home hd hdir, Option.bind_some]

theorem home_stays (hc : Sane srv.cfg) (hcfg : b.cfg = srv.cfg) (hhome : home srv = some d)
    (hdirs : ∀ q, q <+: d → srv.files.isDir q = true → b.files.isDir q = true) : home b = some d := by
  unfold home at hhome ⊢
  rw [hcfg]
  exact below_stays hc hdirs hhome

/-- Changes elsewhere keep the file. -/
theorem Kept.revised (hc : Sane srv.cfg) (hk : Kept d u srv) (h : Revised (Elsewhere d u) srv b) :
    Kept d u b ∧ b.files.content (confOf d u) = srv.files.content (confOf d u) := by
  have hdirs : ∀ q, q <+: dirOf d u → srv.files.isDir q = true → b.files.isDir q = true :=
    fun q hq hdir => edited_dirs (fun r hr => hr.2 rfl) h.files hq hdir
  have hcontent := edited_content (p := confOf d u) (fun k hk => hk.1 rfl) h.files
  have hfront : d <+: dirOf d u := List.prefix_append d _
  refine ⟨⟨home_stays hc h.cfg hk.home fun q hq => hdirs q (hq.trans hfront), fun hne => ?_⟩, hcontent⟩
  rw [hcontent] at hne
  obtain ⟨hd, hdir⟩ := hk.housed hne
  exact ⟨hdirs d hfront hd, hdirs _ (List.prefix_refl _) hdir⟩

/-! ## Requests -/

theorem located_of_plain (hhome : home srv = some d) {n : Str} (hn : Tree.Plain n) (hlen : n.length < 256)
    {t : FileTree.Tree Content} (h : t.resolve srv.cfg.cwd (userDir srv.cfg n) = some p) : p = d ++ [n] := by
  rw [userDir_short srv.cfg hlen, Tree.resolve_below, List.splitOn_eq_singleton hn.2.2.2] at h
  obtain ⟨d', hd', hp⟩ := Option.bind_eq_some_iff.mp h
  rw [Tree.namei_last hn hp, below_agree hhome hd']

/-- The removal of another account. -/
theorem remove_other (hhome : home srv = some d) {n : Str} (hn : Tree.Plain n) (hlen : n.length < 256) (hne : n ≠ u.str) :
    Revised (Elsewhere d u) srv (userDelete srv n) := by
  refine revised_userDelete fun t p hp k q hq => ?_
  obtain rfl := located_of_plain hhome hn hlen hp
  have hapart : ∀ {rest : List Name}, ¬d ++ [n] <+: d ++ u.str :: rest := by
    intro rest h
    have h := (List.prefix_append_right_inj d).mp h
    exact hne (List.cons_prefix_cons.mp h).1
  refine ⟨?_, fun _ hpre => hapart (hq.trans hpre)⟩
  rintro rfl
  exact hapart hq

/-- The stored messages and their directory go before the file of the password. -/
theorem revised_stored (hhome : home srv = some d) (l : List Str) :
    Revised (fun k q => k = .rmdir → ¬q <+: dirOf d u) srv
      (rmdir (l.foldl (fun b n => unlink b (snprintf 1792 (fileIn (userDir srv.cfg u.str) "offline" ++ '/' :: n)).str) srv)
        (fileIn (userDir srv.cfg u.str) "offline")) := by
  have hfold : Revised (fun k q => k = .rmdir → ¬q <+: dirOf d u) srv
      (l.foldl (fun b n => unlink b (snprintf 1792 (fileIn (userDir srv.cfg u.str) "offline" ++ '/' :: n)).str) srv) :=
    Revised.foldl (fun b _ n _ => revised_unlink fun _ _ => nofun) (.refl srv)
  generalize l.foldl _ srv = a at hfold
  refine hfold.trans (revised_rmdir fun q hq _ hpre => ?_)
  rw [fileIn_userDir srv.cfg u.str (by decide)] at hq
  obtain ⟨r, hr, -, rfl⟩ := Tree.resolve_plain (userDir_ne_nil srv.cfg u.str) (by unfold Tree.Plain; decide) hq
  rw [hfold.cfg] at hr
  obtain rfl := located_of_plain hhome u.plain u.buf.fits hr
  have hlen := hpre.length_le
  simp only [dirOf, List.length_append, List.length_cons, List.length_nil] at hlen
  omega

/-- The removal of the user's own account. -/
theorem remove_own (hc : Sane srv.cfg) (hk : Kept d u srv) :
    Kept d u (userDelete srv u.str) ∧ (userDelete srv u.str).files.content (confOf d u) = none := by
  have hpruned := pruned_userDelete srv u.str
  have hgone : (userDelete srv u.str).files.content (confOf d u) = none := by
    by_cases hnone : srv.files.content (confOf d u) = none
    · exact (hpruned.content (confOf d u)).elim (fun he => he.trans hnone) id
    · obtain ⟨hd, hdir⟩ := hk.housed hnone
      have hstored := revised_stored (u := u) hk.home (listDir srv (fileIn (userDir srv.cfg u.str) "offline"))
      have hdirs : ∀ q, q <+: dirOf d u → srv.files.isDir q = true → _ :=
        fun q hq hdir => edited_dirs (fun r hr => hr rfl) hstored.files hq hdir
      have hfront : d <+: dirOf d u := List.prefix_append d _
      have hhome := home_stays hc hstored.cfg hk.home fun q hq => hdirs q (hq.trans hfront)
      have hconf := locate_conf (by rw [hstored.cfg]; exact hc) hhome (hdirs d hfront hd) (hdirs _ (List.prefix_refl _) hdir)
      have hpath : userPath srv.cfg u.str "user.conf" = fileIn (userDir srv.cfg u.str) "user.conf" := by
        have hshort : userDir srv.cfg u.str = srv.cfg.datadir.str ++ '/' :: u.str := userDir_short srv.cfg u.buf.fits
        rw [fileIn_userDir srv.cfg u.str (by decide), hshort]
        exact userPath_uncut hc u.buf (by decide)
      rw [hstored.cfg, hpath] at hconf
      unfold userDelete
      dsimp only
      generalize rmdir (List.foldl _ srv _) _ = a at hconf hstored
      have hunlink : (unlink a (fileIn (userDir srv.cfg u.str) "user.conf")).files.content (confOf d u) = none := by
        unfold unlink
        rw [hconf]
        exact (Tree.content_unlink a.files _ _).trans (if_pos rfl)
      have hd := userDir_ne_nil srv.cfg u.str
      have hroster : ∀ s : Server, Pruned (userDir srv.cfg u.str) s (unlink s (fileIn (userDir srv.cfg u.str) "roster.xml")) := by
        intro s
        rw [fileIn_userDir srv.cfg u.str (by decide)]
        exact pruned_unlink (beneath_file hd (by decide) (by decide))
      have hrest := (hroster (unlink a (fileIn (userDir srv.cfg u.str) "user.conf"))).trans (pruned_rmdir (.refl _ _))
      exact (hrest.content (confOf d u)).elim (fun he => he.trans hunlink) id
  refine ⟨⟨home_stays hc hpruned.cfg hk.home fun q hq hdir => ?_, fun hne => absurd hgone hne⟩, hgone⟩
  rw [isDir_of_lookup (hpruned.outside q fun r hr hpre => ?_)]
  · exact hdir
  · obtain rfl := located_of_plain hk.home u.plain u.buf.fits hr
    have hlen := (hpre.trans hq).length_le
    simp only [List.length_append, List.length_cons, List.length_nil] at hlen
    omega

/-- A change of another password. -/
theorem change_other (hc : Sane srv.cfg) (hhome : home srv = some d) {n : Buf 256} (hn : Tree.Plain n.str) (hne : n.str ≠ u.str)
    (password : Str) : Revised (Elsewhere d u) srv (userChangePassword srv n.str password).1 := by
  refine revised_userChangePassword password fun q hq => ⟨?_, nofun⟩
  rw [userPath_uncut hc n (by decide), ← userDir_short srv.cfg n.fits] at hq
  obtain ⟨r, hr, -, rfl⟩ := Tree.resolve_plain (userDir_ne_nil srv.cfg n.str) (by unfold Tree.Plain; decide) hq
  obtain rfl := located_of_plain hhome hn n.fits hr
  rw [confOf_eq, dirOf]
  intro he
  exact hne (List.cons.inj (List.append_cancel_left (List.append_cancel_right he))).1

theorem change_own (hc : Sane srv.cfg) (hk : Kept d u srv) (password : Str) :
    Kept d u (userChangePassword srv u.str password).1 ∧
      (userChangePassword srv u.str password).1.files.content (confOf d u) =
        if (userChangePassword srv u.str password).2 = 0 then some (passwordLine password) else srv.files.content (confOf d u) := by
  unfold userChangePassword
  cases hw : writeFile srv (userPath srv.cfg u.str "user.conf") (passwordLine password) with
  | none => exact ⟨hk, rfl⟩
  | some b =>
      obtain ⟨q, t, hq, ht, rfl⟩ := User.writeFile_eq_some hw
      obtain ⟨rfl, hd, hdir⟩ := conf_of_locate hc hk.home hq
      refine ⟨⟨?_, fun _ => ?_⟩, Tree.content_write_self ht⟩
      · exact home_stays hc rfl hk.home fun q _ h => (Tree.isDir_write ht q).trans h
      · exact ⟨(Tree.isDir_write ht _).trans hd, (Tree.isDir_write ht _).trans hdir⟩

/-! ## New accounts -/

/-- The creation of another account. -/
theorem create_other (hc : Sane srv.cfg) (hhome : home srv = some d) (o : Oracle) {n : Str} (hne : n ≠ u.str) (password : Str) :
    Revised (Elsewhere d u) srv (userCreate srv o n password).1 := by
  obtain he | ⟨hv, -⟩ := userCreate_new srv o n password
  · rw [he]
    exact .refl srv
  obtain ⟨m, hm, hdir⟩ := userDir_valid srv.cfg hv
  have hother : m ≠ u.str := by
    rintro rfl
    exact hne (userDir_inj hc hdir)
  have hplace : ∀ {t : FileTree.Tree Content} {p : Path}, t.resolve srv.cfg.cwd (userDir srv.cfg n) = some p →
      p.length ≤ d.length ∨ p = d ++ [m] := by
    intro t p hp
    rw [hdir] at hp
    obtain ⟨d', hd', hp⟩ := resolve_one (Identity.slash_not_mem hm) hp
    rwa [← below_agree hhome hd'] at hp
  have hconf : (confOf d u).length = d.length + 2 := by simp [confOf]
  refine revised_userCreate o password (fun p hp => ⟨?_, nofun⟩) fun t p hp k => ?_
  · rintro rfl
    rcases hplace hp with h | h
    · omega
    · rw [h, List.length_append, List.length_singleton] at hconf
      omega
  · have hin : p ++ [k] ≠ confOf d u := by
      intro he
      rw [confOf_eq] at he
      have hp' := (List.append_inj' he rfl).1
      rcases hplace hp with h | h
      · rw [hp', dirOf, List.length_append, List.length_singleton] at h
        omega
      · rw [h, dirOf] at hp'
        exact hother (List.cons.inj (List.append_cancel_left hp')).1
    exact ⟨⟨hin, nofun⟩, hin, nofun⟩

/-- What comes before the file of the password. -/
theorem create_before (o : Oracle) {n password : Str} (h : reaches srv o n password = none) :
    (userCreate srv o n password).1 = srv ∨ mkdir srv (userDir srv.cfg n) = some (userCreate srv o n password).1 := by
  unfold reaches at h
  unfold userCreate
  split
  · exact .inl rfl
  next hv =>
  split
  · exact .inl rfl
  next he =>
  rw [if_pos ⟨by simpa using hv, by simpa using he⟩] at h
  dsimp only
  split
  · exact .inl rfl
  next s₁ h₁ =>
  rw [h₁, Option.bind_some] at h
  rw [h]
  exact .inr (eq_of_not_failed h₁)

theorem reaches_eq_some {o : Oracle} {n password : Str} {s : Server} (h : reaches srv o n password = some s) :
    ∃ s₁, mkdir srv (userDir srv.cfg n) = some s₁ ∧
      writeFile s₁ (fileIn (userDir srv.cfg n) "user.conf") (passwordLine password) = some s := by
  unfold reaches at h
  split at h
  · obtain ⟨s₁, h₁, h₂⟩ := Option.bind_eq_some_iff.mp h
    exact ⟨s₁, eq_of_not_failed h₁, eq_of_not_failed h₂⟩
  · cases h

/-- What comes after the file of the password. -/
theorem userCreate_after {o : Oracle} {n password : Str} {s : Server} (h : reaches srv o n password = some s) :
    (userCreate srv o n password).1 =
      match (if o.failRoster then none else writeFile s (fileIn (userDir srv.cfg n) "roster.xml") emptyRoster) with
      | none => s
      | some s₃ => ((if o.failOffline then none else mkdir s₃ (fileIn (userDir srv.cfg n) "offline"))).getD s₃ := by
  unfold reaches at h
  split at h
  · next hnew =>
    obtain ⟨a, ha, hs⟩ := Option.bind_eq_some_iff.mp h
    unfold userCreate
    rw [if_neg (by rw [hnew.1]; decide), if_neg (by rw [hnew.2]; decide)]
    dsimp only
    rw [ha]
    dsimp only
    rw [hs]
    dsimp only
    cases (if o.failRoster then none else writeFile s (fileIn (userDir srv.cfg n) "roster.xml") emptyRoster) with
    | none => rfl
    | some s₃ =>
        dsimp only
        cases (if o.failOffline then none else mkdir s₃ (fileIn (userDir srv.cfg n) "offline")) with
        | none => rfl
        | some s₄ => rfl
  · cases h

theorem create_after (o : Oracle) {n password : Str} {s : Server} (h : reaches srv o n password = some s) :
    Revised (Elsewhere d u) s (userCreate srv o n password).1 := by
  have hplace : ∀ {b : Server} {m : Str}, Tree.Plain m → m ≠ ("user.conf" : Str) →
      ∀ q, locate b (userDir srv.cfg n ++ '/' :: m) = some q → q ≠ confOf d u := by
    intro b m hm hne q hq
    obtain ⟨p, -, -, rfl⟩ := Tree.resolve_plain (userDir_ne_nil srv.cfg n) hm hq
    exact ne_confOf hne
  rw [userCreate_after h, fileIn_userDir srv.cfg n (by decide), fileIn_userDir srv.cfg n (by decide)]
  split
  · exact .refl s
  next s₃ h₃ =>
  have f₃ := revised_writeFile (P := Elsewhere d u) (eq_of_not_failed h₃)
    fun q hq => ⟨hplace (m := "roster.xml") (by unfold Tree.Plain; decide) (by decide) q hq, nofun⟩
  refine f₃.trans (revised_getD fun s₄ h₄ => revised_mkdir (eq_of_not_failed h₄) fun q hq => ⟨?_, nofun⟩)
  exact hplace (m := "offline") (by unfold Tree.Plain; decide) (by decide) q hq

theorem create_own (hc : Sane srv.cfg) (hk : Kept d u srv) (o : Oracle) (password : Str) :
    Kept d u (userCreate srv o u.str password).1 ∧
      (userCreate srv o u.str password).1.files.content (confOf d u) =
        if (reaches srv o u.str password).isSome then some (passwordLine password) else srv.files.content (confOf d u) := by
  have hmade : ∀ {s : Server}, mkdir srv (userDir srv.cfg u.str) = some s → Revised (Elsewhere d u) srv s := by
    intro s h
    refine revised_mkdir h fun q hq => ⟨?_, nofun⟩
    rw [located_of_plain hk.home u.plain u.buf.fits hq, confOf_eq, dirOf]
    simp
  cases hr : reaches srv o u.str password with
  | none =>
      obtain he | he := create_before o hr
      · rw [he]
        exact ⟨hk, rfl⟩
      · exact hk.revised hc (hmade he)
  | some s =>
      obtain ⟨s₁, h₁, h₂⟩ := reaches_eq_some hr
      have hrev := hmade h₁
      have hk₁ := (hk.revised hc hrev).1
      have hc₁ : Sane s₁.cfg := by
        rw [hrev.cfg]
        exact hc
      have hpath : fileIn (userDir srv.cfg u.str) "user.conf" = userPath s₁.cfg u.str "user.conf" := by
        have hshort : userDir srv.cfg u.str = srv.cfg.datadir.str ++ '/' :: u.str := userDir_short srv.cfg u.buf.fits
        rw [fileIn_userDir srv.cfg u.str (by decide), hshort, hrev.cfg]
        exact (userPath_uncut hc u.buf (by decide)).symm
      rw [hpath] at h₂
      obtain ⟨q, t, hq, ht, rfl⟩ := User.writeFile_eq_some h₂
      obtain ⟨rfl, hd, hdir⟩ := conf_of_locate hc₁ hk₁.home hq
      have hk₂ : Kept d u { s₁ with files := t } := by
        refine ⟨home_stays (b := { s₁ with files := t }) hc₁ rfl hk₁.home fun q _ h => (Tree.isDir_write ht q).trans h, fun _ => ?_⟩
        exact ⟨(Tree.isDir_write ht _).trans hd, (Tree.isDir_write ht _).trans hdir⟩
      have hrest : Revised (Elsewhere d u) { s₁ with files := t } (userCreate srv o u.str password).1 := create_after o hr
      have hc₂ : Sane ({ s₁ with files := t } : Server).cfg := hc₁
      obtain ⟨hkept, hcontent⟩ := hk₂.revised hc₂ hrest
      exact ⟨hkept, hcontent.trans (Tree.content_write_self ht)⟩

/-- The file after what has been done for the user, if anything has. -/
def after (before : Option Content) (x : Option Deed) : Option Content := (x.map Deed.content).getD before

@[simp] theorem after_none (before : Option Content) : after before none = before := rfl

@[simp] theorem after_some (before : Option Content) (x : Deed) : after before (some x) = x.content := rfl

theorem after_ite (before : Option Content) (password : Str) {c : Prop} [Decidable c] :
    after before (if c then some (.set password) else none) = if c then some (passwordLine password) else before := by
  split <;> rfl

/-- A request leaves what it is for. -/
theorem perform_kept (hc : Sane srv.cfg) (hk : Kept d u srv) {i : ℕ} {stanza : Node} (o : Oracle) {r : Request}
    (hplain : (srv.sess i).authenticated = true → Tree.Plain (srv.sess i).jidLocal.str) (hr : request srv i stanza = some r) :
    Kept d u (r.perform srv o) ∧
      (r.perform srv o).files.content (confOf d u) = after (srv.files.content (confOf d u)) (deedOf u srv o r) := by
  have hown := request_own i stanza hr
  cases r with
  | remove n =>
      obtain ⟨-, _, _, he⟩ | ⟨hauth, hn⟩ := hown
      · cases he
      have hplain := hplain hauth
      change n = (srv.sess i).jidLocal.str at hn
      change Kept d u (userDelete srv n) ∧ (userDelete srv n).files.content (confOf d u) =
        after (srv.files.content (confOf d u)) (if n = u.str then some .drop else none)
      by_cases he : n = u.str
      · rw [if_pos he, after_some, he]
        exact remove_own hc hk
      · rw [if_neg he, after_none]
        rw [hn] at he ⊢
        exact hk.revised hc (remove_other hk.home hplain (srv.sess i).jidLocal.fits he)
  | create n password =>
      change Kept d u (userCreate srv o n password).1 ∧ (userCreate srv o n password).1.files.content (confOf d u) =
        after (srv.files.content (confOf d u))
          (if n = u.str ∧ (reaches srv o n password).isSome then some (.set password) else none)
      by_cases he : n = u.str
      · simp only [he, true_and, after_ite]
        exact create_own hc hk o password
      · rw [if_neg fun h => he h.1, after_none]
        exact hk.revised hc (create_other hc hk.home o he password)
  | change n password =>
      obtain ⟨-, _, _, he⟩ | ⟨hauth, hn⟩ := hown
      · cases he
      have hplain := hplain hauth
      change n = (srv.sess i).jidLocal.str at hn
      change Kept d u (userChangePassword srv n password).1 ∧ (userChangePassword srv n password).1.files.content (confOf d u) =
        after (srv.files.content (confOf d u))
          (if n = u.str ∧ (userChangePassword srv n password).2 = 0 then some (.set password) else none)
      by_cases he : n = u.str
      · simp only [he, true_and, after_ite]
        exact change_own hc hk password
      · rw [if_neg fun h => he h.1, after_none]
        rw [hn] at he ⊢
        exact hk.revised hc (change_other hc hk.home hplain he password)

end

/-! ## Runs -/

section
variable {srv b : Server} {d : Path} {u : Username} {i : ℕ} {o : Oracle} {stanza : Node}

/-- A request reaches its handler, unless it is no request. -/
theorem route_register (h : Registers stanza) : stanzaRoute srv i o stanza = registerHandleIq srv i o stanza ∨
    request srv i stanza = none ∧ Silent srv (stanzaRoute srv i o stanza) := by
  unfold stanzaRoute
  split
  · unfold routeBeforeAuth
    rw [h.1, if_neg fun h => absurd h.1 (by decide), if_pos rfl, if_pos h.2]
    exact .inl rfl
  · rw [if_pos h.1]
    unfold handleIq
    dsimp only
    split
    · next htype =>
      refine .inr ⟨?_, silent_routeReply srv i o stanza⟩
      have hset : stanza.prop "type" ≠ "set" := by
        rcases htype with h | h
        · rw [h]
          decide
        · rw [h]
          decide
      exact if_pos hset
    · left
      rw [h.2]
      rfl

theorem Kept.congr (hk : Kept d u srv) (hcfg : b.cfg = srv.cfg) (hfiles : b.files = srv.files) : Kept d u b := by
  constructor
  · unfold Accounts.home
    rw [hcfg, hfiles]
    exact hk.home
  · rw [hfiles]
    exact hk.housed

/-- A stanza leaves what it does for the user. -/
theorem route_kept (hc : Sane srv.cfg) (hk : Kept d u srv) (hproper : Proper srv i o stanza) :
    (stanzaRoute srv i o stanza).cfg = srv.cfg ∧ Kept d u (stanzaRoute srv i o stanza) ∧
      (stanzaRoute srv i o stanza).files.content (confOf d u) = after (srv.files.content (confOf d u)) (done u srv i o stanza) := by
  by_cases hreg : Registers stanza
  · have hdone : done u srv i o stanza = (request srv i stanza).bind (deedOf u srv o) := if_pos hreg
    rw [hdone]
    obtain he | ⟨hnone, hsilent⟩ := @route_register srv i o stanza hreg
    · obtain ⟨hcfg, hfiles⟩ := register_files i o stanza srv
      rw [he]
      refine ⟨hcfg, ?_⟩
      cases hr : request srv i stanza with
      | none =>
          rw [hr] at hfiles
          exact ⟨hk.congr hcfg hfiles, congrArg (Tree.content · (confOf d u)) hfiles⟩
      | some r =>
          obtain ⟨hkept, hcontent⟩ := perform_kept hc hk o (hproper hreg) hr
          rw [hr] at hfiles
          have hperform : (r.perform srv o).cfg = srv.cfg := (Same.of_filesOnly (v := holding) (perform_filesOnly o r)).cfg
          exact ⟨hkept.congr (hcfg.trans hperform.symm) hfiles, (congrArg (Tree.content · (confOf d u)) hfiles).trans hcontent⟩
    · rw [hnone]
      exact ⟨hsilent.cfg, hk.congr hsilent.cfg hsilent.files, congrArg (Tree.content · (confOf d u)) hsilent.files⟩
  · have hdone : done u srv i o stanza = none := if_neg hreg
    have hrevised := revised_stanzaRoute (permits_elsewhere hc d u) i o stanza fun h => absurd h hreg
    rw [hdone]
    exact ⟨hrevised.cfg, hk.revised hc hrevised⟩

theorem step_kept (hc : Sane srv.cfg) (hk : Kept d u srv) {e : Step} (hproper : OnStanza Proper srv e) :
    (step srv e).cfg = srv.cfg ∧ Kept d u (step srv e) ∧
      (step srv e).files.content (confOf d u) = after (srv.files.content (confOf d u)) (deed u srv e) := by
  unfold deed
  cases hr : routes srv e with
  | none =>
      obtain ⟨hcfg, hfiles⟩ := unrouted hr
      exact ⟨hcfg, hk.congr hcfg hfiles, congrArg (Tree.content · (confOf d u)) hfiles⟩
  | some r =>
      obtain ⟨i, o, stanza⟩ := r
      obtain ⟨rfl, -, -, hd⟩ := routes_eq hr
      have hstart : Kept d u (addDepth srv i (-1)) := hk.congr rfl rfl
      obtain ⟨hcfg, hkept, hcontent⟩ := @route_kept (addDepth srv i (-1)) _ _ _ _ _ hc hstart (hproper stanza hd)
      rw [step_routes hr]
      exact ⟨hcfg, hkept.congr rfl rfl, hcontent⟩

/-- What is left of a run is what its last deed left. -/
theorem run_kept (steps : List Step) : ∀ srv : Server, Sane srv.cfg → Kept d u srv → Meets (OnStanza Proper) srv steps →
    (run srv steps).cfg = srv.cfg ∧ Kept d u (run srv steps) ∧
      (run srv steps).files.content (confOf d u) = after (srv.files.content (confOf d u)) (deeds u srv steps).getLast? := by
  induction steps with
  | nil => exact fun srv _ hk _ => ⟨rfl, hk, rfl⟩
  | cons e es ih =>
      intro srv hc hk hmeets
      obtain ⟨hcfg, hkept, hcontent⟩ := step_kept hc hk hmeets.1
      obtain ⟨hcfg', hkept', hcontent'⟩ := ih (step srv e) (by rw [hcfg]; exact hc) hkept hmeets.2
      refine ⟨hcfg'.trans hcfg, hkept', hcontent'.trans ?_⟩
      rw [hcontent, deeds, List.getLast?_append]
      cases hlast : (deeds u (step srv e) es).getLast? with
      | some x => rfl
      | none =>
          cases deed u srv e with
          | none => rfl
          | some x => rfl

end

theorem alice_valid : validUsername (snprintf 256 "alice").str = true := by decide

theorem alice_proper : (snprintf 256 "alice").str ≠ ['.'] ∧ (snprintf 256 "alice").str ≠ ['.', '.'] := by decide

def alice : Username := ⟨snprintf 256 "alice", alice_valid, alice_proper⟩

/-- Alice changes her password. -/
def changing : List Step :=
  .accept :: (login 0 alicePlain ++ chunk 0
    [.startElement "iq" "jabber:client" [attr "type" "set"], .startElement "query" registerNs [],
      .startElement "username" registerNs [], .characters "alice", .endElement,
      .startElement "password" registerNs [], .characters "letmein", .endElement, .endElement, .endElement])

end Xmppd.PasswordHistory
