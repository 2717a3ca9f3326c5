import Mathlib.Data.List.Nodup
import Xmppd.Revisions

/-!
# Every path has one entry

Every change of the file tree puts an entry or removes the entries of a path. So a tree in which
no path has two entries remains one, and a directory in it lists every name once.
-/
namespace Xmppd.DistinctEntries
open FileTree LibXml ServerState User Auth Stanza EventLoop OfflineDirectory Revisions

section
variable {κ : Type} {P : Change → Path → Prop} {t u : FileTree.Tree κ} {p q : Path}

def Distinct (t : FileTree.Tree κ) : Prop := (t.entries.map Prod.fst).Nodup

theorem Distinct.remove (h : Distinct t) (p : Path) : Distinct (t.remove p) := h.sublist (List.filter_sublist.map Prod.fst)

theorem Distinct.put (h : Distinct t) (p : Path) (e : Entry κ) : Distinct (t.put p e) := by
  change (((p, e) :: t.entries.filter _).map Prod.fst).Nodup
  rw [List.map_cons, List.nodup_cons]
  refine ⟨?_, h.remove p⟩
  intro hp
  obtain ⟨x, hx, hxp⟩ := List.mem_map.mp hp
  exact of_decide_eq_true (List.mem_filter.mp hx).2 hxp

theorem Distinct.edit (h : Distinct t) (hu : Edit P t u) : Distinct u := by
  cases hu with
  | write hw _ =>
      obtain ⟨-, rfl⟩ := Tree.write_eq_some hw
      exact h.put _ _
  | mkdir hm _ =>
      obtain ⟨-, rfl⟩ := Tree.mkdir_eq_some hm
      exact h.put _ .dir
  | unlink p _ =>
      unfold Tree.unlink
      split
      · exact h.remove p
      · exact h
  | rmdir p _ =>
      unfold Tree.rmdir
      split
      · exact h.remove p
      · exact h

theorem Distinct.edited (h : Distinct t) (hu : Edited P t u) : Distinct u := by
  induction hu with
  | refl => exact h
  | tail _ he ih => exact ih.edit he

/-- A name is listed once. -/
theorem Distinct.nodup_readdir (h : Distinct t) (q : Path) : (t.readdir q).Nodup := by
  let last : Path → Option Name := fun p => if p ≠ [] ∧ p.dropLast = q then p.getLast? else none
  have hread : t.readdir q = ((t.entries.map Prod.fst).filterMap last).filter fun n => !n.contains '/' := by
    rw [List.filterMap_map]
    rfl
  have hlast : ∀ p n, last p = some n → p = q ++ [n] := by
    intro p n hp
    by_cases hin : p ≠ [] ∧ p.dropLast = q
    · have hget : p.getLast? = some n := by rwa [← if_pos hin (c := p ≠ [] ∧ p.dropLast = q) (t := p.getLast?) (e := none)]
      rw [← hin.2, List.dropLast_append_getLast? _ hget]
    · rw [show last p = none from if_neg hin] at hp
      cases hp
  rw [hread]
  refine List.Nodup.filter _ (List.Nodup.filterMap ?_ h)
  intro p p' n hp hp'
  rw [hlast p n hp, hlast p' n hp']

/-- The same names are listed, each once. -/
theorem readdir_perm (ht : Distinct t) (hu : Distinct u) (h : ∀ n, '/' ∉ n → u.lookup (q ++ [n]) = t.lookup (q ++ [n])) :
    (u.readdir q).Perm (t.readdir q) := by
  have hslash : ∀ {v : FileTree.Tree κ} {n : Name}, n ∈ v.readdir q → '/' ∉ n := by
    intro v n hn
    simpa using (List.mem_filter.mp hn).2
  refine (List.perm_ext_iff_of_nodup (hu.nodup_readdir q) (ht.nodup_readdir q)).mpr fun n => ?_
  constructor
  · intro hn
    have hs := hslash hn
    rw [mem_readdir _ hs] at hn ⊢
    rwa [← h n hs]
  · intro hn
    have hs := hslash hn
    rw [mem_readdir _ hs] at hn ⊢
    rwa [h n hs]

end

/-! ## Runs -/

/-- No change is ruled out. -/
theorem permits_any (cfg : Config) : Permits (fun _ _ => True) cfg where
  roster _ _ _ _ := trivial
  store _ _ _ _ := trivial
  letter _ _ _ _ _ _ := ⟨trivial, trivial⟩

theorem revised_any (srv : Server) (i : ℕ) (o : Oracle) (stanza : Node) : Revised (fun _ _ => True) srv (stanzaRoute srv i o stanza) := by
  refine revised_stanzaRoute (permits_any _) i o stanza fun _ => revised_registerHandleIq i o stanza fun r _ => ?_
  cases r with
  | remove username => exact revised_userDelete fun _ _ _ _ _ _ => trivial
  | create username password => exact revised_userCreate o password (fun _ _ => trivial) fun _ _ _ _ => ⟨trivial, trivial⟩
  | change username password => exact revised_userChangePassword password fun _ _ => trivial

theorem distinct_step {srv : Server} (h : Distinct srv.files) (e : Step) : Distinct (step srv e).files := by
  cases hr : routes srv e with
  | none =>
      rw [(unrouted hr).2]
      exact h
  | some r =>
      obtain ⟨i, o, stanza⟩ := r
      rw [step_routes hr]
      exact Distinct.edited (t := srv.files) h (revised_any (addDepth srv i (-1)) i o stanza).files

/-- In any run, every path keeps one entry. -/
theorem distinct_run {srv : Server} (h : Distinct srv.files) (steps : List Step) : Distinct (run srv steps).files := by
  induction steps generalizing srv with
  | nil => exact h
  | cons e es ih => exact ih (distinct_step h e)

end Xmppd.DistinctEntries
