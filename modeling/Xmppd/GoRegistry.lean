import Mathlib.Data.List.Nodup
import Mathlib.Data.List.Perm.Basic
import Mathlib.Logic.Function.Basic
import Xmppd.CStrings

/-!
# The session registry of the Go server

The Go server runs one goroutine for each connection and keeps two indices under
one lock: the sessions by bare address and the slice of all sessions. A session
is added before its goroutine starts, gets its address when it authenticates,
registers when it binds a resource, and is removed when its goroutine ends. Each
registry operation holds the lock, so it is one step, and the steps of the
goroutines come in any order that respects the life of each session.

A session that is kicked removes itself at some later time. The last field of
the state is not in the source: it lists the registrations, latest first.
-/
namespace Xmppd.GoRegistry
open CStrings

/-- Where a session is in its life. -/
inductive Phase where
  | unborn | running | gone
deriving DecidableEq, Repr

structure Registry where
  domain : Str
  byBareJID : Str → Option ℕ
  all : List ℕ
  jidLocal : ℕ → Str
  phase : ℕ → Phase
  registrations : List (Str × ℕ)

def Registry.new (domain : Str) : Registry :=
  ⟨domain, fun _ => none, [], fun _ => [], fun _ => .unborn, []⟩

namespace Registry

/-- `BareJID`: empty until the session has authenticated. -/
def bareJID (g : Registry) (s : ℕ) : Str := if g.jidLocal s = [] then [] else g.jidLocal s ++ '@' :: g.domain

/-- `addToAll`. -/
def addToAll (g : Registry) (s : ℕ) : Registry := { g with all := g.all ++ [s] }

/-- `Register`. The previous session, which is returned, is `FindByBareJID` before. -/
def register (g : Registry) (s : ℕ) : Registry :=
  { g with
    byBareJID := Function.update g.byBareJID (g.bareJID s) (some s)
    registrations := (g.bareJID s, s) :: g.registrations }

/-- The loop of `Unregister`: the last entry replaces the first one equal to `s`. -/
def swapRemove (s : ℕ) (all : List ℕ) : List ℕ :=
  match all.findIdx? (· = s), all.getLast? with
  | some i, some last => (all.set i last).dropLast
  | _, _ => all

/-- `Unregister`. -/
def unregister (g : Registry) (s : ℕ) : Registry :=
  { g with
    byBareJID :=
      if g.bareJID s ≠ [] ∧ g.byBareJID (g.bareJID s) = some s then Function.update g.byBareJID (g.bareJID s) none
      else g.byBareJID
    all := swapRemove s g.all }

/-- `FindByBareJID`. -/
def findByBareJID (g : Registry) (j : Str) : Option ℕ := g.byBareJID j

end Registry

/-- The steps of the goroutines. The name a session authenticates under is not
empty, as the parser of the credentials makes sure. -/
inductive Op where
  | accept (s : ℕ)
  | authenticate (s : ℕ) (name : Str)
  | register (s : ℕ)
  | unregister (s : ℕ)
deriving DecidableEq, Repr

/-- The step is one the session can take next. -/
def Enabled (g : Registry) : Op → Prop
  | .accept s => g.phase s = .unborn
  | .authenticate s name => g.phase s = .running ∧ g.jidLocal s = [] ∧ name ≠ []
  | .register s => g.phase s = .running ∧ g.jidLocal s ≠ []
  | .unregister s => g.phase s = .running

instance (g : Registry) (op : Op) : Decidable (Enabled g op) := by
  cases op <;> unfold Enabled <;> infer_instance

def perform (g : Registry) : Op → Registry
  | .accept s => { g.addToAll s with phase := Function.update g.phase s .running }
  | .authenticate s name => { g with jidLocal := Function.update g.jidLocal s name }
  | .register s => g.register s
  | .unregister s => { g.unregister s with phase := Function.update g.phase s .gone }

def step (g : Registry) (op : Op) : Registry := if Enabled g op then perform g op else g

def run (g : Registry) (ops : List Op) : Registry := ops.foldl step g

theorem swapRemove_perm (s : ℕ) (all : List ℕ) : (Registry.swapRemove s all).Perm (all.erase s) := by
  unfold Registry.swapRemove
  cases hi : all.findIdx? (· = s) with
  | none =>
      have hs : s ∉ all := by
        intro hm
        have hf := List.findIdx?_eq_none_iff.mp hi s hm
        simp at hf
      rw [List.erase_of_not_mem hs]
  | some i =>
      obtain ⟨hlt, his, hbefore⟩ := List.findIdx?_eq_some_iff_getElem.mp hi
      have his' : all[i] = s := by simpa using his
      have hsplit : all = all.take i ++ s :: all.drop (i + 1) := by
        rw [← his', ← List.drop_eq_getElem_cons hlt, List.take_append_drop]
      have hfresh : s ∉ all.take i := by
        intro hm
        obtain ⟨j, hj, hjs⟩ := List.mem_iff_getElem.mp hm
        rw [List.length_take] at hj
        have hne := hbefore j (by omega)
        rw [List.getElem_take] at hjs
        simp [hjs] at hne
      have hlen : (all.take i).length = i := by
        rw [List.length_take]
        omega
      generalize all.take i = xs at hsplit hfresh hlen
      generalize all.drop (i + 1) = ys at hsplit
      subst hsplit
      rw [List.erase_append_right _ hfresh, List.erase_cons_head]
      rcases List.eq_nil_or_concat ys with rfl | ⟨zs, t, rfl⟩
      · simp [← hlen]
      · have hset : (xs ++ s :: (zs ++ [t])).set i t = xs ++ t :: (zs ++ [t]) := by
          rw [List.set_append_right _ _ (by omega), hlen, Nat.sub_self, List.set_cons_zero]
        have hlast : (xs ++ s :: (zs ++ [t])).getLast? = some t := by
          rw [← List.cons_append, ← List.append_assoc, List.getLast?_concat]
        simp only [List.concat_eq_append, hlast, hset]
        have hdrop : (xs ++ t :: (zs ++ [t])).dropLast = xs ++ t :: zs := by
          rw [List.dropLast_append_of_ne_nil (by simp), ← List.cons_append, List.dropLast_concat]
        rw [hdrop]
        apply List.Perm.append_left
        exact (List.perm_append_singleton t zs).symm

/-- The session that registered last under an address. -/
def mostRecent (g : Registry) (j : Str) : Option ℕ := (g.registrations.find? fun x => x.1 = j).map Prod.snd

/-- The invariant of the registry. -/
structure Sound (g : Registry) : Prop where
  nodup : g.all.Nodup
  listed : ∀ s, s ∈ g.all ↔ g.phase s = .running
  booked : ∀ x ∈ g.registrations, g.bareJID x.2 = x.1 ∧ x.1 ≠ [] ∧ g.phase x.2 ≠ .unborn
  indexed : ∀ j s, g.byBareJID j = some s ↔ mostRecent g j = some s ∧ g.phase s = .running

theorem new_sound (domain : Str) : Sound (Registry.new domain) := by
  constructor
  · exact List.nodup_nil
  · intro s
    simp [Registry.new]
  · intro x hx
    simp [Registry.new] at hx
  · intro j s
    simp [Registry.new, mostRecent]

section
variable {g : Registry}

theorem mostRecent_mem {j : Str} {s : ℕ} (h : mostRecent g j = some s) : (j, s) ∈ g.registrations := by
  obtain ⟨x, hx, hs⟩ := Option.map_eq_some_iff.mp h
  have hj : x.1 = j := by simpa using List.find?_some hx
  have hm := List.mem_of_find?_eq_some hx
  obtain ⟨a, b⟩ := x
  simp only at hj hs
  rw [← hj, ← hs]
  exact hm

theorem Sound.entry (h : Sound g) {j : Str} {s : ℕ} (hj : g.byBareJID j = some s) :
    g.bareJID s = j ∧ j ≠ [] ∧ g.phase s = .running := by
  obtain ⟨hm, hp⟩ := (h.indexed j s).mp hj
  obtain ⟨hb, hne, -⟩ := h.booked (j, s) (mostRecent_mem hm)
  exact ⟨hb, hne, hp⟩

theorem accept_sound (h : Sound g) {s : ℕ} (hs : g.phase s = .unborn) : Sound (perform g (.accept s)) := by
  have hnot : s ∉ g.all := by
    intro hm
    rw [(h.listed s).mp hm] at hs
    cases hs
  constructor
  · change (g.all ++ [s]).Nodup
    rw [List.nodup_append]
    refine ⟨h.nodup, List.nodup_singleton s, ?_⟩
    intro a ha b hb hab
    rw [List.mem_singleton.mp hb] at hab
    exact hnot (hab ▸ ha)
  · intro t
    change t ∈ g.all ++ [s] ↔ Function.update g.phase s .running t = .running
    by_cases ht : t = s
    · simp [ht]
    · simp [ht, h.listed t]
  · intro x hx
    obtain ⟨hb, hne, hu⟩ := h.booked x hx
    refine ⟨hb, hne, ?_⟩
    change Function.update g.phase s .running x.2 ≠ .unborn
    by_cases hxs : x.2 = s
    · simp [hxs]
    · simpa [hxs] using hu
  · intro j t
    change g.byBareJID j = some t ↔ mostRecent g j = some t ∧ Function.update g.phase s .running t = .running
    by_cases ht : t = s
    · subst ht
      constructor
      · intro hj
        rw [(h.entry hj).2.2] at hs
        cases hs
      · intro hm
        exact absurd hs (h.booked (j, t) (mostRecent_mem hm.1)).2.2
    · rw [Function.update_of_ne ht]
      exact h.indexed j t

theorem authenticate_sound (h : Sound g) {s : ℕ} {name : Str} (hl : g.jidLocal s = []) :
    Sound (perform g (.authenticate s name)) := by
  have hother : ∀ t, t ≠ s → (perform g (.authenticate s name)).bareJID t = g.bareJID t := by
    intro t ht
    simp [perform, Registry.bareJID, ht]
  have hempty : g.bareJID s = [] := by simp [Registry.bareJID, hl]
  constructor
  · exact h.nodup
  · exact h.listed
  · intro x hx
    obtain ⟨hb, hne, hu⟩ := h.booked x hx
    have hxs : x.2 ≠ s := by
      intro he
      rw [he, hempty] at hb
      exact hne hb.symm
    exact ⟨(hother x.2 hxs).trans hb, hne, hu⟩
  · exact h.indexed

theorem register_sound (h : Sound g) {s : ℕ} (hp : g.phase s = .running) (hl : g.jidLocal s ≠ []) :
    Sound (perform g (.register s)) := by
  have hne : g.bareJID s ≠ [] := by simp [Registry.bareJID, hl]
  constructor
  · exact h.nodup
  · exact h.listed
  · intro x hx
    rcases List.mem_cons.mp hx with rfl | hx
    · refine ⟨rfl, hne, ?_⟩
      change g.phase s ≠ .unborn
      rw [hp]
      exact Phase.noConfusion
    · exact h.booked x hx
  · intro j t
    change Function.update g.byBareJID (g.bareJID s) (some s) j = some t ↔
      mostRecent (g.register s) j = some t ∧ g.phase t = .running
    by_cases hj : j = g.bareJID s
    · have hm : mostRecent (g.register s) j = some s := by simp [mostRecent, Registry.register, hj]
      rw [hm, hj, Function.update_self]
      constructor
      · intro he
        rw [← Option.some.inj he]
        exact ⟨rfl, hp⟩
      · exact fun he => he.1
    · have hm : mostRecent (g.register s) j = mostRecent g j := by
        simp [mostRecent, Registry.register, Ne.symm hj]
      rw [hm, Function.update_of_ne hj]
      exact h.indexed j t

theorem unregister_sound (h : Sound g) {s : ℕ} (hp : g.phase s = .running) :
    Sound (perform g (.unregister s)) := by
  have hperm := swapRemove_perm s g.all
  constructor
  · exact hperm.nodup_iff.mpr (h.nodup.erase s)
  · intro t
    change t ∈ Registry.swapRemove s g.all ↔ Function.update g.phase s .gone t = .running
    rw [hperm.mem_iff, h.nodup.mem_erase_iff]
    by_cases ht : t = s
    · simp [ht]
    · simp [ht, h.listed t]
  · intro x hx
    obtain ⟨hb, hne, hu⟩ := h.booked x hx
    refine ⟨hb, hne, ?_⟩
    change Function.update g.phase s .gone x.2 ≠ .unborn
    by_cases hxs : x.2 = s
    · simp [hxs]
    · simpa [hxs] using hu
  · intro j t
    change (if g.bareJID s ≠ [] ∧ g.byBareJID (g.bareJID s) = some s
        then Function.update g.byBareJID (g.bareJID s) none else g.byBareJID) j = some t ↔
      mostRecent g j = some t ∧ Function.update g.phase s .gone t = .running
    by_cases hmine : g.byBareJID j = some s
    · obtain ⟨hb, hne, -⟩ := h.entry hmine
      have hcond : g.bareJID s ≠ [] ∧ g.byBareJID (g.bareJID s) = some s := by
        rw [hb]
        exact ⟨hne, hmine⟩
      have hm := ((h.indexed j s).mp hmine).1
      rw [if_pos hcond, hb, Function.update_self, hm]
      constructor
      · intro he
        cases he
      · intro he
        obtain ⟨hst, hg⟩ := he
        rw [← Option.some.inj hst, Function.update_self] at hg
        cases hg
    · have hsame : (if g.bareJID s ≠ [] ∧ g.byBareJID (g.bareJID s) = some s
          then Function.update g.byBareJID (g.bareJID s) none else g.byBareJID) j = g.byBareJID j := by
        split
        · next hc =>
          have hj : j ≠ g.bareJID s := by
            intro he
            rw [he] at hmine
            exact hmine hc.2
          exact Function.update_of_ne hj _ _
        · rfl
      rw [hsame, h.indexed j t]
      by_cases ht : t = s
      · subst ht
        constructor
        · intro he
          exact absurd ((h.indexed j t).mpr he) hmine
        · intro he
          rw [Function.update_self] at he
          cases he.2
      · rw [Function.update_of_ne ht]

theorem step_sound (h : Sound g) (op : Op) : Sound (step g op) := by
  unfold step
  split
  · next he =>
    cases op with
    | accept s => exact accept_sound h he
    | authenticate s name => exact authenticate_sound h he.2.1
    | register s => exact register_sound h he.1 he.2
    | unregister s => exact unregister_sound h he
  · exact h

theorem run_sound (h : Sound g) (ops : List Op) : Sound (run g ops) := by
  induction ops generalizing g with
  | nil => exact h
  | cons op ops ih => exact ih (step_sound h op)

end

end Xmppd.GoRegistry
