import Xmppd.GoMonitor

/-!
# Entries of the registry

Whatever is delivered to an address goes to the session that the registry has for it. In
every run that session belongs to a goroutine that has shown the password of the user of the
address, and that has not left the registry.
-/
namespace Xmppd.GoRegistered
open CStrings GoXml Programs Program GoSession GoStanza GoWorld GoReachable GoMonitor Monitors

/-- An entry is the address under which its goroutine registered last, which shows the
password of its user and has not left. -/
def Registered (domain : Str) (standings : ℕ → Standing) (w : World) : Prop :=
  ∀ jid i, w.registry jid = some i →
    (standings i).proven = true ∧ (standings i).gone = false ∧ jid = addressOf domain (standings i).user ∧ w.jid i = jid

section
variable {isPrint : Char → Bool} {outside : ℕ → (c : Call) → Result c} {domain : Str} {standings : ℕ → Standing}
  {w : World} {i : ℕ}

/-- Calls other than those on the registry leave its entries. -/
theorem answer_registry (isPrint : Char → Bool) (outside : ℕ → (c : Call) → Result c) (i : ℕ) (w : World) {c : Call}
    (hregister : ∀ j, c ≠ .register j) (hunregister : c ≠ .unregister) :
    (answer isPrint outside i c w).2.registry = w.registry ∧ (answer isPrint outside i c w).2.jid = w.jid := by
  cases c with
  | register j => exact absurd rfl (hregister j)
  | unregister => exact absurd rfl hunregister
  | create u x =>
      change (if outside w.clock (.create u x) = .ok then _ else w).registry = _ ∧
        (if outside w.clock (.create u x) = .ok then _ else w).jid = _
      split <;> exact ⟨rfl, rfl⟩
  | _ => exact ⟨rfl, rfl⟩

theorem call_registered (h : Registered domain standings w) {c : Call} (hc : (monitor domain i).allows (standings i) c) :
    Registered domain
      (Function.update standings i ((monitor domain i).after (standings i) c (answer isPrint outside i c w).1))
      (answer isPrint outside i c w).2 := by
  intro jid k hjid
  by_cases hunregister : c = .unregister
  · subst hunregister
    have hleft : w.registry jid = some k ∧ k ≠ i ∧ (answer isPrint outside i .unregister w).2.jid = w.jid := by
      change (if w.registry (w.jid i) = some i then _ else w).registry jid = some k at hjid
      change _ ∧ _ ∧ (if w.registry (w.jid i) = some i then _ else w).jid = w.jid
      split at hjid
      · next hown =>
        rw [if_pos hown]
        have hne : jid ≠ w.jid i := by
          rintro rfl
          simp at hjid
        change Function.update w.registry (w.jid i) none jid = some k at hjid
        rw [Function.update_of_ne hne] at hjid
        refine ⟨hjid, ?_, rfl⟩
        rintro rfl
        exact hne (h jid k hjid).2.2.2.symm
      · next hown =>
        rw [if_neg hown]
        refine ⟨hjid, ?_, rfl⟩
        rintro rfl
        apply hown
        rw [(h jid k hjid).2.2.2]
        exact hjid
    rw [Function.update_of_ne hleft.2.1, hleft.2.2]
    exact h jid k hleft.1
  by_cases hregister : ∃ j, c = .register j
  · obtain ⟨j, rfl⟩ := hregister
    have hstanding : (monitor domain i).after (standings i) (.register j) (answer isPrint outside i (.register j) w).1 =
        standings i := by
      cases hs : standings i with
      | mk user proven gone held seen fresh => cases held <;> rfl
    rw [hstanding, Function.update_eq_self]
    change Function.update w.registry j (some i) jid = some k at hjid
    change _ ∧ _ ∧ _ ∧ Function.update w.jid i j k = jid
    by_cases hj : jid = j
    · subst hj
      rw [Function.update_self] at hjid
      cases hjid
      exact ⟨hc.1, hc.2.1, hc.2.2, Function.update_self _ _ _⟩
    · rw [Function.update_of_ne hj] at hjid
      obtain ⟨hproven, hgone, haddress, hlast⟩ := h jid k hjid
      have hk : k ≠ i := by
        rintro rfl
        exact hj (haddress.trans hc.2.2.symm)
      rw [Function.update_of_ne hk]
      exact ⟨hproven, hgone, haddress, hlast⟩
  · obtain ⟨hregistry, hlast⟩ :=
      answer_registry isPrint outside i w (fun j hj => hregister ⟨j, hj⟩) hunregister
    rw [hregistry] at hjid
    rw [hlast]
    by_cases hk : k = i
    · subst hk
      rw [Function.update_self]
      obtain ⟨hproven, hgone, haddress, hown⟩ := h jid k hjid
      obtain ⟨hknown, hkept⟩ := after_known domain k (standings k) c (answer isPrint outside k c w).1
      rcases hknown with ⟨hp, hu⟩ | ⟨password, he⟩
      · rw [hp, hu, hkept hunregister]
        exact ⟨hproven, hgone, haddress, hown⟩
      · have hcall : c = .checkPassword _ password := congrArg Sigma.fst he
        rw [hcall] at hc
        exact absurd (hproven.symm.trans hc.1) (by decide)
    · rw [Function.update_of_ne hk]
      exact h jid k hjid

theorem step_registered {m : Machine} {e : Event} (hw : Watched domain i (standings i) (m.threads i))
    (h : Registered domain standings m.world) :
    Registered domain (Function.update standings i ((monitor domain i).final (standings i) (made isPrint outside m i e)))
      (step isPrint outside domain m i e).world := by
  obtain ⟨haccepts, -⟩ := step_watched isPrint outside hw e
  rw [step_world]
  rw [made_eq] at haccepts ⊢
  cases hc : requested (m.threads i) e with
  | none =>
      rw [Option.toList_none, List.map_nil, Monitor.final, List.foldl_nil, Function.update_eq_self]
      exact h
  | some c =>
      rw [hc] at haccepts
      exact call_registered h haccepts.1

/-- The standings of all goroutines, and what is left to do, along a run. -/
theorem run_registered (events : List (ℕ × Event)) : ∀ (m : Machine) (standings : ℕ → Standing),
    (∀ i, Watched domain i (standings i) (m.threads i)) → Registered domain standings m.world →
    Registered domain (fun i => (monitor domain i).final (standings i) (calls isPrint outside domain i m events))
      (run isPrint outside domain m events).world := by
  induction events with
  | nil => exact fun _ _ _ h => h
  | cons x xs ih =>
      intro m standings hw h
      have hnext := ih (step isPrint outside domain m x.1 x.2)
        (Function.update standings x.1 ((monitor domain x.1).final (standings x.1) (made isPrint outside m x.1 x.2)))
        (by
          intro i
          by_cases hi : i = x.1
          · rw [hi, Function.update_self]
            exact (step_watched isPrint outside (hw x.1) x.2).2
          · rw [Function.update_of_ne hi, step_threads_other x.2 hi]
            exact hw i)
        (step_registered (hw x.1) h)
      have hfinal : ∀ i, (monitor domain i).final (standings i) (calls isPrint outside domain i m (x :: xs)) =
          (monitor domain i).final
            (Function.update standings x.1 ((monitor domain x.1).final (standings x.1) (made isPrint outside m x.1 x.2)) i)
            (calls isPrint outside domain i (step isPrint outside domain m x.1 x.2) xs) := by
        intro i
        rw [calls, Monitor.final, List.foldl_append]
        by_cases hi : i = x.1
        · subst hi
          rw [if_pos rfl, Function.update_self]
          rfl
        · rw [if_neg (Ne.symm hi), Function.update_of_ne hi]
          rfl
      simp only [hfinal]
      exact hnext

end

/-- In every run the session that is found for an address belongs to a goroutine that has
shown the password of the user of this address, and that has not left the registry. -/
theorem registry_proven (isPrint : Char → Bool) (outside : ℕ → (c : Call) → Result c) (domain : Str) (w : World)
    (events : List (ℕ × Event)) (jid : Str) (i : ℕ)
    (h : (run isPrint outside domain (start domain w) events).world.registry jid = some i) :
    (∃ user password, jid = addressOf domain user ∧
        ⟨.checkPassword user password, true⟩ ∈ calls isPrint outside domain i (start domain w) events) ∧
      ⟨.unregister, ()⟩ ∉ calls isPrint outside domain i (start domain w) events := by
  have hnew : Registered domain (fun _ => {}) (start domain w).world := by
    rintro jid i ⟨⟩
  obtain ⟨hproven, hgone, haddress, -⟩ := run_registered events (start domain w) _ (fun i => watched_new i domain) hnew jid i h
  constructor
  · rcases final_shown domain i (calls isPrint outside domain i (start domain w) events) with
      ⟨hnot, -⟩ | ⟨password, hmem⟩
    · exact absurd (hproven.symm.trans hnot) (by decide)
    · exact ⟨_, password, haddress, hmem⟩
  · intro hleft
    exact absurd ((final_gone hleft).symm.trans hgone) (by decide)

set_option maxRecDepth 20000 in
theorem loggedIn_registered : (after loggedIn).world.registry "a@x" = some 0 ∧
    (∃ user password, ("a@x" : Str) = addressOf "x" user ∧ ⟨.checkPassword user password, true⟩ ∈
        calls GoRosterFile.printable plainOutside "x" 0 (start "x" nothing) (handled loggedIn)) ∧
      ⟨.unregister, ()⟩ ∉ calls GoRosterFile.printable plainOutside "x" 0 (start "x" nothing) (handled loggedIn) := by
  have h : (after loggedIn).world.registry "a@x" = some 0 := by decide +kernel
  exact ⟨h, registry_proven GoRosterFile.printable plainOutside "x" nothing (handled loggedIn) "a@x" 0 h⟩

end Xmppd.GoRegistered
