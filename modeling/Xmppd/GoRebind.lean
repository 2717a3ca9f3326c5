import Xmppd.GoReachable

/-!
# Binding twice

`Register` returns the session that was stored for the address before, and `handleBind`
throws that session out. It does not ask whether that is the session that binds. A second
bind is refused as long as the session is bound, but a stream header makes it one whose
stream was opened again.
-/
namespace Xmppd.GoRebind
open CStrings GoXml Programs Program GoSession GoPresence GoStanza GoCalls GoWorld GoReachable

/-- The call closes connection `i`. -/
def closes (i : ℕ) : Call → Bool
  | .close t => t = i
  | _ => false

/-- The call sends the conflict error to connection `i`. -/
def reports (i : ℕ) : Call → Bool
  | .send t (.text x) => t = i ∧ x = conflictError
  | _ => false

/-- The step throws session `i` out: its connection is closed while an element is handled, or
it is sent the conflict error, and not because a file that is delivered says so. -/
def kicks (i : ℕ) (m : Machine) (j : ℕ) : Event → Bool
  | .call =>
      match m.threads j with
      | .handling _ (.call c _) => closes i c || reports i c && (m.world.reading j).isNone
      | .leaving (.call c _) => reports i c && (m.world.reading j).isNone
      | _ => false
  | _ => false

/-- No other session has an address under which session `i` registered. -/
def Alone (i : ℕ) (m : Machine) : Prop :=
  ∀ jid, (jid, i) ∈ m.registrations → ∀ k, k ≠ i → ∀ s, (m.threads k).fields = some s → s.bareJID ≠ jid

/-- The fields of a session that waits for an element. -/
def idle : Thread → Option Session
  | .reading s => some s
  | _ => none

/-- Session `i` does not bind while it is the one in the registry. -/
def Once (i : ℕ) (m : Machine) (j : ℕ) : Event → Prop
  | .read n => j = i → ∀ s ∈ idle (m.threads i), Binds s n → m.world.registry s.bareJID ≠ some i
  | _ => True

instance (i : ℕ) (m : Machine) (j : ℕ) (e : Event) : Decidable (Once i m j e) :=
  match e with
  | .read _ => inferInstanceAs (Decidable (j = i → ∀ s ∈ idle (m.threads i), _))
  | .fail | .call => isTrue trivial

section
variable (isPrint : Char → Bool) (outside : ℕ → (c : Call) → Result c) (domain : Str)

/-- Every event of the run comes where the condition holds. -/
def Throughout (φ : Machine → ℕ → Event → Prop) : Machine → List (ℕ × Event) → Prop
  | _, [] => True
  | m, x :: xs => φ m x.1 x.2 ∧ Throughout φ (step isPrint outside domain m x.1 x.2) xs

instance decidableThroughout (φ : Machine → ℕ → Event → Prop) [∀ m j e, Decidable (φ m j e)] :
    (m : Machine) → (events : List (ℕ × Event)) → Decidable (Throughout isPrint outside domain φ m events)
  | _, [] => isTrue trivial
  | m, x :: xs => @instDecidableAnd _ _ _ (decidableThroughout φ (step isPrint outside domain m x.1 x.2) xs)

end

/-- The server at its start, with no delivery under way. -/
def begin (domain : Str) (w : World) : Machine := start domain { w with reading := fun _ => none }

/-! ## What a handler does to the session -/

/-- An address that may still be registered: there is one bind in the handling of an element. -/
def left (o : Option Str) : Call → Option Str
  | .register _ => none
  | _ => o

/-- Whether a file is being delivered after the call. -/
def held (b : Bool) : (c : Call) → Result c → Bool
  | .readFile _ _, r => r.isSome
  | .remove _ _, _ => false
  | _, _ => b

/-- The registry does not give session `i` to the one that registers. -/
def Elsewhere (i : ℕ) : (c : Call) → Result c → Prop
  | .register _, r => r ≠ some i
  | _, _ => True

/-- Session `i` is not thrown out, if a registration does not find it: which addresses are
registered, and whether a file is being delivered, is kept track of. -/
def Spares (i : ℕ) {A : Type} : Option Str → Bool → Handler A → Prop
  | _, _, .done _ => True
  | o, b, .call c next =>
      closes i c = false ∧ (b = false → reports i c = false) ∧ (∀ jid, c = .register jid → o = some jid) ∧
        ∀ r, Elsewhere i c r → Spares i (left o c) (held b c r) (next r)

section
variable {i self : ℕ} {A B : Type} {domain : Str} {s : Session} {n : XmlNode} {o : Option Str} {b : Bool}

theorem plain_closes {c : Call} (h : Plain c) : closes i c = false := by
  cases c with
  | close t => cases h
  | _ => rfl

theorem plain_reports {c : Call} (h : Plain c) : reports i c = false := by
  cases c with
  | send t d =>
      cases d with
      | text x => exact decide_eq_false fun hx => h hx.2
      | node n => rfl
  | _ => rfl

theorem plain_registers {c : Call} (h : Plain c) {jid : Str} : c ≠ .register jid := by
  rintro rfl
  exact h

theorem spares_of_plain {p : Handler A} {Q : A → Prop} (h : Ensures Plain p Q) (o : Option Str) (b : Bool) : Spares i o b p := by
  induction p generalizing o b with
  | done a => trivial
  | call c next ih =>
      exact ⟨plain_closes h.1, fun _ => plain_reports h.1, fun jid hc => absurd hc (plain_registers h.1),
        fun r _ => ih r (h.2 r) _ _⟩

theorem spares_bind {p : Handler A} {f : A → Handler B} (h : Spares i o b p) (hf : ∀ a o b, Spares i o b (f a)) :
    Spares i o b (p >>= f) := by
  induction p generalizing o b with
  | done a => exact hf a o b
  | call c next ih => exact ⟨h.1, h.2.1, h.2.2.1, fun r hr => ih r (h.2.2.2 r hr)⟩

theorem spares_forM {X : Type} {f : X → Handler Unit} {l : List X} (h : ∀ x ∈ l, ∀ o b, Spares i o b (f x)) :
    Spares i o b (l.forM f) := by
  induction l generalizing o b with
  | nil => trivial
  | cons x xs ih =>
      apply spares_bind (h x List.mem_cons_self o b)
      exact fun _ o b => ih fun y hy => h y (List.mem_cons_of_mem x hy)

theorem deliverFile_spares {user name : Str} : Spares i o b (GoMessage.deliverFile self user name) := by
  refine ⟨rfl, fun _ => rfl, fun _ => Call.noConfusion, ?_⟩
  intro data _
  cases data with
  | none => exact spares_of_plain (p := remove user name) (Q := fun _ => True) ⟨trivial, fun _ => trivial⟩ _ _
  | some data =>
      refine ⟨rfl, ?_, fun _ => Call.noConfusion, ?_⟩
      · rintro ⟨⟩
      · exact fun _ _ => spares_of_plain (p := remove user name) (Q := fun _ => True) ⟨trivial, fun _ => trivial⟩ _ _

theorem deliverOffline_spares {user : Str} : Spares i o b (GoMessage.deliverOffline self user) := by
  refine ⟨rfl, fun _ => rfl, fun _ => Call.noConfusion, ?_⟩
  intro entries _
  cases entries with
  | none => trivial
  | some entries => exact spares_forM fun name _ _ _ => deliverFile_spares

theorem handleAvailable_spares : Spares i o b (handleAvailable self s n) := by
  unfold handleAvailable
  dsimp only
  apply spares_bind (spares_of_plain ensureLoaded_plain o b)
  intro r o b
  apply spares_bind (spares_forM fun _ _ o b => spares_of_plain sendAvailable_plain o b)
  intro _ o b
  apply spares_bind (spares_of_plain (p := rosterOf self) (Q := fun _ => True) ⟨trivial, fun _ => trivial⟩ o b)
  intro r o b
  apply spares_bind (spares_forM fun _ _ o b => spares_of_plain receiveAvailable_plain o b)
  intro _ o b
  split
  · apply spares_bind deliverOffline_spares
    intro _ o b
    apply spares_bind (spares_of_plain redeliverPendingSubscribes_plain o b)
    exact fun _ _ _ => trivial
  · trivial

theorem bindNew_spares {resource : Str} : Spares i (some s.bareJID) b (bindNew self s n resource) := by
  refine ⟨rfl, fun _ => rfl, ?_, ?_⟩
  · rintro jid ⟨⟩
    rfl
  · intro old hold
    have hresult : Ensures Plain (sendText self (("<iq type='result'" : Str) ++ optAttr "id" (n.attr "id") ++
        ("><bind xmlns='urn:ietf:params:xml:ns:xmpp-bind'><jid>" : Str) ++
        escapeText (Session.fullJID { s with jidResource := resource, state := .bound }) ++ ("</jid></bind></iq>" : Str)) >>=
        fun _ => (pure ({ s with jidResource := resource, state := .bound }, .ok) : Handler (Session × RouteResult)))
        fun _ => True :=
      sendText_plain (plain_text "<i" rfl (by decide)) trivial
    cases old with
    | none => exact spares_of_plain hresult _ _
    | some t =>
        have ht : t ≠ i := fun he => hold (congrArg some he)
        refine ⟨rfl, fun _ => decide_eq_false fun hx => ht hx.1, fun _ => Call.noConfusion, fun _ _ => ?_⟩
        refine ⟨decide_eq_false ht, fun _ => rfl, fun _ => Call.noConfusion, fun _ _ => ?_⟩
        exact spares_of_plain hresult _ _

/-- The handling of an element throws session `i` out only if a bind finds it. -/
theorem dispatch_spares (ho : Binds s n → o = some s.bareJID) : Spares i o b (dispatch domain self s n) := by
  by_cases hbind : Binds s n
  · rw [dispatch_binds hbind, ho hbind]
    split
    · exact ⟨rfl, fun _ => rfl, fun _ => Call.noConfusion, fun _ _ => bindNew_spares⟩
    · exact bindNew_spares
  by_cases hpresence : n.name = "presence" ∧ n.attr "type" = []
  · obtain ⟨hname, htype⟩ := hpresence
    have hopen : n.isStreamOpen = false := by
      unfold XmlNode.isStreamOpen
      rw [hname]
      rfl
    have hiq : ¬n.name = "iq" := by
      rw [hname]
      decide
    have hmessage : ¬n.name = "message" := by
      rw [hname]
      decide
    rw [dispatch, hopen, if_neg Bool.false_ne_true, route]
    split
    · exact spares_of_plain routeBeforeAuth_plain _ _
    split
    · rw [GoPresence.handle, if_pos htype]
      exact spares_bind handleAvailable_spares fun _ _ _ => trivial
    · exact spares_of_plain unauthorized_plain _ _
  · exact spares_of_plain (dispatch_plain hbind hpresence) _ _

end

/-! ## What a step does -/

section
variable {isPrint : Char → Bool} {outside : ℕ → (c : Call) → Result c} {domain : Str} {m : Machine} {w : World} {i j k : ℕ}
  {c : Call} {e : Event}

theorem reading_answer : ((answer isPrint outside k c w).2.reading k).isSome =
    held (w.reading k).isSome c (answer isPrint outside k c w).1 := by
  cases c with
  | readFile user name =>
      change (Function.update w.reading k _ k).isSome = _
      rw [Function.update_self, Option.isSome_map]
      rfl
  | remove user name =>
      change (Function.update w.reading k none k).isSome = false
      rw [Function.update_self]
      rfl
  | unregister =>
      change ((if w.registry (w.jid k) = some k then _ else w).reading k).isSome = (w.reading k).isSome
      split <;> rfl
  | create user password =>
      change ((if outside w.clock (.create user password) = .ok then _ else w).reading k).isSome = (w.reading k).isSome
      split <;> rfl
  | _ => rfl

theorem reading_other (h : k ≠ j) : (answer isPrint outside j c w).2.reading k = w.reading k := by
  cases c with
  | readFile user name => exact Function.update_of_ne h _ _
  | remove user name => exact Function.update_of_ne h _ _
  | unregister =>
      change (if w.registry (w.jid j) = some j then _ else w).reading k = w.reading k
      split <;> rfl
  | create user password =>
      change (if outside w.clock (.create user password) = .ok then _ else w).reading k = w.reading k
      split <;> rfl
  | _ => rfl

/-- A session comes into the registry by registering. -/
theorem registry_gained {jid : Str} (h : (answer isPrint outside j c w).2.registry jid = some i) :
    w.registry jid = some i ∨ c = .register jid ∧ j = i := by
  by_cases hc : c = .register jid
  · subst hc
    change Function.update w.registry jid (some j) jid = some i at h
    rw [Function.update_self] at h
    exact Or.inr ⟨rfl, Option.some.inj h⟩
  by_cases hu : c = .unregister
  · subst hu
    change (if w.registry (w.jid j) = some j then _ else w).registry jid = some i at h
    split at h
    · by_cases hjid : jid = w.jid j
      · rw [hjid] at h
        cases (Function.update_self _ _ _).symm.trans h
      · exact Or.inl ((Function.update_of_ne hjid _ _).symm.trans h)
    · exact Or.inl h
  · exact Or.inl ((registry_answer hu hc).symm.trans h)

/-- A session is in the registry until it leaves or another one registers. -/
theorem registry_kept {jid : Str} (h : w.registry jid = some i) (hu : j = i → c ≠ .unregister)
    (hr : j ≠ i → c ≠ .register jid) : (answer isPrint outside j c w).2.registry jid = some i := by
  by_cases hc : c = .register jid
  · subst hc
    have hji : j = i := by
      by_contra hne
      exact hr hne rfl
    rw [← hji]
    exact Function.update_self _ _ _
  by_cases hun : c = .unregister
  · subst hun
    rw [registry_unregister, h]
    rw [h]
    exact fun hi => hu (Option.some.inj hi).symm rfl
  · exact (registry_answer hun hc).trans h

/-- What is left of a goroutine, as far as session `i` goes: it registers its own address, if
that is free, and spares the session. -/
def Mild (i : ℕ) (free : Str → Prop) (b : Bool) : Thread → Prop
  | .reading _ => True
  | .handling s p => ∃ o, (∀ jid, o = some jid → jid = s.bareJID ∧ free jid) ∧ Spares i o b p
  | .leaving p => Ensures (fun c => reports i c = false ∧ ∀ jid, c ≠ .register jid) p fun _ => True

theorem leave_mild {s : Session} {free : Str → Prop} {b : Bool} : Mild i free b (.leaving (leave k s)) := by
  have hplain : ∀ c, Plain c → reports i c = false ∧ ∀ jid, c ≠ .register jid :=
    fun c hc => ⟨plain_reports hc, fun jid => plain_registers hc⟩
  simp only [Mild, leave, ensures_bind, ensures_unregister]
  refine ⟨⟨rfl, fun _ => Call.noConfusion⟩, ?_⟩
  apply (broadcastUnavailable_plain (Q := fun _ => True) fun _ _ => trivial).mono hplain
  exact fun _ _ => ensures_close.mpr ⟨⟨rfl, fun _ => Call.noConfusion⟩, trivial⟩

/-- The own step of a goroutine. -/
theorem mild_step (h : Mild i (fun jid => m.world.registry jid ≠ some i) (m.world.reading k).isSome (m.threads k))
    (hread : ∀ n s, e = .read n → m.threads k = .reading s → Binds s n → m.world.registry s.bareJID ≠ some i) :
    Mild i (fun jid => (step isPrint outside domain m k e).world.registry jid ≠ some i)
      ((step isPrint outside domain m k e).world.reading k).isSome ((step isPrint outside domain m k e).threads k) := by
  unfold step
  split
  · next n s hs =>
    simp only [Machine.goto, Function.update_self]
    by_cases hbind : Binds s n
    · refine ⟨some s.bareJID, ?_, dispatch_spares fun _ => rfl⟩
      rintro jid ⟨⟩
      exact ⟨rfl, hread n s rfl hs hbind⟩
    · refine ⟨none, ?_, dispatch_spares fun hb => absurd hb hbind⟩
      rintro jid ⟨⟩
  · next s hs =>
    simp only [Machine.goto, Function.update_self]
    exact leave_mild
  · next s c next hs =>
    rw [hs] at h
    obtain ⟨o, ho, -, -, hregister, hnext⟩ := h
    simp only [Machine.perform, Function.update_self, reading_answer]
    refine ⟨left o c, ?_, hnext _ ?_⟩
    · intro jid hjid
      have hsame : left o c = o := by
        cases c with
        | register j => cases hjid
        | _ => rfl
      rw [hsame] at hjid
      refine ⟨(ho jid hjid).1, fun hgained => ?_⟩
      rcases registry_gained hgained with hold | ⟨rfl, -⟩
      · exact (ho jid hjid).2 hold
      · rw [← hsame] at hjid
        cases hjid
    · cases c with
      | register jid => exact (ho jid (hregister jid rfl)).2
      | _ => trivial
  · next s x hs =>
    simp only [Machine.goto, Function.update_self]
    unfold afterElement
    split
    · exact leave_mild
    · trivial
  · next c next hs =>
    rw [hs] at h
    simp only [Machine.perform, Function.update_self]
    exact h.2 _
  · cases hk : m.threads k with
    | reading s => trivial
    | handling s p =>
        rw [hk] at h
        exact h
    | leaving p =>
        rw [hk] at h
        exact h

theorem kicks_mild {free : Str → Prop} (h : Mild i free (m.world.reading j).isSome (m.threads j)) : kicks i m j e = false := by
  unfold kicks
  split
  · split
    · next s c next hs =>
      rw [hs] at h
      obtain ⟨o, -, hclose, hreport, -⟩ := h
      rw [hclose, Bool.false_or]
      cases hreading : m.world.reading j with
      | none =>
          rw [hreading] at hreport
          rw [hreport rfl]
          rfl
      | some name => exact Bool.and_false _
    · next c next hs =>
      rw [hs] at h
      rw [h.1.1]
      rfl
    · rfl
  · rfl

/-! ## Runs -/

/-- A step of another goroutine. -/
theorem step_other (h : k ≠ j) :
    (step isPrint outside domain m j e).threads k = m.threads k ∧
      (step isPrint outside domain m j e).world.reading k = m.world.reading k := by
  unfold step
  split
  · exact ⟨Function.update_of_ne h _ _, rfl⟩
  · exact ⟨Function.update_of_ne h _ _, rfl⟩
  · exact ⟨Function.update_of_ne h _ _, reading_other h⟩
  · exact ⟨Function.update_of_ne h _ _, rfl⟩
  · exact ⟨Function.update_of_ne h _ _, reading_other h⟩
  · exact ⟨rfl, rfl⟩

variable (isPrint outside domain m j e) in
/-- What a step does to the registry: nothing, or what the next call of the goroutine does. -/
theorem step_registry :
    ((step isPrint outside domain m j e).world = m.world ∧
        (step isPrint outside domain m j e).registrations = m.registrations) ∨
      ∃ c, (step isPrint outside domain m j e).world = (answer isPrint outside j c m.world).2 ∧
        (step isPrint outside domain m j e).registrations = noted j c m.registrations ∧
        ((∃ s next, m.threads j = .handling s (.call c next)) ∨ ∃ next, m.threads j = .leaving (.call c next)) := by
  unfold step
  split
  · exact Or.inl ⟨rfl, rfl⟩
  · exact Or.inl ⟨rfl, rfl⟩
  · next s c next hs => exact Or.inr ⟨c, rfl, rfl, Or.inl ⟨s, next, hs⟩⟩
  · exact Or.inl ⟨rfl, rfl⟩
  · next c next hs => exact Or.inr ⟨c, rfl, rfl, Or.inr ⟨next, hs⟩⟩
  · exact Or.inl ⟨rfl, rfl⟩

/-- What holds of the goroutines of the others. -/
structure Others (i : ℕ) (m : Machine) : Prop where
  listed : ∀ jid, m.world.registry jid = some i → (jid, i) ∈ m.registrations
  mild : ∀ k, k ≠ i → Mild i (fun _ => True) (m.world.reading k).isSome (m.threads k)

/-- What holds of the goroutine of session `i`: an address it may still register is free. -/
def Own (i : ℕ) (m : Machine) : Prop :=
  Mild i (fun jid => m.world.registry jid ≠ some i) (m.world.reading i).isSome (m.threads i)

theorem Mild.imp {free free' : Str → Prop} {b : Bool} {t : Thread} (h : Mild i free b t)
    (hfree : ∀ s jid, t.fields = some s → jid = s.bareJID → free jid → free' jid) : Mild i free' b t := by
  cases t with
  | reading s => trivial
  | handling s p =>
      obtain ⟨o, ho, hp⟩ := h
      exact ⟨o, fun jid hjid => ⟨(ho jid hjid).1, hfree s jid rfl (ho jid hjid).1 (ho jid hjid).2⟩, hp⟩
  | leaving p => exact h

/-- The address of another session is not registered for session `i`. -/
theorem Others.free (h : Others i m) (ha : Alone i m) (hk : k ≠ i) {s : Session} (hs : (m.threads k).fields = some s) :
    m.world.registry s.bareJID ≠ some i :=
  fun hreg => ha s.bareJID (h.listed _ hreg) k hk s hs rfl

theorem others_step (h : Others i m) (ha : Alone i m) : Others i (step isPrint outside domain m j e) := by
  constructor
  · intro jid hreg
    rcases step_registry isPrint outside domain m j e with ⟨hworld, hlist⟩ | ⟨c, hworld, hlist, -⟩
    · rw [hworld] at hreg
      rw [hlist]
      exact h.listed jid hreg
    · rw [hworld] at hreg
      rw [hlist, mem_noted]
      exact (registry_gained hreg).elim (fun hold => Or.inr (h.listed jid hold)) fun hnew => Or.inl ⟨hnew.1, hnew.2.symm⟩
  · intro k hk
    by_cases hkj : k = j
    · subst hkj
      have hfree : Mild i (fun jid => m.world.registry jid ≠ some i) (m.world.reading k).isSome (m.threads k) := by
        apply (h.mild k hk).imp
        rintro s jid hs rfl -
        exact h.free ha hk hs
      apply (mild_step hfree _).imp fun _ _ _ _ _ => trivial
      intro n s _ hs _
      exact h.free ha hk (by rw [hs]; rfl)
    · rw [(step_other hkj).1, (step_other hkj).2]
      exact h.mild k hk

theorem own_step (ho : Own i m) (honce : Once i m j e) :
    Own i (step isPrint outside domain m j e) := by
  by_cases hij : i = j
  · subst hij
    apply mild_step ho
    rintro n s rfl hs hbind
    exact honce rfl s (by rw [hs]; rfl) hbind
  · unfold Own
    rw [(step_other hij).1, (step_other hij).2]
    apply Mild.imp ho
    intro s jid _ _ hfree hreg
    rcases step_registry isPrint outside domain m j e with ⟨hworld, -⟩ | ⟨c, hworld, -, -⟩
    · rw [hworld] at hreg
      exact hfree hreg
    · rw [hworld] at hreg
      exact (registry_gained hreg).elim hfree fun hnew => hij hnew.2.symm

theorem begin_others (w : World) : Others i (begin domain w) := by
  refine ⟨?_, fun _ _ => trivial⟩
  rintro jid ⟨⟩

/-- No goroutine throws the session out. -/
theorem kicks_none (h : Others i m) (ho : Own i m) : kicks i m j e = false := by
  by_cases hji : j = i
  · subst hji
    exact kicks_mild ho
  · exact kicks_mild (h.mild j hji)

theorem run_spared (events : List (ℕ × Event)) : ∀ m, Others i m → Own i m →
    Throughout isPrint outside domain (fun m _ _ => Alone i m) m events →
    Throughout isPrint outside domain (Once i) m events →
    Throughout isPrint outside domain (fun m j e => kicks i m j e = false) m events := by
  induction events with
  | nil => exact fun _ _ _ _ _ => trivial
  | cons x xs ih =>
      intro m h ho ha honce
      exact ⟨kicks_none h ho, ih _ (others_step h ha.1) (own_step ho honce.1) ha.2 honce.2⟩

/-! ## A second bind -/

/-- The calls of a session that registers its address again. -/
def Rebinding (jid : Str) (c : Call) : Prop := c ≠ .unregister ∧ ∀ j, c = .register j → j = jid

/-- The registry gives session `i` to the one that registers. -/
def Found (i : ℕ) : (c : Call) → Result c → Prop
  | .register _, r => r = some i
  | _, _ => True

/-- The point at which the connection is closed. -/
def Closing (i : ℕ) {A : Type} (p : Handler A) : Prop := ∃ next, p = .call (.close i) next

theorem bindNew_leads {s : Session} {n : XmlNode} {resource : Str} :
    Leads (Rebinding s.bareJID) (Found i) (Closing i) (bindNew k s n resource) := by
  refine .call ⟨Call.noConfusion, ?_⟩ ?_
  · rintro j ⟨⟩
    rfl
  · rintro old rfl
    exact .call ⟨Call.noConfusion, fun _ => Call.noConfusion⟩ fun _ _ => .here ⟨_, rfl⟩

theorem dispatch_leads {s : Session} {n : XmlNode} (h : Binds s n) :
    Leads (Rebinding s.bareJID) (Found i) (Closing i) (dispatch domain k s n) := by
  rw [dispatch_binds h]
  split
  · exact .call ⟨Call.noConfusion, fun _ => Call.noConfusion⟩ fun _ _ => bindNew_leads
  · exact bindNew_leads

/-- While it handles an element a goroutine goes on by its calls only. -/
theorem step_busy {s : Session} {p : Handler (Session × RouteResult)} (hs : m.threads j = .handling s p) (he : e ≠ .call) :
    step isPrint outside domain m j e = m := by
  unfold step
  rw [hs]
  cases e with
  | read n => rfl
  | fail => rfl
  | call => exact absurd rfl he

/-- Session `i` is about to find itself in the registry. -/
def Doomed (i : ℕ) (jid : Str) (m : Machine) : Prop :=
  m.world.registry jid = some i ∧ ∃ s p, m.threads i = .handling s p ∧ Leads (Rebinding jid) (Found i) (Closing i) p

theorem doomed_step {jid : Str} (h : Others i m) (ha : Alone i m) (hd : Doomed i jid m) (hkick : kicks i m j e = false) :
    Doomed i jid (step isPrint outside domain m j e) := by
  obtain ⟨hreg, s, p, hs, hp⟩ := hd
  by_cases hij : i = j
  · subst hij
    cases e with
    | read n =>
        rw [step_busy hs Event.noConfusion]
        exact ⟨hreg, s, p, hs, hp⟩
    | fail =>
        rw [step_busy hs Event.noConfusion]
        exact ⟨hreg, s, p, hs, hp⟩
    | call =>
        cases hp with
        | here hclosing =>
            obtain ⟨next, rfl⟩ := hclosing
            have hyes : kicks i m i .call = true := by
              rw [kicks, hs]
              exact Bool.or_eq_true_iff.mpr (Or.inl (decide_eq_true rfl))
            rw [hyes] at hkick
            cases hkick
        | @call c next hc hnext =>
            have hstep : step isPrint outside domain m i .call = m.perform isPrint outside i c fun r => .handling s (next r) := by
              unfold step
              rw [hs]
            rw [hstep]
            refine ⟨?_, s, _, Function.update_self _ _ _, hnext _ ?_⟩
            · exact registry_kept hreg (fun _ => hc.1) fun hne => absurd rfl hne
            · cases c with
              | register jid' =>
                  obtain rfl := hc.2 jid' rfl
                  exact hreg
              | _ => trivial
  · refine ⟨?_, s, p, (step_other hij).1.trans hs, hp⟩
    rcases step_registry isPrint outside domain m j e with ⟨hworld, -⟩ | ⟨c, hworld, -, hcall⟩
    · rw [hworld]
      exact hreg
    · rw [hworld]
      apply registry_kept hreg
      · exact fun hji => absurd hji.symm hij
      · rintro hji rfl
        have hmild := h.mild j hji
        rcases hcall with ⟨s', next, hs'⟩ | ⟨next, hs'⟩
        · rw [hs'] at hmild
          obtain ⟨o, ho, -, -, hregister, -⟩ := hmild
          have hown := (ho jid (hregister jid rfl)).1
          exact ha jid (h.listed jid hreg) j hji s' (by rw [hs']; rfl) hown.symm
        · rw [hs'] at hmild
          exact hmild.1.2 jid rfl

theorem run_doomed {jid : Str} (events : List (ℕ × Event)) : ∀ m, Others i m → Doomed i jid m →
    Throughout isPrint outside domain (fun m _ _ => Alone i m) m events →
    Throughout isPrint outside domain (fun m j e => kicks i m j e = false) m events →
    Doomed i jid (run isPrint outside domain m events) := by
  induction events with
  | nil => exact fun _ _ hd _ _ => hd
  | cons x xs ih =>
      intro m h hd ha hkicks
      exact ih _ (others_step h ha.1) (doomed_step h ha.1 hd hkicks.1) ha.2 hkicks.2

/-- A session that is not thrown out binds once. -/
theorem run_once (events : List (ℕ × Event)) : ∀ m, Others i m →
    (∀ s p, (run isPrint outside domain m events).threads i ≠ .handling s p) →
    Throughout isPrint outside domain (fun m _ _ => Alone i m) m events →
    Throughout isPrint outside domain (fun m j e => kicks i m j e = false) m events →
    Throughout isPrint outside domain (Once i) m events := by
  induction events with
  | nil => exact fun _ _ _ _ _ => trivial
  | cons x xs ih =>
      intro m h hend ha hkicks
      refine ⟨?_, ih _ (others_step h ha.1) hend ha.2 hkicks.2⟩
      obtain ⟨j, e⟩ := x
      cases e with
      | read n =>
          rintro rfl s hs hbind hreg
          have hidle : m.threads j = .reading s := by
            cases ht : m.threads j with
            | reading s' =>
                rw [ht] at hs
                rw [Option.some.inj hs]
            | handling s' p =>
                rw [ht] at hs
                cases hs
            | leaving p =>
                rw [ht] at hs
                cases hs
          have hstep : step isPrint outside domain m j (.read n) = m.goto j (.handling s (dispatch domain j s n)) := by
            unfold step
            rw [hidle]
          have hdoomed : Doomed j s.bareJID (step isPrint outside domain m j (.read n)) := by
            rw [hstep]
            exact ⟨hreg, s, _, Function.update_self _ _ _, dispatch_leads hbind⟩
          obtain ⟨-, s', p, hs', -⟩ := run_doomed xs _ (others_step h ha.1) hdoomed ha.2 hkicks.2
          exact hend s' p hs'
      | fail => trivial
      | call => trivial

end

/-- In a run in which no other session has its address a session is thrown out if it binds
while it is the one in the registry, and only then. -/
theorem spared_iff (isPrint : Char → Bool) (outside : ℕ → (c : Call) → Result c) (domain : Str) (w : World)
    (events : List (ℕ × Event)) (i : ℕ)
    (ha : Throughout isPrint outside domain (fun m _ _ => Alone i m) (begin domain w) events) :
    (Throughout isPrint outside domain (Once i) (begin domain w) events →
        Throughout isPrint outside domain (fun m j e => kicks i m j e = false) (begin domain w) events) ∧
      ((∀ s p, (run isPrint outside domain (begin domain w) events).threads i ≠ .handling s p) →
        Throughout isPrint outside domain (fun m j e => kicks i m j e = false) (begin domain w) events →
        Throughout isPrint outside domain (Once i) (begin domain w) events) := by
  constructor
  · exact run_spared events _ (begin_others w) trivial ha
  · exact fun hend => run_once events _ (begin_others w) hend ha

/-! ## A header after the bind -/

/-- A run of one session, which registers under no empty address. -/
theorem alone_of_single {isPrint : Char → Bool} {outside : ℕ → (c : Call) → Result c} {domain : Str} {i : ℕ}
    (events : List (ℕ × Event)) : ∀ m, (∀ k, k ≠ i → m.threads k = .reading { jidDomain := domain }) →
    Throughout isPrint outside domain (fun m j _ => j = i ∧ ∀ x ∈ m.registrations, x.1 ≠ []) m events →
    Throughout isPrint outside domain (fun m _ _ => Alone i m) m events := by
  induction events with
  | nil => exact fun _ _ _ => trivial
  | cons x xs ih =>
      intro m hothers h
      refine ⟨?_, ih _ ?_ h.2⟩
      · rintro jid hjid k hk s hs rfl
        rw [hothers k hk] at hs
        obtain rfl := Option.some.inj hs
        exact h.1.2 _ hjid rfl
      · intro k hk
        rw [(step_other (by rw [h.1.1]; exact hk)).1]
        exact hothers k hk

set_option maxRecDepth 20000 in
theorem loggedIn_alone :
    Throughout GoRosterFile.printable plainOutside "x" (fun m _ _ => Alone 0 m) (begin "x" nothing) (handled loggedIn) :=
  alone_of_single _ _ (fun _ _ => rfl) (by decide +kernel)

set_option maxRecDepth 20000 in
theorem loggedIn_spared :
    Throughout GoRosterFile.printable plainOutside "x" (Once 0) (begin "x" nothing) (handled loggedIn) ∧
      Throughout GoRosterFile.printable plainOutside "x" (fun m j e => kicks 0 m j e = false) (begin "x" nothing) (handled loggedIn) := by
  have honce : Throughout GoRosterFile.printable plainOutside "x" (Once 0) (begin "x" nothing) (handled loggedIn) := by
    decide +kernel
  exact ⟨honce, (spared_iff GoRosterFile.printable plainOutside "x" nothing (handled loggedIn) 0 loggedIn_alone).1 honce⟩

def boundTwice : List XmlNode := [header, authRequest, header, bindRequest, header, bindRequest]

set_option maxRecDepth 20000 in
/-- A session that sends a header after its bind, and binds again, is thrown out by itself. -/
theorem boundTwice_kicked :
    ¬∀ (isPrint : Char → Bool) (outside : ℕ → (c : Call) → Result c) (domain : Str) (w : World)
      (events : List (ℕ × Event)) (i : ℕ),
      Throughout isPrint outside domain (fun m _ _ => Alone i m) (begin domain w) events →
      Throughout isPrint outside domain (fun m j e => kicks i m j e = false) (begin domain w) events := by
  intro h
  have halone : Throughout GoRosterFile.printable plainOutside "x" (fun m _ _ => Alone 0 m) (begin "x" nothing) (handled boundTwice) :=
    alone_of_single _ _ (fun _ _ => rfl) (by decide +kernel)
  have hkicked : ¬Throughout GoRosterFile.printable plainOutside "x" (fun m j e => kicks 0 m j e = false) (begin "x" nothing)
      (handled boundTwice) := by
    decide +kernel
  exact hkicked (h GoRosterFile.printable plainOutside "x" nothing (handled boundTwice) 0 halone)

end Xmppd.GoRebind
