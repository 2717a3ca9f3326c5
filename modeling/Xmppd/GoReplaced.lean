import Xmppd.GoStanza
import Xmppd.GoWorld

/-!
# Replaced sessions

A session that binds an address closes the one that held it. Closing stops the
sends to the old connection and nothing else: the loop of the old session goes on
with the elements that are in its reader, and with the one it is handling. If these
are queries that the server answers by itself, the old session does nothing any
more but tell its contacts that it is gone.
-/
namespace Xmppd.GoReplaced
open CStrings GoXml Programs Program GoSession GoPresence GoStanza GoWorld

/-- Elements that are answered to their sender, whatever its state: headers, and
requests for information about the server, the own roster and registration. -/
def IsQuery (domain : Str) (n : XmlNode) : Prop :=
  n.isStreamOpen = true ∨
    n.name = "iq" ∧ n.attr "type" = "get" ∧ childNS n ≠ nsBind ∧
      (isServerJID (n.attr "to") domain = true ∨
        childNS n ∈ [nsSession, nsRoster, nsRegister, nsDiscoInfo, nsDiscoItems])

/-- What is left of a session is to answer queries and to leave. -/
def Resting (domain : Str) (k : ℕ) (q : Handler Unit) : Prop :=
  ∃ s ns, (∀ n ∈ ns, IsQuery domain n) ∧ Residual (sessionLoop domain k s ns) q

/-- The server with the elements that each session still reads. -/
def start (domain : Str) (w : World) (session : ℕ → Session) (inputs : ℕ → List XmlNode) : Pool Call Result World :=
  { shared := { w with replaced := fun _ => false }
    threads := fun i => sessionLoop domain i (session i) (inputs i) }

/-- A session that is about to close another one finds it at rest. -/
def Rested (domain : Str) (p : Pool Call Result World) (i : ℕ) : Prop :=
  ∀ k next, k ≠ i → p.threads i = .call (.close k) next → Resting domain k (p.threads k)

/-- A step of session `k` that has no effect on others but the notice. -/
structure Spent (k : ℕ) (fullJID : Str) (w w' : World) : Prop where
  files : w'.rosterFiles = w.rosterFiles
  offline : w'.offline = w.offline
  rosters : ∀ j, j ≠ k → w'.rosters j = w.rosters j
  registry : ∀ j, w'.registry j = w.registry j ∨ w.registry j = some k
  log : ∃ l, w'.log = w.log ++ l ∧ ∀ e ∈ l, e.dest = k ∨ e.data = .text (unavailableFrom fullJID)

/-- Calls that have no effect on others but the notice. -/
def Inert (k : ℕ) (fullJID : Str) : Call → Prop
  | .send t d => t = k ∨ d = .text (unavailableFrom fullJID)
  | .setRoster t _ => t = k
  | .close t => t = k
  | .register _ | .save _ _ | .create _ _ | .changePassword _ _ | .delete _ | .mkdirAll _ | .writeFile _ _ _
  | .remove _ _ => False
  | _ => True

section
variable {domain fullJID : Str} {k : ℕ} {s : Session} {n : XmlNode}

/-! ## Queries -/

theorem inert_self (t : Str) : Inert k fullJID (.send k (.text t)) := Or.inl rfl

theorem ensureLoaded_inert {user : Str} {Q : Roster → Prop} (hQ : ∀ r, Q r) :
    Ensures (Inert k fullJID) (ensureLoaded k user) Q :=
  ensures_ensureLoaded trivial trivial (fun _ => rfl) hQ

theorem registerHandleIQ_inert (h : n.attr "type" = "get") {Q : RouteResult → Prop} (hQ : ∀ r, Q r) :
    Ensures (Inert k fullJID) (registerHandleIQ k s n) Q := by
  unfold registerHandleIQ
  rw [if_pos h, ensures_bind, ensures_sendText]
  exact ⟨inert_self _, hQ _⟩

theorem handleRosterIQ_inert (h : n.attr "type" = "get") {Q : RouteResult → Prop} (hQ : ∀ r, Q r) :
    Ensures (Inert k fullJID) (handleRosterIQ k s n) Q := by
  unfold handleRosterIQ
  rw [ensures_bind]
  apply ensureLoaded_inert
  intro r
  rw [if_pos h, ensures_bind, ensures_sendText]
  exact ⟨inert_self _, hQ _⟩

/-- The session is as it was, up to its state. -/
def Same (s : Session) (x : Session × RouteResult) : Prop := x.1.fullJID = s.fullJID

theorem refuse_inert {errType condition : Str} :
    Ensures (Inert k fullJID) (sendStanzaError k s n errType condition >>= fun _ => pure (s, RouteResult.ok)) (Same s) := by
  rw [ensures_bind, ensures_sendStanzaError inert_self]
  exact rfl

theorem handleIQ_inert (hget : n.attr "type" = "get") (hbind : childNS n ≠ nsBind)
    (hto : isServerJID (n.attr "to") domain = true ∨
      childNS n ∈ [nsSession, nsRoster, nsRegister, nsDiscoInfo, nsDiscoItems]) :
    Ensures (Inert k fullJID) (handleIQ domain k s n) (Same s) := by
  have hresult : ¬(n.attr "type" = "result" ∨ n.attr "type" = "error") := by
    rw [hget]
    decide
  unfold handleIQ
  dsimp only
  rw [if_neg hresult, if_neg hbind]
  split
  · rw [ensures_handleSessionIQ inert_self]
    exact rfl
  · next hsession =>
    split
    · exact ensures_whenActive inert_self (fun _ => handleRosterIQ_inert hget fun _ => rfl) rfl
    · next hroster =>
      split
      · rw [ensures_bind]
        exact registerHandleIQ_inert hget fun _ => rfl
      · next hregister =>
        split
        · exact ensures_whenActive inert_self (fun _ => (ensures_discoReply inert_self).mpr rfl) rfl
        · next hinfo =>
          split
          · exact ensures_whenActive inert_self (fun _ => (ensures_discoReply inert_self).mpr rfl) rfl
          · next hitems =>
            have hserver : isServerJID (n.attr "to") domain = true := by
              rcases hto with h | h
              · exact h
              · simp only [List.mem_cons, List.not_mem_nil, hsession, hroster, hregister, hinfo, hitems, or_self] at h
            rw [hserver, if_neg (by simp)]
            exact refuse_inert

theorem routeBeforeAuth_inert (hname : n.name = "iq") (hget : n.attr "type" = "get") :
    Ensures (Inert k fullJID) (routeBeforeAuth k s n) (Same s) := by
  have hauth : ¬n.name = "auth" := by
    rw [hname]
    decide
  unfold routeBeforeAuth
  rw [if_neg hauth, if_pos hname]
  split
  · rw [ensures_bind]
    exact registerHandleIQ_inert hget fun _ => rfl
  · exact refuse_inert

theorem dispatch_inert (h : IsQuery domain n) : Ensures (Inert k fullJID) (dispatch domain k s n) (Same s) := by
  unfold dispatch
  split
  · exact ensures_handleOpen inert_self trivial rfl rfl
  · next hopen =>
    rcases h with h | ⟨hname, hget, hbind, hto⟩
    · exact absurd h hopen
    · unfold route
      rw [if_pos hname]
      split
      · exact routeBeforeAuth_inert hname hget
      · exact handleIQ_inert hget hbind hto

theorem leave_inert : Ensures (Inert k s.fullJID) (leave k s) fun _ => True := by
  simp only [leave, ensures_bind, ensures_unregister]
  refine ⟨trivial, ?_⟩
  apply ensures_broadcastUnavailable trivial trivial (fun _ => rfl) (fun _ => trivial)
  · exact fun _ => Or.inr rfl
  · exact fun _ _ => ensures_close.mpr ⟨rfl, trivial⟩

theorem sessionLoop_inert {ns : List XmlNode} (h : ∀ n ∈ ns, IsQuery domain n) :
    Ensures (Inert k s.fullJID) (sessionLoop domain k s ns) fun _ => True := by
  induction ns generalizing s with
  | nil => exact leave_inert
  | cons n ns ih =>
      have hns : ∀ m ∈ ns, IsQuery domain m := fun m hm => h m (List.mem_cons_of_mem n hm)
      unfold sessionLoop
      rw [ensures_bind]
      apply (dispatch_inert (h n List.mem_cons_self)).mono (fun _ => id)
      intro x hx
      have hsame : x.1.fullJID = s.fullJID := hx
      rw [← hsame]
      split
      · exact leave_inert
      · exact ih hns

theorem Resting.inert {q : Handler Unit} (h : Resting domain k q) :
    ∃ fullJID, Ensures (Inert k fullJID) q fun _ => True := by
  obtain ⟨s, ns, hns, hq⟩ := h
  exact ⟨s.fullJID, (sessionLoop_inert hns).residual hq⟩

/-! ## Steps -/

variable {isPrint : Char → Bool} {outside : ℕ → (c : Call) → Result c} {p : Pool Call Result World} {w : World}

theorem Spent.refl : Spent k fullJID w w :=
  ⟨rfl, rfl, fun _ _ => rfl, fun _ => Or.inl rfl, [], (List.append_nil _).symm, by simp⟩

theorem inert_spent {c : Call} (h : Inert k fullJID c) : Spent k fullJID w (answer isPrint outside k c w).2 := by
  cases c with
  | send t d =>
      refine ⟨rfl, rfl, fun _ _ => rfl, fun _ => Or.inl rfl, _, rfl, ?_⟩
      intro e he
      rw [List.mem_singleton.mp he]
      exact h
  | setRoster t r =>
      rw [show t = k from h]
      exact ⟨rfl, rfl, fun j hj => Function.update_of_ne hj _ _, fun _ => Or.inl rfl, [], (List.append_nil _).symm, by simp⟩
  | unregister =>
      change Spent k fullJID w { (if w.registry (w.jid k) = some k then _ else w) with clock := _ }
      split
      · next hreg =>
        refine ⟨rfl, rfl, fun _ _ => rfl, ?_, [], (List.append_nil _).symm, by simp⟩
        intro j
        by_cases hj : j = w.jid k
        · rw [hj]
          exact Or.inr hreg
        · exact Or.inl (Function.update_of_ne hj _ _)
      · exact ⟨rfl, rfl, fun _ _ => rfl, fun _ => Or.inl rfl, [], (List.append_nil _).symm, by simp⟩
  | register j => cases h
  | save u r => cases h
  | create u x => cases h
  | changePassword u x => cases h
  | delete u => cases h
  | mkdirAll u => cases h
  | writeFile u x d => cases h
  | remove u x => cases h
  | _ => exact ⟨rfl, rfl, fun _ _ => rfl, fun _ => Or.inl rfl, [], (List.append_nil _).symm, by simp⟩

theorem step_spent (h : Ensures (Inert k fullJID) (p.threads k) fun _ => True) :
    Spent k fullJID p.shared (Pool.step (answer isPrint outside) p k).shared := by
  cases hk : p.threads k with
  | done a =>
      rw [Pool.step_of_done hk]
      exact Spent.refl
  | call c next =>
      rw [hk] at h
      rw [Pool.step_shared hk]
      exact inert_spent h.1

theorem step_inert (h : Ensures (Inert k fullJID) (p.threads k) fun _ => True) (i : ℕ) :
    Ensures (Inert k fullJID) ((Pool.step (answer isPrint outside) p i).threads k) fun _ => True := by
  by_cases hi : k = i
  · subst hi
    cases hk : p.threads k with
    | done a =>
        rw [Pool.step_of_done hk, hk]
        trivial
    | call c next =>
        rw [hk] at h
        rw [Pool.step_self hk]
        exact h.2 _
  · rw [Pool.step_other hi]
    exact h

theorem run_inert (schedule : List ℕ) :
    ∀ p : Pool Call Result World, Ensures (Inert k fullJID) (p.threads k) (fun _ => True) →
      Ensures (Inert k fullJID) ((Pool.run (answer isPrint outside) p schedule).threads k) fun _ => True := by
  induction schedule with
  | nil => exact fun _ h => h
  | cons i is ih => exact fun p h => ih _ (step_inert h i)

theorem replaced_answer {i : ℕ} {c : Call} (h : (answer isPrint outside i c w).2.replaced k = true) :
    w.replaced k = true ∨ k ≠ i ∧ c = .close k := by
  cases c with
  | close t =>
      change (if t = i then w.replaced else Function.update w.replaced t true) k = true at h
      split at h
      · exact Or.inl h
      · next hti =>
        by_cases hk : k = t
        · rw [hk]
          exact Or.inr ⟨hti, rfl⟩
        · rw [Function.update_of_ne hk] at h
          exact Or.inl h
  | unregister =>
      change (if w.registry (w.jid i) = some i then _ else w).replaced k = true at h
      split at h
      · exact Or.inl h
      · exact Or.inl h
  | create u x =>
      change (if outside w.clock (.create u x) = .ok then _ else w).replaced k = true at h
      split at h
      · exact Or.inl h
      · exact Or.inl h
  | _ => exact Or.inl h

theorem Resting.next {c : Call} {next : Result c → Handler Unit} (h : Resting domain k (.call c next)) (r : Result c) :
    Resting domain k (next r) := by
  obtain ⟨s, ns, hns, hq⟩ := h
  exact ⟨s, ns, hns, hq.step r⟩

variable (domain) in
/-- Sessions that were closed by others are at rest. -/
def Settled (p : Pool Call Result World) : Prop := ∀ k, p.shared.replaced k = true → Resting domain k (p.threads k)

theorem step_settled {i : ℕ} (h : Settled domain p) (hrest : Rested domain p i) :
    Settled domain (Pool.step (answer isPrint outside) p i) := by
  intro k hk
  cases hi : p.threads i with
  | done a =>
      rw [Pool.step_of_done hi] at hk ⊢
      exact h k hk
  | call c next =>
      rw [Pool.step_shared hi] at hk
      by_cases hki : k = i
      · rcases replaced_answer hk with hold | ⟨hne, _⟩
        · have hrest := h k hold
          rw [hki] at hrest ⊢
          rw [hi] at hrest
          rw [Pool.step_self hi]
          exact hrest.next _
        · exact absurd hki hne
      · rw [Pool.step_other hki]
        rcases replaced_answer hk with hold | ⟨hne, hc⟩
        · exact h k hold
        · subst hc
          exact hrest k next hne hi

end

/-- In every run in which each session that is closed by another one is at rest,
a session has from then on no effect on others but the notice that it is gone,
under one address. -/
theorem replaced_spent (isPrint : Char → Bool) (outside : ℕ → (c : Call) → Result c) (domain : Str) (w : World)
    (session : ℕ → Session) (inputs : ℕ → List XmlNode) (schedule : List ℕ)
    (hrest : Pool.Meets (answer isPrint outside) (Rested domain) (start domain w session inputs) schedule) (k : ℕ)
    (hk : (Pool.run (answer isPrint outside) (start domain w session inputs) schedule).shared.replaced k = true) :
    ∃ fullJID, ∀ later : List ℕ,
      Spent k fullJID (Pool.run (answer isPrint outside) (start domain w session inputs) (schedule ++ later)).shared
        (Pool.run (answer isPrint outside) (start domain w session inputs) (schedule ++ later ++ [k])).shared := by
  have hstart : Settled domain (start domain w session inputs) := by
    intro j hj
    cases hj
  have hstep : ∀ p i, Settled domain p → Rested domain p i → Settled domain (Pool.step (answer isPrint outside) p i) :=
    fun _ _ h hr => step_settled h hr
  have hsettled := Pool.run_invariant hstep schedule _ hstart hrest
  obtain ⟨fullJID, hinert⟩ := (hsettled k hk).inert
  refine ⟨fullJID, ?_⟩
  intro later
  simp only [Pool.run_append]
  exact step_spent (run_inert later _ hinert)

/-! ## A user who binds twice -/

def user (state : State) : Session :=
  { jidLocal := "a", jidDomain := "x", jidResource := "r", state := state, authenticated := true }

/-- Session 0 is bound. -/
def alone : World where
  registry := fun jid => if jid = ("a@x" : Str) then some 0 else none
  jid := fun _ => "a@x"
  rosters := fun _ => { loaded := true }
  rosterFiles := fun _ => none
  offline := fun _ => none
  closed := fun _ => false
  log := []
  reading := fun _ => none
  replaced := fun _ => false
  clock := 0

def bindRequest : XmlNode :=
  .mk "iq" [] [⟨"type", [], "set"⟩] [.mk "bind" nsBind [] [.mk "resource" nsBind [] [] "r"] []] []

def infoRequest : XmlNode := .mk "iq" [] [⟨"type", [], "get"⟩] [.mk "query" nsDiscoInfo [] [] []] []

def rosterSet : XmlNode :=
  .mk "iq" [] [⟨"type", [], "set"⟩] [.mk "query" nsRoster [] [.mk "item" nsRoster [⟨"jid", [], "b@x"⟩] [] []] []] []

/-- Session 1 binds while session 0 has one element in its reader. -/
def twice (buffered : XmlNode) : Pool Call Result World :=
  start "x" alone (fun i => user (if i = 0 then .bound else .authenticated))
    (fun i => if i = 0 then [buffered] else if i = 1 then [bindRequest] else [])

theorem twice_rested {buffered : XmlNode} (h : IsQuery "x" buffered) :
    Pool.Meets (answer GoRosterFile.printable plainOutside) (Rested "x") (twice buffered) [1, 1, 1] := by
  refine ⟨?_, ?_, ?_, trivial⟩
  · intro k next _ hc
    cases hc
  · intro k next _ hc
    cases hc
  · intro k next _ hc
    cases hc
    exact ⟨user .bound, [buffered], by simpa using h, .refl⟩

theorem infoRequest_query : IsQuery "x" infoRequest := Or.inr ⟨rfl, rfl, by decide, Or.inl rfl⟩

/-- With a query in its reader the old session is at rest. -/
theorem query_spent :
    ∃ fullJID, ∀ later : List ℕ,
      Spent 0 fullJID (Pool.run (answer GoRosterFile.printable plainOutside) (twice infoRequest) ([1, 1, 1] ++ later)).shared
        (Pool.run (answer GoRosterFile.printable plainOutside) (twice infoRequest) ([1, 1, 1] ++ later ++ [0])).shared := by
  apply replaced_spent GoRosterFile.printable plainOutside "x" alone _ _ [1, 1, 1] (twice_rested infoRequest_query) 0
  rfl

/-- With a roster set in its reader the old session writes the roster of the user
after it was closed. -/
theorem rosterSet_not_spent :
    ¬∀ (isPrint : Char → Bool) (outside : ℕ → (c : Call) → Result c) (domain : Str) (w : World)
      (session : ℕ → Session) (inputs : ℕ → List XmlNode) (schedule : List ℕ) (k : ℕ),
      (Pool.run (answer isPrint outside) (start domain w session inputs) schedule).shared.replaced k = true →
      ∃ fullJID, ∀ later : List ℕ,
        Spent k fullJID (Pool.run (answer isPrint outside) (start domain w session inputs) (schedule ++ later)).shared
          (Pool.run (answer isPrint outside) (start domain w session inputs) (schedule ++ later ++ [k])).shared := by
  intro h
  obtain ⟨fullJID, hlater⟩ := h GoRosterFile.printable plainOutside "x" alone
    (fun i => user (if i = 0 then .bound else .authenticated))
    (fun i => if i = 0 then [rosterSet] else if i = 1 then [bindRequest] else []) [1, 1, 1] 0 rfl
  have hfiles := congrArg (fun f => (f "a").isSome) (hlater [0, 0]).files
  cases hfiles

end Xmppd.GoReplaced
