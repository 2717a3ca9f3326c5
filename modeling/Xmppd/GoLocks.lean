import Xmppd.GoMonitor
import Xmppd.Locking

/-!
# Roster locks of the Go server

A goroutine that locks a roster whose lock is held waits until it is given back. The machine
with the locks takes the steps of the machine without them, less those that wait. In every
run under strong fairness every handler comes to its end, since a goroutine that has a roster
lock never waits for one. A change of the roster of another session is a change of the roster
as it is at that step, as long as that session does not write it at the same time.
-/
namespace Xmppd.GoLocks
open CStrings GoXml Programs Program GoSession GoPresence GoStanza GoWorld GoReachable GoMonitor Monitors

/-- The server with the goroutine that holds the lock of each roster. -/
structure Locked where
  machine : Machine
  holder : ℕ → Option ℕ

/-- The lock a goroutine is about to take. -/
def wanted (t : Thread) : Option ℕ :=
  match pending t with
  | some (.lock r) => some r
  | _ => none

/-- No lock is in the way. -/
def Locked.Clear (l : Locked) (i : ℕ) : Prop := ∀ r ∈ wanted (l.machine.threads i), l.holder r = none

/-- A lock is in the way of the event. -/
def Locked.Waits (l : Locked) (i : ℕ) (e : Event) : Prop :=
  match requested (l.machine.threads i) e with
  | some (.lock r) => (l.holder r).isSome
  | _ => False

instance (l : Locked) (i : ℕ) (e : Event) : Decidable (l.Waits i e) := by
  unfold Locked.Waits
  split
  · exact inferInstance
  · exact isFalse id

/-- The holders after a call. -/
def taken (i : ℕ) (c : Option Call) (holder : ℕ → Option ℕ) : ℕ → Option ℕ :=
  match c with
  | some (.lock r) => Function.update holder r (some i)
  | some (.unlock r) => Function.update holder r none
  | _ => holder

section
variable (isPrint : Char → Bool) (outside : ℕ → (c : Call) → Result c) (domain : Str)

def step (l : Locked) (i : ℕ) (e : Event) : Locked :=
  if l.Waits i e then l
  else
    { machine := GoReachable.step isPrint outside domain l.machine i e
      holder := taken i (requested (l.machine.threads i) e) l.holder }

/-- The server at each time of an infinite run. -/
def run (l : Locked) (schedule : ℕ → ℕ × Event) : ℕ → Locked
  | 0 => l
  | n + 1 => step isPrint outside domain (run l schedule n) (schedule n).1 (schedule n).2

/-- The events before a time that do not wait. -/
def passed (l : Locked) (schedule : ℕ → ℕ × Event) : ℕ → List (ℕ × Event)
  | 0 => []
  | n + 1 =>
      passed l schedule n ++
        (if (run isPrint outside domain l schedule n).Waits (schedule n).1 (schedule n).2 then [] else [schedule n])

/-- The server with all connections, and all locks free. -/
def start (w : World) : Locked := ⟨GoReachable.start domain w, fun _ => none⟩

/-- What the monitor knows of a goroutine at a time. -/
def standing (w : World) (schedule : ℕ → ℕ × Event) (n i : ℕ) : Standing :=
  (monitor domain i).final {}
    (calls isPrint outside domain i (GoReachable.start domain w) (passed isPrint outside domain (start domain w) schedule n))

end

/-! ## The machine without locks -/

section
variable {isPrint : Char → Bool} {outside : ℕ → (c : Call) → Result c} {domain : Str}

/-- A run with locks is a run without them, on the events that do not wait. -/
theorem run_machine (isPrint : Char → Bool) (outside : ℕ → (c : Call) → Result c) (domain : Str) (l : Locked)
    (schedule : ℕ → ℕ × Event) (n : ℕ) :
    (run isPrint outside domain l schedule n).machine =
      GoReachable.run isPrint outside domain l.machine (passed isPrint outside domain l schedule n) := by
  induction n with
  | zero => rfl
  | succ n ih =>
      rw [run, passed, step, GoReachable.run, List.foldl_append]
      split
      · exact ih
      · change GoReachable.step isPrint outside domain (run isPrint outside domain l schedule n).machine _ _ = _
        rw [ih]
        rfl

end

/-! ## Holders -/

/-- Every goroutine is watched, and holds the lock the monitor says. -/
structure Orderly (domain : Str) (standings : ℕ → Standing) (l : Locked) : Prop where
  watched : ∀ i, Watched domain i (standings i) (l.machine.threads i)
  holds : ∀ r i, l.holder r = some i ↔ (standings i).held = some r

/-- The standings after an event. -/
def next (isPrint : Char → Bool) (outside : ℕ → (c : Call) → Result c) (domain : Str) (standings : ℕ → Standing)
    (l : Locked) (i : ℕ) (e : Event) : ℕ → Standing :=
  if l.Waits i e then standings
  else Function.update standings i ((monitor domain i).final (standings i) (made isPrint outside l.machine i e))

section
variable {isPrint : Char → Bool} {outside : ℕ → (c : Call) → Result c} {domain : Str} {standings : ℕ → Standing}
  {l : Locked} {i : ℕ} {e : Event}

/-- The lock that is held after a call. -/
theorem after_held {h : Standing} {c : Call} {r : Result c} (hc : (monitor domain i).allows h c) :
    ((monitor domain i).after h c r).held =
      match c with
      | .lock t => some t
      | .unlock _ => none
      | _ => h.held := by
  obtain ⟨user, proven, gone, held, seen, fresh⟩ := h
  cases held with
  | none =>
      cases c with
      | checkPassword u x => cases r <;> rfl
      | _ => rfl
  | some t =>
      cases c with
      | lock u => cases hc
      | roster u =>
          change (if u = t then _ else _ : Standing).held = _
          split <;> rfl
      | setRoster u x =>
          change (if u = t then _ else _ : Standing).held = _
          split <;> rfl
      | _ => rfl

/-- A call that is allowed and does not wait changes the locks of its goroutine only. -/
theorem taken_holds {holder : ℕ → Option ℕ} (hholder : ∀ r k, holder r = some k ↔ (standings k).held = some r) {c : Call}
    (x : Result c) (hc : (monitor domain i).allows (standings i) c) (hfree : ∀ t, c = .lock t → holder t = none)
    (r k : ℕ) :
    taken i (some c) holder r = some k ↔
      (Function.update standings i ((monitor domain i).after (standings i) c x) k).held = some r := by
  by_cases hk : k = i
  · subst hk
    rw [Function.update_self, after_held hc]
    cases c with
    | lock t =>
        by_cases hr : r = t
        · simp [taken, hr]
        · have hnot : (standings k).held ≠ some r := by
            rw [show (standings k).held = none from hc]
            rintro ⟨⟩
          simp [taken, hr, Ne.symm hr, (hholder r k).not.mpr hnot]
    | unlock t =>
        by_cases hr : r = t
        · simp [taken, hr]
        · have hnot : (standings k).held ≠ some r := by
            rw [show (standings k).held = some t from hc]
            exact fun he => hr (Option.some.inj he).symm
          simp [taken, hr, (hholder r k).not.mpr hnot]
    | _ => exact hholder r k
  · rw [Function.update_of_ne hk, ← hholder]
    cases c with
    | lock t =>
        by_cases hr : r = t
        · subst hr
          simp [taken, hfree r rfl, Ne.symm hk]
        · simp [taken, hr]
    | unlock t =>
        by_cases hr : r = t
        · subst hr
          have hi : holder r = some i := (hholder r i).mpr hc
          simp [taken, hi, Ne.symm hk]
        · simp [taken, hr]
    | _ => exact Iff.rfl

theorem step_orderly (h : Orderly domain standings l) (i : ℕ) (e : Event) :
    Orderly domain (next isPrint outside domain standings l i e) (step isPrint outside domain l i e) := by
  unfold next step
  split
  · exact h
  next hwaits =>
  obtain ⟨haccepts, hwatched⟩ := step_watched isPrint outside (h.watched i) e
  constructor
  · intro k
    by_cases hk : k = i
    · subst hk
      rw [Function.update_self]
      exact hwatched
    · rw [Function.update_of_ne hk]
      dsimp only
      rw [step_threads_other e hk]
      exact h.watched k
  · intro r k
    rw [made_eq] at haccepts ⊢
    unfold Locked.Waits at hwaits
    cases hc : requested (l.machine.threads i) e with
    | none =>
        rw [Option.toList_none, List.map_nil, Monitor.final, List.foldl_nil, Function.update_eq_self]
        exact h.holds r k
    | some c =>
        rw [hc] at haccepts hwaits
        apply taken_holds h.holds _ haccepts.1
        rintro t rfl
        simpa using hwaits

end

/-! ## Runs -/

section
variable {isPrint : Char → Bool} {outside : ℕ → (c : Call) → Result c} {domain : Str} {w : World}
  {schedule : ℕ → ℕ × Event} {i n : ℕ}

theorem standing_succ : standing isPrint outside domain w schedule (n + 1) =
    next isPrint outside domain (standing isPrint outside domain w schedule n)
      (run isPrint outside domain (start domain w) schedule n) (schedule n).1 (schedule n).2 := by
  funext k
  unfold standing next
  rw [passed]
  split
  · rw [List.append_nil]
  · have hmachine := run_machine isPrint outside domain (start domain w) schedule n
    rw [calls_append, Monitor.final, List.foldl_append]
    change (monitor domain k).final (standing isPrint outside domain w schedule n k)
      ((if (schedule n).1 = k then made isPrint outside (GoReachable.run isPrint outside domain (start domain w).machine _) k
        (schedule n).2 else []) ++ []) = _
    rw [List.append_nil, ← hmachine]
    by_cases hk : k = (schedule n).1
    · subst hk
      rw [if_pos rfl, Function.update_self]
      rfl
    · rw [if_neg (Ne.symm hk), Function.update_of_ne hk]
      rfl

theorem run_orderly (isPrint : Char → Bool) (outside : ℕ → (c : Call) → Result c) (domain : Str) (w : World)
    (schedule : ℕ → ℕ × Event) (n : ℕ) :
    Orderly domain (standing isPrint outside domain w schedule n) (run isPrint outside domain (start domain w) schedule n) := by
  induction n with
  | zero =>
      refine ⟨fun i => watched_new i domain, fun r i => ?_⟩
      change none = some i ↔ none = some r
      simp
  | succ n ih =>
      rw [standing_succ]
      exact step_orderly ih _ _

/-! ## Every handler comes to its end -/

/-- One call less to make. -/
inductive Less : Thread → Thread → Prop
  | handling {s : Session} {c : Call} {next : Result c → Handler (Session × RouteResult)} (x : Result c) :
      Less (.handling s (next x)) (.handling s (.call c next))
  | leaving {c : Call} {next : Result c → Handler Unit} (x : Result c) : Less (.leaving (next x)) (.leaving (.call c next))

theorem less_wellFounded : WellFounded Less := by
  constructor
  intro t
  cases t with
  | reading s =>
      constructor
      rintro _ ⟨⟩
  | handling s p =>
      induction p with
      | done x =>
          constructor
          rintro _ ⟨⟩
      | call c next ih =>
          constructor
          rintro t (x | x)
          exact ih x
  | leaving p =>
      induction p with
      | done x =>
          constructor
          rintro _ ⟨⟩
      | call c next ih =>
          constructor
          rintro t (x | x)
          exact ih x

/-- The goroutine is about to make a call, and need not wait. -/
def CanGoOn (l : Locked) (i : ℕ) : Prop := pending (l.machine.threads i) ≠ none ∧ l.Clear i

theorem not_waits {l : Locked} {e : Event} (h : l.Clear i) : ¬l.Waits i e := by
  unfold Locked.Waits
  split
  · next r hr =>
    have hwanted : wanted (l.machine.threads i) = some r := by
      unfold wanted
      cases e with
      | call => rw [show pending (l.machine.threads i) = some (.lock r) from hr]
      | read n => cases hr
      | fail => cases hr
    rw [h r hwanted]
    exact Bool.false_ne_true
  · exact id

/-- A goroutine that is about to make a call reads nothing. -/
theorem reads_nothing {m : Machine} {e : Event} (hbusy : pending (m.threads i) ≠ none) (he : e ≠ .call) :
    GoReachable.step isPrint outside domain m i e = m := by
  unfold GoReachable.step
  cases ht : m.threads i with
  | reading s =>
      rw [ht] at hbusy
      exact absurd rfl hbusy
  | handling s p =>
      cases e with
      | call => exact absurd rfl he
      | _ => rfl
  | leaving p =>
      cases e with
      | call => exact absurd rfl he
      | _ => rfl

theorem waits_of_not_clear {l : Locked} (h : ¬l.Clear i) : l.Waits i .call := by
  unfold Locked.Clear wanted at h
  unfold Locked.Waits requested
  dsimp only
  split at h
  · next r hr =>
    rw [← Option.ne_none_iff_isSome]
    intro hnone
    apply h
    rintro _ ⟨⟩
    exact hnone
  · exact absurd (by rintro _ ⟨⟩) h

/-- Only its own call moves a goroutine that is about to make one. -/
theorem step_stays {l : Locked} {k : ℕ} {e : Event} (hbusy : pending (l.machine.threads i) ≠ none)
    (h : ¬(l.Clear i ∧ k = i ∧ e = .call)) :
    (step isPrint outside domain l k e).machine.threads i = l.machine.threads i := by
  unfold step
  split
  · rfl
  next hwaits =>
  by_cases hk : k = i
  · subst hk
    dsimp only
    by_cases he : e = .call
    · subst he
      exact absurd (waits_of_not_clear fun hc => h ⟨hc, rfl, rfl⟩) hwaits
    · rw [reads_nothing hbusy he]
  · exact step_threads_other e (Ne.symm hk)

/-- A call brings the end nearer. -/
theorem step_less {l : Locked} (hbusy : pending (l.machine.threads i) ≠ none) (hclear : l.Clear i) :
    Less ((step isPrint outside domain l i .call).machine.threads i) (l.machine.threads i) := by
  rw [step, if_neg (not_waits hclear)]
  dsimp only
  unfold GoReachable.step
  cases ht : l.machine.threads i with
  | reading s =>
      rw [ht] at hbusy
      exact absurd rfl hbusy
  | handling s p =>
      cases p with
      | done x =>
          rw [ht] at hbusy
          exact absurd rfl hbusy
      | call c next =>
          dsimp only
          rw [perform_self]
          exact .handling _
  | leaving p =>
      cases p with
      | done x =>
          rw [ht] at hbusy
          exact absurd rfl hbusy
      | call c next =>
          dsimp only
          rw [perform_self]
          exact .leaving _

/-- A lock is kept or given back. -/
theorem step_keeps {l : Locked} {k : ℕ} {e : Event} {r : ℕ} (h : l.holder r = some i) :
    (step isPrint outside domain l k e).holder r = some i ∨ (step isPrint outside domain l k e).holder r = none := by
  unfold step
  split
  · exact Or.inl h
  next hwaits =>
  unfold Locked.Waits at hwaits
  dsimp only
  cases hc : requested (l.machine.threads k) e with
  | none => exact Or.inl h
  | some c =>
      rw [hc] at hwaits
      cases c with
      | lock t =>
          have ht : r ≠ t := by
            rintro rfl
            simp [h] at hwaits
          left
          simpa [taken, ht] using h
      | unlock t =>
          by_cases ht : r = t
          · right
            simp [taken, ht]
          · left
            simpa [taken, ht] using h
      | _ => exact Or.inl h

/-- A goroutine that holds a lock is about to make a call, and not to take a lock. -/
theorem holder_busy {l : Locked} {standings : ℕ → Standing} (ho : Orderly domain standings l) {r : ℕ}
    (h : l.holder r = some i) : pending (l.machine.threads i) ≠ none ∧ wanted (l.machine.threads i) = none := by
  have hheld := (ho.holds r i).mp h
  have hwatched := ho.watched i
  unfold wanted
  cases ht : l.machine.threads i with
  | reading s =>
      rw [ht] at hwatched
      rw [hwatched.1] at hheld
      cases hheld
  | handling s p =>
      rw [ht] at hwatched
      cases p with
      | done x =>
          rw [show standings i = shown x.1 from hwatched.1] at hheld
          cases hheld
      | call c next =>
          refine ⟨Option.some_ne_none c, ?_⟩
          cases c with
          | lock t =>
              rw [show (standings i).held = none from hwatched.1] at hheld
              cases hheld
          | _ => rfl
  | leaving p =>
      rw [ht] at hwatched
      cases p with
      | done x =>
          rw [show (standings i).held = none from hwatched] at hheld
          cases hheld
      | call c next =>
          refine ⟨Option.some_ne_none c, ?_⟩
          cases c with
          | lock t =>
              rw [show (standings i).held = none from hwatched.1] at hheld
              cases hheld
          | _ => rfl

end

section
variable (isPrint : Char → Bool) (outside : ℕ → (c : Call) → Result c) (domain : Str) (w : World) (schedule : ℕ → ℕ × Event)

/-- The goroutines of a run as processes with locks. -/
def processes : Locking.Run ℕ ℕ Thread where
  work n i := (run isPrint outside domain (start domain w) schedule n).machine.threads i
  holder n := (run isPrint outside domain (start domain w) schedule n).holder
  goes n i := schedule n = (i, .call)
  idle t := pending t = none
  wants := wanted
  less := Less
  wellFounded := less_wellFounded
  stay n i hbusy h := step_stays hbusy fun hc => h ⟨hc.1, Prod.ext hc.2.1 hc.2.2⟩
  go n i hbusy hclear hgoes := by
    rw [run, hgoes]
    exact step_less hbusy hclear
  keeps n r i h := step_keeps h
  busy n r i h := holder_busy (run_orderly isPrint outside domain w schedule n) h

end

/-! ### An approval -/

section
variable {isPrint : Char → Bool} {outside : ℕ → (c : Call) → Result c} {domain : Str} {l : Locked}
  {schedule : ℕ → ℕ × Event} {i n : ℕ}

theorem locked_step_other {k : ℕ} (e : Event) (hk : i ≠ k) :
    (step isPrint outside domain l k e).machine.threads i = l.machine.threads i := by
  unfold step
  split
  · rfl
  · exact step_threads_other e hk

/-- A goroutine without events stays where it is. -/
theorem run_other {m : ℕ} (hm : n ≤ m) (h : ∀ k, n ≤ k → k < m → (schedule k).1 ≠ i) :
    (run isPrint outside domain l schedule m).machine.threads i = (run isPrint outside domain l schedule n).machine.threads i := by
  induction m, hm using Nat.le_induction with
  | base => rfl
  | succ m hm ih =>
      rw [run, locked_step_other _ (Ne.symm (h m hm m.lt_succ_self))]
      exact ih fun k hk hkm => h k hk (hkm.trans m.lt_succ_self)

/-- One goroutine goes on alone, while the others wait for elements. -/
theorem fair_alone {j : ℕ} (halone : ∀ k, n ≤ k → schedule k = (j, .call))
    (hothers : ∀ i, i ≠ j → pending ((run isPrint outside domain l schedule n).machine.threads i) = none) (i : ℕ) :
    Locking.Fair (fun n => CanGoOn (run isPrint outside domain l schedule n) i) fun n => schedule n = (i, .call) := by
  intro hcan m
  obtain ⟨k, hk, hgo⟩ := hcan (max n m)
  have hn : n ≤ k := (le_max_left n m).trans hk
  by_cases hi : i = j
  · rw [hi] at hgo ⊢
    exact ⟨k, (le_max_right n m).trans hk, hgo, halone k hn⟩
  · have hidle : ∀ k', n ≤ k' → k' < k → (schedule k').1 ≠ i := by
      intro k' hk' _
      rw [halone k' hk']
      exact Ne.symm hi
    unfold CanGoOn at hgo
    rw [run_other hn hidle] at hgo
    exact absurd (hothers i hi) hgo.1

end

/-- The requester has asked for a subscription and has a session. -/
def asking : World :=
  { nothing with rosters := fun i => if i = 0 then { items := [⟨"b@x", [], "none", true⟩], loaded := true } else {} }

def approval : XmlNode := .mk "presence" [] [⟨"type", [], "subscribed"⟩, ⟨"to", [], "a@x"⟩] [] []

def authAs (text : Str) : XmlNode := .mk "auth" saslNS [⟨"mechanism", [], "PLAIN"⟩] [] text

/-- A session reads these elements and handles each by up to four calls. -/
def turns (i : ℕ) (ns : List XmlNode) : List (ℕ × Event) := ns.flatMap fun n => (i, .read n) :: List.replicate 4 (i, .call)

/-- The requester logs in, then the approver, who approves. -/
def events : List (ℕ × Event) :=
  turns 0 [header, authAs "AGEAcA==", header, bindRequest] ++ turns 1 [header, authAs "AGIAcA==", header, bindRequest, approval]

def approving (n : ℕ) : ℕ × Event := (events[n]?).getD (1, .call)

/-- The server at a time of this run. -/
def approved (n : ℕ) : Locked := run GoRosterFile.printable plainOutside "x" (start "x" asking) approving n

theorem approving_alone (k : ℕ) (hk : 45 ≤ k) : approving k = (1, .call) := by
  have hlength : events.length = 45 := rfl
  rw [approving, List.getElem?_eq_none (hlength ▸ hk)]
  rfl

theorem approving_users : ∀ x ∈ events, x.1 = 0 ∨ x.1 = 1 := by
  intro x hx
  rw [events, turns, turns, List.mem_append, List.mem_flatMap, List.mem_flatMap] at hx
  rcases hx with ⟨n, -, hx⟩ | ⟨n, -, hx⟩
  · left
    rcases List.mem_cons.mp hx with rfl | hx
    · rfl
    · rw [List.eq_of_mem_replicate hx]
  · right
    rcases List.mem_cons.mp hx with rfl | hx
    · rfl
    · rw [List.eq_of_mem_replicate hx]

set_option maxRecDepth 20000 in
theorem approving_others (i : ℕ) (hi : i ≠ 1) : pending ((approved 45).machine.threads i) = none := by
  by_cases h0 : i = 0
  · subst h0
    have h : (pending ((approved 45).machine.threads 0)).isNone = true := by decide +kernel
    exact Option.isNone_iff_eq_none.mp h
  · unfold approved
    rw [run_other (Nat.zero_le 45)]
    · rfl
    · intro k _ hk he
      have hlength : k < events.length := hk
      rw [approving, List.getElem?_eq_getElem hlength] at he
      rcases approving_users _ (List.getElem_mem hlength) with h | h
      · exact h0 (he.symm.trans h)
      · exact hi (he.symm.trans h)

set_option maxRecDepth 20000 in
theorem approving_fair (i : ℕ) : Locking.Fair (fun n => CanGoOn (approved n) i) fun n => approving n = (i, .call) :=
  fair_alone (n := 45) approving_alone approving_others i

/-- The roster a call writes for a session. -/
def written (t : ℕ) : Option Call → Option Roster
  | some (.setRoster u r) => if u = t then some r else none
  | _ => none

/-- No session writes its own roster while another goroutine has the lock of it. -/
def Undisturbed (l : Locked) (i : ℕ) (e : Event) : Prop :=
  (written i (requested (l.machine.threads i) e)).isSome = true → ∀ k ∈ l.holder i, k = i

instance (l : Locked) (i : ℕ) (e : Event) : Decidable (Undisturbed l i e) := inferInstanceAs (Decidable (_ → _))

/-- What a goroutine has seen of the roster it has locked is what is there. -/
structure Current (standings : ℕ → Standing) (l : Locked) : Prop where
  seen : ∀ i t r, (standings i).held = some t → (standings i).seen = some r → l.machine.world.rosters t = r
  fresh : ∀ i r, (standings i).fresh = some r → ∃ file, r = GoRosterFile.load file

section
variable {isPrint : Char → Bool} {outside : ℕ → (c : Call) → Result c} {domain : Str} {standings : ℕ → Standing}
  {l : Locked} {w : World} {i t : ℕ} {r : Roster}

theorem written_eq {c : Option Call} (h : written t c = some r) : c = some (.setRoster t r) := by
  unfold written at h
  split at h
  · split at h
    · next he =>
      cases h
      rw [he]
    · cases h
  · cases h

/-- Only its own write changes a cached roster. -/
theorem answer_rosters {c : Call} (h : ∀ r, c ≠ .setRoster t r) :
    (answer isPrint outside i c w).2.rosters t = w.rosters t := by
  cases c with
  | setRoster u x =>
      apply Function.update_of_ne
      rintro rfl
      exact h x rfl
  | create u x =>
      change (if outside w.clock (.create u x) = .ok then _ else w).rosters t = _
      split <;> rfl
  | unregister =>
      change (if w.registry (w.jid i) = some i then _ else w).rosters t = _
      split <;> rfl
  | _ => rfl

/-- What the monitor has seen after a call of the goroutine. -/
theorem after_seen {h : Standing} {c : Call}
    (hseen : ∀ t r, h.held = some t → h.seen = some r → w.rosters t = r)
    (hheld : ((monitor domain i).after h c (answer isPrint outside i c w).1).held = some t)
    (hafter : ((monitor domain i).after h c (answer isPrint outside i c w).1).seen = some r) :
    (answer isPrint outside i c w).2.rosters t = r := by
  cases hh : h.held with
  | none =>
      obtain ⟨user, proven, gone, held, seen, fresh⟩ := h
      cases hh
      cases c with
      | lock u => cases hafter
      | checkPassword u x =>
          revert hheld
          cases (answer isPrint outside i (.checkPassword u x) w).1 <;> exact fun hheld => nomatch hheld
      | _ => cases hheld
  | some u =>
      cases c with
      | roster v =>
          rw [answer_rosters fun _ => Call.noConfusion]
          rw [after_roster hh] at hheld hafter
          by_cases hv : v = u
          · rw [if_pos hv] at hheld hafter
            have ht : v = t := hv.trans (Option.some.inj (hh.symm.trans hheld))
            rw [← ht]
            exact Option.some.inj hafter
          · rw [if_neg hv] at hheld hafter
            exact hseen t r hheld hafter
      | setRoster v x =>
          have hset : (monitor domain i).after h (.setRoster v x) () = if v = u then _ else h := after_setRoster hh
          change ((monitor domain i).after h (.setRoster v x) ()).held = _ at hheld
          change ((monitor domain i).after h (.setRoster v x) ()).seen = _ at hafter
          rw [hset] at hheld hafter
          by_cases hv : v = u
          · rw [if_pos hv] at hheld hafter
            have ht : v = t := hv.trans (Option.some.inj (hh.symm.trans hheld))
            rw [← ht]
            exact (Function.update_self _ _ _).trans (Option.some.inj hafter)
          · rw [if_neg hv] at hheld hafter
            rw [answer_rosters]
            · exact hseen t r hheld hafter
            · rintro y ⟨⟩
              exact hv (Option.some.inj (hh.symm.trans hheld)).symm
      | unlock v =>
          obtain ⟨user, proven, gone, held, seen, fresh⟩ := h
          cases hh
          cases hheld
      | _ =>
          rw [answer_rosters fun _ => Call.noConfusion]
          obtain ⟨user, proven, gone, held, seen, fresh⟩ := h
          cases hh
          exact hseen t r hheld hafter

/-- What was loaded last was in some file. -/
theorem after_fresh (isPrint : Char → Bool) (outside : ℕ → (c : Call) → Result c) {h : Standing} {c : Call}
    (hfresh : ∀ r, h.fresh = some r → ∃ file, r = GoRosterFile.load file)
    (hafter : ((monitor domain i).after h c (answer isPrint outside i c w).1).fresh = some r) :
    ∃ file, r = GoRosterFile.load file := by
  cases hh : h.held with
  | none =>
      obtain ⟨user, proven, gone, held, seen, fresh⟩ := h
      cases hh
      cases c with
      | lock u => cases hafter
      | checkPassword u x =>
          revert hafter
          cases (answer isPrint outside i (.checkPassword u x) w).1 <;> exact hfresh r
      | _ => exact hfresh r hafter
  | some u =>
      cases c with
      | roster v =>
          rw [after_roster hh] at hafter
          split at hafter <;> exact hfresh r hafter
      | setRoster v x =>
          change ((monitor domain i).after h (.setRoster v x) ()).fresh = _ at hafter
          rw [after_setRoster hh] at hafter
          split at hafter
          · cases hafter
          · exact hfresh r hafter
      | load user =>
          obtain ⟨user', proven, gone, held, seen, fresh⟩ := h
          cases hh
          exact ⟨_, (Option.some.inj hafter).symm⟩
      | unlock v =>
          obtain ⟨user, proven, gone, held, seen, fresh⟩ := h
          cases hh
          cases hafter
      | _ =>
          obtain ⟨user, proven, gone, held, seen, fresh⟩ := h
          cases hh
          exact hfresh r hafter

theorem step_current (isPrint : Char → Bool) (outside : ℕ → (c : Call) → Result c) (ho : Orderly domain standings l)
    (hc : Current standings l) {e : Event} (hu : Undisturbed l i e) :
    Current (next isPrint outside domain standings l i e) (step isPrint outside domain l i e) := by
  unfold next step
  split
  · exact hc
  obtain ⟨haccepts, -⟩ := step_watched isPrint outside (ho.watched i) e
  rw [made_eq] at haccepts ⊢
  unfold Undisturbed at hu
  cases hreq : requested (l.machine.threads i) e with
  | none =>
      rw [Option.toList_none, List.map_nil, Monitor.final, List.foldl_nil, Function.update_eq_self]
      refine ⟨?_, hc.fresh⟩
      dsimp only
      rw [step_world, hreq]
      exact hc.seen
  | some c =>
      rw [hreq] at haccepts hu
      constructor
      · intro k t r hheld hseen
        dsimp only
        rw [step_world, hreq]
        by_cases hk : k = i
        · subst hk
          rw [Function.update_self] at hheld hseen
          exact after_seen (hc.seen k) hheld hseen
        · rw [Function.update_of_ne hk] at hheld hseen
          have hholder := (ho.holds t k).mpr hheld
          dsimp only
          rw [answer_rosters]
          · exact hc.seen k t r hheld hseen
          · rintro x rfl
            rcases haccepts.1 with rfl | ⟨hlock, -⟩
            · exact hk (hu (by simp [written]) k hholder)
            · have hown := (ho.holds t i).mpr hlock
              exact hk (Option.some.inj (hholder.symm.trans hown))
      · intro k r hfresh
        by_cases hk : k = i
        · subst hk
          rw [Function.update_self] at hfresh
          exact after_fresh isPrint outside (hc.fresh k) hfresh
        · rw [Function.update_of_ne hk] at hfresh
          exact hc.fresh k r hfresh

end

/-! ## Runs -/

section
variable {isPrint : Char → Bool} {outside : ℕ → (c : Call) → Result c} {domain : Str} {w : World}
  {schedule : ℕ → ℕ × Event} {i n : ℕ}

theorem run_current (h : ∀ k, k < n → Undisturbed (run isPrint outside domain (start domain w) schedule k) (schedule k).1
    (schedule k).2) : Current (standing isPrint outside domain w schedule n)
      (run isPrint outside domain (start domain w) schedule n) := by
  induction n with
  | zero =>
      constructor
      · rintro i t r ⟨⟩
      · rintro i r ⟨⟩
  | succ n ih =>
      rw [standing_succ]
      exact step_current isPrint outside (run_orderly isPrint outside domain w schedule n)
        (ih fun k hk => h k (hk.trans n.lt_succ_self)) (h n n.lt_succ_self)

end

end Xmppd.GoLocks
