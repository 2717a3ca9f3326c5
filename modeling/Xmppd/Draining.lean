import Xmppd.OutputQueue

/-!
# Everything queued is sent

The bytes the socket took and the bytes that were queued only become more, as long as the
session is there. Output is polled for while some is left, so that a socket which takes bytes
whenever it is polled long enough gets everything that was queued, or the session ends.
-/
namespace Xmppd.Draining
open ServerState SessionTable OutputQueue

/-- The table after so many operations. -/
def tableAt (t : Table) (ops : ℕ → Op) : ℕ → Table
  | 0 => t
  | n + 1 => step (tableAt t ops n) (ops n)

/-- Output is polled for on the entry of the session. -/
def Waiting (t : Table) (p : ℕ) : Prop := ∃ r, t.heap p = some r ∧ Polled t r

/-- The operation lets the socket of the session take some bytes. -/
def Takes (p : ℕ) (op : Op) : Prop := ∃ k, 0 < k ∧ op = .flush p (.took k)

/-- Of the sessions of the first table some are left, and with them what was sent and queued. -/
structure Grown (t t' : Table) : Prop where
  next : t.next ≤ t'.next
  record : ∀ p r', t'.heap p = some r' → p < t.next →
    ∃ r, t.heap p = some r ∧ r.sent <+: r'.sent ∧ r.queued <+: r'.queued

theorem Grown.refl (t : Table) : Grown t t :=
  ⟨Nat.le_refl _, fun _ r' h _ => ⟨r', h, List.prefix_refl _, List.prefix_refl _⟩⟩

theorem Grown.trans {a b c : Table} (hab : Grown a b) (hbc : Grown b c) : Grown a c := by
  refine ⟨hab.next.trans hbc.next, fun p r'' h hp => ?_⟩
  obtain ⟨r', hr', hsent', hqueued'⟩ := hbc.record p r'' h (Nat.lt_of_lt_of_le hp hab.next)
  obtain ⟨r, hr, hsent, hqueued⟩ := hab.record p r' hr' hp
  exact ⟨r, hr, hsent.trans hsent', hqueued.trans hqueued'⟩

section
variable {t : Table} {p : ℕ} {r r' : Record}

theorem setEvents_next (t : Table) (i : ℕ) (f : BitVec 16 → BitVec 16) : (t.setEvents i f).next = t.next := by
  unfold Table.setEvents
  split
  · rfl
  · rfl

theorem grown_setRecord (hr : t.heap p = some r) (hsent : r.sent <+: r'.sent) (hqueued : r.queued <+: r'.queued) :
    Grown t (t.setRecord p r') := by
  refine ⟨Nat.le_refl _, fun q s hs _ => ?_⟩
  by_cases hq : q = p
  · subst hq
    unfold Table.setRecord at hs
    dsimp only at hs
    rw [Function.update_self] at hs
    obtain rfl := Option.some.inj hs
    exact ⟨r, hr, hsent, hqueued⟩
  · unfold Table.setRecord at hs
    dsimp only at hs
    rw [Function.update_of_ne hq] at hs
    exact ⟨s, hs, List.prefix_refl _, List.prefix_refl _⟩

theorem grown_setEvents (t : Table) (i : ℕ) (f : BitVec 16 → BitVec 16) : Grown t (t.setEvents i f) := by
  refine ⟨Nat.le_of_eq (setEvents_next t i f).symm, fun q s hs _ => ?_⟩
  rw [setEvents_heap] at hs
  exact ⟨s, hs, List.prefix_refl _, List.prefix_refl _⟩

theorem grown_enqueue (data : List UInt8) (hr : t.heap p = some r) (hsent : r'.sent = r.sent) (hqueued : r'.queued = r.queued) :
    Grown t (t.enqueue p r' data) := by
  have hrecord : Grown t (t.setRecord p (Table.append r' data)) := by
    apply grown_setRecord hr
    · exact hsent ▸ List.prefix_refl r'.sent
    · exact hqueued ▸ List.prefix_append r'.queued data
  exact hrecord.trans (grown_setEvents _ _ _)

theorem grown_put (t : Table) (p : ℕ) (data : List UInt8) (fill : ℕ → UInt8) : Grown t (t.put p data fill) := by
  unfold Table.put
  split
  · exact .refl t
  next r hr =>
  split
  · exact .refl t
  split
  · exact grown_enqueue data hr rfl rfl
  · exact grown_enqueue data hr rfl rfl

theorem grown_broadcast (t : Table) (notices : List Table.Notice) : Grown t (t.broadcast notices) := by
  unfold Table.broadcast
  induction notices generalizing t with
  | nil => exact .refl t
  | cons n ns ih => exact (grown_put t n.dest n.data n.fill).trans (ih _)

theorem grown_remove (hw : WellFormed t) (hr : t.heap p = some r) :
    Grown t (((t.disconnect p).serverRemoveSession p).sessionDestroy p) := by
  obtain ⟨-, hnext, -, -, hheap⟩ := remove_spec hw hr
  refine ⟨Nat.le_of_eq hnext.symm, fun q s hs _ => ?_⟩
  rw [hheap] at hs
  split at hs
  · cases hs
  split at hs
  · obtain ⟨s₀, hs₀, rfl⟩ := Option.map_eq_some_iff.mp hs
    exact ⟨s₀, hs₀, List.prefix_refl _, List.prefix_refl _⟩
  · exact ⟨s, hs, List.prefix_refl _, List.prefix_refl _⟩

theorem grown_sessionTeardown (hw : WellFormed t) (p : ℕ) (notices : List Table.Notice) :
    Grown t (t.sessionTeardown p notices) := by
  unfold Table.sessionTeardown
  split
  · exact .refl t
  next r hr =>
  split
  · exact .refl t
  obtain ⟨r', hr', -⟩ := broadcast_record hr notices
  exact (grown_broadcast t notices).trans (grown_remove ((broadcast_sameShape t notices).wellFormed hw) hr')

theorem grown_sessionWrite (hw : WellFormed t) (p : ℕ) (data : List UInt8) (alloc : Option (ℕ → UInt8))
    (notices : List Table.Notice) : Grown t (t.sessionWrite p data alloc notices) := by
  unfold Table.sessionWrite
  split
  · exact .refl t
  · exact grown_put t p data _
  next r hr =>
  split
  · exact .refl t
  split
  · exact grown_sessionTeardown hw p notices
  · exact grown_enqueue data hr rfl rfl

theorem grown_sessionFlush (t : Table) (p : ℕ) (outcome : Table.Outcome) : Grown t (t.sessionFlush p outcome) := by
  unfold Table.sessionFlush
  split
  · exact .refl t
  next r hr =>
  split
  · exact .refl t
  split
  · exact .refl t
  · exact .refl t
  next k =>
  have hdrain : Grown t (t.setRecord p (Table.drain r (min k r.writeLen))) :=
    grown_setRecord hr (List.prefix_append _ _) (List.prefix_refl _)
  dsimp only
  split
  · exact hdrain.trans (grown_setEvents _ _ _)
  · exact hdrain

theorem grown_enterState (t : Table) (p : ℕ) (state : State) : Grown t (t.enterState p state) := by
  unfold Table.enterState
  split
  · exact .refl t
  next r hr =>
  split
  · exact .refl t
  · exact grown_setRecord hr (List.prefix_refl _) (List.prefix_refl _)

theorem grown_serverAccept (t : Table) (client : Option ℕ) (alloc : Option (ℕ → UInt8)) :
    Grown t (t.serverAccept client alloc) := by
  rcases serverAccept_cases t client alloc with he | ⟨fd, fill, -, he⟩
  · rw [he]
    exact .refl t
  rw [he]
  refine ⟨Nat.le_succ _, fun q s hs hq => ?_⟩
  unfold Table.enroll at hs
  dsimp only at hs
  rw [Function.update_of_ne (Nat.ne_of_lt hq)] at hs
  exact ⟨s, hs, List.prefix_refl _, List.prefix_refl _⟩

theorem grown_step (hw : WellFormed t) (op : Op) : Grown t (step t op) := by
  cases op with
  | accept client alloc => exact grown_serverAccept t client alloc
  | write p data alloc notices => exact grown_sessionWrite hw p data alloc notices
  | flush p outcome => exact grown_sessionFlush t p outcome
  | teardown p notices => exact grown_sessionTeardown hw p notices
  | enter p state => exact grown_enterState t p state

/-- The socket of a session with output left takes some of it. -/
theorem takes_sends {op : Op} (hq : Queue r) (hr : t.heap p = some r) (hleft : 0 < r.writeLen) (hop : Takes p op) :
    ∃ r', (step t op).heap p = some r' ∧ r.sent.length < r'.sent.length := by
  obtain ⟨k, hk, rfl⟩ := hop
  have hsize := hq.size
  have hfits := hq.fits
  have hmore : r.sent.length < (Table.drain r (min k r.writeLen)).sent.length := by
    unfold Table.drain
    simp only [List.length_append, List.length_take]
    omega
  refine ⟨Table.drain r (min k r.writeLen), ?_, hmore⟩
  rw [step, Table.sessionFlush, hr]
  dsimp only
  rw [if_neg (Nat.ne_of_gt hleft)]
  split
  · rw [setEvents_heap]
    exact Function.update_self _ _ _
  · exact Function.update_self _ _ _

end

/-! ## Runs without end -/

section
variable {listenFd : ℕ} {ops : ℕ → Op} {p n m : ℕ}

theorem tableAt_wellFormed : ∀ n, WellFormed (tableAt (serverInit listenFd) ops n)
  | 0 => serverInit_wellFormed listenFd
  | n + 1 => step_wellFormed (tableAt_wellFormed n) (ops n)

theorem tableAt_served : ∀ n, Served (tableAt (serverInit listenFd) ops n)
  | 0 => serverInit_served listenFd
  | n + 1 => step_served (tableAt_wellFormed n) (tableAt_served n) (ops n)

theorem tableAt_grown (h : n ≤ m) : Grown (tableAt (serverInit listenFd) ops n) (tableAt (serverInit listenFd) ops m) := by
  induction m, h using Nat.le_induction with
  | base => exact .refl _
  | succ m hm ih => exact ih.trans (grown_step (tableAt_wellFormed m) (ops m))

end

/-- A session whose socket takes bytes at some time, if output is polled for without end, gets
everything that was queued for it, or it ends. -/
theorem queued_is_sent (listenFd : ℕ) (ops : ℕ → Op) (p : ℕ)
    (hfair : ∀ n, (∀ m, n ≤ m → Waiting (tableAt (serverInit listenFd) ops m) p) → ∃ m, n ≤ m ∧ Takes p (ops m))
    (n : ℕ) (r : Record) (hr : (tableAt (serverInit listenFd) ops n).heap p = some r) :
    ∃ m, n ≤ m ∧ ∀ r', (tableAt (serverInit listenFd) ops m).heap p = some r' → r.queued <+: r'.sent := by
  by_contra hnever
  have hthere : ∀ m, n ≤ m → ∃ r', (tableAt (serverInit listenFd) ops m).heap p = some r' ∧ Queue r' ∧
      r'.sent.length < r.queued.length ∧ Waiting (tableAt (serverInit listenFd) ops m) p ∧ 0 < r'.writeLen := by
    intro m hm
    have hnot : ¬∀ r', (tableAt (serverInit listenFd) ops m).heap p = some r' → r.queued <+: r'.sent :=
      fun h => hnever ⟨m, hm, h⟩
    obtain ⟨r', hnot⟩ := not_forall.mp hnot
    obtain ⟨hr', hunsent⟩ := Classical.not_imp.mp hnot
    obtain ⟨r₀, hr₀, -, hqueued⟩ := (tableAt_grown hm).record p r' hr' ((tableAt_wellFormed n).home p r hr).2
    obtain rfl := Option.some.inj (hr.symm.trans hr₀)
    obtain ⟨hq, hpolled⟩ := tableAt_served m p r' hr'
    have hsent : r'.sent <+: r'.queued := hq.content ▸ List.prefix_append _ _
    have hless : r'.sent.length < r.queued.length := by
      by_contra hge
      exact hunsent (List.prefix_of_prefix_length_le hqueued hsent (by omega))
    have hleft : 0 < r'.writeLen := by
      have hlong := hqueued.length_le
      rw [← hq.content, List.length_append, List.length_take] at hlong
      omega
    exact ⟨r', hr', hq, hless, ⟨r', hr', hpolled.mpr hleft⟩, hleft⟩
  have hmore : ∀ b, ∃ m, n ≤ m ∧ ∃ r', (tableAt (serverInit listenFd) ops m).heap p = some r' ∧ b ≤ r'.sent.length := by
    intro b
    induction b with
    | zero => exact ⟨n, Nat.le_refl n, r, hr, Nat.zero_le _⟩
    | succ b ih =>
        obtain ⟨m, hm, r₁, hr₁, hb⟩ := ih
        obtain ⟨k, hk, htakes⟩ := hfair m fun k hk => by
          obtain ⟨-, -, -, -, hwaiting, -⟩ := hthere k (hm.trans hk)
          exact hwaiting
        obtain ⟨r₂, hr₂, hq, -, -, hleft⟩ := hthere k (hm.trans hk)
        obtain ⟨r₀, hr₀, hsent, -⟩ := (tableAt_grown hk).record p r₂ hr₂ ((tableAt_wellFormed m).home p r₁ hr₁).2
        obtain rfl := Option.some.inj (hr₁.symm.trans hr₀)
        obtain ⟨r₃, hr₃, hgrown⟩ := takes_sends hq hr₂ hleft htakes
        have hlong := hsent.length_le
        exact ⟨k + 1, by omega, r₃, hr₃, by omega⟩
  obtain ⟨m, hm, r₁, hr₁, hall⟩ := hmore r.queued.length
  obtain ⟨r₂, hr₂, -, hless, -⟩ := hthere m hm
  obtain rfl := Option.some.inj (hr₁.symm.trans hr₂)
  omega

/-- A client joins, two bytes are queued for it, and from then on its socket takes them one by one. -/
def oneByOne : ℕ → Op
  | 0 => .accept (some 5) (some fun _ => 0)
  | 1 => .write 0 [10, 11] (some fun _ => 0) []
  | _ => .flush 0 (.took 1)

theorem oneByOne_sent : ∃ m, 2 ≤ m ∧ ∀ r, (tableAt (serverInit 3) oneByOne m).heap 0 = some r → [10, 11] <+: r.sent := by
  have hqueued : ((tableAt (serverInit 3) oneByOne 2).heap 0).map Record.queued = some [10, 11] := by decide +kernel
  obtain ⟨r, hr, he⟩ := Option.map_eq_some_iff.mp hqueued
  have hfair : ∀ n, (∀ m, n ≤ m → Waiting (tableAt (serverInit 3) oneByOne m) 0) → ∃ m, n ≤ m ∧ Takes 0 (oneByOne m) :=
    fun n _ => ⟨n + 2, Nat.le_add_right n 2, 1, Nat.one_pos, rfl⟩
  have hsent := queued_is_sent 3 oneByOne 0 hfair 2 r hr
  rw [he] at hsent
  exact hsent

end Xmppd.Draining
