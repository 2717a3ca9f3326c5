import Xmppd.SessionTable

/-!
# One pass over the poll table

After `poll` the server goes through its clients by index. A handler may tear sessions
down, its own or others, and each time the last entry of the table takes the place of
the one that goes, so the entry at the index may be another one after the call, or
none. Entries only ever move down, with what was reported for them, so a session that
has been handled stays behind the index and is not met again.
-/
namespace Xmppd.EventPass
open ServerState SessionTable

def pollErr : BitVec 16 := 8#16
def pollHup : BitVec 16 := 16#16

/-- `session_on_readable` or `session_on_writable`. -/
inductive Kind where
  | readable
  | writable
deriving DecidableEq, Repr

def Kind.bit : Kind → BitVec 16
  | .readable => pollIn
  | .writable => pollOut

/-- What a handler does to the table: everything but taking in a new client. -/
abbrev Effect := { op : Op // ∀ client alloc, op ≠ .accept client alloc }

/-- What the handlers do at successive calls, and what a teardown of the loop itself broadcasts. -/
structure Outside where
  react : ℕ → List Effect
  notices : ℕ → List Table.Notice

/-- The loop: its index, and the handlers called so far with their sessions. -/
structure Pass where
  table : Table
  i : ℕ
  clock : ℕ
  calls : List (Kind × ℕ)

namespace Pass

/-- `!sessions[i] || sessions[i]->state == STATE_DISCONNECTED`; `none` where the pointer leads nowhere. -/
def gone (s : Pass) : Option Bool :=
  match s.table.sessions s.i with
  | none => some true
  | some p => (s.table.heap p).map fun r => decide (r.state = .disconnected)

/-- The call of a handler on `sessions[i]`; `none` where the pointer leads nowhere. -/
def call (w : Outside) (kind : Kind) (s : Pass) : Option Pass :=
  match s.table.sessions s.i with
  | none => none
  | some p => (s.table.heap p).map fun _ =>
      { s with
        table := run s.table ((w.react s.clock).map Subtype.val)
        clock := s.clock + 1
        calls := s.calls ++ [(kind, p)] }

/-- The block of one handler, and whether it ends with `i--; continue`. -/
def handle (w : Outside) (kind : Kind) (s : Pass) : Option (Pass × Bool) :=
  if (s.table.pollfds s.i).revents &&& kind.bit = 0#16 then some (s, false)
  else do
    let s ← s.call w kind
    let gone ← s.gone
    some (s, gone)

/-- `i--; continue`, and the increment of the loop. -/
def stay (s : Pass) : Pass := { s with i := s.i - 1 + 1 }

def next (s : Pass) : Pass := { s with i := s.i + 1 }

/-- The body of the loop. -/
def turn (w : Outside) (s : Pass) : Option Pass :=
  match s.table.sessions s.i with
  | none => some s.next
  | some p =>
      if (s.table.pollfds s.i).revents &&& (pollErr ||| pollHup) ≠ 0#16 then
        (s.table.heap p).map fun _ =>
          stay { s with table := s.table.sessionTeardown p (w.notices s.clock), clock := s.clock + 1 }
      else
        (s.handle w .readable).bind fun (s, gone) =>
          if gone then some s.stay
          else
            (s.handle w .writable).bind fun (s, gone) => some (if gone then s.stay else s.next)

/-- The loop in at most so many turns; `none` where they do not suffice or a pointer leads nowhere. -/
def clients (w : Outside) : ℕ → Pass → Option Pass
  | 0, s => if s.i < s.table.nfds then none else some s
  | n+1, s => if s.i < s.table.nfds then (s.turn w).bind (clients w n) else some s

end Pass

/-- What `poll` leaves in the table. -/
def poll (t : Table) (revents : ℕ → BitVec 16) : Table :=
  { t with pollfds := fun i => { t.pollfds i with revents := revents i } }

/-- The loop as `server_run` starts it. -/
def start (t : Table) : Pass := ⟨t, 1, 0, []⟩

/-! ## Entries move down -/

/-- Of the first table records are left, at indices that are no higher and with what was
reported for them. -/
structure Lowered (t t' : Table) : Prop where
  nfds : t'.nfds ≤ t.nfds
  record : ∀ p r', t'.heap p = some r' → ∃ r, t.heap p = some r ∧ r'.fd = r.fd ∧ r'.pollIndex ≤ r.pollIndex ∧
    (t'.pollfds r'.pollIndex).revents = (t.pollfds r.pollIndex).revents

theorem Lowered.refl (t : Table) : Lowered t t := ⟨Nat.le_refl _, fun _ r' h => ⟨r', h, rfl, Nat.le_refl _, rfl⟩⟩

theorem Lowered.trans {a b c : Table} (hab : Lowered a b) (hbc : Lowered b c) : Lowered a c := by
  refine ⟨Nat.le_trans hbc.nfds hab.nfds, fun p r'' h => ?_⟩
  obtain ⟨r', hr', hfd', hle', hrev'⟩ := hbc.record p r'' h
  obtain ⟨r, hr, hfd, hle, hrev⟩ := hab.record p r' hr'
  exact ⟨r, hr, hfd'.trans hfd, Nat.le_trans hle' hle, hrev'.trans hrev⟩

/-- What was reported is as it was. -/
def SameReports (t t' : Table) : Prop := ∀ i, (t'.pollfds i).revents = (t.pollfds i).revents

theorem Lowered.of_sameShape {t t' : Table} (h : SameShape t t') (hrev : SameReports t t') : Lowered t t' := by
  refine ⟨Nat.le_of_eq h.nfds, fun p r' hr' => ?_⟩
  rcases h.records p with ⟨-, hnone⟩ | ⟨r, q, hr, hq, hfd, hindex, -⟩
  · rw [hnone] at hr'
    cases hr'
  · obtain rfl := Option.some.inj (hq.symm.trans hr')
    exact ⟨r, hr, hfd, Nat.le_of_eq hindex, by rw [hindex, hrev]⟩

section
variable (t : Table) (p : ℕ)

theorem setEvents_reports (i : ℕ) (f : BitVec 16 → BitVec 16) : SameReports t (t.setEvents i f) := by
  intro j
  unfold Table.setEvents
  split
  · by_cases hj : j = i
    · subst hj
      simp
    · simp [Function.update_of_ne hj]
  · rfl

theorem enqueue_reports (r : Record) (data : List UInt8) : SameReports t (t.enqueue p r data) :=
  setEvents_reports (t.setRecord p (Table.append r data)) _ _

theorem put_reports (data : List UInt8) (fill : ℕ → UInt8) : SameReports t (t.put p data fill) := by
  unfold Table.put
  split
  · exact fun _ => rfl
  split
  · exact fun _ => rfl
  split
  · exact enqueue_reports t p _ data
  · exact enqueue_reports t p _ data

theorem broadcast_reports (notices : List Table.Notice) : SameReports t (t.broadcast notices) := by
  unfold Table.broadcast
  induction notices generalizing t with
  | nil => exact fun _ => rfl
  | cons n ns ih => exact fun i => (ih _ i).trans (put_reports t n.dest n.data n.fill i)

theorem sessionFlush_reports (outcome : Table.Outcome) : SameReports t (t.sessionFlush p outcome) := by
  unfold Table.sessionFlush
  split
  · exact fun _ => rfl
  split
  · exact fun _ => rfl
  split
  · exact fun _ => rfl
  · exact fun _ => rfl
  dsimp only
  split
  · exact setEvents_reports (t.setRecord p _) _ _
  · exact fun _ => rfl

theorem enterState_reports (state : State) : SameReports t (t.enterState p state) := by
  unfold Table.enterState
  split
  · exact fun _ => rfl
  split
  · exact fun _ => rfl
  · exact fun _ => rfl

end

/-- The last entry takes the place of the one that goes, if it is not that one. -/
theorem remove_lowered {t : Table} {p : ℕ} {r : Record} (hw : WellFormed t) (hr : t.heap p = some r) :
    Lowered t (((t.disconnect p).serverRemoveSession p).sessionDestroy p) := by
  obtain ⟨hn, -, -, hpoll, hheap⟩ := remove_spec hw hr
  refine ⟨by omega, fun q s' hs' => ?_⟩
  rw [hheap] at hs'
  split at hs'
  · cases hs'
  split at hs'
  · next hne hlast =>
    obtain ⟨s, hs, rfl⟩ := Option.map_eq_some_iff.mp hs'
    obtain ⟨h1, h2⟩ := hw.index hr
    obtain ⟨-, -, s₀, hs₀, hx⟩ := hw.entry hlast
    obtain rfl := Option.some.inj (hs₀.symm.trans hs)
    have hapart : r.pollIndex ≠ t.nfds - 1 := by
      intro he
      have hp := (hw.home p r hr).1
      rw [he, hlast] at hp
      exact hne (Option.some.inj hp)
    refine ⟨s₀, hs, rfl, by dsimp only; omega, ?_⟩
    rw [hpoll, if_neg hapart, if_pos rfl, hx]
  · next hne hlast =>
    have hhome := (hw.home q s' hs').1
    have hapart : s'.pollIndex ≠ t.nfds - 1 := fun he => hlast (he ▸ hhome)
    have hother : s'.pollIndex ≠ r.pollIndex := by
      intro he
      have hp := (hw.home p r hr).1
      rw [← he, hhome] at hp
      exact hne (Option.some.inj hp)
    refine ⟨s', hs', rfl, Nat.le_refl _, ?_⟩
    rw [hpoll, if_neg hapart, if_neg hother]

section
variable {t : Table}

theorem disconnected_broadcast {p : ℕ} {r : Record} (hr : t.heap p = some r) (hs : r.state ≠ .disconnected)
    (notices : List Table.Notice) :
    ∃ r', (t.broadcast notices).heap p = some r' ∧
      t.sessionTeardown p notices = (((t.broadcast notices).disconnect p).serverRemoveSession p).sessionDestroy p := by
  obtain ⟨r', hr', -⟩ := broadcast_record hr notices
  refine ⟨r', hr', ?_⟩
  unfold Table.sessionTeardown
  rw [hr]
  dsimp only
  rw [if_neg hs]

theorem sessionTeardown_lowered (hw : WellFormed t) (p : ℕ) (notices : List Table.Notice) :
    Lowered t (t.sessionTeardown p notices) := by
  cases hr : t.heap p with
  | none =>
      have hsame : t.sessionTeardown p notices = t := by rw [Table.sessionTeardown, hr]
      rw [hsame]
      exact .refl t
  | some r =>
      obtain ⟨r', hr', heq⟩ := disconnected_broadcast hr (hw.record hr).1 notices
      have hshape := broadcast_sameShape t notices
      rw [heq]
      exact (Lowered.of_sameShape hshape (broadcast_reports t notices)).trans (remove_lowered (hshape.wellFormed hw) hr')

/-- A teardown of a session of the table makes the table shorter. -/
theorem sessionTeardown_nfds (hw : WellFormed t) {p : ℕ} {r : Record} (hr : t.heap p = some r) (notices : List Table.Notice) :
    (t.sessionTeardown p notices).nfds = t.nfds - 1 := by
  obtain ⟨r', hr', heq⟩ := disconnected_broadcast hr (hw.record hr).1 notices
  have hshape := broadcast_sameShape t notices
  rw [heq, (remove_spec (hshape.wellFormed hw) hr').1, hshape.nfds]

theorem sessionWrite_lowered (hw : WellFormed t) (p : ℕ) (data : List UInt8) (alloc : Option (ℕ → UInt8))
    (notices : List Table.Notice) : Lowered t (t.sessionWrite p data alloc notices) := by
  unfold Table.sessionWrite
  split
  · exact .refl t
  · exact .of_sameShape (put_sameShape t p data _) (put_reports t p data _)
  · next r hr =>
    split
    · exact .refl t
    split
    · exact sessionTeardown_lowered hw p notices
    · exact .of_sameShape (enqueue_sameShape data hr rfl rfl rfl) (enqueue_reports t p r data)

theorem effect_lowered (hw : WellFormed t) (e : Effect) : Lowered t (step t e.val) := by
  obtain ⟨op, hop⟩ := e
  cases op with
  | accept client alloc => exact absurd rfl (hop client alloc)
  | write p data alloc notices => exact sessionWrite_lowered hw p data alloc notices
  | flush p outcome => exact .of_sameShape (sessionFlush_sameShape t p outcome) (sessionFlush_reports t p outcome)
  | teardown p notices => exact sessionTeardown_lowered hw p notices
  | enter p state => exact .of_sameShape (enterState_sameShape t p state) (enterState_reports t p state)

/-- Whatever a handler does, entries only move down. -/
theorem effects_lowered (hw : WellFormed t) (es : List Effect) : Lowered t (run t (es.map Subtype.val)) := by
  induction es generalizing t with
  | nil => exact .refl t
  | cons e es ih => exact (effect_lowered hw e).trans (ih (step_wellFormed hw e.val))

/-- An entry past the end of the table is empty, and the others are not. -/
theorem sessions_isSome (hw : WellFormed t) {i : ℕ} (hi : 1 ≤ i) : (t.sessions i).isSome = true ↔ i < t.nfds := by
  constructor
  · intro h
    by_contra hge
    rw [hw.rest i (by omega)] at h
    cases h
  · intro hlt
    obtain ⟨p, -, hp, -⟩ := hw.slot i hi hlt
    rw [hp]
    rfl

end

/-! ## The pass -/

/-- `poll` reported the event for the session. -/
def Reported (t : Table) (kind : Kind) (p : ℕ) : Prop :=
  ∃ r, t.heap p = some r ∧ (t.pollfds r.pollIndex).revents &&& kind.bit ≠ 0#16

/-- What holds all along a pass over the table `t`. -/
structure Kept (t : Table) (s : Pass) : Prop where
  table : WellFormed s.table
  pos : 1 ≤ s.i
  lowered : Lowered t s.table
  once : s.calls.Nodup
  reported : ∀ c ∈ s.calls, Reported t c.1 c.2

/-- The sessions a handler was called on are behind the index. -/
def Behind (s : Pass) (kind : Kind) (bound : ℕ) : Prop :=
  ∀ p r, (kind, p) ∈ s.calls → s.table.heap p = some r → r.pollIndex < bound

/-- The table got no longer, and entries moved down. -/
theorem Behind.lowered {s s' : Pass} {kind : Kind} {b : ℕ} (h : Behind s kind b) (hl : Lowered s.table s'.table)
    (hcalls : ∀ p, (kind, p) ∈ s'.calls → (kind, p) ∈ s.calls) : Behind s' kind b := by
  intro p r' hp hr'
  obtain ⟨r, hr, -, hle, -⟩ := hl.record p r' hr'
  exact Nat.lt_of_le_of_lt hle (h p r (hcalls p hp) hr)

section
variable {t : Table} {s : Pass} (w : Outside)

/-- The session at the index, of which no call is recorded yet. -/
theorem call_kept (h : Kept t s) (hi : s.i < s.table.nfds) {kind : Kind} (hb : Behind s kind s.i)
    (hbit : (s.table.pollfds s.i).revents &&& kind.bit ≠ 0#16) :
    ∃ s' p, s.call w kind = some s' ∧ Kept t s' ∧ s'.i = s.i ∧ s'.calls = s.calls ++ [(kind, p)] ∧ Lowered s.table s'.table ∧
      Behind s' kind (s.i+1) := by
  obtain ⟨p, r, hp, hr, -, hindex, -⟩ := h.table.slot s.i h.pos hi
  have hlow := effects_lowered h.table (w.react s.clock)
  obtain ⟨r₀, hr₀, -, -, hrev⟩ := h.lowered.record p r hr
  have hnew : (kind, p) ∉ s.calls := by
    intro hm
    have hlt := hb p r hm hr
    omega
  have hcall : s.call w kind = some ⟨run s.table ((w.react s.clock).map Subtype.val), s.i, s.clock+1, s.calls ++ [(kind, p)]⟩ := by
    rw [Pass.call, hp]
    dsimp only
    rw [hr, Option.map_some]
  refine ⟨_, p, hcall, ?_, rfl, rfl, hlow, ?_⟩
  · refine ⟨run_wellFormed h.table _, h.pos, h.lowered.trans hlow, ?_, ?_⟩
    · exact List.nodup_append.mpr ⟨h.once, List.nodup_singleton _, fun c hc d hd he => hnew (List.mem_singleton.mp hd ▸ he ▸ hc)⟩
    · intro c hc
      rcases List.mem_append.mp hc with hc | hc
      · exact h.reported c hc
      · rw [List.mem_singleton.mp hc]
        refine ⟨r₀, hr₀, ?_⟩
        rw [← hrev, hindex]
        exact hbit
  · intro q r' hq hr'
    obtain ⟨r₁, hr₁, -, hle, -⟩ := hlow.record q r' hr'
    rcases List.mem_append.mp hq with hq | hq
    · have hlt := hb q r₁ hq hr₁
      omega
    · obtain rfl := (Prod.mk.inj (List.mem_singleton.mp hq)).2
      obtain rfl := Option.some.inj (hr.symm.trans hr₁)
      omega

/-- Whether there is still a session at the index. -/
theorem gone_eq (h : Kept t s) : s.gone = some (decide (s.table.nfds ≤ s.i)) := by
  unfold Pass.gone
  have hsome := sessions_isSome h.table h.pos
  cases hp : s.table.sessions s.i with
  | none =>
      rw [hp] at hsome
      have hge : s.table.nfds ≤ s.i := by
        by_contra hlt
        have hyes := hsome.mpr (by omega)
        cases hyes
      rw [decide_eq_true hge]
  | some p =>
      obtain ⟨-, hlt, r, hr, -⟩ := h.table.entry hp
      have hstate := (h.table.record hr).1
      dsimp only
      rw [hr, Option.map_some, decide_eq_false hstate, decide_eq_false (by omega)]

/-- What the block of one handler does. -/
structure Handled (t : Table) (s : Pass) (kind : Kind) (s' : Pass) (gone : Bool) : Prop where
  kept : Kept t s'
  index : s'.i = s.i
  lowered : Lowered s.table s'.table
  behind : Behind s' kind (s.i+1)
  others : ∀ other p, other ≠ kind → (other, p) ∈ s'.calls → (other, p) ∈ s.calls
  gone_iff : gone = true ↔ s'.table.nfds ≤ s'.i

theorem handle_kept (h : Kept t s) (hi : s.i < s.table.nfds) {kind : Kind} (hb : Behind s kind s.i) :
    ∃ s' gone, s.handle w kind = some (s', gone) ∧ Handled t s kind s' gone := by
  unfold Pass.handle
  by_cases hbit : (s.table.pollfds s.i).revents &&& kind.bit = 0#16
  · rw [if_pos hbit]
    refine ⟨s, false, rfl, h, rfl, .refl _, ?_, fun _ _ _ hm => hm, ?_⟩
    · exact fun p r hp hr => Nat.lt_succ_of_lt (hb p r hp hr)
    · exact iff_of_false (by decide) (by omega)
  · obtain ⟨s', p, hcall, hkept, hindex, hcalls, hlow, hbehind⟩ := call_kept w h hi hb hbit
    rw [if_neg hbit, hcall]
    simp only [Option.bind_eq_bind, Option.bind_some]
    rw [gone_eq hkept, Option.bind_some]
    refine ⟨s', _, rfl, hkept, hindex, hlow, hbehind, ?_, decide_eq_true_iff⟩
    intro other q hne hm
    rw [hcalls] at hm
    rcases List.mem_append.mp hm with hm | hm
    · exact hm
    · exact absurd (Prod.mk.inj (List.mem_singleton.mp hm)).1 hne

/-- Where a pass stands between two turns. -/
structure Between (t : Table) (s : Pass) : Prop where
  kept : Kept t s
  behind : ∀ kind, Behind s kind s.i

theorem stay_eq (h : 1 ≤ s.i) : s.stay = s := by
  have hi : s.i - 1 + 1 = s.i := Nat.sub_add_cancel h
  unfold Pass.stay
  rw [hi]

/-- With nobody left at the index, every session is behind it. -/
theorem between_of_gone (h : Kept t s) (hgone : s.table.nfds ≤ s.i) : Between t s := by
  refine ⟨h, fun kind p r _ hr => ?_⟩
  have hindex := (h.table.index hr).2
  omega

/-- One turn of the loop: it goes on to the next index, or the table got shorter. -/
theorem turn_between (h : Between t s) (hi : s.i < s.table.nfds) :
    ∃ s', s.turn w = some s' ∧ Between t s' ∧ s'.table.nfds - s'.i < s.table.nfds - s.i := by
  obtain ⟨p, r, hp, hr, -⟩ := h.kept.table.slot s.i h.kept.pos hi
  unfold Pass.turn
  rw [hp]
  dsimp only
  by_cases herr : (s.table.pollfds s.i).revents &&& (pollErr ||| pollHup) ≠ 0#16
  · have hlow := sessionTeardown_lowered h.kept.table p (w.notices s.clock)
    have hshort := sessionTeardown_nfds h.kept.table hr (w.notices s.clock)
    rw [if_pos herr, hr, Option.map_some]
    refine ⟨⟨s.table.sessionTeardown p (w.notices s.clock), s.i, s.clock+1, s.calls⟩, congrArg some (stay_eq h.kept.pos), ?_⟩
    refine ⟨⟨⟨sessionTeardown_wellFormed h.kept.table _ _, h.kept.pos, h.kept.lowered.trans hlow, h.kept.once, h.kept.reported⟩, ?_⟩, ?_⟩
    · exact fun kind => (h.behind kind).lowered hlow fun _ hm => hm
    · dsimp only
      omega
  rw [if_neg herr]
  obtain ⟨s₁, gone₁, h₁, d₁⟩ := handle_kept w h.kept hi (h.behind .readable)
  have hlen₁ := d₁.lowered.nfds
  have hindex₁ := d₁.index
  rw [h₁, Option.bind_some]
  dsimp only
  cases gone₁ with
  | true =>
      have hgone := d₁.gone_iff.mp rfl
      rw [if_pos rfl, stay_eq d₁.kept.pos]
      exact ⟨s₁, rfl, between_of_gone d₁.kept hgone, by omega⟩
  | false =>
      have hleft : s₁.i < s₁.table.nfds := by
        by_contra hge
        have hyes := d₁.gone_iff.mpr (by omega)
        cases hyes
      have hwritable : Behind s₁ .writable s₁.i := by
        rw [hindex₁]
        exact (h.behind .writable).lowered d₁.lowered fun p hm => d₁.others .writable p (by decide) hm
      obtain ⟨s₂, gone₂, h₂, d₂⟩ := handle_kept w d₁.kept hleft hwritable
      have hlen₂ := d₂.lowered.nfds
      have hindex₂ := d₂.index
      rw [if_neg (by decide), h₂, Option.bind_some]
      dsimp only
      cases gone₂ with
      | true =>
          have hgone := d₂.gone_iff.mp rfl
          rw [if_pos rfl, stay_eq d₂.kept.pos]
          exact ⟨s₂, rfl, between_of_gone d₂.kept hgone, by omega⟩
      | false =>
          have hreadable : Behind s₂ .readable (s.i+1) :=
            d₁.behind.lowered d₂.lowered fun p hm => d₂.others .readable p (by decide) hm
          have hwritten : Behind s₂ .writable (s.i+1) := by
            rw [← hindex₁]
            exact d₂.behind
          rw [if_neg (by decide)]
          refine ⟨s₂.next, rfl, ⟨⟨d₂.kept.table, Nat.le_add_left 1 s₂.i, d₂.kept.lowered, d₂.kept.once, d₂.kept.reported⟩, ?_⟩, ?_⟩
          · have hnext : s₂.next.i = s.i + 1 := by
              unfold Pass.next
              dsimp only
              omega
            rw [hnext]
            intro kind
            cases kind with
            | readable => exact hreadable
            | writable => exact hwritten
          · unfold Pass.next
            dsimp only
            omega

/-- As many turns suffice as there are entries from the index on. -/
theorem clients_between (n : ℕ) (h : Between t s) (hn : s.table.nfds - s.i ≤ n) :
    ∃ s', s.clients w n = some s' ∧ Between t s' ∧ s'.table.nfds ≤ s'.i := by
  induction n generalizing s with
  | zero =>
      have hend : ¬s.i < s.table.nfds := by omega
      rw [Pass.clients, if_neg hend]
      exact ⟨s, rfl, h, by omega⟩
  | succ n ih =>
      rw [Pass.clients]
      by_cases hi : s.i < s.table.nfds
      · obtain ⟨s', hturn, hbetween, hless⟩ := turn_between w h hi
        rw [if_pos hi, hturn, Option.bind_some]
        exact ih hbetween (by omega)
      · rw [if_neg hi]
        exact ⟨s, rfl, h, by omega⟩

end

theorem poll_wellFormed {t : Table} (hw : WellFormed t) (revents : ℕ → BitVec 16) : WellFormed (poll t revents) :=
  ⟨hw.pos, hw.cap, hw.listener, hw.slot, hw.rest, hw.home⟩

/-- The pass ends, on no pointer that leads nowhere, and every handler is called at most once on
a session, and only where its event was reported for it. -/
theorem pass_handles_once {t : Table} (hw : WellFormed t) (revents : ℕ → BitVec 16) (w : Outside) :
    ∀ n, t.nfds ≤ n → ∃ s, (start (poll t revents)).clients w n = some s ∧ s.calls.Nodup ∧
      ∀ c ∈ s.calls, ∃ r, t.heap c.2 = some r ∧ revents r.pollIndex &&& c.1.bit ≠ 0#16 := by
  intro n hn
  have hstart : Between (poll t revents) (start (poll t revents)) :=
    ⟨⟨poll_wellFormed hw revents, Nat.le_refl 1, .refl _, List.nodup_nil, fun c hc => absurd hc List.not_mem_nil⟩,
      fun kind p r hm _ => absurd hm List.not_mem_nil⟩
  have hfuel : (start (poll t revents)).table.nfds - (start (poll t revents)).i ≤ n := Nat.le_trans (Nat.sub_le _ _) hn
  obtain ⟨s, hs, hbetween, -⟩ := clients_between w n hstart hfuel
  exact ⟨s, hs, hbetween.kept.once, hbetween.kept.reported⟩

def twoClients : Table := ((serverInit 3).enroll 5 fun _ => 0).enroll 6 fun _ => 0

/-- The first handler that is called tears its session down. -/
def firstLeaves : Outside where
  react n := if n = 0 then [⟨.teardown 0 [], fun _ _ => Op.noConfusion⟩] else []
  notices _ := []

theorem first_leaves_once :
    WellFormed twoClients ∧ twoClients.nfds ≤ 3 ∧
      ∃ s, (start (poll twoClients fun _ => pollIn ||| pollOut)).clients firstLeaves 3 = some s ∧ s.calls.Nodup ∧
        ∀ c ∈ s.calls, ∃ r, twoClients.heap c.2 = some r ∧ (pollIn ||| pollOut) &&& c.1.bit ≠ 0#16 := by
  have hw : WellFormed twoClients :=
    enroll_wellFormed (enroll_wellFormed (serverInit_wellFormed 3) (by decide) 5 _) (by decide) 6 _
  exact ⟨hw, by decide, pass_handles_once hw _ firstLeaves 3 (by decide)⟩

/-- The second session is in the place of the first one when that has been read, and is not read. -/
example : ((start (poll twoClients fun _ => pollIn ||| pollOut)).clients firstLeaves 3).map Pass.calls =
    some [(.readable, 0), (.writable, 1)] := by
  decide

end Xmppd.EventPass
