import Mathlib.Data.List.Range
import Mathlib.Logic.Function.Basic
import Xmppd.ServerState

/-!
# The poll table

The arrays of the event loop as the source keeps them: `pollfds` and `sessions`
are indexed in parallel, the listener occupies index zero, a removed entry is
replaced by the last one, and a session stores its own index. Sessions are
records on a heap and a pointer is a number that is never handed out twice, so
a freed record is one whose pointer leads nowhere. Each record owns its output
buffer. The last two fields of a record are not in the source: they are the
bytes the socket took and the bytes that were queued.

A write that finds no memory for a larger buffer tears its session down. The
writes of an unavailable broadcast find memory.
-/
namespace Xmppd.SessionTable
open ServerState

def pollIn : BitVec 16 := 1#16
def pollOut : BitVec 16 := 4#16
def writeBufInit : ℕ := 8192

structure PollFd where
  fd : ℤ
  events : BitVec 16
  revents : BitVec 16
deriving DecidableEq, Repr

def PollFd.zero : PollFd := ⟨0, 0#16, 0#16⟩

structure Record where
  fd : ℕ
  state : State
  pollIndex : ℕ
  writeBuf : List UInt8
  writeLen : ℕ
  writeCap : ℕ
  sent : List UInt8
  queued : List UInt8
deriving DecidableEq, Repr

structure Table where
  pollfds : ℕ → PollFd
  sessions : ℕ → Option ℕ
  nfds : ℕ
  heap : ℕ → Option Record
  next : ℕ

/-- The arrays left by `server_init`. -/
def serverInit (listenFd : ℕ) : Table :=
  { pollfds := Function.update (fun _ => PollFd.zero) 0 ⟨listenFd, pollIn, 0#16⟩
    sessions := fun _ => none
    nfds := 1
    heap := fun _ => none
    next := 0 }

/-- Copying `data` into a buffer at an offset; nothing is stored past its end. -/
def memcpy (buf : List UInt8) (offset : ℕ) (data : List UInt8) : List UInt8 :=
  (buf.take offset ++ data ++ buf.drop (offset + data.length)).take buf.length

/-- Moving the bytes from `n` on to the front of a buffer. -/
def memmove (buf : List UInt8) (n len : ℕ) : List UInt8 :=
  memcpy buf 0 ((buf.drop n).take (len - n))

/-- A buffer of the new size that starts with the old one; `fill` is what the
new memory holds. -/
def realloc (buf : List UInt8) (size : ℕ) (fill : ℕ → UInt8) : List UInt8 :=
  buf ++ (List.range (size - buf.length)).map fill

namespace Table

def setRecord (t : Table) (p : ℕ) (r : Record) : Table :=
  { t with heap := Function.update t.heap p (some r) }

/-- Changing the requested events of one entry. -/
def setEvents (t : Table) (i : ℕ) (f : BitVec 16 → BitVec 16) : Table :=
  if i < Server.maxClients then
    { t with pollfds := Function.update t.pollfds i { t.pollfds i with events := f (t.pollfds i).events } }
  else t

/-- `session_create`, with what the new buffer holds. -/
def sessionCreate (fd : ℕ) (fill : ℕ → UInt8) : Record :=
  { fd := fd, state := .connected, pollIndex := 0, writeBuf := realloc [] writeBufInit fill, writeLen := 0
    writeCap := writeBufInit, sent := [], queued := [] }

/-- The end of `server_accept`: the new session takes the entry past the last one. -/
def enroll (t : Table) (fd : ℕ) (fill : ℕ → UInt8) : Table :=
  { heap := Function.update t.heap t.next (some { sessionCreate fd fill with pollIndex := t.nfds })
    pollfds := Function.update t.pollfds t.nfds ⟨fd, pollIn, 0#16⟩
    sessions := Function.update t.sessions t.nfds (some t.next)
    nfds := t.nfds + 1
    next := t.next + 1 }

/-- `server_accept`. The client is what `accept` returned and `alloc` the memory
found for the session, if any. -/
def serverAccept (t : Table) (client : Option ℕ) (alloc : Option (ℕ → UInt8)) : Table :=
  match client with
  | none => t
  | some fd =>
      if Server.maxClients ≤ t.nfds then t
      else
        match alloc with
        | none => t
        | some fill => t.enroll fd fill

/-- The size asked for when `len` more bytes do not fit. -/
def newCap (r : Record) (len : ℕ) : ℕ :=
  if r.writeCap * 2 < r.writeLen + len then r.writeLen + len else r.writeCap * 2

def grow (r : Record) (len : ℕ) (fill : ℕ → UInt8) : Record :=
  { r with writeBuf := realloc r.writeBuf (newCap r len) fill, writeCap := newCap r len }

def append (r : Record) (data : List UInt8) : Record :=
  { r with
    writeBuf := memcpy r.writeBuf r.writeLen data
    writeLen := r.writeLen + data.length
    queued := r.queued ++ data }

/-- The end of `session_write`: the bytes are copied and output is asked for. -/
def enqueue (t : Table) (p : ℕ) (r : Record) (data : List UInt8) : Table :=
  (t.setRecord p (append r data)).setEvents r.pollIndex fun e => e ||| pollOut

def Overflows (r : Record) (data : List UInt8) : Prop := r.writeCap < r.writeLen + data.length

instance (r : Record) (data : List UInt8) : Decidable (Overflows r data) :=
  inferInstanceAs (Decidable (_ < _))

/-- `session_write` where memory is found. -/
def put (t : Table) (p : ℕ) (data : List UInt8) (fill : ℕ → UInt8) : Table :=
  match t.heap p with
  | none => t
  | some r =>
      if data = [] then t
      else if Overflows r data then t.enqueue p (grow r data.length fill) data
      else t.enqueue p r data

/-- `server_remove_session`. -/
def serverRemoveSession (t : Table) (p : ℕ) : Table :=
  match t.heap p with
  | none => t
  | some r =>
      let idx := r.pollIndex
      if idx < 1 ∨ t.nfds ≤ idx then t
      else
        let last := t.nfds - 1
        let moved :=
          if idx = last then t
          else
            { t with
              pollfds := Function.update t.pollfds idx (t.pollfds last)
              sessions := Function.update t.sessions idx (t.sessions last)
              heap :=
                match t.sessions last with
                | none => t.heap
                | some q => Function.update t.heap q ((t.heap q).map fun s => { s with pollIndex := idx }) }
        { moved with
          pollfds := Function.update moved.pollfds last ⟨-1, 0#16, 0#16⟩
          sessions := Function.update moved.sessions last none
          nfds := t.nfds - 1 }

/-- `session_destroy`. -/
def sessionDestroy (t : Table) (p : ℕ) : Table := { t with heap := Function.update t.heap p none }

/-- One write of an unavailable broadcast. -/
structure Notice where
  dest : ℕ
  data : List UInt8
  fill : ℕ → UInt8

def broadcast (t : Table) (notices : List Notice) : Table :=
  notices.foldl (fun t n => t.put n.dest n.data n.fill) t

def disconnect (t : Table) (p : ℕ) : Table :=
  { t with heap := Function.update t.heap p ((t.heap p).map fun r => { r with state := State.disconnected }) }

/-- `session_teardown`, with the writes of its unavailable broadcast. -/
def sessionTeardown (t : Table) (p : ℕ) (notices : List Notice) : Table :=
  match t.heap p with
  | none => t
  | some r =>
      if r.state = .disconnected then t
      else
        (((t.broadcast notices).disconnect p).serverRemoveSession p).sessionDestroy p

/-- `session_write`. Growing the buffer may fail, and the session is torn down. -/
def sessionWrite (t : Table) (p : ℕ) (data : List UInt8) (alloc : Option (ℕ → UInt8)) (notices : List Notice) : Table :=
  match t.heap p, alloc with
  | none, _ => t
  | some _, some fill => t.put p data fill
  | some r, none =>
      if data = [] then t
      else if Overflows r data then t.sessionTeardown p notices
      else t.enqueue p r data

/-- What `write` returns: it took some of the bytes, at most all of them, would
block, or failed. -/
inductive Outcome where
  | took (n : ℕ)
  | again
  | failed
deriving DecidableEq, Repr

/-- The record after the socket took the first `n` bytes of the buffer. -/
def drain (r : Record) (n : ℕ) : Record :=
  { r with
    sent := r.sent ++ (r.writeBuf.take r.writeLen).take n
    writeBuf := if n < r.writeLen then memmove r.writeBuf n r.writeLen else r.writeBuf
    writeLen := r.writeLen - n }

/-- `session_flush`. -/
def sessionFlush (t : Table) (p : ℕ) (outcome : Outcome) : Table :=
  match t.heap p with
  | none => t
  | some r =>
      if r.writeLen = 0 then t
      else
        match outcome with
        | .again => t
        | .failed => t
        | .took k =>
            let n := min k r.writeLen
            let t := t.setRecord p (drain r n)
            if r.writeLen - n = 0 then t.setEvents r.pollIndex fun e => e &&& ~~~pollOut else t

/-- A handler gives its session another state; only the teardown disconnects. -/
def enterState (t : Table) (p : ℕ) (state : State) : Table :=
  match t.heap p with
  | none => t
  | some r => if state = .disconnected then t else t.setRecord p { r with state := state }

end Table

/-- What the program does to the table. -/
inductive Op where
  | accept (client : Option ℕ) (alloc : Option (ℕ → UInt8))
  | write (p : ℕ) (data : List UInt8) (alloc : Option (ℕ → UInt8)) (notices : List Table.Notice)
  | flush (p : ℕ) (outcome : Table.Outcome)
  | teardown (p : ℕ) (notices : List Table.Notice)
  | enter (p : ℕ) (state : State)

def step (t : Table) : Op → Table
  | .accept client alloc => t.serverAccept client alloc
  | .write p data alloc notices => t.sessionWrite p data alloc notices
  | .flush p outcome => t.sessionFlush p outcome
  | .teardown p notices => t.sessionTeardown p notices
  | .enter p state => t.enterState p state

def run (t : Table) (ops : List Op) : Table := ops.foldl step t

/-- The table invariant, without the entries past the end. -/
structure WellFormed (t : Table) : Prop where
  pos : 1 ≤ t.nfds
  cap : t.nfds ≤ Server.maxClients
  listener : t.sessions 0 = none
  slot : ∀ i, 1 ≤ i → i < t.nfds → ∃ p r, t.sessions i = some p ∧ t.heap p = some r ∧
    r.state ≠ .disconnected ∧ r.pollIndex = i ∧ (t.pollfds i).fd = r.fd
  rest : ∀ i, t.nfds ≤ i → t.sessions i = none
  home : ∀ p r, t.heap p = some r → t.sessions r.pollIndex = some p ∧ p < t.next

theorem serverInit_wellFormed (listenFd : ℕ) : WellFormed (serverInit listenFd) := by
  constructor
  · exact Nat.le_refl 1
  · change 1 ≤ 16
    omega
  · rfl
  · intro i h1 h2
    simp only [serverInit] at h2
    omega
  · intro i _
    rfl
  · intro p r hr
    simp [serverInit] at hr

section
variable {t : Table} {p : ℕ} {r : Record}

theorem WellFormed.index (h : WellFormed t) (hr : t.heap p = some r) :
    1 ≤ r.pollIndex ∧ r.pollIndex < t.nfds := by
  have hs := (h.home p r hr).1
  constructor
  · by_contra hn
    have h0 : r.pollIndex = 0 := by omega
    rw [h0, h.listener] at hs
    exact absurd hs (by simp)
  · by_contra hn
    rw [h.rest _ (by omega)] at hs
    exact absurd hs (by simp)

/-- A record is one of the table, at its own index. -/
theorem WellFormed.record (h : WellFormed t) (hr : t.heap p = some r) :
    r.state ≠ .disconnected ∧ (t.pollfds r.pollIndex).fd = r.fd := by
  obtain ⟨h1, h2⟩ := h.index hr
  obtain ⟨q, s, hq, hs, hst, -, hfd⟩ := h.slot _ h1 h2
  have hqp : q = p := by
    have := (h.home p r hr).1
    rw [hq] at this
    exact Option.some.inj this
  subst hqp
  rw [hr] at hs
  cases hs
  exact ⟨hst, hfd⟩

theorem WellFormed.entry (h : WellFormed t) {i : ℕ} (hi : t.sessions i = some p) :
    1 ≤ i ∧ i < t.nfds ∧ ∃ s, t.heap p = some s ∧ s.pollIndex = i := by
  have h1 : 1 ≤ i := by
    by_contra hn
    have h0 : i = 0 := by omega
    rw [h0, h.listener] at hi
    exact absurd hi (by simp)
  have h2 : i < t.nfds := by
    by_contra hn
    rw [h.rest _ (by omega)] at hi
    exact absurd hi (by simp)
  obtain ⟨q, s, hq, hs, -, hx, -⟩ := h.slot i h1 h2
  rw [hi] at hq
  cases hq
  exact ⟨h1, h2, s, hs, hx⟩

end

/-- The second table has the entries of the first, and its records differ in
their buffers and in a state that does not disconnect. -/
structure SameShape (t t' : Table) : Prop where
  nfds : t'.nfds = t.nfds
  sessions : t'.sessions = t.sessions
  next : t'.next = t.next
  fds : ∀ i, (t'.pollfds i).fd = (t.pollfds i).fd
  records : ∀ p, (t.heap p = none ∧ t'.heap p = none) ∨ ∃ r r', t.heap p = some r ∧ t'.heap p = some r' ∧
    r'.fd = r.fd ∧ r'.pollIndex = r.pollIndex ∧ (r'.state = .disconnected → r.state = .disconnected)

namespace SameShape
variable {t t' t'' : Table}

theorem refl (t : Table) : SameShape t t := by
  constructor
  · rfl
  · rfl
  · rfl
  · intro i
    rfl
  · intro p
    cases h : t.heap p with
    | none => exact Or.inl ⟨rfl, rfl⟩
    | some r => exact Or.inr ⟨r, r, rfl, rfl, rfl, rfl, id⟩

theorem trans (h : SameShape t t') (h' : SameShape t' t'') : SameShape t t'' := by
  constructor
  · rw [h'.nfds, h.nfds]
  · rw [h'.sessions, h.sessions]
  · rw [h'.next, h.next]
  · intro i
    rw [h'.fds, h.fds]
  · intro p
    rcases h.records p with ⟨hn, hn'⟩ | ⟨r, r', hr, hr', hf, hx, hs⟩
    · rcases h'.records p with ⟨_, hn''⟩ | ⟨r, r', hr, _⟩
      · exact Or.inl ⟨hn, hn''⟩
      · rw [hn'] at hr
        cases hr
    · rcases h'.records p with ⟨hn, _⟩ | ⟨q, q', hq, hq', hf', hx', hs'⟩
      · rw [hr'] at hn
        cases hn
      · rw [hr'] at hq
        cases hq
        exact Or.inr ⟨r, q', hr, hq', hf'.trans hf, hx'.trans hx, fun h => hs (hs' h)⟩

theorem setRecord {t : Table} {p : ℕ} {r r' : Record} (hr : t.heap p = some r) (hf : r'.fd = r.fd)
    (hx : r'.pollIndex = r.pollIndex) (hs : r'.state = .disconnected → r.state = .disconnected) :
    SameShape t (t.setRecord p r') := by
  constructor
  · rfl
  · rfl
  · rfl
  · intro i
    rfl
  · intro q
    by_cases hq : q = p
    · subst hq
      exact Or.inr ⟨r, r', hr, by simp [Table.setRecord], hf, hx, hs⟩
    · simp only [Table.setRecord, Function.update_of_ne hq]
      exact (refl t).records q

theorem setEvents (t : Table) (i : ℕ) (f : BitVec 16 → BitVec 16) : SameShape t (t.setEvents i f) := by
  unfold Table.setEvents
  split
  · constructor
    · rfl
    · rfl
    · rfl
    · intro j
      by_cases hj : j = i
      · subst hj
        simp
      · simp [Function.update_of_ne hj]
    · exact (refl t).records
  · exact refl t

end SameShape

theorem SameShape.wellFormed {t t' : Table} (h : SameShape t t') (hw : WellFormed t) : WellFormed t' := by
  constructor
  · rw [h.nfds]
    exact hw.pos
  · rw [h.nfds]
    exact hw.cap
  · rw [h.sessions]
    exact hw.listener
  · intro i h1 h2
    rw [h.nfds] at h2
    obtain ⟨p, r, hp, hr, hs, hx, hf⟩ := hw.slot i h1 h2
    rcases h.records p with ⟨hn, _⟩ | ⟨q, q', hq, hq', hqf, hqx, hqs⟩
    · rw [hr] at hn
      cases hn
    · rw [hr] at hq
      cases hq
      refine ⟨p, q', by rw [h.sessions, hp], hq', fun hd => hs (hqs hd), hqx.trans hx, ?_⟩
      rw [h.fds, hf, hqf]
  · intro i hi
    rw [h.nfds] at hi
    rw [h.sessions]
    exact hw.rest i hi
  · intro p r' hr'
    rcases h.records p with ⟨_, hn⟩ | ⟨q, q', hq, hq', -, hqx, -⟩
    · rw [hr'] at hn
      cases hn
    · rw [hr'] at hq'
      cases hq'
      rw [h.sessions, hqx, h.next]
      exact hw.home p q hq

theorem enqueue_sameShape {t : Table} {p : ℕ} {r r' : Record} (data : List UInt8) (hr : t.heap p = some r)
    (hf : r'.fd = r.fd) (hx : r'.pollIndex = r.pollIndex) (hs : r'.state = r.state) :
    SameShape t (t.enqueue p r' data) := by
  have h : SameShape t (t.setRecord p (Table.append r' data)) :=
    SameShape.setRecord hr hf hx (by intro hd; rw [← hs]; exact hd)
  exact h.trans (SameShape.setEvents _ _ _)

theorem put_sameShape (t : Table) (p : ℕ) (data : List UInt8) (fill : ℕ → UInt8) :
    SameShape t (t.put p data fill) := by
  unfold Table.put
  split
  · exact SameShape.refl t
  · next r hr =>
    split
    · exact SameShape.refl t
    · split
      · exact enqueue_sameShape data hr rfl rfl rfl
      · exact enqueue_sameShape data hr rfl rfl rfl

theorem broadcast_sameShape (t : Table) (notices : List Table.Notice) :
    SameShape t (t.broadcast notices) := by
  unfold Table.broadcast
  induction notices generalizing t with
  | nil => exact SameShape.refl t
  | cons n ns ih => exact (put_sameShape t n.dest n.data n.fill).trans (ih _)

theorem sessionFlush_sameShape (t : Table) (p : ℕ) (outcome : Table.Outcome) :
    SameShape t (t.sessionFlush p outcome) := by
  unfold Table.sessionFlush
  split
  · exact SameShape.refl t
  · next r hr =>
    split
    · exact SameShape.refl t
    · split
      · exact SameShape.refl t
      · exact SameShape.refl t
      · next k =>
        have h : SameShape t (t.setRecord p (Table.drain r (min k r.writeLen))) :=
          SameShape.setRecord hr rfl rfl id
        simp only
        split
        · exact h.trans (SameShape.setEvents _ _ _)
        · exact h

theorem enterState_sameShape (t : Table) (p : ℕ) (state : State) : SameShape t (t.enterState p state) := by
  unfold Table.enterState
  split
  · exact SameShape.refl t
  · next r hr =>
    split
    · exact SameShape.refl t
    · next hs => exact SameShape.setRecord hr rfl rfl (fun hd => absurd hd hs)

/-- What a teardown leaves: the last entry in the place of the removed one, and
no record behind the pointer. -/
theorem remove_spec {t : Table} {p : ℕ} {r : Record} (hw : WellFormed t) (hr : t.heap p = some r) :
    let t' := ((t.disconnect p).serverRemoveSession p).sessionDestroy p
    t'.nfds = t.nfds - 1 ∧ t'.next = t.next ∧
    (∀ i, t'.sessions i =
      if i = t.nfds - 1 then none else if i = r.pollIndex then t.sessions (t.nfds - 1) else t.sessions i) ∧
    (∀ i, t'.pollfds i =
      if i = t.nfds - 1 then ⟨-1, 0#16, 0#16⟩
      else if i = r.pollIndex then t.pollfds (t.nfds - 1) else t.pollfds i) ∧
    (∀ q, t'.heap q =
      if q = p then none
      else if t.sessions (t.nfds - 1) = some q then (t.heap q).map fun s => { s with pollIndex := r.pollIndex }
      else t.heap q) := by
  have hx := hw.index hr
  have hd : (t.disconnect p).heap p = some { r with state := State.disconnected } := by
    simp [Table.disconnect, hr]
  have hin : ¬(({ r with state := State.disconnected } : Record).pollIndex < 1 ∨
      (t.disconnect p).nfds ≤ ({ r with state := State.disconnected } : Record).pollIndex) := by
    change ¬(r.pollIndex < 1 ∨ t.nfds ≤ r.pollIndex)
    omega
  have hp := (hw.home p r hr).1
  simp only [Table.serverRemoveSession, hd, if_neg hin]
  by_cases hl : r.pollIndex = t.nfds - 1
  · simp only [Table.disconnect, Table.sessionDestroy, hl, if_true, true_and]
    rw [hl] at hp
    constructor
    · intro i
      by_cases hi : i = t.nfds - 1
      · simp [hi]
      · simp [hi]
    constructor
    · intro i
      by_cases hi : i = t.nfds - 1
      · simp [hi]
      · simp [hi]
    · intro q
      by_cases hq : q = p
      · simp [hq]
      · simp [hq, hp, Ne.symm hq]
  · have hlast : t.nfds - 1 < t.nfds := by omega
    obtain ⟨q₀, s, hq₀, hs, -, hsx, -⟩ := hw.slot (t.nfds - 1) (by omega) hlast
    have hne : q₀ ≠ p := by
      intro he
      rw [he, hr] at hs
      cases hs
      exact hl hsx
    simp only [Table.disconnect, Table.sessionDestroy, hl, if_false, hq₀, true_and]
    constructor
    · intro i
      by_cases hi : i = t.nfds - 1
      · simp [hi]
      · by_cases hj : i = r.pollIndex
        · simp [hj, hl]
        · simp [hi, hj]
    constructor
    · intro i
      by_cases hi : i = t.nfds - 1
      · simp [hi]
      · by_cases hj : i = r.pollIndex
        · simp [hj, hl]
        · simp [hi, hj]
    · intro q
      by_cases hq : q = p
      · simp [hq]
      · by_cases hq' : q = q₀
        · simp [hq', hne]
        · simp [hq, hq', Ne.symm hq']

theorem remove_wellFormed {t : Table} {p : ℕ} {r : Record} (hw : WellFormed t) (hr : t.heap p = some r) :
    WellFormed (((t.disconnect p).serverRemoveSession p).sessionDestroy p) := by
  obtain ⟨hn, hnext, hsess, hpoll, hheap⟩ := remove_spec hw hr
  have hx := hw.index hr
  constructor
  · omega
  · have hc := hw.cap
    omega
  · rw [hsess]
    have h0 : (0 : ℕ) ≠ r.pollIndex := by omega
    simp only [h0, if_false, hw.listener, ite_self]
  · intro i h1 h2
    have hi : i ≠ t.nfds - 1 := by omega
    simp only [hsess, hpoll, hi, if_false]
    by_cases hj : i = r.pollIndex
    · obtain ⟨q, s, hq, hs, hst, hsx, hfd⟩ := hw.slot (t.nfds - 1) (by omega) (by omega)
      have hqp : q ≠ p := by
        intro he
        rw [he, hr] at hs
        cases hs
        omega
      exact ⟨q, { s with pollIndex := r.pollIndex }, by rw [if_pos hj, hq],
        by rw [hheap, if_neg hqp, if_pos hq, hs]; rfl, hst, hj.symm, by rw [if_pos hj]; exact hfd⟩
    · obtain ⟨q, s, hq, hs, hst, hsx, hfd⟩ := hw.slot i h1 (by omega)
      have hqp : q ≠ p := by
        intro he
        rw [he, hr] at hs
        cases hs
        exact hj hsx.symm
      have hlast : t.sessions (t.nfds - 1) ≠ some q := by
        intro hl
        obtain ⟨-, -, s', hs', hx'⟩ := hw.entry hl
        rw [hs] at hs'
        cases hs'
        omega
      exact ⟨q, s, by rw [if_neg hj, hq], by rw [hheap, if_neg hqp, if_neg hlast, hs], hst, hsx,
        by rw [if_neg hj]; exact hfd⟩
  · intro i hi
    rw [hsess]
    by_cases hl : i = t.nfds - 1
    · rw [if_pos hl]
    · have hj : i ≠ r.pollIndex := by omega
      rw [if_neg hl, if_neg hj]
      exact hw.rest i (by omega)
  · intro q s hs
    rw [hheap] at hs
    rw [hsess, hnext]
    split_ifs at hs with hqp hlast
    · obtain ⟨s₀, hs₀, rfl⟩ := Option.map_eq_some_iff.mp hs
      have hne : r.pollIndex ≠ t.nfds - 1 := by
        intro he
        have hp := (hw.home p r hr).1
        rw [he, hlast] at hp
        exact hqp (Option.some.inj hp)
      simp only [hne, if_false, if_true]
      exact ⟨hlast, (hw.home q s₀ hs₀).2⟩
    · obtain ⟨hh, hlt⟩ := hw.home q s hs
      have h1 : s.pollIndex ≠ t.nfds - 1 := by
        intro he
        rw [he] at hh
        exact hlast hh
      have h2 : s.pollIndex ≠ r.pollIndex := by
        intro he
        have hp := (hw.home p r hr).1
        rw [← he, hh] at hp
        exact hqp (Option.some.inj hp)
      simp only [h1, h2, if_false]
      exact ⟨hh, hlt⟩

/-- The record behind a pointer after a broadcast. -/
theorem broadcast_record {t : Table} {p : ℕ} {r : Record} (hr : t.heap p = some r) (notices : List Table.Notice) :
    ∃ r', (t.broadcast notices).heap p = some r' ∧ r'.pollIndex = r.pollIndex := by
  rcases (broadcast_sameShape t notices).records p with ⟨hn, _⟩ | ⟨q, q', hq, hq', -, hx, -⟩
  · rw [hr] at hn
    cases hn
  · rw [hr] at hq
    cases hq
    exact ⟨q', hq', hx⟩

theorem sessionTeardown_wellFormed {t : Table} (hw : WellFormed t) (p : ℕ) (notices : List Table.Notice) :
    WellFormed (t.sessionTeardown p notices) := by
  unfold Table.sessionTeardown
  split
  · exact hw
  · next r hr =>
    split
    · exact hw
    · obtain ⟨r', hr', -⟩ := broadcast_record hr notices
      exact remove_wellFormed ((broadcast_sameShape t notices).wellFormed hw) hr'

theorem sessionWrite_cases (t : Table) (p : ℕ) (data : List UInt8) (alloc : Option (ℕ → UInt8))
    (notices : List Table.Notice) :
    SameShape t (t.sessionWrite p data alloc notices) ∨
      t.sessionWrite p data alloc notices = t.sessionTeardown p notices := by
  unfold Table.sessionWrite
  split
  · exact Or.inl (SameShape.refl t)
  · exact Or.inl (put_sameShape t p data _)
  · next r hr =>
    split
    · exact Or.inl (SameShape.refl t)
    · split
      · exact Or.inr rfl
      · exact Or.inl (enqueue_sameShape data hr rfl rfl rfl)

theorem serverAccept_cases (t : Table) (client : Option ℕ) (alloc : Option (ℕ → UInt8)) :
    t.serverAccept client alloc = t ∨
      ∃ fd fill, t.nfds < Server.maxClients ∧ t.serverAccept client alloc = t.enroll fd fill := by
  cases client with
  | none => exact Or.inl rfl
  | some fd =>
      cases alloc with
      | none =>
          left
          simp only [Table.serverAccept, ite_self]
      | some fill =>
          by_cases hn : Server.maxClients ≤ t.nfds
          · left
            simp only [Table.serverAccept, hn, if_true]
          · right
            exact ⟨fd, fill, by omega, by simp only [Table.serverAccept, hn, if_false]⟩

theorem enroll_wellFormed {t : Table} (hw : WellFormed t) (hlt : t.nfds < Server.maxClients) (fd : ℕ)
    (fill : ℕ → UInt8) : WellFormed (t.enroll fd fill) := by
  have hpos := hw.pos
  constructor
  · simp [Table.enroll]
  · exact hlt
  · have h0 : (0 : ℕ) ≠ t.nfds := by omega
    simp only [Table.enroll, Function.update_of_ne h0, hw.listener]
  · intro i h1 h2
    by_cases hi : i = t.nfds
    · subst hi
      exact ⟨t.next, { Table.sessionCreate fd fill with pollIndex := t.nfds }, by simp [Table.enroll],
        by simp [Table.enroll], by simp [Table.sessionCreate], rfl, by simp [Table.enroll, Table.sessionCreate]⟩
    · simp only [Table.enroll] at h2
      obtain ⟨q, s, hq, hs, hst, hsx, hfd⟩ := hw.slot i h1 (by omega)
      have hlt' := (hw.home q s hs).2
      have hq' : q ≠ t.next := by omega
      exact ⟨q, s, by simp [Table.enroll, hi, hq], by simp [Table.enroll, hq', hs], hst, hsx,
        by simp [Table.enroll, hi, hfd]⟩
  · intro i hi
    simp only [Table.enroll] at hi
    have hne : i ≠ t.nfds := by omega
    simp only [Table.enroll, Function.update_of_ne hne]
    exact hw.rest i (by omega)
  · intro q s hs
    by_cases hq : q = t.next
    · simp only [Table.enroll, hq, Function.update_self, Option.some.injEq] at hs
      subst hs
      simp [Table.enroll, hq]
    · simp only [Table.enroll, Function.update_of_ne hq] at hs
      obtain ⟨hh, hlt'⟩ := hw.home q s hs
      have hx := hw.index hs
      have hne : s.pollIndex ≠ t.nfds := by omega
      simp only [Table.enroll, Function.update_of_ne hne]
      exact ⟨hh, by omega⟩

theorem serverAccept_wellFormed {t : Table} (hw : WellFormed t) (client : Option ℕ)
    (alloc : Option (ℕ → UInt8)) : WellFormed (t.serverAccept client alloc) := by
  rcases serverAccept_cases t client alloc with he | ⟨fd, fill, hlt, he⟩
  · rw [he]
    exact hw
  · rw [he]
    exact enroll_wellFormed hw hlt fd fill

theorem step_wellFormed {t : Table} (hw : WellFormed t) (op : Op) : WellFormed (step t op) := by
  cases op with
  | accept client alloc => exact serverAccept_wellFormed hw client alloc
  | write p data alloc notices =>
      rcases sessionWrite_cases t p data alloc notices with h | h
      · exact h.wellFormed hw
      · simp only [step, h]
        exact sessionTeardown_wellFormed hw p notices
  | flush p outcome => exact (sessionFlush_sameShape t p outcome).wellFormed hw
  | teardown p notices => exact sessionTeardown_wellFormed hw p notices
  | enter p state => exact (enterState_sameShape t p state).wellFormed hw

theorem run_append (t : Table) (ops ops' : List Op) : run t (ops ++ ops') = run (run t ops) ops' := by
  simp only [run, List.foldl_append]

theorem run_wellFormed {t : Table} (hw : WellFormed t) (ops : List Op) : WellFormed (run t ops) := by
  induction ops generalizing t with
  | nil => exact hw
  | cons op ops ih => exact ih (step_wellFormed hw op)

/-- An entry past the end after a step was past the end before it and has its
old descriptor, or has just been vacated. -/
theorem step_past {t : Table} (hw : WellFormed t) (op : Op) {i : ℕ} (hi : (step t op).nfds ≤ i) :
    (t.nfds ≤ i ∧ ((step t op).pollfds i).fd = (t.pollfds i).fd) ∨ ((step t op).pollfds i).fd = -1 := by
  have hshape : ∀ t', SameShape t t' → t'.nfds ≤ i → t.nfds ≤ i ∧ (t'.pollfds i).fd = (t.pollfds i).fd := by
    intro t' h hn
    rw [h.nfds] at hn
    exact ⟨hn, h.fds i⟩
  have hdown : ∀ p notices, (t.sessionTeardown p notices).nfds ≤ i →
      (t.nfds ≤ i ∧ ((t.sessionTeardown p notices).pollfds i).fd = (t.pollfds i).fd) ∨
        ((t.sessionTeardown p notices).pollfds i).fd = -1 := by
    intro p notices
    unfold Table.sessionTeardown
    split
    · intro hn
      exact Or.inl ⟨hn, rfl⟩
    · next r hr =>
      split
      · intro hn
        exact Or.inl ⟨hn, rfl⟩
      · intro hn
        have hb := broadcast_sameShape t notices
        have hwb := hb.wellFormed hw
        obtain ⟨r', hr', -⟩ := broadcast_record hr notices
        obtain ⟨hn', -, -, hpoll, -⟩ := remove_spec hwb hr'
        have hx := hwb.index hr'
        rw [hn'] at hn
        rw [hpoll]
        by_cases hl : i = (t.broadcast notices).nfds - 1
        · rw [if_pos hl]
          exact Or.inr rfl
        · have hj : i ≠ r'.pollIndex := by omega
          rw [if_neg hl, if_neg hj]
          exact Or.inl (hshape _ hb (by omega))
  cases op with
  | accept client alloc =>
      rcases serverAccept_cases t client alloc with he | ⟨fd, fill, hlt, he⟩
      · simp only [step, he] at hi ⊢
        exact Or.inl ⟨hi, trivial⟩
      · simp only [step, he, Table.enroll] at hi ⊢
        have hne : i ≠ t.nfds := by omega
        simp only [Function.update_of_ne hne]
        exact Or.inl ⟨by omega, trivial⟩
  | write p data alloc notices =>
      rcases sessionWrite_cases t p data alloc notices with h | h
      · exact Or.inl (hshape _ h hi)
      · simp only [step, h] at hi ⊢
        exact hdown p notices hi
  | flush p outcome => exact Or.inl (hshape _ (sessionFlush_sameShape t p outcome) hi)
  | teardown p notices => exact hdown p notices hi
  | enter p state => exact Or.inl (hshape _ (enterState_sameShape t p state) hi)

/-- No state of the run had an entry at index `i`. -/
def NeverUsed (t : Table) (ops : List Op) (i : ℕ) : Prop := ∀ pre, pre <+: ops → (run t pre).nfds ≤ i

theorem run_past (listenFd : ℕ) (ops : List Op) {i : ℕ} (hi : (run (serverInit listenFd) ops).nfds ≤ i) :
    ((run (serverInit listenFd) ops).pollfds i).fd = -1 ∨ NeverUsed (serverInit listenFd) ops i := by
  induction ops using List.reverseRecOn with
  | nil =>
      right
      intro pre hpre
      rw [List.prefix_nil.mp hpre]
      exact hi
  | append_singleton ops op ih =>
      rw [run_append] at hi
      have hw := run_wellFormed (serverInit_wellFormed listenFd) ops
      rcases step_past hw op hi with ⟨hold, hfd⟩ | hfd
      · rcases ih hold with h | h
        · left
          rw [run_append]
          exact hfd.trans h
        · right
          intro pre hpre
          rcases List.prefix_concat_iff.mp hpre with rfl | hpre
          · rw [run_append]
            exact hi
          · exact h pre hpre
      · left
        rw [run_append]
        exact hfd

/-- The pointer was handed out and its record has been freed. -/
def TornDown (t : Table) (p : ℕ) : Prop := p < t.next ∧ t.heap p = none

/-- The entries of the table, in order, are the list the handlers see. -/
structure Represents (srv : Server) (t : Table) : Prop where
  next : srv.nextId = t.next
  nfds : srv.sessions.length + 1 = t.nfds
  entries : ∀ j, (srv.sessions[j]?).map Session.id = t.sessions (j + 1)

theorem serverInit_represents (listenFd : ℕ) (cfg : Config) (files : FileTree.Tree LibXml.Content) :
    Represents (Server.init cfg files) (serverInit listenFd) := by
  constructor
  · rfl
  · rfl
  · intro j
    rfl

theorem serverAccept_represents {srv : Server} {t : Table} (h : Represents srv t) (fd : ℕ) (fill : ℕ → UInt8) :
    Represents srv.serverAccept (t.serverAccept (some fd) (some fill)) := by
  have hn := h.nfds
  unfold Server.serverAccept Table.serverAccept
  rw [← hn]
  split
  · exact h
  · constructor
    · simp only [Table.enroll, h.next]
    · simp only [Table.enroll, List.length_append, List.length_singleton, hn]
    · intro j
      simp only [Table.enroll]
      by_cases hj : j = srv.sessions.length
      · rw [hj, hn, Function.update_self, List.getElem?_append_right (Nat.le_refl _)]
        simp [h.next]
      · have hne : j + 1 ≠ t.nfds := by omega
        rw [Function.update_of_ne hne, ← h.entries j]
        congr 1
        by_cases hlt : j < srv.sessions.length
        · rw [List.getElem?_append_left hlt]
        · have hle : (srv.sessions ++ [({ id := srv.nextId } : Session)]).length ≤ j := by
            simp only [List.length_append, List.length_singleton]
            omega
          rw [List.getElem?_eq_none hle, List.getElem?_eq_none (by omega)]

/-- The entry with number `i`, at position `k`, is replaced by the last one. -/
theorem swapRemove_getElem {i : ℕ} {l : List Session} (hn : (l.map Session.id).Nodup) {k : ℕ}
    (hk : (l[k]?).map Session.id = some i) (j : ℕ) :
    (Server.swapRemove i l)[j]? =
      if j + 1 = l.length then none else if j = k then l[l.length - 1]? else l[j]? := by
  induction l generalizing k j with
  | nil => simp at hk
  | cons s ss ih =>
      rw [List.map_cons, List.nodup_cons] at hn
      cases k with
      | zero =>
          have hs : s.id = i := by simpa using hk
          simp only [Server.swapRemove, hs, if_true]
          cases hl : ss.getLast? with
          | none =>
              rw [List.getLast?_eq_none_iff.mp hl]
              by_cases hj : j = 0
              · simp [hj]
              · simp [hj]
          | some last =>
              have hne : ss ≠ [] := by
                intro he
                simp [he] at hl
              have hpos := List.length_pos_of_ne_nil hne
              rw [List.getLast?_eq_getElem?] at hl
              cases j with
              | zero =>
                  have h0 : ¬(0 + 1 = (s :: ss).length) := by simp only [List.length_cons]; omega
                  rw [if_neg h0, if_pos rfl, List.getElem?_cons_zero, ← hl]
                  obtain ⟨m, hm⟩ := Nat.exists_eq_add_of_lt hpos
                  simp only [List.length_cons, hm]
                  simp
              | succ j =>
                  simp only [List.getElem?_cons_succ, List.length_cons, Nat.add_right_cancel_iff,
                    Nat.add_eq_zero_iff, Nat.one_ne_zero, and_false, if_false]
                  rw [List.getElem?_dropLast]
                  by_cases hj : j + 1 = ss.length
                  · simp only [hj, if_true]
                    rw [if_neg (by omega)]
                  · rw [if_neg hj]
                    by_cases hlt : j < ss.length - 1
                    · rw [if_pos hlt]
                    · rw [if_neg hlt, List.getElem?_eq_none (by omega)]
      | succ k =>
          rw [List.getElem?_cons_succ] at hk
          obtain ⟨s', hs', hi⟩ := Option.map_eq_some_iff.mp hk
          have hmem : s' ∈ ss := List.mem_of_getElem? hs'
          have hs : s.id ≠ i := by
            intro he
            exact hn.1 (List.mem_map.mpr ⟨s', hmem, hi.trans he.symm⟩)
          have hpos : 0 < ss.length := List.length_pos_of_mem hmem
          simp only [Server.swapRemove, hs, if_false]
          cases j with
          | zero =>
              have h0 : ¬(0 + 1 = (s :: ss).length) := by simp only [List.length_cons]; omega
              have h1 : ¬(0 = k + 1) := by omega
              rw [if_neg h0, if_neg h1]
              rfl
          | succ j =>
              obtain ⟨m, hm⟩ := Nat.exists_eq_add_of_lt hpos
              rw [List.getElem?_cons_succ, ih hn.2 hk j]
              simp only [List.length_cons, Nat.add_right_cancel_iff, List.getElem?_cons_succ, hm]
              simp

theorem remove_represents {srv : Server} {t : Table} (h : Represents srv t) (hw : WellFormed t) {p : ℕ} {r : Record}
    (hr : t.heap p = some r) :
    Represents (srv.serverRemoveSession p) (((t.disconnect p).serverRemoveSession p).sessionDestroy p) := by
  obtain ⟨hn, hnext, hsess, -, -⟩ := remove_spec hw hr
  have hx := hw.index hr
  have hlen := h.nfds
  have hk : (srv.sessions[r.pollIndex - 1]?).map Session.id = some p := by
    have he : r.pollIndex - 1 + 1 = r.pollIndex := by omega
    rw [h.entries, he]
    exact (hw.home p r hr).1
  obtain ⟨s, hs, hp⟩ := Option.map_eq_some_iff.mp hk
  have hmem := List.mem_of_getElem? hs
  have hget := swapRemove_getElem srv.nodup hk
  have hlen' : (Server.swapRemove p srv.sessions).length = srv.sessions.length - 1 := by
    rw [(Server.swapRemove_perm p srv.sessions).length_eq, List.length_eraseP_of_mem hmem (by simpa using hp)]
  constructor
  · rw [hnext, ← h.next]
    rfl
  · rw [hn]
    change (Server.swapRemove p srv.sessions).length + 1 = _
    omega
  · intro j
    change ((Server.swapRemove p srv.sessions)[j]?).map Session.id = _
    rw [hget, hsess]
    by_cases h1 : j + 1 = srv.sessions.length
    · rw [if_pos h1, if_pos (by omega)]
      rfl
    · have h1' : j + 1 ≠ t.nfds - 1 := by omega
      rw [if_neg h1, if_neg h1']
      by_cases h2 : j = r.pollIndex - 1
      · rw [if_pos h2, if_pos (by omega), h.entries]
        congr 1
        omega
      · rw [if_neg h2, if_neg (by omega), h.entries]

end Xmppd.SessionTable
