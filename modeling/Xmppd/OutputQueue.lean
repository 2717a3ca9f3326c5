import Xmppd.SessionTable

/-!
# The output queue

What the socket took and what the buffer still holds are together what was
queued, the buffer is never overrun, and output is polled for exactly when
some is left.
-/
namespace Xmppd.OutputQueue
open ServerState SessionTable

theorem length_memcpy {buf : List UInt8} {offset : ℕ} {data : List UInt8} (h : offset + data.length ≤ buf.length) :
    (memcpy buf offset data).length = buf.length := by
  simp only [memcpy, List.length_take, List.length_append, List.length_drop]
  omega

theorem take_memcpy {buf : List UInt8} {offset : ℕ} {data : List UInt8} (h : offset + data.length ≤ buf.length) :
    (memcpy buf offset data).take (offset + data.length) = buf.take offset ++ data := by
  have hlen : (buf.take offset ++ data).length = offset + data.length := by
    simp only [List.length_append, List.length_take]
    omega
  rw [memcpy, List.take_take, Nat.min_eq_left h, ← hlen, List.take_left']
  rfl

theorem length_memmove {buf : List UInt8} {n len : ℕ} (hn : n ≤ len) (h : len ≤ buf.length) :
    (memmove buf n len).length = buf.length := by
  apply length_memcpy
  simp only [List.length_take, List.length_drop]
  omega

theorem take_memmove {buf : List UInt8} {n len : ℕ} (hn : n ≤ len) (h : len ≤ buf.length) :
    (memmove buf n len).take (len - n) = (buf.take len).drop n := by
  have hlen : ((buf.drop n).take (len - n)).length = len - n := by
    simp only [List.length_take, List.length_drop]
    omega
  have ht : (memmove buf n len).take (0 + ((buf.drop n).take (len - n)).length) =
      buf.take 0 ++ (buf.drop n).take (len - n) := take_memcpy (by omega)
  rw [hlen, Nat.zero_add, List.take_zero, List.nil_append] at ht
  rw [ht, List.drop_take]

/-- The buffer has the size it is said to have, holds what it says it holds, and
no byte was lost, repeated or moved. -/
structure Queue (r : Record) : Prop where
  size : r.writeBuf.length = r.writeCap
  fits : r.writeLen ≤ r.writeCap
  content : r.sent ++ r.writeBuf.take r.writeLen = r.queued

theorem sessionCreate_queue (fd : ℕ) (fill : ℕ → UInt8) (i : ℕ) :
    Queue { Table.sessionCreate fd fill with pollIndex := i } := by
  constructor
  · simp [Table.sessionCreate, realloc]
  · simp [Table.sessionCreate]
  · simp [Table.sessionCreate]

theorem append_queue {r : Record} {data : List UInt8} (h : Queue r) (hd : r.writeLen + data.length ≤ r.writeCap) :
    Queue (Table.append r data) := by
  have hb : r.writeLen + data.length ≤ r.writeBuf.length := by rw [h.size]; exact hd
  constructor
  · exact (length_memcpy hb).trans h.size
  · exact hd
  · simp only [Table.append]
    rw [take_memcpy hb, ← h.content, List.append_assoc]

theorem newCap_fits (r : Record) (len : ℕ) : r.writeLen + len ≤ Table.newCap r len := by
  unfold Table.newCap
  split
  · exact Nat.le_refl _
  · omega

theorem newCap_grows {r : Record} (len : ℕ) : r.writeCap ≤ Table.newCap r len := by
  unfold Table.newCap
  split
  · omega
  · omega

theorem grow_queue {r : Record} (h : Queue r) (len : ℕ) (fill : ℕ → UInt8) : Queue (Table.grow r len fill) := by
  have hle : r.writeBuf.length ≤ Table.newCap r len := by
    rw [h.size]
    exact newCap_grows len
  constructor
  · simp only [Table.grow, realloc, List.length_append, List.length_map, List.length_range]
    omega
  · exact h.fits.trans (newCap_grows len)
  · have hl : r.writeLen ≤ r.writeBuf.length := by rw [h.size]; exact h.fits
    simp only [Table.grow, realloc]
    rw [List.take_append_of_le_length hl]
    exact h.content

theorem drain_queue {r : Record} {n : ℕ} (h : Queue r) (hn : n ≤ r.writeLen) : Queue (Table.drain r n) := by
  have hl : r.writeLen ≤ r.writeBuf.length := by rw [h.size]; exact h.fits
  have hfits := h.fits
  by_cases hlt : n < r.writeLen
  · constructor
    · simp only [Table.drain, hlt, if_true]
      exact (length_memmove hn hl).trans h.size
    · simp only [Table.drain]
      omega
    · simp only [Table.drain, hlt, if_true]
      rw [take_memmove hn hl, List.append_assoc, List.take_append_drop]
      exact h.content
  · have he : n = r.writeLen := by omega
    constructor
    · simp only [Table.drain, hlt, if_false]
      exact h.size
    · simp only [Table.drain]
      omega
    · simp only [Table.drain, he, Nat.sub_self, List.take_zero, List.append_nil, List.take_take, Nat.min_self]
      exact h.content

/-- Output is polled for on the entry of the record. -/
def Polled (t : Table) (r : Record) : Prop := ((t.pollfds r.pollIndex).events &&& pollOut) ≠ 0#16

/-- Every record has its queue in order and its entry asks for output when there
is some. -/
def Served (t : Table) : Prop :=
  ∀ p r, t.heap p = some r → Queue r ∧ (Polled t r ↔ 0 < r.writeLen)

theorem or_pollOut (e : BitVec 16) : ((e ||| pollOut) &&& pollOut) ≠ 0#16 := by
  intro h
  have hb := congrArg (fun v => v.getLsbD 2) h
  simp [pollOut] at hb

theorem clear_pollOut (e : BitVec 16) : ((e &&& ~~~pollOut) &&& pollOut) = 0#16 := by
  rw [BitVec.and_assoc]
  simp [pollOut]

/-- Distinct pointers have distinct entries. -/
theorem index_ne {t : Table} (hw : WellFormed t) {p q : ℕ} {r s : Record} (hr : t.heap p = some r)
    (hs : t.heap q = some s) (h : q ≠ p) : s.pollIndex ≠ r.pollIndex := by
  intro he
  have hp := (hw.home p r hr).1
  have hq := (hw.home q s hs).1
  rw [he, hp] at hq
  exact h (Option.some.inj hq).symm

theorem setEvents_at {t : Table} {i : ℕ} (hi : i < Server.maxClients) (f : BitVec 16 → BitVec 16) :
    ((t.setEvents i f).pollfds i).events = f (t.pollfds i).events := by
  simp [Table.setEvents, hi]

theorem setEvents_off {t : Table} {i j : ℕ} (hj : j ≠ i) (f : BitVec 16 → BitVec 16) :
    (t.setEvents i f).pollfds j = t.pollfds j := by
  unfold Table.setEvents
  split
  · exact Function.update_of_ne hj _ _
  · rfl

@[simp] theorem setEvents_heap (t : Table) (i : ℕ) (f : BitVec 16 → BitVec 16) :
    (t.setEvents i f).heap = t.heap := by
  unfold Table.setEvents
  split
  · rfl
  · rfl

/-- A change of one record and of the events of its entry serves every record
when it serves that one. -/
theorem served_update {t : Table} (hw : WellFormed t) (hs : Served t) {p : ℕ} {r : Record} (r' : Record)
    (hr : t.heap p = some r) {t' : Table} (hheap : t'.heap = (t.setRecord p r').heap)
    (hoff : ∀ j, j ≠ r.pollIndex → t'.pollfds j = t.pollfds j) (hq : Queue r')
    (hp : Polled t' r' ↔ 0 < r'.writeLen) : Served t' := by
  intro q s hqs
  rw [hheap] at hqs
  by_cases hqp : q = p
  · simp only [hqp, Table.setRecord, Function.update_self, Option.some.injEq] at hqs
    rw [← hqs]
    exact ⟨hq, hp⟩
  · simp only [Table.setRecord, Function.update_of_ne hqp] at hqs
    have hne := index_ne hw hr hqs hqp
    obtain ⟨hsq, hsp⟩ := hs q s hqs
    refine ⟨hsq, ?_⟩
    unfold Polled
    rw [hoff _ hne]
    exact hsp

theorem enqueue_served {t : Table} (hw : WellFormed t) (hs : Served t) {p : ℕ} {r r' : Record}
    {data : List UInt8} (hr : t.heap p = some r) (hx : r'.pollIndex = r.pollIndex) (hq : Queue r')
    (hd : data ≠ []) (hfits : r'.writeLen + data.length ≤ r'.writeCap) : Served (t.enqueue p r' data) := by
  have hi : r.pollIndex < Server.maxClients := by
    have h1 := hw.index hr
    have h2 := hw.cap
    omega
  apply served_update hw hs (Table.append r' data) hr
  · simp only [Table.enqueue, setEvents_heap]
  · intro j hj
    rw [← hx] at hj
    exact setEvents_off hj _
  · exact append_queue hq hfits
  · have hpos : 0 < data.length := List.length_pos_of_ne_nil hd
    constructor
    · intro _
      simp only [Table.append]
      omega
    · intro _
      unfold Polled
      simp only [Table.append, Table.enqueue]
      rw [hx, setEvents_at hi]
      exact or_pollOut _

theorem put_served {t : Table} (hw : WellFormed t) (hs : Served t) (p : ℕ) (data : List UInt8)
    (fill : ℕ → UInt8) : Served (t.put p data fill) := by
  unfold Table.put
  split
  · exact hs
  · next r hr =>
    have hq := (hs p r hr).1
    split
    · exact hs
    · next hd =>
      split
      · exact enqueue_served hw hs hr rfl (grow_queue hq _ _) hd (newCap_fits r _)
      · next hno =>
        have hfits : r.writeLen + data.length ≤ r.writeCap := by
          unfold Table.Overflows at hno
          omega
        exact enqueue_served hw hs hr rfl hq hd hfits

theorem broadcast_served {t : Table} (hw : WellFormed t) (hs : Served t) (notices : List Table.Notice) :
    Served (t.broadcast notices) := by
  unfold Table.broadcast
  induction notices generalizing t with
  | nil => exact hs
  | cons n ns ih =>
      exact ih ((put_sameShape t n.dest n.data n.fill).wellFormed hw) (put_served hw hs n.dest n.data n.fill)

theorem sessionFlush_served {t : Table} (hw : WellFormed t) (hs : Served t) (p : ℕ) (outcome : Table.Outcome) :
    Served (t.sessionFlush p outcome) := by
  unfold Table.sessionFlush
  split
  · exact hs
  · next r hr =>
    obtain ⟨hq, hp⟩ := hs p r hr
    have hi : r.pollIndex < Server.maxClients := by
      have h1 := hw.index hr
      have h2 := hw.cap
      omega
    split
    · exact hs
    · next hlen =>
      split
      · exact hs
      · exact hs
      · next k =>
        have hd := drain_queue hq (Nat.min_le_right k r.writeLen)
        simp only
        split
        · next hz =>
          apply served_update hw hs (Table.drain r (min k r.writeLen)) hr
          · simp only [setEvents_heap]
          · intro j hj
            exact setEvents_off hj _
          · exact hd
          · unfold Polled
            simp only [Table.drain]
            rw [setEvents_at hi, hz]
            simp only [clear_pollOut]
            simp
        · next hz =>
          apply served_update hw hs (Table.drain r (min k r.writeLen)) hr
          · rfl
          · intro j _
            rfl
          · exact hd
          · constructor
            · intro _
              simp only [Table.drain]
              omega
            · intro _
              exact hp.mpr (by omega)

theorem enterState_served {t : Table} (hw : WellFormed t) (hs : Served t) (p : ℕ) (state : State) :
    Served (t.enterState p state) := by
  unfold Table.enterState
  split
  · exact hs
  · next r hr =>
    obtain ⟨hq, hp⟩ := hs p r hr
    split
    · exact hs
    · apply served_update hw hs { r with state := state } hr
      · rfl
      · intro j _
        rfl
      · exact ⟨hq.size, hq.fits, hq.content⟩
      · exact hp

/-- A removal takes the last record and its entry to the same new index. -/
theorem remove_served {t : Table} (hw : WellFormed t) (hs : Served t) {p : ℕ} {r : Record}
    (hr : t.heap p = some r) : Served (((t.disconnect p).serverRemoveSession p).sessionDestroy p) := by
  obtain ⟨-, -, -, hpoll, hheap⟩ := remove_spec hw hr
  intro q s hqs
  rw [hheap] at hqs
  unfold Polled
  split_ifs at hqs with hqp hlast
  · obtain ⟨s₀, hs₀, rfl⟩ := Option.map_eq_some_iff.mp hqs
    obtain ⟨hq, hp⟩ := hs q s₀ hs₀
    obtain ⟨-, -, s', hs', hx'⟩ := hw.entry hlast
    rw [hs₀] at hs'
    cases hs'
    have hne : r.pollIndex ≠ t.nfds - 1 := by
      intro he
      exact index_ne hw hr hs₀ hqp (hx'.trans he.symm)
    refine ⟨⟨hq.size, hq.fits, hq.content⟩, ?_⟩
    unfold Polled at hp
    rw [hx'] at hp
    simp only [hpoll, hne, if_false, if_true]
    exact hp
  · obtain ⟨hq, hp⟩ := hs q s hqs
    have h1 : s.pollIndex ≠ t.nfds - 1 := by
      intro he
      have hh := (hw.home q s hqs).1
      rw [he] at hh
      exact hlast hh
    have h2 := index_ne hw hr hqs hqp
    refine ⟨hq, ?_⟩
    simp only [hpoll, h1, h2, if_false]
    exact hp

theorem sessionTeardown_served {t : Table} (hw : WellFormed t) (hs : Served t) (p : ℕ)
    (notices : List Table.Notice) : Served (t.sessionTeardown p notices) := by
  unfold Table.sessionTeardown
  split
  · exact hs
  · next r hr =>
    split
    · exact hs
    · obtain ⟨r', hr', -⟩ := broadcast_record hr notices
      exact remove_served ((broadcast_sameShape t notices).wellFormed hw) (broadcast_served hw hs notices) hr'

theorem sessionWrite_served {t : Table} (hw : WellFormed t) (hs : Served t) (p : ℕ) (data : List UInt8)
    (alloc : Option (ℕ → UInt8)) (notices : List Table.Notice) : Served (t.sessionWrite p data alloc notices) := by
  unfold Table.sessionWrite
  split
  · exact hs
  · exact put_served hw hs p data _
  · next r hr =>
    split
    · exact hs
    · next hd =>
      split
      · exact sessionTeardown_served hw hs p notices
      · next hno =>
        have hfits : r.writeLen + data.length ≤ r.writeCap := by
          unfold Table.Overflows at hno
          omega
        exact enqueue_served hw hs hr rfl (hs p r hr).1 hd hfits

theorem serverAccept_served {t : Table} (hw : WellFormed t) (hs : Served t) (client : Option ℕ)
    (alloc : Option (ℕ → UInt8)) : Served (t.serverAccept client alloc) := by
  rcases serverAccept_cases t client alloc with he | ⟨fd, fill, -, he⟩
  · rw [he]
    exact hs
  · rw [he]
    intro q s hqs
    by_cases hq : q = t.next
    · simp only [Table.enroll, hq, Function.update_self, Option.some.injEq] at hqs
      subst hqs
      refine ⟨sessionCreate_queue fd fill t.nfds, ?_⟩
      simp [Polled, Table.enroll, Table.sessionCreate, pollIn, pollOut]
    · simp only [Table.enroll, Function.update_of_ne hq] at hqs
      obtain ⟨hsq, hsp⟩ := hs q s hqs
      have hx := hw.index hqs
      have hne : s.pollIndex ≠ t.nfds := by omega
      refine ⟨hsq, ?_⟩
      unfold Polled at hsp ⊢
      simp only [Table.enroll, Function.update_of_ne hne]
      exact hsp

theorem step_served {t : Table} (hw : WellFormed t) (hs : Served t) (op : Op) : Served (step t op) := by
  cases op with
  | accept client alloc => exact serverAccept_served hw hs client alloc
  | write p data alloc notices => exact sessionWrite_served hw hs p data alloc notices
  | flush p outcome => exact sessionFlush_served hw hs p outcome
  | teardown p notices => exact sessionTeardown_served hw hs p notices
  | enter p state => exact enterState_served hw hs p state

theorem run_served {t : Table} (hw : WellFormed t) (hs : Served t) (ops : List Op) : Served (run t ops) := by
  induction ops generalizing t with
  | nil => exact hs
  | cons op ops ih => exact ih (step_wellFormed hw op) (step_served hw hs op)

theorem serverInit_served (listenFd : ℕ) : Served (serverInit listenFd) := by
  intro p r hr
  simp [serverInit] at hr

def partialFlush : List Op :=
  [.accept (some 5) (some fun _ => 0), .accept (some 6) (some fun _ => 0), .write 1 [10, 11, 12] (some fun _ => 0) [],
    .teardown 0 [⟨1, [13], fun _ => 0⟩], .flush 1 (.took 2)]

end Xmppd.OutputQueue
