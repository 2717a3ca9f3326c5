import Xmppd.EventPass

/-!
# Sessions that are passed over

When a handler tears down a session behind the index, the last session of the table moves to
the free place and the round is over without a call of its handlers, although `poll` reported
its events. The place is a lower one, and a session never gets a higher one, so that a session
can be passed over only as often as there are places below its first one.
-/
namespace Xmppd.Rounds
open ServerState SessionTable EventPass

/-- One round of `server_run`: what `poll` reports, what `accept` returns, the memory found for
the session, and what the handlers do. -/
structure Round where
  revents : ℕ → BitVec 16
  client : Option ℕ
  alloc : Option (ℕ → UInt8)
  outside : Outside

/-- The start of a round, up to the loop over the clients. -/
def welcome (t : Table) (x : Round) : Table :=
  if x.revents 0 &&& pollIn ≠ 0#16 then (poll t x.revents).serverAccept x.client x.alloc else poll t x.revents

/-- The loop over the clients. -/
def pass (t : Table) (x : Round) : Option Pass := (start (welcome t x)).clients x.outside (welcome t x).nfds

/-- The rounds one after another; `none` where a pointer leads nowhere. -/
def rounds (t : Table) : List Round → Option Table
  | [] => some t
  | x :: xs => (pass t x).bind fun s => rounds s.table xs

def reported (t : Table) (x : Round) (kind : Kind) (p : ℕ) : Bool :=
  (t.heap p).any fun r => decide (x.revents r.pollIndex &&& kind.bit ≠ 0#16)

/-- The event was reported for the session and no handler was called for it. -/
def passedOver (t : Table) (x : Round) (s : Pass) (kind : Kind) (p : ℕ) : Bool :=
  reported t x kind p && !s.calls.contains (kind, p)

/-- How often a session was passed over, as long as it was there. -/
def timesPassedOver (kind : Kind) (p : ℕ) (t : Table) : List Round → ℕ
  | [] => 0
  | x :: xs =>
      match pass t x with
      | none => 0
      | some s =>
          if (s.table.heap p).isSome then (passedOver t x s kind p).toNat + timesPassedOver kind p s.table xs else 0

/-! ## One pass -/

/-- A session that is where it was and behind the index has had its calls. -/
def Heard (t : Table) (s : Pass) : Prop :=
  ∀ p r r', t.heap p = some r → s.table.heap p = some r' → r'.pollIndex = r.pollIndex → r'.pollIndex < s.i →
    ∀ kind : Kind, (t.pollfds r.pollIndex).revents &&& kind.bit ≠ 0#16 → (kind, p) ∈ s.calls

section
variable {t : Table} {s s' : Pass} {w : Outside} {p : ℕ}

/-- The block of a handler calls it on the session at the index, if its event was reported. -/
theorem handle_calls {kind : Kind} {gone : Bool} (hp : s.table.sessions s.i = some p) (h : s.handle w kind = some (s', gone)) :
    s.calls ⊆ s'.calls ∧ ((s.table.pollfds s.i).revents &&& kind.bit ≠ 0#16 → (kind, p) ∈ s'.calls) := by
  unfold Pass.handle at h
  split at h
  · next hbit =>
    obtain ⟨rfl, -⟩ := Prod.mk.inj (Option.some.inj h)
    exact ⟨fun _ hc => hc, fun hno => absurd hbit hno⟩
  · simp only [Option.bind_eq_bind, Option.bind_eq_some_iff] at h
    obtain ⟨a, hcall, b, -, hb⟩ := h
    obtain ⟨rfl, -⟩ := Prod.mk.inj (Option.some.inj hb)
    rw [Pass.call, hp] at hcall
    obtain ⟨r, -, rfl⟩ := Option.map_eq_some_iff.mp hcall
    exact ⟨List.subset_append_left _ _, fun _ => List.mem_append_right _ (List.mem_singleton.mpr rfl)⟩

/-- A session that did not move all along was there in between. -/
theorem stays {a b c : Table} {r r'' : Record} (hab : Lowered a b) (hbc : Lowered b c) (hr : a.heap p = some r)
    (hr'' : c.heap p = some r'') (hsame : r''.pollIndex = r.pollIndex) :
    ∃ r', b.heap p = some r' ∧ r'.pollIndex = r.pollIndex ∧
      (b.pollfds r.pollIndex).revents = (a.pollfds r.pollIndex).revents := by
  obtain ⟨r', hr', -, hle, -⟩ := hbc.record p r'' hr''
  obtain ⟨r₀, hr₀, -, hle', hrev⟩ := hab.record p r' hr'
  obtain rfl := Option.some.inj (hr.symm.trans hr₀)
  have hindex : r'.pollIndex = r.pollIndex := by omega
  exact ⟨r', hr', hindex, hindex ▸ hrev⟩

/-- Sessions that come to be behind the index have to be called. -/
theorem Heard.onward (h : Heard t s) (ht : Lowered t s.table) (hl : Lowered s.table s'.table) (hsub : s.calls ⊆ s'.calls)
    (hnew : ∀ p r r', s.table.heap p = some r → s'.table.heap p = some r' → r'.pollIndex = r.pollIndex →
      s.i ≤ r.pollIndex → r.pollIndex < s'.i →
      ∀ kind : Kind, (s.table.pollfds r.pollIndex).revents &&& kind.bit ≠ 0#16 → (kind, p) ∈ s'.calls) : Heard t s' := by
  intro p r r'' hr hr'' hsame hbehind kind hbit
  obtain ⟨r', hr', hindex, hrev⟩ := stays ht hl hr hr'' hsame
  by_cases hold : r'.pollIndex < s.i
  · exact hsub (h p r r' hr hr' hindex hold kind hbit)
  · refine hnew p r' r'' hr' hr'' (hsame.trans hindex.symm) (by omega) (by omega) kind ?_
    rw [hindex, hrev]
    exact hbit

/-- Where the index stays, nobody comes to be behind it. -/
theorem Heard.stayed (h : Heard t s) (ht : Lowered t s.table) (hl : Lowered s.table s'.table) (hsub : s.calls ⊆ s'.calls)
    (hi : s'.i ≤ s.i) : Heard t s' := by
  apply h.onward ht hl hsub
  intro q a b _ _ _ hge hlt
  omega

/-- The two blocks of a turn call the session at the index, if it keeps its place. -/
theorem blocks_call {s₁ s₂ : Pass} {gone₁ gone₂ : Bool} {kind : Kind} {a b : Record} (hw : WellFormed s.table)
    (hw₁ : WellFormed s₁.table) (l₁ : Lowered s.table s₁.table) (l₂ : Lowered s₁.table s₂.table) (hindex : s₁.i = s.i)
    (h₁ : s.handle w .readable = some (s₁, gone₁)) (h₂ : s₁.handle w .writable = some (s₂, gone₂))
    (ha : s.table.heap p = some a) (hb : s₂.table.heap p = some b) (hsame : b.pollIndex = a.pollIndex)
    (hat : a.pollIndex = s.i) (hbit : (s.table.pollfds a.pollIndex).revents &&& kind.bit ≠ 0#16) : (kind, p) ∈ s₂.calls := by
  obtain ⟨a₁, ha₁, hx₁, hrev₁⟩ := stays l₁ l₂ ha hb hsame
  have hhome : s.table.sessions s.i = some p := by
    rw [← hat]
    exact (hw.home p a ha).1
  have hhome₁ : s₁.table.sessions s₁.i = some p := by
    rw [hindex, ← hat, ← hx₁]
    exact (hw₁.home p a₁ ha₁).1
  obtain ⟨-, hread⟩ := handle_calls hhome h₁
  obtain ⟨hsub₂, hwrite⟩ := handle_calls hhome₁ h₂
  rw [hat] at hbit hrev₁
  cases kind with
  | readable => exact hsub₂ (hread hbit)
  | writable =>
      apply hwrite
      rw [hindex, hrev₁]
      exact hbit

/-- The session at the index is called in its turn. -/
theorem turn_heard (h : Between t s) (hheard : Heard t s) (hi : s.i < s.table.nfds) (hturn : s.turn w = some s') :
    Heard t s' := by
  obtain ⟨p, r, hp, hr, -⟩ := h.kept.table.slot s.i h.kept.pos hi
  unfold Pass.turn at hturn
  rw [hp] at hturn
  dsimp only at hturn
  split at hturn
  · rw [hr, Option.map_some] at hturn
    obtain rfl := (Option.some.inj hturn).symm.trans (stay_eq h.kept.pos)
    exact hheard.stayed h.kept.lowered (sessionTeardown_lowered h.kept.table p _) (fun _ hc => hc) (Nat.le_refl _)
  obtain ⟨s₁, gone₁, h₁, d₁⟩ := handle_kept w h.kept hi (h.behind .readable)
  have hsub₁ := (handle_calls hp h₁).1
  have hindex₁ := d₁.index
  rw [h₁, Option.bind_some] at hturn
  dsimp only at hturn
  split at hturn
  · rw [stay_eq d₁.kept.pos] at hturn
    obtain rfl := Option.some.inj hturn
    exact hheard.stayed h.kept.lowered d₁.lowered hsub₁ (Nat.le_of_eq hindex₁)
  next hleft =>
  have hthere : s₁.i < s₁.table.nfds := by
    by_contra hge
    exact hleft (d₁.gone_iff.mpr (by omega))
  have hbehind : Behind s₁ .writable s₁.i := by
    rw [hindex₁]
    exact (h.behind .writable).lowered d₁.lowered fun p hm => d₁.others .writable p (by decide) hm
  obtain ⟨s₂, gone₂, h₂, d₂⟩ := handle_kept w d₁.kept hthere hbehind
  have hindex₂ := d₂.index
  have hlow := d₁.lowered.trans d₂.lowered
  obtain ⟨q, -, hq, -⟩ := d₁.kept.table.slot s₁.i d₁.kept.pos hthere
  have hsub₂ := (handle_calls hq h₂).1
  rw [h₂, Option.bind_some] at hturn
  have hturn := Option.some.inj hturn
  split at hturn
  · rw [stay_eq d₂.kept.pos] at hturn
    subst hturn
    exact hheard.stayed h.kept.lowered hlow (List.Subset.trans hsub₁ hsub₂) (by omega)
  subst hturn
  refine Heard.onward hheard h.kept.lowered ?_ ?_ ?_
  · exact hlow
  · exact List.Subset.trans hsub₁ hsub₂
  intro p' a b ha hb hsame hge hlt kind hbit
  have hat : a.pollIndex = s.i := by
    unfold Pass.next at hlt
    dsimp only at hlt
    omega
  have hcalled : (kind, p') ∈ s₂.calls :=
    blocks_call h.kept.table d₁.kept.table d₁.lowered d₂.lowered hindex₁ h₁ h₂ ha hb hsame hat hbit
  exact hcalled

/-- When the loop is over, every session that is where it was has had its calls. -/
theorem clients_heard (n : ℕ) (h : Between t s) (hheard : Heard t s) (hn : s.table.nfds - s.i ≤ n) :
    ∃ s', s.clients w n = some s' ∧ Between t s' ∧ Heard t s' ∧ s'.table.nfds ≤ s'.i := by
  induction n generalizing s with
  | zero =>
      have hend : ¬s.i < s.table.nfds := by omega
      rw [Pass.clients, if_neg hend]
      exact ⟨s, rfl, h, hheard, by omega⟩
  | succ n ih =>
      rw [Pass.clients]
      by_cases hi : s.i < s.table.nfds
      · obtain ⟨s', hturn, hbetween, hless⟩ := turn_between w h hi
        rw [if_pos hi, hturn, Option.bind_some]
        exact ih hbetween (turn_heard h hheard hi hturn) (by omega)
      · rw [if_neg hi]
        exact ⟨s, rfl, h, hheard, by omega⟩

end

/-! ## One round -/

section
variable {t : Table} {p : ℕ} {r : Record} (x : Round)

theorem welcome_wellFormed (hw : WellFormed t) : WellFormed (welcome t x) := by
  unfold welcome
  split
  · exact serverAccept_wellFormed (poll_wellFormed hw x.revents) _ _
  · exact poll_wellFormed hw x.revents

/-- A new client changes nothing for the others. -/
theorem welcome_record (hw : WellFormed t) (hr : t.heap p = some r) :
    (welcome t x).heap p = some r ∧ ((welcome t x).pollfds r.pollIndex).revents = x.revents r.pollIndex := by
  have hindex := (hw.index hr).2
  have hnew := (hw.home p r hr).2
  unfold welcome
  split
  · rcases serverAccept_cases (poll t x.revents) x.client x.alloc with he | ⟨fd, fill, -, he⟩
    · rw [he]
      exact ⟨hr, rfl⟩
    · rw [he]
      unfold Table.enroll poll
      dsimp only
      rw [Function.update_of_ne (Nat.ne_of_lt hnew), Function.update_of_ne (Nat.ne_of_lt hindex)]
      exact ⟨hr, rfl⟩
  · exact ⟨hr, rfl⟩

theorem start_between (hw : WellFormed t) : Between t (start t) ∧ Heard t (start t) := by
  refine ⟨⟨⟨hw, Nat.le_refl 1, .refl _, List.nodup_nil, fun c hc => absurd hc List.not_mem_nil⟩, ?_⟩, ?_⟩
  · exact fun kind p r hm _ => absurd hm List.not_mem_nil
  · intro p r r' _ hr' _ hlt
    have hpos := (hw.index hr').1
    exact absurd hlt (Nat.not_lt.mpr hpos)

/-- A session keeps its place or gets a lower one, and a lower one if it is passed over. -/
theorem pass_step (hw : WellFormed t) (kind : Kind) :
    ∃ s, pass t x = some s ∧ WellFormed s.table ∧ ∀ p r r', t.heap p = some r → s.table.heap p = some r' →
      (passedOver t x s kind p).toNat + r'.pollIndex ≤ r.pollIndex := by
  have hwelcome := welcome_wellFormed x hw
  obtain ⟨hbetween, hheard⟩ := start_between hwelcome
  obtain ⟨s, hs, hlast, hall, hend⟩ := clients_heard (w := x.outside) (welcome t x).nfds hbetween hheard (Nat.sub_le _ _)
  refine ⟨s, hs, hlast.kept.table, fun p r r' hr hr' => ?_⟩
  obtain ⟨hstart, hrev⟩ := welcome_record x hw hr
  obtain ⟨r₀, hr₀, -, hle, -⟩ := hlast.kept.lowered.record p r' hr'
  obtain rfl := Option.some.inj (hstart.symm.trans hr₀)
  have hbehind := (hlast.kept.table.index hr').2
  by_cases hsame : r'.pollIndex = r.pollIndex
  · have hno : passedOver t x s kind p = false := by
      unfold passedOver reported
      rw [hr, Option.any_some]
      by_cases hbit : x.revents r.pollIndex &&& kind.bit = 0#16
      · rw [decide_eq_false (not_not.mpr hbit), Bool.false_and]
      · have hmem := hall p r r' hstart hr' hsame (by omega) kind (hrev ▸ hbit)
        rw [List.contains_iff_mem.mpr hmem, Bool.not_true, Bool.and_false]
    rw [hno, hsame]
    exact Nat.le_of_eq (Nat.zero_add _)
  · have hone := Bool.toNat_le (passedOver t x s kind p)
    omega

end

/-! ## All rounds -/

section
variable {t : Table} {p : ℕ} {r : Record}

/-- The places below the one of a session are as many as the times it can be passed over. -/
theorem passedOver_bound (hw : WellFormed t) (kind : Kind) (hr : t.heap p = some r) (xs : List Round) :
    timesPassedOver kind p t xs < r.pollIndex := by
  induction xs generalizing t r with
  | nil => exact (hw.index hr).1
  | cons x xs ih =>
      obtain ⟨s, hs, hlast, hstep⟩ := pass_step x hw kind
      rw [timesPassedOver, hs]
      dsimp only
      split
      · next halive =>
        obtain ⟨r', hr'⟩ := Option.isSome_iff_exists.mp halive
        have hrest := ih hlast hr'
        have hplace := hstep p r r' hr hr'
        omega
      · exact (hw.index hr).1

theorem rounds_wellFormed (hw : WellFormed t) (xs : List Round) : ∃ t', rounds t xs = some t' ∧ WellFormed t' := by
  induction xs generalizing t with
  | nil => exact ⟨t, rfl, hw⟩
  | cons x xs ih =>
      obtain ⟨s, hs, hlast, -⟩ := pass_step x hw .readable
      rw [rounds, hs]
      exact ih hlast

end

/-- Whatever the rounds so far, they came to no pointer that leads nowhere, and whatever the
rounds to come, an event of a session is reported without a call of its handler less often than
the place is high which the session has now, as long as it is there. -/
theorem passed_over_rarely (listenFd : ℕ) (xs : List Round) :
    ∃ t, rounds (serverInit listenFd) xs = some t ∧ ∀ p r, t.heap p = some r →
      r.pollIndex < Server.maxClients ∧ ∀ kind ys, timesPassedOver kind p t ys < r.pollIndex := by
  obtain ⟨t, ht, hw⟩ := rounds_wellFormed (serverInit_wellFormed listenFd) xs
  refine ⟨t, ht, fun p r hr => ⟨?_, fun kind ys => passedOver_bound hw kind hr ys⟩⟩
  exact Nat.lt_of_lt_of_le (hw.index hr).2 hw.cap

/-- A round in which a client joins. -/
def joins (fd : ℕ) : Round where
  revents i := if i = 0 then pollIn else 0#16
  client := some fd
  alloc := some fun _ => 0
  outside := ⟨fun _ => [], fun _ => []⟩

/-- A handler ends the session with an index. -/
def ends (i : ℕ) : Effect := ⟨.teardown i [], fun _ _ => Op.noConfusion⟩

/-- All clients have sent something, and what the second one sent ends the first session. -/
def secondEndsFirst : Round where
  revents i := if i = 0 then 0#16 else pollIn
  client := none
  alloc := none
  outside := ⟨fun n => if n = 1 then [ends 0] else [], fun _ => []⟩

theorem third_passed_over : ∃ t, rounds (serverInit 3) [joins 5, joins 6, joins 7] = some t ∧
    (t.heap 2).map Record.pollIndex = some 3 ∧ timesPassedOver .readable 2 t [secondEndsFirst] = 1 ∧
    ∀ ys, timesPassedOver .readable 2 t ys < 3 := by
  obtain ⟨t, ht, hbound⟩ := passed_over_rarely 3 [joins 5, joins 6, joins 7]
  have hindex : ((rounds (serverInit 3) [joins 5, joins 6, joins 7]).bind fun t => (t.heap 2).map Record.pollIndex) = some 3 := by
    decide +kernel
  have htimes : (rounds (serverInit 3) [joins 5, joins 6, joins 7]).map
      (fun t => timesPassedOver .readable 2 t [secondEndsFirst]) = some 1 := by
    decide +kernel
  rw [ht, Option.bind_some] at hindex
  rw [ht, Option.map_some] at htimes
  obtain ⟨r, hr, hthree⟩ := Option.map_eq_some_iff.mp hindex
  exact ⟨t, ht, hindex, Option.some.inj htimes, fun ys => hthree ▸ (hbound 2 r hr).2 .readable ys⟩

end Xmppd.Rounds
