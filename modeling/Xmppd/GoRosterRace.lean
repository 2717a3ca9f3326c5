import Mathlib.Data.List.Permutation
import Xmppd.GoPresence
import Xmppd.GoWorld
import Xmppd.ReadModifyWrite

/-!
# Edits of an offline user's roster

A subscription change aimed at a user without a session reads that user's roster
file, edits the roster and writes the file. The server has a lock for this which
the handlers do not take. The edits come out one after another if no handler
reads the file while another one is between its two steps.
-/
namespace Xmppd.GoRosterRace
open CStrings Programs Program GoSession GoPresence GoWorld ReadModifyWrite

inductive Kind where
  | subscribed | unsubscribe | unsubscribed
deriving DecidableEq, Repr

/-- A presence stanza that edits the other user's roster. -/
structure Request where
  kind : Kind
  session : Session
  dest : Str

namespace Request

def handler (self : ℕ) (q : Request) : Handler Unit :=
  match q.kind with
  | .subscribed => handleSubscribed self q.session q.dest
  | .unsubscribe => handleUnsubscribe self q.session q.dest
  | .unsubscribed => handleUnsubscribed self q.session q.dest

/-- The edit of the other user's roster. -/
def edit (q : Request) (r : Roster) : Roster :=
  r.update q.session.bareJID
    (match q.kind with
    | .subscribed => turn gainTo true
    | .unsubscribe => turn loseFrom false
    | .unsubscribed => turn loseTo true)

/-- The edit of the file. -/
def editFile (isPrint : Char → Bool) (q : Request) (file : Option Str) : Option Str :=
  some (GoRosterFile.save isPrint (q.edit (GoRosterFile.load file)))

end Request

/-- The sessions, each about to handle its request. -/
def start (w : World) (requests : ℕ → Option Request) : Pool Call Result World :=
  { shared := w
    threads := fun i =>
      match requests i with
      | some q => q.handler i
      | none => .done () }

/-- A session that is about to read the file finds no other one about to write it. -/
def Exclusive (user : Str) (p : Pool Call Result World) (i : ℕ) : Prop :=
  (∃ next, p.threads i = .call (.load user) next) → ∀ j, j ≠ i → ∀ r next, p.threads j ≠ .call (.save user r) next

/-! ## What a handler does before it reads -/

/-- Calls that touch neither the user's roster file nor the registry. -/
def Harmless (user : Str) : Call → Prop
  | .load u => u ≠ user
  | .save u _ => u ≠ user
  | .register _ => False
  | .unregister => False
  | .create _ _ => False
  | .delete _ => False
  | _ => True

/-- A lookup of the user finds no session. -/
def Unfound (jid : Str) : (c : Call) → Result c → Prop
  | .find j, r => j = jid → r = none
  | _, _ => True

section
variable {user : Str}

theorem push_harmless {t : ℕ} {fullJID : Str} {r : Roster} {jid : Str} {Q : Unit → Prop} (hQ : Q ()) :
    Ensures (Harmless user) (match r.find jid with
      | some item => push t fullJID item
      | none => pure ()) Q := by
  split
  · exact (ensures_push (fun _ => trivial) trivial).mpr hQ
  · exact hQ

theorem ensureLoaded_harmless {t : ℕ} {local' : Str} (h : local' ≠ user) {Q : Roster → Prop} (hQ : ∀ r, Q r) :
    Ensures (Harmless user) (ensureLoaded t local') Q :=
  ensures_ensureLoaded trivial h (fun _ => trivial) hQ

theorem cancelOwn_harmless {self : ℕ} {s : Session} (h : s.jidLocal ≠ user) {targetBare : Str} {change : Item → Item}
    {Q : Unit → Prop} (hQ : Q ()) : Ensures (Harmless user) (cancelOwn self s targetBare change) Q := by
  simp only [cancelOwn, ensures_bind]
  apply ensureLoaded_harmless h
  intro r
  split
  · exact hQ
  · simp only [ensures_bind, ensures_setRoster, ensures_save]
    exact ⟨trivial, h, push_harmless hQ⟩

/-- With the user away, the lookup is followed by the branch for no session. -/
theorem lookup_leads {jid : Str} {p : Handler Unit} {k : Option ℕ → Handler Unit} (hk : k none = p) :
    Leads (Harmless user) (Unfound jid) (· = p) (findByBareJID jid >>= k) := by
  refine .call trivial ?_
  intro session hs
  cases hs rfl
  exact .here hk

/-- With the user away, a handler comes to the point where it edits his file. -/
theorem handler_leads {q : Request} (haim : localPart (bareJID q.dest) = user) (hother : q.session.jidLocal ≠ user)
    (self : ℕ) :
    Leads (Harmless user) (Unfound (bareJID q.dest)) (· = modifyDiskRoster user q.edit) (q.handler self) := by
  obtain ⟨kind, s, dest⟩ := q
  have hcancel : ∀ (type : Str) (own other : Item → Item),
      Leads (Harmless user) (Unfound (bareJID dest)) (· = modifyDiskRoster user fun r => r.update s.bareJID other)
        (cancel self s dest type own other) := by
    intro type own other
    apply leads_bind
    apply cancelOwn_harmless hother
    apply lookup_leads
    rw [← haim]
  cases kind with
  | subscribed =>
      apply leads_bind
      apply ensureLoaded_harmless hother
      intro r
      apply leads_bind
      refine ensures_setRoster.mpr ⟨trivial, ?_⟩
      apply leads_bind
      refine ensures_save.mpr ⟨hother, ?_⟩
      have hedit : (modifyDiskRoster (localPart (bareJID dest)) fun r => r.update s.bareJID (turn gainTo true)) =
          modifyDiskRoster user fun r => r.update s.bareJID (turn gainTo true) := by rw [← haim]
      dsimp only
      split
      · apply leads_bind
        refine (ensures_push (fun _ => trivial) trivial).mpr ?_
        exact lookup_leads hedit
      · exact lookup_leads hedit
  | unsubscribe => exact hcancel _ _ _
  | unsubscribed => exact hcancel _ _ _

end

/-! ## The discipline -/

section
variable (isPrint : Char → Bool) (outside : ℕ → (c : Call) → Result c) (user : Str) (requests : ℕ → Option Request)

theorem answer_harmless {c : Call} (h : Harmless user c) (i : ℕ) (w : World) :
    (answer isPrint outside i c w).2.rosterFiles user = w.rosterFiles user ∧
      (answer isPrint outside i c w).2.registry = w.registry := by
  cases c with
  | save u r => exact ⟨Function.update_of_ne (Ne.symm h) _ _, rfl⟩
  | register jid => cases h
  | unregister => cases h
  | create u password => cases h
  | delete u => cases h
  | _ => exact ⟨rfl, rfl⟩

theorem reply_unfound {w : World} {jid : Str} (h : w.registry jid = none) (c : Call) :
    Unfound jid c (reply outside w c) := by
  cases c with
  | find j =>
      intro hj
      rw [hj]
      exact h
  | _ => trivial

/-- The write of a request, from what it has read. -/
def writes (i : ℕ) (v w : Option Str) : Prop := ∃ q, requests i = some q ∧ w = q.editFile isPrint v

/-- The handlers and the user's roster file. -/
def discipline : Discipline (answer isPrint outside) (fun w => w.rosterFiles user) (writes isPrint requests)
    (fun _ _ => False) where
  frame w := ∀ i q, requests i = some q → w.registry (bareJID q.dest) = none
  before i _ p := ∃ q, requests i = some q ∧
    Leads (Harmless user) (Unfound (bareJID q.dest)) (· = modifyDiskRoster user q.edit) p
  holding i v p := ∃ q, requests i = some q ∧ p = save user (q.edit (GoRosterFile.load v))
  before_done := by
    intro i v a h
    obtain ⟨q, _, h⟩ := h
    cases h with
    | here h => cases h
  holding_done := by
    intro i v a h
    obtain ⟨q, _, h⟩ := h
    cases h
  before_holding := by
    intro i v w p hb hh
    obtain ⟨q, _, hb⟩ := hb
    obtain ⟨q', _, rfl⟩ := hh
    cases hb with
    | here h => cases h
    | call h _ => exact h rfl
  before_edit := fun _ _ _ _ _ h _ => h
  before_prepared := fun _ _ _ _ h _ => h
  holding_prepared := fun _ _ _ _ _ h => h
  before_call := by
    intro i c next w hframe hb
    obtain ⟨q, hq, hb⟩ := hb
    cases hb with
    | here h =>
        cases h
        exact ⟨hframe, Or.inl ⟨rfl, Or.inr ⟨q, hq, rfl⟩⟩⟩
    | call h hnext =>
        obtain ⟨hfile, hreg⟩ := answer_harmless isPrint outside user h i w
        refine ⟨?_, Or.inl ⟨hfile, Or.inl ⟨q, hq, hnext _ (reply_unfound outside (hframe i q hq) c)⟩⟩⟩
        rw [hreg]
        exact hframe
  holding_call := by
    intro i c next w hframe hh
    obtain ⟨q, hq, hh⟩ := hh
    cases hh
    exact ⟨hframe, Or.inr ⟨⟨q, hq, Function.update_self _ _ _⟩, rfl⟩⟩

variable {isPrint outside user requests}

/-- The condition on the calls is the one of the discipline. -/
theorem exclusive_of_calls {p : Pool Call Result World} {i : ℕ}
    (hframe : (discipline isPrint outside user requests).frame p.shared) (h : Exclusive user p i) :
    (discipline isPrint outside user requests).Exclusive p i := by
  intro hb hnb j hj v hh
  obtain ⟨q', _, hh⟩ := hh
  obtain ⟨q, hq, hleads⟩ := hb
  cases hi : p.threads i with
  | done a =>
      rw [hi] at hleads
      cases hleads with
      | here h => cases h
  | call c next =>
      rw [hi] at hleads
      cases hleads with
      | here hload =>
          cases hload
          exact h ⟨_, hi⟩ j hj _ _ hh
      | call _ hnext =>
          apply hnb
          rw [Pool.step_self hi]
          exact ⟨q, hq, hnext _ (reply_unfound outside (hframe i q hq) c)⟩

/-- The edits one after another, as a fold. -/
theorem serially_foldl {v w : Option Str} {order : List ℕ} (h : Serially (writes isPrint requests) (fun _ _ => False) v order w) :
    w = order.foldl (fun file i => (requests i).elim file fun q => q.editFile isPrint file) v := by
  induction h with
  | start => rfl
  | step _ hedit ih =>
      obtain ⟨q, hq, hw⟩ := hedit
      rw [List.foldl_append, List.foldl_cons, List.foldl_nil, ← ih, hq, hw]
      rfl
  | prepared _ h _ => cases h

/-- If no handler reads the roster file of an offline user while another one is
about to write it, the file ends as the edits make it one after another. -/
theorem offline_edits_serial (isPrint : Char → Bool) (outside : ℕ → (c : Call) → Result c) (user : Str)
    (requests : ℕ → Option Request) (w : World)
    (haim : ∀ i q, requests i = some q → localPart (bareJID q.dest) = user ∧ w.registry (bareJID q.dest) = none)
    (hother : ∀ i q, requests i = some q → q.session.jidLocal ≠ user) (schedule : List ℕ)
    (hx : Pool.Meets (answer isPrint outside) (Exclusive user) (start w requests) schedule)
    (hdone : ∀ i, ∃ a, (Pool.run (answer isPrint outside) (start w requests) schedule).threads i = .done a) :
    ∃ order : List ℕ, order.Nodup ∧ (∀ i, i ∈ order ↔ (requests i).isSome) ∧
      (Pool.run (answer isPrint outside) (start w requests) schedule).shared.rosterFiles user =
        order.foldl (fun file i => (requests i).elim file fun q => q.editFile isPrint file) (w.rosterFiles user) := by
  have hphase : ∀ i, (requests i).isSome →
      (discipline isPrint outside user requests).before i (w.rosterFiles user) ((start w requests).threads i) := by
    intro i hi
    obtain ⟨q, hq⟩ := Option.isSome_iff_exists.mp hi
    refine ⟨q, hq, ?_⟩
    have hleads := handler_leads (haim i q hq).1 (hother i q hq) i
    simp only [start, hq]
    exact hleads
  have hidle : ∀ i, requests i = none → (start w requests).threads i = .done () := by
    intro i hi
    simp only [start, hi]
  have hfree : ∀ i v, ¬(discipline isPrint outside user requests).holding i v ((start w requests).threads i) := by
    intro i v hv
    cases hq : requests i with
    | none =>
        rw [hidle i hq] at hv
        exact (discipline isPrint outside user requests).holding_done i v () hv
    | some q =>
        exact (discipline isPrint outside user requests).before_holding i _ v _ (hphase i (by simp [hq])) hv
  have hinit : (discipline isPrint outside user requests).Serial (fun i => (requests i).isSome)
      (w.rosterFiles user) (start w requests) [] := by
    constructor
    · exact fun i q hq => (haim i q hq).2
    · exact .start
    · exact List.nodup_nil
    · simp
    · intro i hi
      apply hidle i
      simpa using hi
    · exact fun i hi _ => Or.inl (hphase i hi)
    · exact fun i j v w hv _ => absurd hv (hfree i v)
  obtain ⟨order, hnodup, hmem, hserial⟩ :=
    Discipline.run_serial (fun _ _ hframe h => exclusive_of_calls hframe h) hinit schedule hx hdone
  exact ⟨order, hnodup, hmem, serially_foldl hserial⟩

end

/-! ## Two approvals -/

def approver (name : Str) : Session :=
  { jidLocal := name, jidDomain := "x", jidResource := "r", state := .sessionActive, authenticated := true }

/-- Two sessions approve requests of one user. -/
def approvals (i : ℕ) : Option Request :=
  if i = 0 then some ⟨.subscribed, approver "a", "c@x"⟩
  else if i = 1 then some ⟨.subscribed, approver "b", "c@x"⟩
  else none

/-- The user has asked both and is away. -/
def pending : World where
  registry := fun _ => none
  jid := fun _ => []
  rosters := fun _ => { loaded := true }
  rosterFiles := fun _ => some (GoRosterFile.save GoRosterFile.printable
    { items := [⟨"a@x", [], "none", true⟩, ⟨"b@x", [], "none", true⟩] })
  offline := fun _ => none
  closed := fun _ => false
  log := []
  reading := fun _ => none
  replaced := fun _ => false
  clock := 0

theorem approvals_other {i : ℕ} (h0 : i ≠ 0) (h1 : i ≠ 1) : (start pending approvals).threads i = .done () := by
  simp [start, approvals, h0, h1]

theorem approvals_aim : ∀ i q, approvals i = some q →
    (localPart (bareJID q.dest) = "c" ∧ pending.registry (bareJID q.dest) = none) ∧ q.session.jidLocal ≠ "c" := by
  intro i q hq
  unfold approvals at hq
  split_ifs at hq
  · cases hq
    decide
  · cases hq
    decide

/-- A session that is alone at work meets no other one. -/
theorem exclusive_alone (n i : ℕ) {p : Pool Call Result World}
    (h : ∀ j, j ≠ i → ∀ r next, p.threads j ≠ .call (.save "c" r) next) :
    Pool.Meets (answer GoRosterFile.printable plainOutside) (Exclusive "c") p (List.replicate n i) :=
  Pool.meets_alone (q := fun t => ∀ r next, t ≠ .call (.save "c" r) next)
    (fun _ h _ => h) n p h

theorem approvals_in_turn :
    ∃ order : List ℕ, order.Nodup ∧ (∀ i, i ∈ order ↔ (approvals i).isSome) ∧
      (Pool.run (answer GoRosterFile.printable plainOutside) (start pending approvals)
        (List.replicate 8 0 ++ List.replicate 8 1)).shared.rosterFiles "c" =
        order.foldl (fun file i => (approvals i).elim file fun q => q.editFile GoRosterFile.printable file)
          (pending.rosterFiles "c") := by
  apply offline_edits_serial GoRosterFile.printable plainOutside "c" approvals pending
    (fun i q hq => (approvals_aim i q hq).1) (fun i q hq => (approvals_aim i q hq).2)
  · apply Pool.meets_append
    · apply exclusive_alone
      intro j hj r next hcall
      by_cases h1 : j = 1
      · rw [h1] at hcall
        cases hcall
      · rw [approvals_other hj h1] at hcall
        cases hcall
    · apply exclusive_alone
      intro j hj r next hcall
      by_cases h0 : j = 0
      · rw [h0] at hcall
        cases hcall
      · rw [Pool.run_other (by simpa using h0), approvals_other h0 hj] at hcall
        cases hcall
  · intro i
    by_cases h0 : i = 0
    · exact ⟨(), by rw [h0]; rfl⟩
    · by_cases h1 : i = 1
      · exact ⟨(), by rw [h1]; rfl⟩
      · exact ⟨(), by rw [Pool.run_other (by simp [h0, h1]), approvals_other h0 h1]⟩

/-- Both read the file before either writes it, and one approval is lost. -/
theorem approvals_lost :
    ¬∀ (isPrint : Char → Bool) (outside : ℕ → (c : Call) → Result c) (user : Str) (requests : ℕ → Option Request)
      (w : World),
      (∀ i q, requests i = some q → localPart (bareJID q.dest) = user ∧ w.registry (bareJID q.dest) = none) →
      (∀ i q, requests i = some q → q.session.jidLocal ≠ user) → ∀ schedule : List ℕ,
      (∀ i, ∃ a, (Pool.run (answer isPrint outside) (start w requests) schedule).threads i = .done a) →
      ∃ order : List ℕ, order.Nodup ∧ (∀ i, i ∈ order ↔ (requests i).isSome) ∧
        (Pool.run (answer isPrint outside) (start w requests) schedule).shared.rosterFiles user =
          order.foldl (fun file i => (requests i).elim file fun q => q.editFile isPrint file) (w.rosterFiles user) := by
  intro h
  obtain ⟨order, hnodup, hmem, hfile⟩ := h GoRosterFile.printable plainOutside "c" approvals pending
    (fun i q hq => (approvals_aim i q hq).1) (fun i q hq => (approvals_aim i q hq).2)
    [0, 0, 0, 0, 0, 0, 0, 1, 1, 1, 1, 1, 1, 1, 0, 1] (by
      intro i
      by_cases h0 : i = 0
      · exact ⟨(), by rw [h0]; rfl⟩
      · by_cases h1 : i = 1
        · exact ⟨(), by rw [h1]; rfl⟩
        · exact ⟨(), by rw [Pool.run_other (by simp [h0, h1])]; exact approvals_other h0 h1⟩)
  have hperm : order.Perm [0, 1] := by
    rw [List.perm_ext_iff_of_nodup hnodup (by decide)]
    intro i
    rw [hmem i]
    by_cases h0 : i = 0
    · simp [approvals, h0]
    · by_cases h1 : i = 1
      · simp [approvals, h1]
      · simp [approvals, h0, h1]
  have horder : order = [0, 1] ∨ order = [1, 0] := by
    have hp := List.mem_permutations'.mpr hperm
    have hall : ([0, 1] : List ℕ).permutations' = [[0, 1], [1, 0]] := by decide
    rw [hall] at hp
    simpa using hp
  rcases horder with rfl | rfl
  · revert hfile
    decide +kernel
  · revert hfile
    decide +kernel

end Xmppd.GoRosterRace
