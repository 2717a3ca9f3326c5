import Xmppd.GoStanza
import Xmppd.GoWorld

/-!
# Delivery of stored messages

A session delivers the files of its user's offline directory one by one: it reads
a file, sends its content and removes it. When the user binds again, the new
session closes the old one, which may be at any of these steps, and walks through
the same directory. Nothing is lost or sent twice if no session reads a file that
the other one holds, and none sends on a connection that is closed.
-/
namespace Xmppd.GoDelivery
open CStrings Programs Program GoSession GoMessage GoWorld

section
variable (user : Str)

/-- The rest of the loop from the removal of a file on, and from its send on. -/
def removing (i : ℕ) (name : Str) (l : List Str) : Handler Unit :=
  .call (.remove user name) fun _ => l.forM (deliverFile i user)

def sending (i : ℕ) (name data : Str) (l : List Str) : Handler Unit :=
  .call (.send i (.text data)) fun _ => removing user i name l

theorem forM_cons (i : ℕ) (name : Str) (l : List Str) :
    (name :: l).forM (deliverFile i user) = .call (.readFile user name) fun r =>
      match r with
      | some data => sending user i name data l
      | none => removing user i name l := by
  change Program.call _ _ = _
  congr 1
  funext r
  cases r <;> rfl

/-- The old session delivers; the new one binds, closes the old one, and delivers. -/
def start (w : World) (old new : ℕ) (s : Session) (id : Str) : Pool Call Result World :=
  { shared := { w with log := [], reading := fun _ => none }
    threads := fun i =>
      if i = old then deliverOffline old user
      else if i = new then GoStanza.bindResource new s id >>= fun _ => deliverOffline new user
      else .done () }

/-- A file is read only if no other session has read it and not yet removed it,
and its content is sent only on a connection that is open. -/
def Safe (p : Pool Call Result World) (i : ℕ) : Prop :=
  (∀ name next, p.threads i = .call (.readFile user name) next → ∀ j, j ≠ i → p.shared.reading j ≠ some name) ∧
    ∀ d next, p.threads i = .call (.send i d) next → p.shared.reading i ≠ none → p.shared.closed i = false

def dir (w : World) : Dir := (w.offline user).getD []

/-- The sends of the content of a file. -/
def deliveries (w : World) (name : Str) : List Sent := w.log.filter fun e => e.file = some name

/-! ## Phases -/

/-- Calls of the bind. -/
def Binding : Call → Prop
  | .register _ => True
  | .send _ _ => True
  | .close _ => True
  | _ => False

variable (init : Dir) (old new : ℕ)

/-- Every file that is still there is among these. -/
def Covers (w : World) (l : List Str) : Prop := ∀ name content, (dir user w).lookup name = some content → name ∈ l

inductive Phase (i : ℕ) (w : World) : Handler Unit → Prop
  | idle : i ≠ old → i ≠ new → w.reading i = none → Phase i w (.done ())
  | waiting {p : Handler Unit} : Leads Binding (fun _ _ => True) (· = deliverOffline i user) p → w.reading i = none →
      Phase i w p
  | loop {l : List Str} : Covers user w l → w.reading i = none → Phase i w (l.forM (deliverFile i user))
  | sending {name data : Str} {l : List Str} : Covers user w (name :: l) → w.reading i = some name →
      init.lookup name = some data → deliveries w name = [] → Phase i w (sending user i name data l)
  | removing {name : Str} {l : List Str} : Covers user w (name :: l) → (∀ other, w.reading i = some other → other = name) →
      (∀ content, init.lookup name = some content → deliveries w name ≠ []) → Phase i w (removing user i name l)

/-- Each file of the beginning is either there and not sent, or sent once, with
its content, on an open connection; it is then gone or held. -/
structure Accounted (p : Pool Call Result World) : Prop where
  known : ∀ name content, (dir user p.shared).lookup name = some content → init.lookup name = some content
  account : ∀ name content, init.lookup name = some content →
    deliveries p.shared name = [] ∧ (dir user p.shared).lookup name = some content ∨
    ∃ t, deliveries p.shared name = [⟨t, .text content, true, some name⟩] ∧
      ((dir user p.shared).lookup name = none ∨ ∃ i, p.shared.reading i = some name)
  alone : ∀ i j name, p.shared.reading i = some name → p.shared.reading j = some name → i = j
  phase : ∀ i, Phase user init old new i p.shared (p.threads i)

variable {user init old new}

/-- The phase of a session that takes no step. -/
theorem Phase.frame {i : ℕ} {w w' : World} {p : Handler Unit} (h : Phase user init old new i w p)
    (hread : w'.reading i = w.reading i)
    (hdir : ∀ name content, (dir user w').lookup name = some content → (dir user w).lookup name = some content)
    (hkeep : ∀ name, deliveries w name ≠ [] → deliveries w' name ≠ [])
    (hnew : ∀ name, w.reading i = some name → deliveries w name = [] → deliveries w' name = []) :
    Phase user init old new i w' p := by
  have hcovers : ∀ l, Covers user w l → Covers user w' l := fun l hl name content hn => hl name content (hdir name content hn)
  cases h with
  | idle ho hn hr => exact .idle ho hn (hread.trans hr)
  | waiting hl hr => exact .waiting hl (hread.trans hr)
  | loop hc hr => exact .loop (hcovers _ hc) (hread.trans hr)
  | sending hc hr hinit hd => exact .sending (hcovers _ hc) (hread.trans hr) hinit (hnew _ hr hd)
  | removing hc hr hd =>
      refine .removing (hcovers _ hc) ?_ fun content hinit => hkeep _ (hd content hinit)
      rw [hread]
      exact hr

/-! ## Steps -/

variable {isPrint : Char → Bool} {outside : ℕ → (c : Call) → Result c} {p : Pool Call Result World} {i : ℕ}

/-- A step keeps the account if the session comes into one of the phases, adds no
file, takes back no send, and sends nothing that another one is about to send. -/
theorem Accounted.step (h : Accounted user init old new p) {c : Call} {next : Result c → Handler Unit}
    (hi : p.threads i = .call c next)
    (hself : Phase user init old new i (answer isPrint outside i c p.shared).2 (next (answer isPrint outside i c p.shared).1))
    (hread : ∀ j, j ≠ i → (answer isPrint outside i c p.shared).2.reading j = p.shared.reading j)
    (hdir : ∀ name content, (dir user (answer isPrint outside i c p.shared).2).lookup name = some content →
      (dir user p.shared).lookup name = some content)
    (hkeep : ∀ name, deliveries p.shared name ≠ [] → deliveries (answer isPrint outside i c p.shared).2 name ≠ [])
    (hnew : ∀ j name, j ≠ i → p.shared.reading j = some name → deliveries p.shared name = [] →
      deliveries (answer isPrint outside i c p.shared).2 name = [])
    (haccount : ∀ name content, init.lookup name = some content →
      deliveries (answer isPrint outside i c p.shared).2 name = [] ∧
        (dir user (answer isPrint outside i c p.shared).2).lookup name = some content ∨
      ∃ t, deliveries (answer isPrint outside i c p.shared).2 name = [⟨t, .text content, true, some name⟩] ∧
        ((dir user (answer isPrint outside i c p.shared).2).lookup name = none ∨
          ∃ j, (answer isPrint outside i c p.shared).2.reading j = some name))
    (halone : ∀ j name, j ≠ i → (answer isPrint outside i c p.shared).2.reading i = some name →
      p.shared.reading j ≠ some name) :
    Accounted user init old new (Pool.step (answer isPrint outside) p i) := by
  constructor
  · intro name content hn
    rw [Pool.step_shared hi] at hn
    exact h.known name content (hdir name content hn)
  · rw [Pool.step_shared hi]
    exact haccount
  · rw [Pool.step_shared hi]
    intro j k name hj hk
    by_cases hji : j = i
    · by_cases hki : k = i
      · rw [hji, hki]
      · rw [hji] at hj
        rw [hread k hki] at hk
        exact absurd hk (halone k name hki hj)
    · rw [hread j hji] at hj
      by_cases hki : k = i
      · rw [hki] at hk
        exact absurd hj (halone j name hji hk)
      · rw [hread k hki] at hk
        exact h.alone j k name hj hk
  · intro j
    rw [Pool.step_shared hi]
    by_cases hji : j = i
    · rw [hji, Pool.step_self hi]
      exact hself
    · rw [Pool.step_other hji]
      exact (h.phase j).frame (hread j hji) hdir hkeep fun name => hnew j name hji

/-- A step that touches neither the directory nor what is held, and sends nothing
from a file. -/
theorem Accounted.quiet (h : Accounted user init old new p) {c : Call} {next : Result c → Handler Unit}
    (hi : p.threads i = .call c next)
    (hself : Phase user init old new i (answer isPrint outside i c p.shared).2 (next (answer isPrint outside i c p.shared).1))
    (hread : (answer isPrint outside i c p.shared).2.reading = p.shared.reading)
    (hoffline : (answer isPrint outside i c p.shared).2.offline = p.shared.offline)
    (hlog : ∀ name, deliveries (answer isPrint outside i c p.shared).2 name = deliveries p.shared name) :
    Accounted user init old new (Pool.step (answer isPrint outside) p i) := by
  have hdir : dir user (answer isPrint outside i c p.shared).2 = dir user p.shared := by
    unfold dir
    rw [hoffline]
  apply h.step hi hself
  · intro j _
    rw [hread]
  · intro name content hn
    rw [hdir] at hn
    exact hn
  · intro name hn
    rw [hlog]
    exact hn
  · intro j name _ _ hn
    rw [hlog]
    exact hn
  · rw [hdir, hread]
    intro name content hn
    rw [hlog]
    exact h.account name content hn
  · rw [hread]
    intro j name hji hin hjn
    exact hji (h.alone j i name hjn hin)

theorem deliveries_send (w : World) (t : ℕ) (d : Data) (name : Str) :
    deliveries (answer isPrint outside i (.send t d) w).2 name =
      deliveries w name ++ if w.reading i = some name then [⟨t, d, !w.closed t, w.reading i⟩] else [] := by
  change (w.log ++ [_]).filter _ = _
  rw [List.filter_append]
  congr 1
  by_cases hr : w.reading i = some name
  · simp [hr]
  · simp [hr]

theorem step_binding (h : Accounted user init old new p) {c : Call} {next : Result c → Handler Unit}
    (hi : p.threads i = .call c next) (hc : Binding c) (hr : p.shared.reading i = none)
    (hnext : ∀ r, Leads Binding (fun _ _ => True) (· = deliverOffline i user) (next r)) :
    Accounted user init old new (Pool.step (answer isPrint outside) p i) := by
  cases c with
  | register jid =>
      apply h.quiet hi
      · exact .waiting (hnext _) hr
      · rfl
      · rfl
      · exact fun _ => rfl
  | send t d =>
      apply h.quiet hi
      · exact .waiting (hnext _) hr
      · rfl
      · rfl
      · intro name
        rw [deliveries_send, hr]
        simp
  | close t =>
      apply h.quiet hi
      · exact .waiting (hnext _) hr
      · rfl
      · rfl
      · exact fun _ => rfl
  | _ => cases hc

/-- The listing names every file that is there. -/
theorem covers_listing (hxml : ∀ name ∈ init.map Prod.fst, (".xml" : Str) <:+ name) {w : World}
    (hknown : ∀ name content, (dir user w).lookup name = some content → init.lookup name = some content) {d : Dir}
    (hd : w.offline user = some d) : Covers user w (deliverable d.listing) := by
  intro name content hn
  have hsuffix := hxml name (Dir.mem_of_lookup (hknown name content hn))
  rw [dir, hd, Option.getD_some] at hn
  rw [deliverable, List.mem_mergeSort]
  have hm := Dir.mem_listing.mpr (Dir.mem_of_lookup hn)
  obtain ⟨e, he, rfl⟩ := List.mem_map.mp hm
  apply List.mem_map_of_mem
  rw [List.mem_filter]
  refine ⟨he, ?_⟩
  obtain ⟨f, _, hf⟩ := List.mem_map.mp (List.mem_mergeSort.mp he)
  simp [← hf] at hsuffix ⊢
  exact hsuffix

theorem step_listing (hxml : ∀ name ∈ init.map Prod.fst, (".xml" : Str) <:+ name) (h : Accounted user init old new p)
    {next : Result (.readDir user) → Handler Unit} (hi : p.threads i = .call (.readDir user) next)
    (hp : p.threads i = deliverOffline i user) (hr : p.shared.reading i = none) :
    Accounted user init old new (Pool.step (answer isPrint outside) p i) := by
  apply h.quiet hi
  · rw [hi] at hp
    cases hp
    cases hd : p.shared.offline user with
    | none =>
        have hreply : (answer isPrint outside i (.readDir user) p.shared).1 = none := by
          change (p.shared.offline user).map Dir.listing = none
          rw [hd]
          rfl
        rw [hreply]
        apply Phase.loop (l := [])
        · intro name content hn
          unfold dir at hn
          rw [show (answer isPrint outside i (.readDir user) p.shared).2.offline user = none from hd] at hn
          cases hn
        · exact hr
    | some d =>
        have hreply : (answer isPrint outside i (.readDir user) p.shared).1 = some d.listing := by
          change (p.shared.offline user).map Dir.listing = some d.listing
          rw [hd]
          rfl
        rw [hreply]
        exact .loop (covers_listing hxml h.known hd) hr
  · rfl
  · rfl
  · exact fun _ => rfl

theorem step_reading (h : Accounted user init old new p) {name : Str} {l : List Str}
    (hi : p.threads i = (name :: l).forM (deliverFile i user)) (hc : Covers user p.shared (name :: l))
    (hr : p.shared.reading i = none) (hsafe : ∀ j, j ≠ i → p.shared.reading j ≠ some name) :
    Accounted user init old new (Pool.step (answer isPrint outside) p i) := by
  rw [forM_cons] at hi
  have hreply : (answer isPrint outside i (.readFile user name) p.shared).1 = (dir user p.shared).lookup name := by
    change ((p.shared.offline user).bind fun d => d.lookup name) = ((p.shared.offline user).getD []).lookup name
    cases p.shared.offline user <;> rfl
  have hself : (answer isPrint outside i (.readFile user name) p.shared).2.reading i =
      ((dir user p.shared).lookup name).map fun _ => name := by
    rw [← hreply]
    exact Function.update_self _ _ _
  have hread : ∀ j, j ≠ i → (answer isPrint outside i (.readFile user name) p.shared).2.reading j = p.shared.reading j :=
    fun j hj => Function.update_of_ne hj _ _
  apply h.step hi
  · rw [hreply]
    cases hn : (dir user p.shared).lookup name with
    | none =>
        refine .removing hc ?_ ?_
        · intro other ho
          rw [hself, hn] at ho
          cases ho
        · intro content hinit
          rcases h.account name content hinit with ⟨_, hd⟩ | ⟨t, hd, _⟩
          · rw [hn] at hd
            cases hd
          · change deliveries p.shared name ≠ []
            rw [hd]
            simp
    | some data =>
        have hinit := h.known name data hn
        refine .sending hc ?_ hinit ?_
        · rw [hself, hn]
          rfl
        · rcases h.account name data hinit with ⟨hd, _⟩ | ⟨t, _, hgone | ⟨j, hj⟩⟩
          · exact hd
          · rw [hn] at hgone
            cases hgone
          · by_cases hji : j = i
            · rw [hji, hr] at hj
              cases hj
            · exact absurd hj (hsafe j hji)
  · exact hread
  · exact fun _ _ hn => hn
  · exact fun _ hn => hn
  · exact fun _ _ _ _ hn => hn
  · intro other content hinit
    rcases h.account other content hinit with hd | ⟨t, hd, hgone | ⟨j, hj⟩⟩
    · exact Or.inl hd
    · exact Or.inr ⟨t, hd, Or.inl hgone⟩
    · refine Or.inr ⟨t, hd, Or.inr ⟨j, ?_⟩⟩
      by_cases hji : j = i
      · rw [hji, hr] at hj
        cases hj
      · rw [hread j hji]
        exact hj
  · intro j other hji ho
    rw [hself, Option.map_eq_some_iff] at ho
    obtain ⟨_, _, ho⟩ := ho
    rw [← ho]
    exact hsafe j hji

theorem step_sending (h : Accounted user init old new p) {name data : Str} {l : List Str}
    (hi : p.threads i = sending user i name data l) (hc : Covers user p.shared (name :: l))
    (hr : p.shared.reading i = some name) (hinit : init.lookup name = some data) (hd : deliveries p.shared name = [])
    (hsafe : p.shared.closed i = false) : Accounted user init old new (Pool.step (answer isPrint outside) p i) := by
  have hname : deliveries (answer isPrint outside i (.send i (.text data)) p.shared).2 name =
      [⟨i, .text data, true, some name⟩] := by
    rw [deliveries_send, hd, if_pos hr, hsafe, hr]
    rfl
  have hother : ∀ other, other ≠ name →
      deliveries (answer isPrint outside i (.send i (.text data)) p.shared).2 other = deliveries p.shared other := by
    intro other ho
    rw [deliveries_send, hr, if_neg fun he => ho (Option.some.inj he).symm, List.append_nil]
  apply h.step hi
  · refine .removing hc ?_ ?_
    · intro other ho
      exact (Option.some.inj (hr.symm.trans ho)).symm
    · intro content _
      rw [hname]
      simp
  · exact fun _ _ => rfl
  · exact fun _ _ hn => hn
  · intro other hn
    by_cases ho : other = name
    · rw [ho, hname]
      simp
    · rw [hother other ho]
      exact hn
  · intro j other hji hj hn
    have ho : other ≠ name := by
      rintro rfl
      exact hji (h.alone j i other hj hr)
    rw [hother other ho]
    exact hn
  · intro other content ho
    by_cases hon : other = name
    · rw [hon] at ho ⊢
      rw [hinit] at ho
      cases ho
      exact Or.inr ⟨i, hname, Or.inr ⟨i, hr⟩⟩
    · rw [hother other hon]
      exact h.account other content ho
  · intro j other hji hio hjo
    exact hji (h.alone j i other hjo hio)

theorem step_removing (h : Accounted user init old new p) {name : Str} {l : List Str}
    (hi : p.threads i = removing user i name l) (hc : Covers user p.shared (name :: l))
    (hr : ∀ other, p.shared.reading i = some other → other = name)
    (hd : ∀ content, init.lookup name = some content → deliveries p.shared name ≠ []) :
    Accounted user init old new (Pool.step (answer isPrint outside) p i) := by
  have hdir : dir user (answer isPrint outside i (.remove user name) p.shared).2 = (dir user p.shared).erase name := by
    have hoffline : (answer isPrint outside i (.remove user name) p.shared).2.offline user =
        (p.shared.offline user).map fun d => d.erase name := Function.update_self _ _ _
    unfold dir
    rw [hoffline]
    cases p.shared.offline user <;> rfl
  have hself : (answer isPrint outside i (.remove user name) p.shared).2.reading i = none := Function.update_self _ _ _
  have hread : ∀ j, j ≠ i → (answer isPrint outside i (.remove user name) p.shared).2.reading j = p.shared.reading j :=
    fun j hj => Function.update_of_ne hj _ _
  have hless : ∀ other content, (dir user (answer isPrint outside i (.remove user name) p.shared).2).lookup other =
      some content → other ≠ name ∧ (dir user p.shared).lookup other = some content := by
    intro other content ho
    rw [hdir] at ho
    have hne : other ≠ name := by
      rintro rfl
      rw [Dir.lookup_erase_self] at ho
      cases ho
    rw [Dir.lookup_erase_of_ne _ hne] at ho
    exact ⟨hne, ho⟩
  apply h.step hi
  · refine .loop ?_ hself
    intro other content ho
    obtain ⟨hne, ho⟩ := hless other content ho
    rcases List.mem_cons.mp (hc other content ho) with he | hm
    · exact absurd he hne
    · exact hm
  · exact hread
  · exact fun other content ho => (hless other content ho).2
  · exact fun _ hn => hn
  · exact fun _ _ _ _ hn => hn
  · intro other content ho
    by_cases hne : other = name
    · rw [hne] at ho ⊢
      rcases h.account name content ho with ⟨hnone, _⟩ | ⟨t, hsent, _⟩
      · exact absurd hnone (hd content ho)
      · refine Or.inr ⟨t, hsent, Or.inl ?_⟩
        rw [hdir]
        exact Dir.lookup_erase_self _ _
    · rw [hdir, Dir.lookup_erase_of_ne _ hne]
      rcases h.account other content ho with hthere | ⟨t, hsent, hgone | ⟨j, hj⟩⟩
      · exact Or.inl hthere
      · exact Or.inr ⟨t, hsent, Or.inl hgone⟩
      · refine Or.inr ⟨t, hsent, Or.inr ⟨j, ?_⟩⟩
        have hji : j ≠ i := by
          rintro rfl
          exact hne (hr other hj)
        rw [hread j hji]
        exact hj
  · intro j other _ ho
    rw [hself] at ho
    cases ho

/-- A safe step keeps the account. -/
theorem accounted_step (hxml : ∀ name ∈ init.map Prod.fst, (".xml" : Str) <:+ name) (h : Accounted user init old new p)
    (hsafe : Safe user p i) : Accounted user init old new (Pool.step (answer isPrint outside) p i) := by
  cases hi : p.threads i with
  | done a =>
      rw [Pool.step_of_done hi]
      exact h
  | call c next =>
      have hphase := h.phase i
      generalize hq : p.threads i = q at hphase
      cases hphase with
      | idle =>
          rw [hi] at hq
          cases hq
      | waiting hleads hr =>
          cases hleads with
          | here hp =>
              subst hp
              exact step_listing hxml h hq hq hr
          | call hc hnext => exact step_binding h hq hc hr fun r => hnext r trivial
      | @loop l hc hr =>
          cases l with
          | nil =>
              rw [hi] at hq
              cases hq
          | cons name l =>
              apply step_reading h hq hc hr
              rw [forM_cons] at hq
              exact hsafe.1 name _ hq
      | sending hc hr hinit hd =>
          apply step_sending h hq hc hr hinit hd
          apply hsafe.2 _ _ hq
          rw [hr]
          simp
      | removing hc hr hd => exact step_removing h hq hc hr hd

theorem accounted_start (w : World) (s : Session) (id : Str) :
    Accounted user (dir user w) old new (start user w old new s id) := by
  constructor
  · exact fun _ _ h => h
  · exact fun _ _ h => Or.inl ⟨rfl, h⟩
  · intro i j name hi
    cases hi
  · intro i
    by_cases ho : i = old
    · have hthread : (start user w old new s id).threads i = deliverOffline i user := by
        simp [start, ho]
      rw [hthread]
      exact .waiting (.here rfl) rfl
    · by_cases hn : i = new
      · have hthread : (start user w old new s id).threads i =
            GoStanza.bindResource i s id >>= fun _ => deliverOffline i user := by
          simp [start, ← hn, ho]
        rw [hthread]
        refine .waiting (leads_bind ?_) rfl
        simp only [GoStanza.bindResource, ensures_bind, ensures_register]
        refine ⟨trivial, ?_⟩
        intro other
        cases other with
        | none => exact ⟨trivial, fun _ => .here rfl⟩
        | some t => exact ⟨trivial, fun _ => ⟨trivial, fun _ => ⟨trivial, fun _ => .here rfl⟩⟩⟩
      · have hthread : (start user w old new s id).threads i = .done () := by
          simp [start, ho, hn]
        rw [hthread]
        exact .idle ho hn rfl

/-- When a session has ended its loop, the files are gone. -/
theorem Accounted.empty (h : Accounted user init old new p) (hdone : ∃ a, p.threads old = .done a) {name : Str} :
    (dir user p.shared).lookup name = none := by
  obtain ⟨a, ha⟩ := hdone
  have hphase := h.phase old
  rw [ha] at hphase
  generalize hq : (Program.done a : Handler Unit) = q at hphase
  cases hphase with
  | idle ho => exact absurd rfl ho
  | waiting hleads =>
      cases hleads with
      | here hp =>
          subst hp
          cases hq
      | call => cases hq
  | @loop l hc =>
      cases l with
      | nil =>
          cases hl : (dir user p.shared).lookup name with
          | none => rfl
          | some content => cases hc name content hl
      | cons name l =>
          rw [forM_cons] at hq
          cases hq
  | sending => cases hq
  | removing => cases hq

end

/-- In every run whose steps are safe, a file is removed only after its content
was sent once, on an open connection, and when both sessions have ended this is
so for every file. -/
theorem stored_delivered_once (isPrint : Char → Bool) (outside : ℕ → (c : Call) → Result c) (user : Str) (w : World)
    (old new : ℕ) (s : Session) (id : Str) (hxml : ∀ name ∈ (dir user w).map Prod.fst, (".xml" : Str) <:+ name)
    (schedule : List ℕ)
    (hsafe : Pool.Meets (answer isPrint outside) (Safe user) (start user w old new s id) schedule) :
    (∀ name content, (dir user w).lookup name = some content →
      (dir user (Pool.run (answer isPrint outside) (start user w old new s id) schedule).shared).lookup name = none →
      ∃ t, deliveries (Pool.run (answer isPrint outside) (start user w old new s id) schedule).shared name =
        [⟨t, .text content, true, some name⟩]) ∧
    ((∀ i, ∃ a, (Pool.run (answer isPrint outside) (start user w old new s id) schedule).threads i = .done a) →
      ∀ name content, (dir user w).lookup name = some content →
        ∃ t, deliveries (Pool.run (answer isPrint outside) (start user w old new s id) schedule).shared name =
          [⟨t, .text content, true, some name⟩]) := by
  have h : Accounted user (dir user w) old new (Pool.run (answer isPrint outside) (start user w old new s id) schedule) :=
    Pool.run_invariant (fun _ _ h hs => accounted_step hxml h hs) schedule _ (accounted_start w s id) hsafe
  have hremoved : ∀ name content, (dir user w).lookup name = some content →
      (dir user (Pool.run (answer isPrint outside) (start user w old new s id) schedule).shared).lookup name = none →
      ∃ t, deliveries (Pool.run (answer isPrint outside) (start user w old new s id) schedule).shared name =
        [⟨t, .text content, true, some name⟩] := by
    intro name content hn hgone
    rcases h.account name content hn with ⟨_, hthere⟩ | ⟨t, hsent, _⟩
    · rw [hgone] at hthere
      cases hthere
    · exact ⟨t, hsent⟩
  refine ⟨hremoved, ?_⟩
  intro hdone name content hn
  exact hremoved name content hn (h.empty (hdone old))

/-! ## One stored message -/

def returning : Session :=
  { jidLocal := "c", jidDomain := "x", jidResource := "r", state := .bound, authenticated := true }

/-- The user is registered with one session, and one message is stored. -/
def stored : World where
  registry := fun jid => if jid = ("c@x" : Str) then some 0 else none
  jid := fun _ => "c@x"
  rosters := fun _ => {}
  rosterFiles := fun _ => none
  offline := fun _ => some [("0001.xml", "m")]
  closed := fun _ => false
  log := []
  reading := fun _ => none
  replaced := fun _ => false
  clock := 0

/-- The old session has listed the directory. -/
def listed : Pool Call Result World :=
  { shared := { stored with clock := 1 }
    threads := Function.update (start "c" stored 0 1 returning []).threads 0 ([("0001.xml" : Str)].forM (deliverFile 0 "c")) }

theorem step_listed :
    Pool.step (answer GoRosterFile.printable plainOutside) (start "c" stored 0 1 returning []) 0 = listed := by
  have hlist : deliverable (Dir.listing [("0001.xml", "m")]) = [("0001.xml" : Str)] := by decide +kernel
  have hstep : Pool.step (answer GoRosterFile.printable plainOutside) (start "c" stored 0 1 returning []) 0 =
      { shared := { stored with clock := 1 }
        threads := Function.update (start "c" stored 0 1 returning []).threads 0
          ((deliverable (Dir.listing [("0001.xml", "m")])).forM (deliverFile 0 "c")) } := rfl
  rw [hstep, hlist]
  rfl

theorem listed_safe : Pool.Meets (answer GoRosterFile.printable plainOutside) (Safe "c") listed [0, 0, 0, 1, 1, 1, 1, 1] := by
  refine ⟨⟨?_, ?_⟩, ⟨?_, ?_⟩, ⟨?_, ?_⟩, ⟨?_, ?_⟩, ⟨?_, ?_⟩, ⟨?_, ?_⟩, ⟨?_, ?_⟩, ⟨?_, ?_⟩, trivial⟩
  · intro name next _ j _ hj
    cases hj
  all_goals
    intro _ _ h
    first
    | cases h
      done
    | exact fun _ => rfl

theorem stored_in_turn :
    ∃ t, deliveries (Pool.run (answer GoRosterFile.printable plainOutside) (start "c" stored 0 1 returning [])
      [0, 0, 0, 0, 1, 1, 1, 1, 1]).shared "0001.xml" = [⟨t, .text "m", true, some "0001.xml"⟩] := by
  have hsafe : Pool.Meets (answer GoRosterFile.printable plainOutside) (Safe "c") (start "c" stored 0 1 returning [])
      [0, 0, 0, 0, 1, 1, 1, 1, 1] := by
    refine ⟨⟨?_, ?_⟩, ?_⟩
    · intro name next h
      cases h
    · intro d next h
      cases h
    · rw [step_listed]
      exact listed_safe
  exact (stored_delivered_once GoRosterFile.printable plainOutside "c" stored 0 1 returning [] (by decide) _ hsafe).1
    _ _ rfl (by decide +kernel)

/-- The old session is closed after it has read the file: it sends into nothing
and removes the message. -/
theorem stored_lost :
    ¬∀ (isPrint : Char → Bool) (outside : ℕ → (c : Call) → Result c) (user : Str) (w : World) (old new : ℕ)
      (s : Session) (id : Str), (∀ name ∈ (dir user w).map Prod.fst, (".xml" : Str) <:+ name) → ∀ schedule : List ℕ,
      ∀ name content, (dir user w).lookup name = some content →
        (dir user (Pool.run (answer isPrint outside) (start user w old new s id) schedule).shared).lookup name = none →
        ∃ t, deliveries (Pool.run (answer isPrint outside) (start user w old new s id) schedule).shared name =
          [⟨t, .text content, true, some name⟩] := by
  intro h
  obtain ⟨t, ht⟩ := h GoRosterFile.printable plainOutside "c" stored 0 1 returning [] (by decide)
    [0, 0, 1, 1, 1, 0, 0, 1, 1] "0001.xml" "m" rfl (by decide +kernel)
  have hclosed : (deliveries (Pool.run (answer GoRosterFile.printable plainOutside) (start "c" stored 0 1 returning [])
      [0, 0, 1, 1, 1, 0, 0, 1, 1]).shared "0001.xml").map Sent.isOpen = [false] := by decide +kernel
  rw [ht] at hclosed
  cases hclosed

end Xmppd.GoDelivery
