import Xmppd.GoStanza
import Xmppd.GoWorld

/-!
# Presence across a conflict

A session that was replaced leaves the registry and tells the contacts that its
full address is unavailable, at any time. The session that replaced it may have
the same full address and may have announced itself already. What a contact sees
last is right if the two addresses differ or the two sends to that contact come in
the right order.
-/
namespace Xmppd.GoConflict
open CStrings GoXml Programs Program GoSession GoPresence GoWorld

/-! ## The addresses in the notices -/

theorem escapeChar_append {c d : Char} {s t : Str} (h : escapeChar c ++ s = escapeChar d ++ t) : c = d ∧ s = t := by
  unfold escapeChar at h
  split_ifs at h
  all_goals simp_all
  all_goals exact absurd h.1.symm ‹¬d = '&'›

theorem escapeChar_ne_nil (c : Char) : escapeChar c ≠ [] := by
  unfold escapeChar
  split_ifs
  all_goals simp

theorem escapeAttr_injective {s t : Str} (h : escapeAttr s = escapeAttr t) : s = t := by
  rw [escapeAttr_eq, escapeAttr_eq] at h
  induction s generalizing t with
  | nil =>
      cases t with
      | nil => rfl
      | cons d t =>
          rw [List.flatMap_nil, List.flatMap_cons] at h
          exact absurd (List.append_eq_nil_iff.mp h.symm).1 (escapeChar_ne_nil d)
  | cons c s ih =>
      cases t with
      | nil =>
          rw [List.flatMap_nil, List.flatMap_cons] at h
          exact absurd (List.append_eq_nil_iff.mp h).1 (escapeChar_ne_nil c)
      | cons d t =>
          rw [List.flatMap_cons, List.flatMap_cons] at h
          obtain ⟨hcd, hst⟩ := escapeChar_append h
          rw [hcd, ih hst]

theorem unavailableFrom_injective {a b : Str} (h : unavailableFrom a = unavailableFrom b) : a = b := by
  unfold unavailableFrom at h
  rw [List.append_left_inj, List.append_right_inj] at h
  exact escapeAttr_injective h

theorem clonePresence_from (n : XmlNode) (fullJID : Str) : (clonePresence n fullJID).attr "from" = fullJID := by
  have hnone : (n.attrs.filter fun a => a.name ≠ ("from" : Str)).find? (fun a => a.name = ("from" : Str)) = none := by
    rw [List.find?_eq_none]
    intro a ha
    simpa using (List.mem_filter.mp ha).2
  change (((_ ++ [_] : List XmlAttr).find? _).map _).getD [] = fullJID
  rw [List.find?_append, hnone]
  rfl

/-! ## The two sessions -/

section
variable (old new : ℕ) (sOld s : Session) (id : Str) (node : XmlNode) (contact : Str) (t : ℕ)

/-- The new session's bind and first presence. -/
def arrive : Handler Unit := do
  let s ← GoStanza.bindResource new s id
  let _ ← handleAvailable new s node
  pure ()

def start (w : World) : Pool Call Result World :=
  { shared := { w with log := [] }
    threads := fun i => if i = old then GoStanza.leave old sOld else if i = new then arrive new s id node else .done () }

/-- Presence about a full address: the notice that it is gone, or an element from it. -/
def about (fullJID : Str) : Data → Bool
  | .text x => x = unavailableFrom fullJID
  | .node n => n.attr "from" = fullJID

/-- What the contact was sent about the new session's address. -/
def seen (w : World) : List Data := (w.log.filter fun e => e.dest = t ∧ about s.fullJID e.data).map Sent.data

/-- The two addresses differ, or a session that is about to tell the contact that
the address is gone finds the new session not yet announced to that contact. -/
def Ordered (p : Pool Call Result World) (i : ℕ) : Prop :=
  sOld.fullJID = s.fullJID → (∃ next, p.threads i = .call (.send t (.text (unavailableFrom s.fullJID))) next) →
    ∀ e ∈ p.shared.log, e.dest = t → e.data ≠ .node (clonePresence node s.fullJID)

/-! ## What they call -/

/-- Calls of the old session. -/
def Leaving : Call → Prop
  | .unregister => True
  | .roster _ => True
  | .load _ => True
  | .setRoster k _ => k = old
  | .find _ => True
  | .send k d => k = t → about s.fullJID d = true → sOld.fullJID = s.fullJID ∧ d = .text (unavailableFrom s.fullJID)
  | .close _ => True
  | _ => False

/-- Calls of the new session. -/
def Arriving : Call → Prop
  | .register j => j ≠ contact
  | .send k d => k = t → about s.fullJID d = true → d = .node (clonePresence node s.fullJID)
  | .unregister => False
  | .save _ _ => False
  | .create _ _ => False
  | .delete _ => False
  | _ => True

/-- The contact is connected and in the roster that is read. -/
def Shown : (c : Call) → Result c → Prop
  | .find j, r => j = contact → r = some t
  | .roster k, r => k = new → r.loaded = true → contact ∈ watchers r
  | .load u, r => u = s.jidLocal → contact ∈ watchers r
  | _, _ => True

/-- Calls of the new session before it announces itself. -/
def Announcing : Call → Prop
  | .setRoster k r => k = new → contact ∈ watchers r
  | c => Arriving s node contact t c

variable {old new sOld s id node contact t}

theorem about_unavailable {fullJID : Str} (h : about s.fullJID (.text (unavailableFrom fullJID)) = true) :
    fullJID = s.fullJID := by
  simp only [about, decide_eq_true_eq] at h
  exact unavailableFrom_injective h

theorem leave_calls : Ensures (Leaving old sOld s t) (GoStanza.leave old sOld) fun _ => True := by
  simp only [GoStanza.leave, ensures_bind, ensures_unregister]
  refine ⟨trivial, ?_⟩
  apply ensures_broadcastUnavailable trivial trivial (fun _ => rfl) (fun _ => trivial)
  · intro k _ habout
    have hsame := about_unavailable habout
    exact ⟨hsame, by rw [hsame]⟩
  · exact fun _ _ => ensures_close.mpr ⟨trivial, trivial⟩

theorem about_conflict : about s.fullJID (.text (("<stream:error><" : Str) ++ ("conflict" : Str) ++
    (" xmlns='urn:ietf:params:xml:ns:xmpp-streams'/></stream:error></stream:stream>" : Str))) = false := by
  apply Bool.eq_false_iff.mpr
  intro h
  simp only [about, decide_eq_true_eq] at h
  have hstart : [('<' : Char), 's'] = ['<', 'p'] := congrArg (List.take 2) h
  revert hstart
  decide

/-- The calls of the bind, which are the same before and after the announcement. -/
theorem bindResource_calls {P : Call → Prop} {Q : Session → Prop} (hregister : P (.register s.bareJID))
    (hself : ∀ d, P (.send new d)) (hclose : ∀ k, P (.close k))
    (hconflict : ∀ k x, about s.fullJID (.text x) = false → P (.send k (.text x))) (hQ : Q s) :
    Ensures P (GoStanza.bindResource new s id) Q := by
  simp only [GoStanza.bindResource, ensures_bind, ensures_register]
  refine ⟨hregister, ?_⟩
  intro other
  cases other with
  | none => exact ensures_sendText.mpr ⟨hself _, hQ⟩
  | some k =>
      simp only [GoStanza.kick, ensures_bind, sendError, ensures_sendText, ensures_close, ensures_pure]
      exact ⟨hconflict k _ about_conflict, hclose k, hself _, hQ⟩

theorem arriving_text (k : ℕ) (x : Str) (h : about s.fullJID (.text x) = false) :
    Arriving s node contact t (.send k (.text x)) := by
  intro _ habout
  rw [h] at habout
  cases habout

theorem arrive_calls (hnew : new ≠ t) (hown : s.bareJID ≠ contact) :
    Ensures (Arriving s node contact t) (arrive new s id node) fun _ => True := by
  have hself : ∀ d, Arriving s node contact t (.send new d) := fun d hn => absurd hn hnew
  simp only [arrive, ensures_bind]
  apply bindResource_calls hown hself (fun _ => trivial) arriving_text
  exact ensures_handleAvailable (fun _ => trivial) trivial (fun _ => trivial) (fun _ => trivial) (fun _ _ _ => rfl) hself
    (fun _ => trivial) trivial trivial (fun _ => trivial) (fun _ => trivial) fun _ _ => trivial

/-- The loop over the contacts comes to the one that is looked at. -/
theorem sendAvailable_leads {A : Type} {l : List Str} (h : contact ∈ l) {rest : Unit → Handler A} :
    Leads (Announcing new s node contact t) (Shown new s contact t)
      (fun p => ∃ next, p = .call (.send t (.node (clonePresence node s.fullJID))) next)
      (l.forM (sendAvailable (clonePresence node s.fullJID)) >>= rest) := by
  induction l with
  | nil => cases h
  | cons k l ih =>
      refine .call trivial ?_
      intro session hs
      by_cases hk : k = contact
      · cases hs hk
        exact .here ⟨_, rfl⟩
      · have hl : contact ∈ l := by
          rcases List.mem_cons.mp h with he | hm
          · exact absurd he.symm hk
          · exact hm
        cases session with
        | none => exact ih hl
        | some m => exact .call (fun _ _ => rfl) fun _ _ => ih hl

theorem ensureLoaded_leads :
    Leads (Announcing new s node contact t) (Shown new s contact t) (fun q => ∃ r, q = .done r ∧ contact ∈ watchers r)
      (ensureLoaded new s.jidLocal) := by
  refine .call trivial ?_
  intro r hr
  change Leads _ _ _ (if r.loaded then pure r else load s.jidLocal >>= fun r => setRoster new r >>= fun _ => pure r)
  split
  · next hl => exact .here ⟨r, rfl, hr rfl hl⟩
  · refine .call trivial ?_
    intro r hr
    exact .call (fun _ => hr rfl) fun _ _ => .here ⟨r, rfl, hr rfl⟩

/-- The new session comes to the point where it announces itself to the contact. -/
theorem arrive_leads (hnew : new ≠ t) (hown : s.bareJID ≠ contact) :
    Leads (Announcing new s node contact t) (Shown new s contact t)
      (fun p => ∃ next, p = .call (.send t (.node (clonePresence node s.fullJID))) next) (arrive new s id node) := by
  have hself : ∀ d, Announcing new s node contact t (.send new d) := fun d hn => absurd hn hnew
  have hshow : Leads (Announcing new s node contact t) (Shown new s contact t)
      (fun p => ∃ next, p = .call (.send t (.node (clonePresence node s.fullJID))) next) (handleAvailable new s node) := by
    apply Leads.bind
    refine ensureLoaded_leads.mono ?_
    intro q hq
    obtain ⟨r, hr, hc⟩ := hq
    exact ⟨r, hr, sendAvailable_leads hc⟩
  unfold arrive
  apply leads_bind
  apply bindResource_calls hown hself (fun _ => trivial) (@arriving_text s node contact t)
  apply hshow.before
  intro q hq
  obtain ⟨next, rfl⟩ := hq
  exact ⟨_, rfl⟩

/-! ## Steps -/

variable (t) in
/-- The new session is announced to the contact. -/
def Announced (s : Session) (node : XmlNode) (w : World) : Prop :=
  ∃ e ∈ w.log, e.dest = t ∧ e.data = .node (clonePresence node s.fullJID)

variable (old new sOld s node contact t) in
structure Showing (p : Pool Call Result World) : Prop where
  connected : p.shared.registry contact = some t
  filed : contact ∈ watchers (GoRosterFile.load (p.shared.rosterFiles s.jidLocal))
  leaving : Ensures (Leaving old sOld s t) (p.threads old) fun _ => True
  arriving : Ensures (Arriving s node contact t) (p.threads new) fun _ => True
  others : ∀ i, i ≠ old → i ≠ new → p.threads i = .done ()
  announced : Announced t s node p.shared ∨
    ((p.shared.rosters new).loaded = true → contact ∈ watchers (p.shared.rosters new)) ∧
      Leads (Announcing new s node contact t) (Shown new s contact t)
        (fun q => ∃ next, q = .call (.send t (.node (clonePresence node s.fullJID))) next) (p.threads new)
  last : Announced t s node p.shared → (seen s t p.shared).getLast? = some (.node (clonePresence node s.fullJID))

variable {isPrint : Char → Bool} {outside : ℕ → (c : Call) → Result c} {p : Pool Call Result World} {w : World}

theorem seen_send (i k : ℕ) (d : Data) :
    seen s t (answer isPrint outside i (.send k d) w).2 =
      seen s t w ++ if k = t ∧ about s.fullJID d = true then [d] else [] := by
  change ((w.log ++ [_]).filter _).map _ = _
  rw [List.filter_append, List.map_append]
  congr 1
  by_cases h : k = t ∧ about s.fullJID d = true
  · simp [h]
  · rw [if_neg h, List.filter_cons_of_neg]
    · rfl
    · simpa using h

theorem announced_send (i k : ℕ) (d : Data) :
    Announced t s node (answer isPrint outside i (.send k d) w).2 ↔
      Announced t s node w ∨ k = t ∧ d = .node (clonePresence node s.fullJID) := by
  unfold Announced
  change (∃ e ∈ w.log ++ [_], _) ↔ _
  simp only [List.mem_append, List.mem_singleton, or_and_right, exists_or, exists_eq_left]

/-- What a call other than a send leaves as it is. -/
structure Quiet (contact : Str) (w w' : World) : Prop where
  registry : w'.registry contact = w.registry contact
  files : w'.rosterFiles = w.rosterFiles
  log : w'.log = w.log

theorem leaving_quiet (hold : old ≠ t) (hconn : w.registry contact = some t) {c : Call} (h : Leaving old sOld s t c)
    (hsend : ∀ k d, c ≠ .send k d) : Quiet contact w (answer isPrint outside old c w).2 := by
  cases c with
  | unregister =>
      refine ⟨?_, ?_, ?_⟩
      · change (if w.registry (w.jid old) = some old then _ else w).registry contact = _
        split
        · next hreg =>
          apply Function.update_of_ne
          rintro rfl
          rw [hconn] at hreg
          exact hold (Option.some.inj hreg).symm
        · rfl
      · change (if w.registry (w.jid old) = some old then _ else w).rosterFiles = _
        split <;> rfl
      · change (if w.registry (w.jid old) = some old then _ else w).log = _
        split <;> rfl
  | roster k => exact ⟨rfl, rfl, rfl⟩
  | load u => exact ⟨rfl, rfl, rfl⟩
  | setRoster k r => exact ⟨rfl, rfl, rfl⟩
  | find j => exact ⟨rfl, rfl, rfl⟩
  | send k d => exact absurd rfl (hsend k d)
  | close k => exact ⟨rfl, rfl, rfl⟩
  | _ => cases h

theorem leaving_rosters (hne : old ≠ new) {c : Call} (h : Leaving old sOld s t c) :
    (answer isPrint outside old c w).2.rosters new = w.rosters new := by
  cases c with
  | unregister =>
      change (if w.registry (w.jid old) = some old then _ else w).rosters new = _
      split <;> rfl
  | setRoster k r =>
      apply Function.update_of_ne
      rw [show k = old from h]
      exact hne.symm
  | roster k => rfl
  | load u => rfl
  | find j => rfl
  | send k d => rfl
  | close k => rfl
  | _ => cases h

theorem arriving_quiet {c : Call} (h : Arriving s node contact t c) (hsend : ∀ k d, c ≠ .send k d) :
    Quiet contact w (answer isPrint outside new c w).2 := by
  cases c with
  | register j => exact ⟨Function.update_of_ne (Ne.symm h) _ _, rfl, rfl⟩
  | send k d => exact absurd rfl (hsend k d)
  | unregister => cases h
  | save u r => cases h
  | create u x => cases h
  | delete u => cases h
  | _ => exact ⟨rfl, rfl, rfl⟩

theorem Quiet.announced {w' : World} (h : Quiet contact w w') : Announced t s node w' ↔ Announced t s node w := by
  unfold Announced
  rw [h.log]

theorem Quiet.seen {w' : World} (h : Quiet contact w w') : seen s t w' = seen s t w := by
  unfold GoConflict.seen
  rw [h.log]

theorem about_pres : about s.fullJID (.node (clonePresence node s.fullJID)) = true := by
  simp only [about, decide_eq_true_eq]
  exact clonePresence_from node s.fullJID

/-- A step of the old session. -/
theorem step_leaving (hold : old ≠ t) (hne : old ≠ new) (h : Showing old new sOld s node contact t p) {c : Call}
    {next : Result c → Handler Unit} (hi : p.threads old = .call c next) (hord : Ordered sOld s node t p old) :
    Showing old new sOld s node contact t (Pool.step (answer isPrint outside) p old) := by
  have hleaving := h.leaving
  rw [hi] at hleaving
  obtain ⟨hc, hnext⟩ := hleaving
  have hrosters : (answer isPrint outside old c p.shared).2.rosters new = p.shared.rosters new := leaving_rosters hne hc
  have hframe : (answer isPrint outside old c p.shared).2.registry contact = p.shared.registry contact ∧
      (answer isPrint outside old c p.shared).2.rosterFiles = p.shared.rosterFiles ∧
      (Announced t s node (answer isPrint outside old c p.shared).2 ↔ Announced t s node p.shared) ∧
      (Announced t s node p.shared → seen s t (answer isPrint outside old c p.shared).2 = seen s t p.shared) := by
    by_cases hsend : ∃ k d, c = .send k d
    · obtain ⟨k, d, rfl⟩ := hsend
      refine ⟨rfl, rfl, ?_, ?_⟩
      · rw [announced_send]
        refine ⟨?_, Or.inl⟩
        intro hor
        rcases hor with ha | ⟨hk, hd⟩
        · exact ha
        · rw [hd] at hc
          cases (hc hk about_pres).2
      · intro ha
        rw [seen_send, if_neg, List.append_nil]
        intro hshown
        obtain ⟨hsame, hd⟩ := hc hshown.1 hshown.2
        obtain ⟨e, he, hdest, hdata⟩ := ha
        rw [hd, hshown.1] at hi
        exact hord hsame ⟨next, by rw [hi]⟩ e he hdest hdata
    · have hq : Quiet contact p.shared (answer isPrint outside old c p.shared).2 :=
        leaving_quiet hold h.connected hc fun k d hcd => hsend ⟨k, d, hcd⟩
      exact ⟨hq.registry, hq.files, hq.announced, fun _ => hq.seen⟩
  obtain ⟨hreg, hfiles, hann, hseen⟩ := hframe
  constructor
  · rw [Pool.step_shared hi, hreg]
    exact h.connected
  · rw [Pool.step_shared hi, hfiles]
    exact h.filed
  · rw [Pool.step_self hi]
    exact hnext _
  · rw [Pool.step_other hne.symm]
    exact h.arriving
  · intro i ho hn
    rw [Pool.step_other ho]
    exact h.others i ho hn
  · rw [Pool.step_shared hi, Pool.step_other hne.symm, hann, hrosters]
    exact h.announced
  · rw [Pool.step_shared hi, hann]
    intro ha
    rw [hseen ha]
    exact h.last ha

theorem reply_shown (h : w.registry contact = some t)
    (hcache : (w.rosters new).loaded = true → contact ∈ watchers (w.rosters new))
    (hfile : contact ∈ watchers (GoRosterFile.load (w.rosterFiles s.jidLocal))) (c : Call) :
    Shown new s contact t c (reply outside w c) := by
  cases c with
  | find j =>
      intro hj
      rw [hj]
      exact h
  | roster k =>
      intro hk
      rw [hk]
      exact hcache
  | load u =>
      intro hu
      rw [hu]
      exact hfile
  | _ => trivial

theorem announcing_rosters {c : Call} (h : Announcing new s node contact t c)
    (hcache : (w.rosters new).loaded = true → contact ∈ watchers (w.rosters new)) :
    ((answer isPrint outside new c w).2.rosters new).loaded = true →
      contact ∈ watchers ((answer isPrint outside new c w).2.rosters new) := by
  cases c with
  | setRoster k r =>
      by_cases hk : k = new
      · have hset : (answer isPrint outside new (.setRoster k r) w).2.rosters new = r := by
          rw [hk]
          exact Function.update_self _ _ _
        rw [hset]
        exact fun _ => h hk
      · have hset : (answer isPrint outside new (.setRoster k r) w).2.rosters new = w.rosters new :=
          Function.update_of_ne (Ne.symm hk) _ _
        rw [hset]
        exact hcache
  | unregister => cases h
  | create u x => cases h
  | _ => exact hcache

/-- A step of the new session. -/
theorem step_arriving (hne : old ≠ new) (h : Showing old new sOld s node contact t p) {c : Call}
    {next : Result c → Handler Unit} (hi : p.threads new = .call c next) :
    Showing old new sOld s node contact t (Pool.step (answer isPrint outside) p new) := by
  have harriving := h.arriving
  rw [hi] at harriving
  obtain ⟨hc, hnext⟩ := harriving
  have hframe : (answer isPrint outside new c p.shared).2.registry contact = p.shared.registry contact ∧
      (answer isPrint outside new c p.shared).2.rosterFiles = p.shared.rosterFiles ∧
      (Announced t s node p.shared → Announced t s node (answer isPrint outside new c p.shared).2) ∧
      (Announced t s node (answer isPrint outside new c p.shared).2 →
        (seen s t (answer isPrint outside new c p.shared).2).getLast? = some (.node (clonePresence node s.fullJID))) := by
    by_cases hsend : ∃ k d, c = .send k d
    · obtain ⟨k, d, rfl⟩ := hsend
      rw [announced_send, seen_send]
      refine ⟨rfl, rfl, Or.inl, ?_⟩
      by_cases hshown : k = t ∧ about s.fullJID d = true
      · rw [if_pos hshown, hc hshown.1 hshown.2]
        exact fun _ => List.getLast?_concat
      · rw [if_neg hshown, List.append_nil]
        intro hor
        rcases hor with ha | ⟨hk, hd⟩
        · exact h.last ha
        · exact absurd ⟨hk, hd ▸ about_pres⟩ hshown
    · have hq : Quiet contact p.shared (answer isPrint outside new c p.shared).2 :=
        arriving_quiet hc fun k d hcd => hsend ⟨k, d, hcd⟩
      refine ⟨hq.registry, hq.files, hq.announced.mpr, ?_⟩
      rw [hq.announced, hq.seen]
      exact h.last
  obtain ⟨hreg, hfiles, hann, hlast⟩ := hframe
  constructor
  · rw [Pool.step_shared hi, hreg]
    exact h.connected
  · rw [Pool.step_shared hi, hfiles]
    exact h.filed
  · rw [Pool.step_other hne]
    exact h.leaving
  · rw [Pool.step_self hi]
    exact hnext _
  · intro i ho hn
    rw [Pool.step_other hn]
    exact h.others i ho hn
  · rw [Pool.step_shared hi, Pool.step_self hi]
    rcases h.announced with ha | ⟨hcache, hleads⟩
    · exact Or.inl (hann ha)
    · rw [hi] at hleads
      cases hleads with
      | here hsend =>
          obtain ⟨next', hs⟩ := hsend
          cases hs
          left
          rw [announced_send]
          exact Or.inr ⟨rfl, rfl⟩
      | call hcall hnext =>
          exact Or.inr ⟨announcing_rosters hcall hcache, hnext _ (reply_shown h.connected hcache h.filed c)⟩
  · rw [Pool.step_shared hi]
    exact hlast

theorem showing_step (hold : old ≠ t) (hne : old ≠ new) (h : Showing old new sOld s node contact t p) {i : ℕ}
    (hord : Ordered sOld s node t p i) :
    Showing old new sOld s node contact t (Pool.step (answer isPrint outside) p i) := by
  cases hi : p.threads i with
  | done a =>
      rw [Pool.step_of_done hi]
      exact h
  | call c next =>
      by_cases ho : i = old
      · rw [ho] at hi hord ⊢
        exact step_leaving hold hne h hi hord
      · by_cases hn : i = new
        · rw [hn] at hi ⊢
          exact step_arriving hne h hi
        · rw [h.others i ho hn] at hi
          cases hi

theorem showing_start {w : World} (hnew : new ≠ t) (hne : old ≠ new) (hown : s.bareJID ≠ contact)
    (hconn : w.registry contact = some t)
    (hcache : (w.rosters new).loaded = true → contact ∈ watchers (w.rosters new))
    (hfile : contact ∈ watchers (GoRosterFile.load (w.rosterFiles s.jidLocal))) :
    Showing old new sOld s node contact t (start old new sOld s id node w) := by
  have harrive : (start old new sOld s id node w).threads new = arrive new s id node := by
    simp [start, hne.symm]
  have hleave : (start old new sOld s id node w).threads old = GoStanza.leave old sOld := by
    simp [start]
  constructor
  · exact hconn
  · exact hfile
  · rw [hleave]
    exact leave_calls
  · rw [harrive]
    exact arrive_calls hnew hown
  · intro i ho hn
    simp [start, ho, hn]
  · rw [harrive]
    exact Or.inr ⟨hcache, arrive_leads hnew hown⟩
  · intro ha
    obtain ⟨e, he, _⟩ := ha
    cases he

end

def back (resource : Str) (available : Bool) : Session :=
  { jidLocal := "a", jidDomain := "x", jidResource := resource, state := .bound, authenticated := true,
    available := available, initialPresenceSent := available }

def friends : Roster := { items := [⟨"b@x", [], "both", false⟩], loaded := true }

/-- The user is registered with session 0 and the contact with session 2. -/
def together : World where
  registry := fun jid => if jid = ("a@x" : Str) then some 0 else if jid = ("b@x" : Str) then some 2 else none
  jid := fun _ => "a@x"
  rosters := fun _ => friends
  rosterFiles := fun _ => some (GoRosterFile.save GoRosterFile.printable friends)
  offline := fun _ => none
  closed := fun _ => false
  log := []
  reading := fun _ => none
  replaced := fun _ => false
  clock := 0

def presence : XmlNode := .mk "presence" [] [] [] []

theorem back_other {i : ℕ} (resource : Str) (h0 : i ≠ 0) (h1 : i ≠ 1) :
    (start 0 1 (back resource true) (back "r" false) [] presence together).threads i = .done () := by
  simp [start, h0, h1]

end Xmppd.GoConflict
