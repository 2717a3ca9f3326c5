import Xmppd.GoCalls
import Xmppd.GoWorld

/-!
# Active sessions and the registry

The goroutine of a session reads one element after the other and handles each by
calls that interleave with those of all others. The fields that belong to the
goroutine are taken as they are between two elements. A session enters the
registry when it binds, and becomes active when it binds or requests a session,
whatever it did before. In a run in which only sessions that have been bound
request one, a session that is active is the one in the registry, or one that was
registered later has taken its place.

The list of the registrations, latest first, is not in the source.
-/
namespace Xmppd.GoReachable
open CStrings GoXml Programs Program GoSession GoPresence GoStanza GoCalls GoWorld

/-- Between two elements, handling one, or in the deferred calls. -/
inductive Thread where
  | reading (s : Session)
  | handling (s : Session) (p : Handler (Session × RouteResult))
  | leaving (p : Handler Unit)

/-- The fields of the session, as long as its loop has not ended. -/
def Thread.fields : Thread → Option Session
  | .reading s => some s
  | .handling s _ => some s
  | .leaving _ => none

structure Machine where
  world : World
  threads : ℕ → Thread
  registrations : List (Str × ℕ)

/-- `ReadStanza` returns an element or fails, or the goroutine goes on by one call. -/
inductive Event where
  | read (n : XmlNode)
  | fail
  | call

def noted (i : ℕ) (c : Call) (registrations : List (Str × ℕ)) : List (Str × ℕ) :=
  match c with
  | .register j => (j, i) :: registrations
  | _ => registrations

def Machine.goto (m : Machine) (i : ℕ) (t : Thread) : Machine := { m with threads := Function.update m.threads i t }

section
variable (isPrint : Char → Bool) (outside : ℕ → (c : Call) → Result c) (domain : Str)

/-- The next call of a goroutine, after which it is at `t`. -/
def Machine.perform (m : Machine) (i : ℕ) (c : Call) (t : Result c → Thread) : Machine where
  world := (answer isPrint outside i c m.world).2
  threads := Function.update m.threads i (t (answer isPrint outside i c m.world).1)
  registrations := noted i c m.registrations

/-- The loop goes on after an element, or ends. -/
def afterElement (i : ℕ) (x : Session × RouteResult) : Thread :=
  if x.2 = .close then .leaving (leave i x.1) else .reading x.1

def step (m : Machine) (i : ℕ) (e : Event) : Machine :=
  match e, m.threads i with
  | .read n, .reading s => m.goto i (.handling s (dispatch domain i s n))
  | .fail, .reading s => m.goto i (.leaving (leave i s))
  | .call, .handling s (.call c next) => m.perform isPrint outside i c fun r => .handling s (next r)
  | .call, .handling _ (.done x) => m.goto i (afterElement i x)
  | .call, .leaving (.call c next) => m.perform isPrint outside i c fun r => .leaving (next r)
  | _, _ => m

def run (m : Machine) (events : List (ℕ × Event)) : Machine :=
  events.foldl (fun m x => step isPrint outside domain m x.1 x.2) m

/-- The server with all connections, none of which has sent anything. -/
def start (w : World) : Machine where
  world := { w with registry := fun _ => none }
  threads := fun _ => .reading { jidDomain := domain }
  registrations := []

/-- A request for a session that is carried out. -/
def Starts (s : Session) (n : XmlNode) : Prop :=
  n.isStreamOpen = false ∧ ¬(s.state = .streamOpened ∧ s.authenticated = false) ∧ n.name = "iq" ∧
    ¬(n.attr "type" = "result" ∨ n.attr "type" = "error") ∧ childNS n = nsSession

instance (s : Session) (n : XmlNode) : Decidable (Starts s n) := inferInstanceAs (Decidable (_ ∧ _))

/-- Only a session that has been bound requests a session. -/
def Ordered (m : Machine) (i : ℕ) : Event → Prop
  | .read n => ∀ s ∈ (m.threads i).fields, Starts s n → s.isActive = true ∨ s.jidResource ≠ []
  | _ => True

instance (m : Machine) (i : ℕ) (e : Event) : Decidable (Ordered m i e) := by
  cases e with
  | read n => exact inferInstanceAs (Decidable (∀ s ∈ (m.threads i).fields, _))
  | fail => exact isTrue trivial
  | call => exact isTrue trivial

/-- Every event of the run comes where the condition holds. -/
def Meets : Machine → List (ℕ × Event) → Prop
  | _, [] => True
  | m, x :: xs => Ordered m x.1 x.2 ∧ Meets (step isPrint outside domain m x.1 x.2) xs

instance decidableMeets : (m : Machine) → (events : List (ℕ × Event)) → Decidable (Meets isPrint outside domain m events)
  | _, [] => isTrue trivial
  | m, x :: xs => @instDecidableAnd _ _ _ (decidableMeets (step isPrint outside domain m x.1 x.2) xs)

end

/-- Another session registered under the address after session `i`. -/
def Superseded (registrations : List (Str × ℕ)) (i : ℕ) (jid : Str) : Prop :=
  ∃ t later earlier, registrations = later ++ (jid, t) :: earlier ∧ t ≠ i ∧ (jid, i) ∈ earlier

/-! ## What a handler returns -/

/-- A session that is or was bound is authenticated and has registered. -/
structure Sound (known : Str → Prop) (s : Session) : Prop where
  authenticated : s.state = .authenticated → s.authenticated = true
  bound : s.isActive = true ∨ s.jidResource ≠ [] → s.authenticated = true ∧ known s.bareJID

def Stays (c : Call) : Prop := c ≠ .unregister

/-- Whatever the answers, the handler stays in the registry and returns a sound
session, the registrations on the way counted in. -/
def Returns (known : Str → Prop) : Handler (Session × RouteResult) → Prop
  | .done x => Sound known x.1
  | .call c next => Stays c ∧ ∀ r, Returns (fun j => known j ∨ c = .register j) (next r)

section
variable {known known' : Str → Prop} {s s' : Session}

theorem Sound.mono (h : Sound known s) (hk : ∀ j, known j → known' j) : Sound known' s :=
  ⟨h.authenticated, fun hb => ⟨(h.bound hb).1, hk _ (h.bound hb).2⟩⟩

theorem Sound.of_standing (h : Sound known s) (he : standing s' = standing s) : Sound known s' := by
  simp only [standing, Prod.mk.injEq] at he
  obtain ⟨hlocal, hdomain, hresource, hstate, hauth⟩ := he
  constructor
  · rw [hstate, hauth]
    exact h.authenticated
  · simp only [Session.isActive, Session.bareJID, hlocal, hdomain, hresource, hstate, hauth]
    exact h.bound

theorem Returns.mono {p : Handler (Session × RouteResult)} (h : Returns known p) (hk : ∀ j, known j → known' j) :
    Returns known' p := by
  induction p generalizing known known' with
  | done x => exact Sound.mono h hk
  | call c next ih => exact ⟨h.1, fun r => ih r (h.2 r) fun j hj => hj.imp_left (hk j)⟩

theorem returns_of_ensures {p : Handler (Session × RouteResult)}
    (h : Ensures Stays p fun x => Sound known x.1) : Returns known p := by
  induction p generalizing known with
  | done x => exact h
  | call c next ih => exact ⟨h.1, fun r => (ih r (h.2 r)).mono fun j hj => Or.inl hj⟩

end

/-! ## Handlers that stay in the registry -/

section
variable {domain : Str} {self : ℕ} {s : Session} {n : XmlNode}

theorem stays_text {t : ℕ} (x : Str) : Stays (.send t (.text x)) := Call.noConfusion

theorem refuse_stays {A : Type} {errType condition : Str} {a : A} {Q : A → Prop} (hQ : Q a) :
    Ensures Stays (sendStanzaError self s n errType condition >>= fun _ => pure a) Q := by
  rw [ensures_bind, ensures_sendStanzaError stays_text]
  exact hQ

theorem sendText_stays {A : Type} {x : Str} {a : A} {Q : A → Prop} (hQ : Q a) :
    Ensures Stays (sendText self x >>= fun _ => pure a) Q := by
  rw [ensures_bind, ensures_sendText]
  exact ⟨stays_text x, hQ⟩

theorem call_stays {A : Type} {c : Call} {f : Result c → Handler A} {Q : A → Prop} (hc : Stays c)
    (hf : ∀ r, Ensures Stays (f r) Q) : Ensures Stays (perform c >>= f) Q :=
  ensures_seq (p := perform c) ⟨hc, fun _ => trivial⟩ hf

theorem plain_stays {c : Call} (h : Plain c) : Stays c := by
  rintro rfl
  exact h

theorem stays_of_plain {A : Type} {p : Handler A} {Q : A → Prop} (h : Ensures Plain p Q) : Ensures Stays p Q :=
  h.mono (fun _ => plain_stays) fun _ => id

theorem presence_stays {known : Str → Prop} (hs : Sound known s) :
    Ensures Stays (GoPresence.handle self s n) fun x => Sound known x.1 := by
  by_cases htype : n.attr "type" = []
  · unfold GoPresence.handle
    dsimp only
    rw [if_pos htype, ensures_bind]
    apply ensures_handleAvailable (fun _ => Call.noConfusion) Call.noConfusion (fun _ => Call.noConfusion)
      (fun _ => Call.noConfusion) (fun _ => Call.noConfusion) (fun _ => Call.noConfusion) (fun _ => Call.noConfusion)
      Call.noConfusion Call.noConfusion (fun _ => Call.noConfusion) fun _ => Call.noConfusion
    exact fun s' hs' => hs.of_standing hs'
  · exact stays_of_plain (presence_plain htype fun s' hs' => hs.of_standing hs')

/-! ## What they make of the session -/

variable {known : Str → Prop}

theorem whenActive_stays {h : Handler RouteResult} (hh : Ensures Stays h fun _ => True) (hs : Sound known s) :
    Ensures Stays (whenActive self s n h) fun x => Sound known x.1 :=
  ensures_whenActive stays_text (fun _ => hh.mono (fun _ => id) fun _ _ => hs) hs

/-- A session that binds registers before it is bound. -/
theorem bindResource_returns {resource id : Str} (hs : s.authenticated = true) :
    Returns known (do
      let s ← bindResource self { s with jidResource := resource, state := .bound } id
      pure (s, .ok)) := by
  refine ⟨Call.noConfusion, ?_⟩
  intro old
  apply returns_of_ensures
  have hsound : Sound (fun j => known j ∨ Call.register (Session.bareJID { s with jidResource := resource, state := .bound }) = .register j)
      { s with jidResource := resource, state := .bound } := by
    refine ⟨?_, fun _ => ⟨hs, Or.inr rfl⟩⟩
    rintro ⟨⟩
  cases old with
  | none => exact ⟨stays_text _, fun _ => hsound⟩
  | some t => exact ⟨stays_text _, fun _ => ⟨Call.noConfusion, fun _ => ⟨stays_text _, fun _ => hsound⟩⟩⟩

theorem handleBind_returns (hs : Sound known s) (hgate : ¬(s.state = .streamOpened ∧ s.authenticated = false)) :
    Returns known (handleBind self s n) := by
  unfold handleBind
  split
  · exact returns_of_ensures (refuse_stays hs)
  · next hstate =>
    have hauth : s.authenticated = true := by
      by_cases ha : s.state = .authenticated
      · exact hs.authenticated ha
      · have ho : s.state = .streamOpened := by
          by_contra ho
          exact hstate ⟨ha, ho⟩
        simpa [ho] using hgate
    split
    · refine ⟨Call.noConfusion, ?_⟩
      intro resource
      exact bindResource_returns hauth
    · exact bindResource_returns hauth

theorem handleSessionIQ_stays (hs : Sound known s) (h : s.isActive = true ∨ s.jidResource ≠ []) :
    Ensures Stays (handleSessionIQ self s n) fun x => Sound known x.1 := by
  rw [ensures_handleSessionIQ stays_text]
  refine ⟨?_, fun _ => hs.bound h⟩
  rintro ⟨⟩

theorem handleIQ_returns (hs : Sound known s) (hgate : ¬(s.state = .streamOpened ∧ s.authenticated = false))
    (h : ¬(n.attr "type" = "result" ∨ n.attr "type" = "error") → childNS n = nsSession →
      s.isActive = true ∨ s.jidResource ≠ []) : Returns known (handleIQ domain self s n) := by
  unfold handleIQ
  dsimp only
  split
  · split
    · exact hs
    · exact returns_of_ensures (ensures_seq (stays_of_plain forward_plain) fun _ => hs)
  next hrequest =>
  split
  · exact handleBind_returns hs hgate
  apply returns_of_ensures
  split
  · next hsession => exact handleSessionIQ_stays hs (h hrequest hsession)
  split
  · exact whenActive_stays (stays_of_plain handleRosterIQ_plain) hs
  split
  · exact ensures_seq (stays_of_plain registerHandleIQ_plain) fun _ => hs
  split
  · exact whenActive_stays ((ensures_discoReply stays_text).mpr trivial) hs
  split
  · exact whenActive_stays ((ensures_discoReply stays_text).mpr trivial) hs
  split
  · apply ensures_seq (stays_of_plain forward_plain)
    intro sent
    split
    · exact hs
    · exact refuse_stays hs
  · exact refuse_stays hs

theorem handleSASL_stays (hs : Sound known s) (ha : s.authenticated = false) :
    Ensures Stays (handleSASL self s n) fun x => Sound known x.1 := by
  have hunbound : ¬(s.isActive = true ∨ s.jidResource ≠ []) := by
    intro hb
    rw [(hs.bound hb).1] at ha
    cases ha
  unfold handleSASL
  split
  · exact sendText_stays hs
  split
  · exact sendText_stays hs
  · apply call_stays Call.noConfusion
    intro ok
    split
    · apply sendText_stays
      refine ⟨fun _ => rfl, ?_⟩
      intro hb
      apply absurd _ hunbound
      rcases hb with hb | hb
      · cases hb
      · exact Or.inr hb
    · exact sendText_stays hs

theorem handleOpen_stays (hs : Sound known s) : Ensures Stays (handleOpen domain self s n) fun x => Sound known x.1 := by
  apply ensures_handleOpen stays_text Call.noConfusion hs
  refine ⟨?_, ?_⟩
  · rintro ⟨⟩
  · intro hb
    apply hs.bound
    rcases hb with hb | hb
    · cases hb
    · exact Or.inr hb

theorem routeBeforeAuth_stays (hs : Sound known s) (ha : s.authenticated = false) :
    Ensures Stays (routeBeforeAuth self s n) fun x => Sound known x.1 := by
  unfold routeBeforeAuth
  split
  · exact handleSASL_stays hs ha
  split
  · split
    · exact ensures_seq (stays_of_plain registerHandleIQ_plain) fun _ => hs
    · exact refuse_stays hs
  · exact sendText_stays hs

/-- One element. -/
theorem dispatch_returns (hs : Sound known s) (h : Starts s n → s.isActive = true ∨ s.jidResource ≠ []) :
    Returns known (dispatch domain self s n) := by
  unfold dispatch
  split
  · exact returns_of_ensures (handleOpen_stays hs)
  next hopen =>
  unfold route
  split
  · next hgate => exact returns_of_ensures (routeBeforeAuth_stays hs (by simpa using hgate.2))
  next hgate =>
  have hpast : ¬(s.state = .streamOpened ∧ s.authenticated = false) := by simpa using hgate
  split
  · next hname =>
    apply handleIQ_returns hs hpast
    intro hrequest hsession
    exact h ⟨Bool.eq_false_iff.mpr hopen, hpast, hname, hrequest, hsession⟩
  apply returns_of_ensures
  split
  · split
    · exact ensures_seq (stays_of_plain message_plain) fun _ => hs
    · exact sendText_stays hs
  split
  · split
    · exact presence_stays hs
    · exact sendText_stays hs
  · exact sendText_stays hs

end

/-! ## Steps -/

/-- The session that registered last under an address. -/
def latest (registrations : List (Str × ℕ)) (jid : Str) : Option ℕ := (registrations.find? fun x => x.1 = jid).map Prod.snd

/-- What holds of a goroutine, given the addresses it has registered. -/
def Proper (known : Str → Prop) : Thread → Prop
  | .reading s => Sound known s
  | .handling s p => Sound known s ∧ Returns known p
  | .leaving _ => True

structure Consistent (m : Machine) : Prop where
  found : ∀ i, (m.threads i).fields.isSome = true → ∀ jid, latest m.registrations jid = some i → m.world.registry jid = some i
  proper : ∀ i, Proper (fun jid => (jid, i) ∈ m.registrations) (m.threads i)

section
variable {isPrint : Char → Bool} {outside : ℕ → (c : Call) → Result c} {domain : Str} {m : Machine} {i : ℕ}

theorem Proper.mono {known known' : Str → Prop} {t : Thread} (h : Proper known t) (hk : ∀ j, known j → known' j) :
    Proper known' t := by
  cases t with
  | reading s => exact Sound.mono h hk
  | handling s p => exact ⟨h.1.mono hk, h.2.mono hk⟩
  | leaving p => trivial

theorem Proper.sound {known : Str → Prop} {t : Thread} {s : Session} (h : Proper known t) (hs : t.fields = some s) :
    Sound known s := by
  cases t with
  | reading s' => exact Option.some.inj hs ▸ h
  | handling s' p => exact Option.some.inj hs ▸ h.1
  | leaving p => cases hs

theorem mem_noted {c : Call} {l : List (Str × ℕ)} {x : Str × ℕ} : x ∈ noted i c l ↔ c = .register x.1 ∧ x.2 = i ∨ x ∈ l := by
  cases c with
  | register j =>
      simp only [noted, List.mem_cons, Call.register.injEq, Prod.ext_iff]
      rw [eq_comm (a := j)]
  | _ => simp [noted]

/-- Between two elements nothing is registered. -/
theorem Consistent.goto (h : Consistent m) {t : Thread} (hloop : t.fields.isSome = true → (m.threads i).fields.isSome = true)
    (ht : Proper (fun jid => (jid, i) ∈ m.registrations) t) : Consistent (m.goto i t) := by
  constructor
  · intro k hk
    apply h.found
    by_cases hki : k = i
    · subst hki
      apply hloop
      simpa [Machine.goto] using hk
    · simpa [Machine.goto, hki] using hk
  · intro k
    by_cases hki : k = i
    · subst hki
      simpa [Machine.goto] using ht
    · simpa [Machine.goto, hki] using h.proper k

theorem registry_answer {w : World} {c : Call} {jid : Str} (hstays : Stays c) (hc : c ≠ .register jid) :
    (answer isPrint outside i c w).2.registry jid = w.registry jid := by
  cases c with
  | unregister => exact absurd rfl hstays
  | register j =>
      apply Function.update_of_ne
      rintro rfl
      exact hc rfl
  | create u x =>
      change (if outside w.clock (.create u x) = .ok then _ else w).registry jid = _
      split <;> rfl
  | _ => rfl

theorem registry_unregister {w : World} {jid : Str} (h : w.registry jid ≠ some i) :
    (answer isPrint outside i .unregister w).2.registry jid = w.registry jid := by
  change (if w.registry (w.jid i) = some i then _ else w).registry jid = _
  split
  · next hreg =>
    apply Function.update_of_ne
    rintro rfl
    exact h hreg
  · rfl

theorem latest_noted {c : Call} {l : List (Str × ℕ)} {jid : Str} (hc : c ≠ .register jid) :
    latest (noted i c l) jid = latest l jid := by
  cases c with
  | register j =>
      have hj : j ≠ jid := by
        rintro rfl
        exact hc rfl
      simp [noted, latest, hj]
  | _ => rfl

/-- A call, which a goroutine that stays in the loop makes in the registry only to register. -/
theorem Consistent.perform (h : Consistent m) {c : Call} {t : Result c → Thread}
    (hloop : ∀ r, (t r).fields.isSome = true → (m.threads i).fields.isSome = true ∧ Stays c)
    (hproper : ∀ r, Proper (fun jid => (jid, i) ∈ m.registrations ∨ c = .register jid) (t r)) :
    Consistent (m.perform isPrint outside i c t) := by
  constructor
  · intro k hk jid hlatest
    change (answer isPrint outside i c m.world).2.registry jid = some k
    change latest (noted i c m.registrations) jid = some k at hlatest
    have hk' : (m.threads k).fields.isSome = true ∧ (k = i → Stays c) := by
      by_cases hki : k = i
      · subst hki
        simp only [Machine.perform, Function.update_self] at hk
        exact ⟨(hloop _ hk).1, fun _ => (hloop _ hk).2⟩
      · simp only [Machine.perform, Function.update_of_ne hki] at hk
        exact ⟨hk, fun he => absurd he hki⟩
    by_cases hc : c = .register jid
    · subst hc
      have hki : i = k := by simpa [noted, latest] using hlatest
      rw [← hki]
      exact Function.update_self _ _ _
    · rw [latest_noted hc] at hlatest
      have hfound := h.found k hk'.1 jid hlatest
      by_cases hstays : Stays c
      · rw [registry_answer hstays hc, hfound]
      · have hunregister : c = .unregister := not_not.mp hstays
        subst hunregister
        have hki : k ≠ i := fun he => hstays (hk'.2 he)
        rw [registry_unregister, hfound]
        rw [hfound]
        exact fun he => hki (Option.some.inj he)
  · intro k
    change Proper (fun jid => (jid, k) ∈ noted i c m.registrations) _
    by_cases hki : k = i
    · subst hki
      simp only [Machine.perform, Function.update_self]
      apply (hproper _).mono
      intro jid hjid
      rw [mem_noted]
      exact hjid.elim Or.inr fun hc => Or.inl ⟨hc, rfl⟩
    · simp only [Machine.perform, Function.update_of_ne hki]
      exact (h.proper k).mono fun jid hjid => mem_noted.mpr (Or.inr hjid)

theorem proper_afterElement {known : Str → Prop} {x : Session × RouteResult} (h : Sound known x.1) :
    Proper known (afterElement i x) := by
  unfold afterElement
  split
  · trivial
  · exact h

theorem step_consistent (h : Consistent m) {e : Event} (ho : Ordered m i e) :
    Consistent (step isPrint outside domain m i e) := by
  have hi := h.proper i
  unfold step
  split
  · next s hs =>
    rw [hs] at hi
    apply h.goto
    · rw [hs]
      exact fun _ => rfl
    · exact ⟨hi, dispatch_returns hi (ho s (by rw [hs]; rfl))⟩
  · next s hs =>
    apply h.goto
    · rintro ⟨⟩
    · trivial
  · next s c next hs =>
    rw [hs] at hi
    apply h.perform
    · rw [hs]
      exact fun _ _ => ⟨rfl, hi.2.1⟩
    · exact fun r => ⟨hi.1.mono fun jid => Or.inl, hi.2.2 r⟩
  · next s x hs =>
    rw [hs] at hi
    apply h.goto
    · rw [hs]
      exact fun _ => rfl
    · exact proper_afterElement hi.2
  · apply h.perform
    · rintro r ⟨⟩
    · exact fun _ => trivial
  · exact h

theorem start_consistent (w : World) : Consistent (start domain w) := by
  constructor
  · rintro i - jid ⟨⟩
  · intro i
    refine ⟨?_, ?_⟩
    · rintro ⟨⟩
    · intro hb
      rcases hb with hb | hb
      · cases hb
      · exact absurd rfl hb

theorem run_consistent (events : List (ℕ × Event)) : ∀ m, Consistent m → Meets isPrint outside domain m events →
    Consistent (run isPrint outside domain m events) := by
  induction events with
  | nil => exact fun _ h _ => h
  | cons x xs ih => exact fun m h hm => ih _ (step_consistent h hm.1) hm.2

/-- The latest registration is another one, and comes after. -/
theorem superseded_of_latest {l : List (Str × ℕ)} {jid : Str} (hmem : (jid, i) ∈ l) (h : latest l jid ≠ some i) :
    Superseded l i jid := by
  induction l with
  | nil => cases hmem
  | cons x xs ih =>
      rcases List.mem_cons.mp hmem with rfl | hxs
      · exact absurd (by simp [latest]) h
      · by_cases hx : x.1 = jid
        · refine ⟨x.2, [], xs, ?_, ?_, hxs⟩
          · rw [← hx]
            rfl
          · rintro hi
            apply h
            simp [latest, hx, hi]
        · have hlatest : latest (x :: xs) jid = latest xs jid := by simp [latest, hx]
          rw [hlatest] at h
          obtain ⟨t, later, earlier, he, ht, hearlier⟩ := ih hxs h
          exact ⟨t, x :: later, earlier, by rw [he]; rfl, ht, hearlier⟩

end

/-- In every run in which only sessions that have been bound request a session,
each active session whose loop has not ended is the one in the registry, or a
later registration has taken its place. -/
theorem active_reachable (isPrint : Char → Bool) (outside : ℕ → (c : Call) → Result c) (domain : Str) (w : World)
    (events : List (ℕ × Event)) (h : Meets isPrint outside domain (start domain w) events) (i : ℕ) (s : Session)
    (hs : ((run isPrint outside domain (start domain w) events).threads i).fields = some s) (ha : s.isActive = true) :
    (run isPrint outside domain (start domain w) events).world.registry s.bareJID = some i ∨
      Superseded (run isPrint outside domain (start domain w) events).registrations i s.bareJID := by
  have hc := run_consistent events _ (start_consistent w) h
  have hsound := (hc.proper i).sound hs
  have hmem := (hsound.bound (Or.inl ha)).2
  by_cases hlatest : latest (run isPrint outside domain (start domain w) events).registrations s.bareJID = some i
  · exact Or.inl (hc.found i (by rw [hs]; rfl) _ hlatest)
  · exact Or.inr (superseded_of_latest hmem hlatest)

/-! ## A session that was never bound -/

def header : XmlNode := .mk "stream" "http://etherx.jabber.org/streams" [⟨"to", [], "x"⟩] [] []

def authRequest : XmlNode := .mk "auth" saslNS [⟨"mechanism", [], "PLAIN"⟩] [] "AGEAcA=="

def bindRequest : XmlNode :=
  .mk "iq" [] [⟨"type", [], "set"⟩] [.mk "bind" nsBind [] [.mk "resource" nsBind [] [] "r"] []] []

def sessionRequest : XmlNode := .mk "iq" [] [⟨"type", [], "set"⟩] [.mk "session" nsSession [] [] []] []

/-- Session 0 reads these elements and handles each to its end. -/
def handled (ns : List XmlNode) : List (ℕ × Event) := ns.flatMap fun n => (0, .read n) :: List.replicate 4 (0, .call)

def nothing : World where
  registry := fun _ => none
  jid := fun _ => []
  rosters := fun _ => {}
  rosterFiles := fun _ => none
  offline := fun _ => none
  closed := fun _ => false
  log := []
  reading := fun _ => none
  replaced := fun _ => false
  clock := 0

/-- The server after these elements. -/
def after (ns : List XmlNode) : Machine :=
  run GoRosterFile.printable plainOutside "x" (start "x" nothing) (handled ns)

def loggedIn : List XmlNode := [header, authRequest, header, bindRequest, sessionRequest]

set_option maxRecDepth 20000 in
theorem loggedIn_reachable :
    ∃ s, ((after loggedIn).threads 0).fields = some s ∧ s.isActive = true ∧ s.bareJID = "a@x" ∧
      ((after loggedIn).world.registry s.bareJID = some 0 ∨ Superseded (after loggedIn).registrations 0 s.bareJID) := by
  have hfields : (((after loggedIn).threads 0).fields.map fun s => (s.isActive, s.bareJID)) = some (true, ("a@x" : Str)) := by
    decide +kernel
  obtain ⟨s, hs, he⟩ := Option.map_eq_some_iff.mp hfields
  have ha : s.isActive = true := congrArg Prod.fst he
  exact ⟨s, hs, ha, congrArg Prod.snd he,
    active_reachable GoRosterFile.printable plainOutside "x" nothing (handled loggedIn) (by decide +kernel) 0 s hs ha⟩

set_option maxRecDepth 20000 in
/-- A session request without a bind makes a session active that nobody finds. -/
theorem unbound_not_reachable :
    ¬∀ (isPrint : Char → Bool) (outside : ℕ → (c : Call) → Result c) (domain : Str) (w : World)
      (events : List (ℕ × Event)) (i : ℕ) (s : Session),
      ((run isPrint outside domain (start domain w) events).threads i).fields = some s → s.isActive = true →
      (run isPrint outside domain (start domain w) events).world.registry s.bareJID = some i ∨
        Superseded (run isPrint outside domain (start domain w) events).registrations i s.bareJID := by
  intro h
  have hfields : (((after [header, authRequest, header, sessionRequest]).threads 0).fields.map Session.isActive) = some true := by
    decide +kernel
  obtain ⟨s, hs, ha⟩ := Option.map_eq_some_iff.mp hfields
  have hnone : ∀ jid, (after [header, authRequest, header, sessionRequest]).world.registry jid = none := fun _ => rfl
  have hempty : (after [header, authRequest, header, sessionRequest]).registrations = [] := rfl
  rcases h GoRosterFile.printable plainOutside "x" nothing (handled [header, authRequest, header, sessionRequest]) 0 s hs ha
    with hfound | ⟨t, later, earlier, he, -, -⟩
  · rw [show (run _ _ _ _ _).world.registry s.bareJID = none from hnone _] at hfound
    cases hfound
  · rw [show (run _ _ _ _ _).registrations = [] from hempty] at he
    simp at he

end Xmppd.GoReachable
