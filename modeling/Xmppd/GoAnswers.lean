import Xmppd.GoMonitor

/-!
# Answers to requests in the Go server

The goroutine of a session answers a request before it reads the next element: by one result
or error with the identifier of the request, on the connection of the request, or, where the
request is to somebody else and in no namespace the server knows, perhaps by passing it on. The
pushes and the errors of streams that are sent on the way are no answers.

The journal of the elements that were read and of the calls made for each is not in the source.
-/
namespace Xmppd.GoAnswers
open CStrings GoXml Programs Program GoSession GoStanza GoWorld GoReachable Monitors

def kinds : List Str := ["result", "error"]

def answerStart (kind : Str) : Str := ("<iq type='" : Str) ++ kind ++ ("'" : Str)

/-- A text that answers a request. -/
def isAnswer (x : Str) : Bool := kinds.any fun kind => (answerStart kind).isPrefixOf x

/-- The answers that were sent, and the elements that were passed on, with the sessions. -/
structure Said where
  answers : List (ℕ × Str) := []
  passed : List (ℕ × XmlNode) := []

/-- A monitor that allows everything. -/
def listener : Monitor Call Result Said where
  allows _ _ := True
  after h c _ :=
    match c with
    | .send t (.text x) => if isAnswer x then { h with answers := h.answers ++ [(t, x)] } else h
    | .send t (.node n) => { h with passed := h.passed ++ [(t, n)] }
    | _ => h

/-- An `iq` that is no result and no error. -/
def Request (n : XmlNode) : Prop :=
  n.isStreamOpen = false ∧ n.name = "iq" ∧ ¬(n.attr "type" = "result" ∨ n.attr "type" = "error")

instance (n : XmlNode) : Decidable (Request n) := inferInstanceAs (Decidable (_ ∧ _))

def known : List Str := [nsBind, nsSession, nsRoster, nsRegister, nsDiscoInfo, nsDiscoItems]

/-- A request to somebody else in no namespace the server knows. -/
def Foreign (domain : Str) (n : XmlNode) : Prop := childNS n ∉ known ∧ isServerJID (n.attr "to") domain = false

/-- The identifier with escapes, or as the registration writes it. -/
def idTexts (n : XmlNode) : List Str :=
  [optAttr "id" (n.attr "id"), if n.attr "id" = [] then [] else (" id='" : Str) ++ n.attr "id" ++ ("'" : Str)]

/-- Nothing, or the two addresses that come before the identifier in a reply about services. -/
def Addresses (domain x : Str) : Prop :=
  x = [] ∨ ∃ jid, x = (" from='" : Str) ++ domain ++ ("' to='" : Str) ++ escapeAttr jid ++ ("'" : Str)

/-- A result or an error with the identifier of the element. -/
def Answers (domain : Str) (n : XmlNode) (x : Str) : Prop :=
  ∃ kind ∈ kinds, ∃ addresses, Addresses domain addresses ∧ ∃ id ∈ idTexts n, answerStart kind ++ addresses ++ id <+: x

/-- One answer on the own connection, and nothing is passed on. -/
def Once (domain : Str) (i : ℕ) (n : XmlNode) (h : Said) : Prop :=
  ∃ x, h = { answers := [(i, x)] } ∧ Answers domain n x

/-- One answer, or the request is somebody else's and was passed on. -/
def Handled (domain : Str) (i : ℕ) (n : XmlNode) (h : Said) : Prop :=
  Once domain i n h ∨ Foreign domain n ∧ ∃ t jid, h = { passed := [(t, setAttr n "from" jid)] }

def Fulfilled (domain : Str) (i : ℕ) (n : XmlNode) (h : Said) : Prop := Request n → Handled domain i n h

/-! ## Texts -/

section
variable {domain : Str} {n : XmlNode} {x : Str}

theorem Answers.isAnswer (h : Answers domain n x) : isAnswer x = true := by
  obtain ⟨kind, hkind, addresses, -, id, -, hx⟩ := h
  refine List.any_eq_true.mpr ⟨kind, hkind, List.isPrefixOf_iff_prefix.mpr ?_⟩
  rw [List.append_assoc] at hx
  exact (List.prefix_append _ _).trans hx

theorem answers_of_begins {kind id : Str} (hkind : kind ∈ kinds) (hid : id ∈ idTexts n) (hx : answerStart kind ++ id <+: x) :
    Answers domain n x := by
  refine ⟨kind, hkind, [], Or.inl rfl, id, hid, ?_⟩
  rwa [List.append_nil]

theorem escaped_mem : optAttr "id" (n.attr "id") ∈ idTexts n := List.mem_cons_self

theorem answers_result {rest : Str} :
    Answers domain n (("<iq type='result'" : Str) ++ (optAttr "id" (n.attr "id") ++ rest)) := by
  refine answers_of_begins (by decide : ("result" : Str) ∈ kinds) escaped_mem ?_
  exact (List.prefix_append_right_inj _).mpr (List.prefix_append _ _)

theorem answers_emptyResult : Answers domain n (emptyResult (n.attr "id")) := by
  unfold emptyResult
  rw [List.append_assoc]
  exact answers_result

theorem answers_buildResultIQ {s : Session} {includeTo : Bool} {rest : Str} :
    Answers domain n (buildResultIQ s (n.attr "id") includeTo ++ rest) := by
  refine answers_of_begins (by decide : ("result" : Str) ∈ kinds) (List.mem_cons_of_mem _ List.mem_cons_self) ?_
  unfold buildResultIQ
  simp only [List.append_assoc]
  exact (List.prefix_append_right_inj _).mpr (List.prefix_append _ _)

end

/-! ## Calls -/

/-- Calls that answer nothing and pass nothing on. -/
def Silent : Call → Prop
  | .send _ (.text x) => isAnswer x = false
  | .send _ (.node _) => False
  | _ => True

theorem after_silent {c : Call} (hc : Silent c) (h : Said) (r : Result c) : listener.after h c r = h := by
  cases c with
  | send t d =>
      cases d with
      | text x => exact if_neg (by rw [show isAnswer x = false from hc]; exact Bool.false_ne_true)
      | node n => exact hc.elim
  | _ => rfl

section
variable {A B : Type} {domain : Str} {i : ℕ} {s : Session} {n : XmlNode} {h : Said}

/-- What only a silent handler does is not heard. -/
theorem heard_silent {Q : Said → A → Prop} {p : Handler B} {f : B → Handler A} (hp : Ensures Silent p fun _ => True)
    (hf : ∀ b, listener.Obeys h (f b) Q) : listener.Obeys h (p >>= f) Q := by
  rw [Monitor.obeys_bind]
  apply (Monitor.obeys_of_ensures (fun c hc => ⟨trivial, after_silent hc h⟩) hp).mono
  rintro _ b ⟨rfl, -⟩
  exact hf b

theorem heard_call {Q : Said → A → Prop} {c : Call} {f : Result c → Handler A} (hc : Silent c)
    (hf : ∀ r, listener.Obeys h (f r) Q) : listener.Obeys h (perform c >>= f) Q :=
  heard_silent (p := perform c) ⟨hc, fun _ => trivial⟩ hf

/-- An answer, after which nothing is heard. -/
theorem heard_answer {x : Str} {f : Unit → Handler A} (hx : Answers domain n x) (hf : Ensures Silent (f ()) fun _ => True) :
    listener.Obeys {} (sendText i x >>= f) fun h _ => Once domain i n h := by
  refine ⟨trivial, fun _ => ?_⟩
  have hafter : listener.after {} (.send i (.text x)) () = { answers := [(i, x)] } := if_pos hx.isAnswer
  change listener.Obeys (listener.after {} (.send i (.text x)) ()) (f ()) _
  rw [hafter]
  apply (Monitor.obeys_of_ensures (fun c hc => ⟨trivial, after_silent hc _⟩) hf).mono
  rintro _ _ ⟨rfl, -⟩
  exact ⟨x, rfl, hx⟩

theorem heard_error (hname : n.name = "iq") {errType condition : Str} {f : Unit → Handler A}
    (hf : Ensures Silent (f ()) fun _ => True) :
    listener.Obeys {} (sendStanzaError i s n errType condition >>= f) fun h _ => Once domain i n h := by
  refine heard_answer (answers_of_begins (by decide : ("error" : Str) ∈ kinds) escaped_mem ?_) hf
  rw [hname]
  have hstart : answerStart "error" = '<' :: ("iq" : Str) ++ (" type='error'" : Str) := by decide
  rw [hstart]
  simp only [List.append_assoc, List.prefix_append_right_inj, List.prefix_append]

/-- The refusal of a request. -/
theorem refuse_heard (hname : n.name = "iq") {errType condition : Str} :
    listener.Obeys {} (sendStanzaError i s n errType condition >>= fun _ => pure (s, RouteResult.ok)) fun h _ =>
      Handled domain i n h := by
  have herror : listener.Obeys {} (sendStanzaError i s n errType condition >>= fun _ => pure (s, RouteResult.ok))
      fun h _ => Once domain i n h := heard_error hname trivial
  exact herror.mono fun _ _ h => Or.inl h

theorem ensureLoaded_silent {user : Str} : Ensures Silent (ensureLoaded i user) fun _ => True :=
  ensures_ensureLoaded trivial trivial (fun _ => trivial) fun _ => trivial

theorem push_silent {fullJID : Str} {item : Item} : Ensures Silent (push i fullJID item) fun _ => True :=
  ⟨trivial, fun _ => ⟨rfl, fun _ => trivial⟩⟩

theorem kick_silent (old : Option ℕ) : Ensures Silent (kick old) fun _ => True := by
  cases old with
  | none => trivial
  | some t => exact ⟨rfl, fun _ => ⟨trivial, fun _ => trivial⟩⟩

/-! ## Requests -/

theorem bindResource_heard : listener.Obeys {} (bindResource i s (n.attr "id")) fun h _ => Once domain i n h := by
  unfold bindResource
  apply heard_call (c := .register _) trivial
  intro old
  apply heard_silent (kick_silent old)
  intro _
  refine heard_answer ?_ trivial
  simp only [List.append_assoc]
  exact answers_result

theorem handleBind_heard (hname : n.name = "iq") :
    listener.Obeys {} (handleBind i s n) fun h _ => Once domain i n h := by
  have hbind : ∀ resource : Str, listener.Obeys {} (do
      let s ← bindResource i { s with jidResource := resource, state := .bound } (n.attr "id")
      pure (s, RouteResult.ok)) fun h _ => Once domain i n h := by
    intro resource
    rw [Monitor.obeys_bind]
    exact bindResource_heard
  unfold handleBind
  split
  · exact heard_error hname trivial
  split
  · exact heard_call (c := .generateID 8) trivial hbind
  · exact hbind _

theorem handleSessionIQ_heard : listener.Obeys {} (handleSessionIQ i s n) fun h _ => Once domain i n h :=
  heard_answer answers_emptyResult trivial

theorem handleRosterIQ_heard (hname : n.name = "iq") :
    listener.Obeys {} (handleRosterIQ i s n) fun h _ => Once domain i n h := by
  unfold handleRosterIQ
  apply heard_silent ensureLoaded_silent
  intro r
  split
  · refine heard_answer ?_ trivial
    simp only [List.append_assoc]
    exact answers_result
  split
  · split
    · exact heard_error hname trivial
    · dsimp only
      split
      · exact heard_error hname trivial
      split
      · refine heard_call (c := .setRoster i _) trivial fun _ => heard_call (c := .save _ _) trivial fun _ => ?_
        exact heard_answer answers_emptyResult (ensures_seq push_silent fun _ => trivial)
      · refine heard_call (c := .setRoster i _) trivial fun _ => heard_call (c := .save _ _) trivial fun _ => ?_
        apply heard_answer answers_emptyResult
        split
        · exact ensures_seq push_silent fun _ => trivial
        · trivial
  · exact heard_error hname trivial

theorem registerSet_heard (hname : n.name = "iq") :
    listener.Obeys {} (registerSet i s n (n.attr "id")) fun h _ => Once domain i n h := by
  unfold registerSet
  split
  · exact heard_error hname trivial
  split
  · split
    · exact heard_error hname trivial
    · exact heard_answer answers_buildResultIQ ⟨trivial, fun _ => trivial⟩
  split
  · exact heard_error hname trivial
  split
  · refine heard_call (c := .create _ _) trivial fun created => ?_
    cases created with
    | ok => exact heard_answer answers_buildResultIQ trivial
    | conflict => exact heard_error hname trivial
    | invalidUsername => exact heard_error hname trivial
    | failed => exact heard_error hname trivial
  split
  · exact heard_error hname trivial
  · refine heard_call (c := .changePassword _ _) trivial fun ok => ?_
    split
    · exact heard_answer answers_buildResultIQ trivial
    · exact heard_error hname trivial

theorem registerHandleIQ_heard (hname : n.name = "iq") :
    listener.Obeys {} (registerHandleIQ i s n) fun h _ => Once domain i n h := by
  unfold registerHandleIQ
  split
  · refine heard_answer ?_ trivial
    simp only [List.append_assoc]
    exact answers_buildResultIQ
  split
  · exact registerSet_heard hname
  · exact heard_error hname trivial

theorem discoReply_heard {content : Str} :
    listener.Obeys {} (discoReply domain i s n content) fun h _ => Once domain i n h := by
  refine heard_answer ⟨"result", by decide, _, Or.inr ⟨s.fullJID, rfl⟩, _, escaped_mem, ?_⟩ trivial
  have hstart : ("<iq type='result' from='" : Str) = answerStart "result" ++ (" from='" : Str) := by decide
  rw [hstart]
  simp only [List.append_assoc, List.prefix_append_right_inj, List.prefix_append]

theorem whenActive_heard (hname : n.name = "iq") {p : Handler RouteResult}
    (hp : listener.Obeys {} p fun h _ => Once domain i n h) :
    listener.Obeys {} (whenActive i s n p) fun h _ => Once domain i n h := by
  unfold whenActive
  split
  · rw [Monitor.obeys_bind]
    exact hp
  · exact heard_error hname trivial

/-- A request in no namespace the server knows. -/
theorem forward_heard (hname : n.name = "iq") (hforeign : Foreign domain n) :
    listener.Obeys {} (do
      let sent ← forward s n
      if sent then pure (s, RouteResult.ok)
      else do
        sendStanzaError i s n "cancel" "service-unavailable"
        pure (s, RouteResult.ok)) fun h _ => Handled domain i n h := by
  refine heard_call (c := .find _) trivial fun session => ?_
  cases session with
  | none => exact refuse_heard hname
  | some t => exact ⟨trivial, fun _ => Or.inr ⟨hforeign, t, s.fullJID, rfl⟩⟩

theorem handleIQ_heard (hname : n.name = "iq") (htype : ¬(n.attr "type" = "result" ∨ n.attr "type" = "error")) :
    listener.Obeys {} (handleIQ domain i s n) fun h _ => Handled domain i n h := by
  unfold handleIQ
  dsimp only
  rw [if_neg htype]
  split
  · exact (handleBind_heard hname).mono fun _ _ h => Or.inl h
  next hbind =>
  split
  · exact handleSessionIQ_heard.mono fun _ _ h => Or.inl h
  next hsession =>
  split
  · exact (whenActive_heard hname (handleRosterIQ_heard hname)).mono fun _ _ h => Or.inl h
  next hroster =>
  split
  · rw [Monitor.obeys_bind]
    exact (registerHandleIQ_heard hname).mono fun _ _ h => Or.inl h
  next hregister =>
  split
  · exact (whenActive_heard hname discoReply_heard).mono fun _ _ h => Or.inl h
  next hinfo =>
  split
  · exact (whenActive_heard hname discoReply_heard).mono fun _ _ h => Or.inl h
  next hitems =>
  split
  · next hother =>
    refine forward_heard hname ⟨?_, by simpa using hother.1⟩
    simp only [known, List.mem_cons, List.not_mem_nil, or_false, not_or]
    exact ⟨hbind, hsession, hroster, hregister, hinfo, hitems⟩
  · exact refuse_heard hname

/-- What is heard is not looked at. -/
theorem heard_anything {p : Handler A} : listener.Obeys h p fun _ _ => True := by
  induction p generalizing h with
  | done a => trivial
  | call c next ih => exact ⟨trivial, fun r => ih r⟩

/-- The handling of an element fulfils a request. -/
theorem dispatch_heard : listener.Obeys {} (dispatch domain i s n) fun h _ => Fulfilled domain i n h := by
  by_cases hrequest : Request n
  · obtain ⟨hopen, hname, htype⟩ := hrequest
    have hroute : listener.Obeys {} (route domain i s n) fun h _ => Handled domain i n h := by
      unfold route
      split
      · unfold routeBeforeAuth
        rw [hname, if_neg (by decide), if_pos rfl]
        split
        · rw [Monitor.obeys_bind]
          exact (registerHandleIQ_heard hname).mono fun _ _ h => Or.inl h
        · exact refuse_heard hname
      · exact handleIQ_heard hname htype
    unfold dispatch
    rw [if_neg (by rw [hopen]; exact Bool.false_ne_true)]
    exact hroute.mono fun _ _ h _ => h
  · exact heard_anything.mono fun _ _ _ h => absurd h hrequest

end

/-! ## Runs -/

/-- The elements a goroutine has read, latest first, each with the calls made for it and their answers. -/
abbrev Journal := List (XmlNode × List ((c : Call) × Result c))

section
variable (isPrint : Char → Bool) (outside : ℕ → (c : Call) → Result c) (domain : Str)

/-- What the next event of a goroutine adds to its journal. -/
def enter (m : Machine) (i : ℕ) (e : Event) (log : Journal) : Journal :=
  match e, m.threads i, log with
  | .read n, .reading _, log => (n, []) :: log
  | .call, .handling _ (.call c _), (n, calls) :: rest =>
      (n, calls ++ [⟨c, (answer isPrint outside i c m.world).1⟩]) :: rest
  | _, _, log => log

/-- The journal of a goroutine after a run. -/
def journal (i : ℕ) : Machine → List (ℕ × Event) → Journal → Journal
  | _, [], log => log
  | m, x :: xs, log =>
      journal i (step isPrint outside domain m x.1 x.2) xs (if x.1 = i then enter isPrint outside m i x.2 log else log)

end

/-- What was done for an element is what it asked for. -/
def Settled (domain : Str) (i : ℕ) (e : XmlNode × List ((c : Call) × Result c)) : Prop :=
  Fulfilled domain i e.1 (listener.final {} e.2)

/-- All but the element that is being handled are settled, and that one will be. -/
def Kept (domain : Str) (i : ℕ) (log : Journal) : Thread → Prop
  | .handling _ p => ∃ e rest, log = e :: rest ∧ (∀ e ∈ rest, Settled domain i e) ∧
      listener.Obeys (listener.final {} e.2) p fun h _ => Fulfilled domain i e.1 h
  | _ => ∀ e ∈ log, Settled domain i e

section
variable {isPrint : Char → Bool} {outside : ℕ → (c : Call) → Result c} {domain : Str} {m : Machine} {i : ℕ}
  {log : Journal}

theorem kept_afterElement {x : Session × RouteResult} (h : ∀ e ∈ log, Settled domain i e) :
    Kept domain i log (afterElement i x) := by
  unfold afterElement
  split
  · exact h
  · exact h

/-- One event of the goroutine. -/
theorem step_kept (h : Kept domain i log (m.threads i)) (e : Event) :
    Kept domain i (enter isPrint outside m i e log) ((step isPrint outside domain m i e).threads i) := by
  unfold step
  split
  · next n s ht =>
    rw [ht] at h
    rw [GoMonitor.goto_self]
    have henter : enter isPrint outside m i (.read n) log = (n, []) :: log := by
      unfold enter
      simp only [ht]
    rw [henter]
    exact ⟨(n, []), log, rfl, h, dispatch_heard⟩
  · next s ht =>
    rw [ht] at h
    rw [GoMonitor.goto_self]
    have henter : enter isPrint outside m i .fail log = log := by
      unfold enter
      simp only
    rw [henter]
    exact h
  · next s c next ht =>
    rw [ht] at h
    obtain ⟨⟨n, calls⟩, rest, rfl, hrest, hcurrent⟩ := h
    rw [GoMonitor.perform_self]
    have henter : enter isPrint outside m i .call ((n, calls) :: rest) =
        (n, calls ++ [⟨c, (answer isPrint outside i c m.world).1⟩]) :: rest := by
      unfold enter
      simp only [ht]
    rw [henter]
    refine ⟨_, rest, rfl, hrest, ?_⟩
    rw [Monitor.final_append]
    exact hcurrent.2 _
  · next s x ht =>
    rw [ht] at h
    obtain ⟨e, rest, rfl, hrest, hcurrent⟩ := h
    rw [GoMonitor.goto_self]
    have henter : enter isPrint outside m i .call (e :: rest) = e :: rest := by
      unfold enter
      simp only [ht]
    rw [henter]
    exact kept_afterElement (List.forall_mem_cons.mpr ⟨hcurrent, hrest⟩)
  · next c next ht =>
    rw [ht] at h
    rw [GoMonitor.perform_self]
    have henter : enter isPrint outside m i .call log = log := by
      unfold enter
      simp only [ht]
    rw [henter]
    exact h
  · next e _ _ hread _ hcall _ _ =>
    have henter : enter isPrint outside m i e log = log := by
      unfold enter
      split
      · exact (hread _ _ rfl ‹_›).elim
      · exact (hcall _ _ _ rfl ‹_›).elim
      · rfl
    rw [henter]
    exact h

theorem run_kept (events : List (ℕ × Event)) : ∀ (m : Machine) (log : Journal), Kept domain i log (m.threads i) →
    Kept domain i (journal isPrint outside domain i m events log) ((run isPrint outside domain m events).threads i) := by
  induction events with
  | nil => exact fun _ _ h => h
  | cons x xs ih =>
      intro m log h
      rw [journal]
      apply ih
      split
      · next hx =>
        rw [hx]
        exact step_kept h x.2
      · next hx =>
        rw [GoMonitor.step_threads_other x.2 (Ne.symm hx)]
        exact h

end

def isReading : Thread → Bool
  | .reading _ => true
  | _ => false

end Xmppd.GoAnswers
