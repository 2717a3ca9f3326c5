import Xmppd.GoStanza

/-!
# The sender's address in the Go server

What a session has forwarded to others carries a `from` attribute. The address
is put into the first attribute of that name, whatever its namespace, while the
serializer writes all of them, so a message or a query with two such attributes
goes out with two. A presence stanza is copied without them first.
-/
namespace Xmppd.GoSender
open CStrings GoXml Programs Program GoSession

/-- The element a call hands to another session or to the offline store. -/
def forwarded (self : ℕ) : Call → Option XmlNode
  | .send t (.node n) => if t = self then none else some n
  | .writeFile _ _ (.node n) => some n
  | _ => none

/-- The start tag has one attribute written as `from`, with this address. -/
def Stamped (fullJID : Str) (n : XmlNode) : Prop :=
  (n.written.filter fun a => a.1 = ("from" : Str)) = [(("from" : Str), escapeAttr fullJID)]

/-- What is forwarded is stamped. -/
def Stamps (self : ℕ) (fullJID : Str) (c : Call) : Prop := ∀ n ∈ forwarded self c, Stamped fullJID n

/-- The number of attributes with the local name `from`. -/
def fromCount (n : XmlNode) : ℕ := n.attrs.countP fun a => a.name = ("from" : Str)

theorem setAttrIn_length (value : Str) (l : List XmlAttr) :
    ((setAttrIn "from" value l).filter fun a => a.name = ("from" : Str)).length =
      max 1 (l.countP fun a => a.name = ("from" : Str)) := by
  induction l with
  | nil => simp [setAttrIn]
  | cons a as ih =>
      by_cases ha : a.name = ("from" : Str)
      · simp only [setAttrIn, ha, if_true, List.filter_cons, decide_true,
          List.length_cons, List.countP_eq_length_filter]
        omega
      · simp only [setAttrIn, ha, if_false, List.filter_cons, decide_false, Bool.false_eq_true,
          List.countP_cons_of_neg, not_false_eq_true]
        exact ih

theorem setAttrIn_head (value : Str) (l : List XmlAttr) :
    ∃ a as, ((setAttrIn "from" value l).filter fun a => a.name = ("from" : Str)) = a :: as ∧
      a.name = "from" ∧ a.value = value := by
  induction l with
  | nil => exact ⟨⟨"from", [], value⟩, [], by simp [setAttrIn], rfl, rfl⟩
  | cons a as ih =>
      by_cases ha : a.name = ("from" : Str)
      · refine ⟨{ a with value := value }, as.filter fun a => a.name = ("from" : Str), ?_, ha, rfl⟩
        simp [setAttrIn, ha]
      · simp only [setAttrIn, ha, if_false, List.filter_cons, decide_false, Bool.false_eq_true]
        exact ih

theorem written_filter (n : XmlNode) :
    (n.written.filter fun a => a.1 = ("from" : Str)) =
      (n.attrs.filter fun a => a.name = ("from" : Str)).map fun a => (a.name, escapeAttr a.value) := by
  simp only [XmlNode.written, List.filter_map, Function.comp_def]

theorem withAttrs_attrs (n : XmlNode) (l : List XmlAttr) : (n.withAttrs l).attrs = l := rfl

/-- The stamp is alone exactly if there was at most one attribute to begin with. -/
theorem setAttr_stamped (n : XmlNode) (fullJID : Str) :
    Stamped fullJID (setAttr n "from" fullJID) ↔ fromCount n ≤ 1 := by
  have hlen := setAttrIn_length fullJID n.attrs
  obtain ⟨a, as, hf, ha, hv⟩ := setAttrIn_head fullJID n.attrs
  unfold Stamped fromCount
  rw [written_filter, setAttr, withAttrs_attrs]
  rw [hf] at hlen ⊢
  simp only [List.length_cons] at hlen
  constructor
  · intro h
    simp only [List.map_cons, List.cons.injEq, List.map_eq_nil_iff] at h
    rw [h.2] at hlen
    simp only [List.length_nil] at hlen
    omega
  · intro h
    have has : as = [] := by
      apply List.eq_nil_of_length_eq_zero
      omega
    rw [has, List.map_singleton, ha, hv]

theorem addChild_stamped (fullJID : Str) (n c : XmlNode) : Stamped fullJID (n.addChild c) ↔ Stamped fullJID n :=
  Iff.rfl

theorem clonePresence_stamped (n : XmlNode) (fullJID : Str) : Stamped fullJID (clonePresence n fullJID) := by
  unfold Stamped
  rw [written_filter, clonePresence, withAttrs_attrs, List.filter_append, List.filter_filter]
  have hnone : (n.attrs.filter fun a => decide (a.name = ("from" : Str)) && decide (a.name ≠ ("from" : Str))) = [] := by
    apply List.filter_eq_nil_iff.mpr
    intro a _
    simp
  rw [hnone]
  simp

/-! ## Handlers that forward nothing -/

section
variable {self : ℕ} {fullJID : Str}

theorem stamps_of_none {c : Call} (h : forwarded self c = none) : Stamps self fullJID c := by
  intro n hn
  rw [h] at hn
  cases hn

theorem stamps_self (d : Data) : Stamps self fullJID (.send self d) := by
  cases d with
  | text s => exact stamps_of_none rfl
  | node n =>
      apply stamps_of_none
      simp [forwarded]

theorem stamps_text (t : ℕ) (x : Str) : Stamps self fullJID (.send t (.text x)) := stamps_of_none rfl

theorem ensureLoaded_stamps {t : ℕ} {user : Str} {Q : Roster → Prop} (hQ : ∀ r, Q r) :
    Ensures (Stamps self fullJID) (ensureLoaded t user) Q :=
  ensures_ensureLoaded (stamps_of_none rfl) (stamps_of_none rfl) (fun _ => stamps_of_none rfl) hQ

theorem handleRosterIQ_stamps (s : Session) (node : XmlNode) :
    Ensures (Stamps self fullJID) (GoStanza.handleRosterIQ self s node) fun _ => True := by
  unfold GoStanza.handleRosterIQ
  rw [ensures_bind]
  apply ensureLoaded_stamps
  intro r
  dsimp only
  have hsave : ∀ r, Stamps self fullJID (.setRoster self r) ∧ Stamps self fullJID (.save s.jidLocal r) :=
    fun r => ⟨stamps_of_none rfl, stamps_of_none rfl⟩
  have hid : Stamps self fullJID .pushID := stamps_of_none rfl
  repeat' split
  all_goals simp only [ensures_bind, ensures_sendText, ensures_sendStanzaError (stamps_text self), ensures_setRoster,
    ensures_save, ensures_push (stamps_text self) hid, ensures_pure, stamps_text, hsave, and_self]

theorem registerSet_stamps (s : Session) (node : XmlNode) (id : Str) :
    Ensures (Stamps self fullJID) (GoStanza.registerSet self s node id) fun _ => True := by
  have herr : ∀ errType condition, Ensures (Stamps self fullJID)
      (sendStanzaError self s node errType condition >>= fun _ => pure RouteResult.ok) fun _ => True := by
    intro errType condition
    rw [ensures_bind, ensures_sendStanzaError (stamps_text self)]
    trivial
  unfold GoStanza.registerSet
  split
  · exact herr _ _
  · split
    · split
      · exact herr _ _
      · simp only [ensures_bind, ensures_sendText, ensures_delete, ensures_pure]
        exact ⟨stamps_text _ _, stamps_of_none rfl, trivial⟩
    · split
      · exact herr _ _
      · split
        · simp only [ensures_bind, ensures_create]
          refine ⟨stamps_of_none rfl, ?_⟩
          intro created
          cases created with
          | ok => exact ⟨stamps_text _ _, fun _ => trivial⟩
          | conflict => exact herr _ _
          | invalidUsername => exact herr _ _
          | failed => exact herr _ _
        · split
          · exact herr _ _
          · simp only [ensures_bind, ensures_changePassword]
            refine ⟨stamps_of_none rfl, ?_⟩
            intro ok
            cases ok with
            | false => exact herr _ _
            | true => exact ⟨stamps_text _ _, fun _ => trivial⟩

theorem registerHandleIQ_stamps (s : Session) (node : XmlNode) :
    Ensures (Stamps self fullJID) (GoStanza.registerHandleIQ self s node) fun _ => True := by
  unfold GoStanza.registerHandleIQ
  split
  · simp only [ensures_bind, ensures_sendText, ensures_pure]
    exact ⟨stamps_text _ _, trivial⟩
  · split
    · exact registerSet_stamps s node _
    · simp only [ensures_bind, ensures_sendStanzaError (stamps_text self), ensures_pure]

theorem bindResource_stamps (s : Session) (id : Str) :
    Ensures (Stamps self fullJID) (GoStanza.bindResource self s id) fun _ => True := by
  simp only [GoStanza.bindResource, ensures_bind, ensures_register]
  refine ⟨stamps_of_none rfl, ?_⟩
  intro old
  cases old with
  | none => exact ⟨stamps_text _ _, fun _ => trivial⟩
  | some t =>
      simp only [GoStanza.kick, ensures_bind, ensures_sendError (stamps_text t), ensures_close, ensures_sendText,
        ensures_pure]
      exact ⟨stamps_of_none rfl, stamps_text _ _, trivial⟩

theorem handleBind_stamps (s : Session) (node : XmlNode) :
    Ensures (Stamps self fullJID) (GoStanza.handleBind self s node) fun _ => True := by
  unfold GoStanza.handleBind
  split
  · simp only [ensures_bind, ensures_sendStanzaError (stamps_text self), ensures_pure]
  · split
    · simp only [ensures_bind, ensures_generateID, ensures_pure]
      exact ⟨stamps_of_none rfl, fun _ => bindResource_stamps _ _⟩
    · simp only [ensures_bind, ensures_pure]
      exact bindResource_stamps _ _

theorem whenActive_stamps {s : Session} {node : XmlNode} {h : Handler RouteResult}
    (hh : Ensures (Stamps self fullJID) h fun _ => True) :
    Ensures (Stamps self fullJID) (GoStanza.whenActive self s node h) fun _ => True := by
  unfold GoStanza.whenActive
  split
  · simp only [ensures_bind, ensures_pure]
    exact hh
  · simp only [ensures_bind, ensures_sendStanzaError (stamps_text self), ensures_pure]

theorem discoReply_stamps (domain : Str) (s : Session) (node : XmlNode) (content : Str) :
    Ensures (Stamps self fullJID) (GoStanza.discoReply domain self s node content) fun _ => True := by
  simp only [GoStanza.discoReply, ensures_bind, ensures_sendText, ensures_pure]
  exact ⟨stamps_text _ _, trivial⟩

end

/-! ## Handlers that forward -/

section
variable {self : ℕ}

/-- A presence stanza is stamped, whatever attributes came with it. -/
theorem handleAvailable_stamps (s : Session) (node : XmlNode) :
    Ensures (Stamps self s.fullJID) (GoPresence.handleAvailable self s node) fun _ => True := by
  have hpres : ∀ t, Stamps self s.fullJID (.send t (.node (clonePresence node s.fullJID))) := by
    intro t n hn
    simp only [forwarded] at hn
    split at hn
    · cases hn
    · rw [← Option.some.inj hn]
      exact clonePresence_stamped node s.fullJID
  exact GoPresence.ensures_handleAvailable (fun _ => stamps_of_none rfl) (stamps_of_none rfl) (fun _ => stamps_of_none rfl)
    (fun _ => stamps_of_none rfl) hpres stamps_self (fun _ => stamps_of_none rfl) (stamps_of_none rfl)
    (stamps_of_none rfl) (fun _ => stamps_of_none rfl) (fun _ => stamps_of_none rfl) fun _ _ => trivial

/-- The element is passed on by the call, which stamps it. -/
theorem stamps_send_iff {t : ℕ} (ht : t ≠ self) (fullJID : Str) (n : XmlNode) :
    Stamps self fullJID (.send t (.node n)) ↔ Stamped fullJID n := by
  simp [Stamps, forwarded, ht]

/-- The address is one that messages are forwarded to or stored for. -/
def MessageGoesOn (domain : Str) (node : XmlNode) : Prop :=
  (splitBareJID (node.attr "to")).1 ≠ [] ∧ (splitBareJID (node.attr "to")).2 = domain

theorem storeOffline_stamps {fullJID : Str} (domain user : Str) {n : XmlNode} (h : Stamped fullJID n) :
    Ensures (Stamps self fullJID) (GoMessage.storeOffline domain user n) fun _ => True := by
  simp only [GoMessage.storeOffline, ensures_bind, ensures_mkdirAll, ensures_readDir, ensures_now, ensures_writeFile]
  refine ⟨stamps_of_none rfl, stamps_of_none rfl, fun _ => ⟨stamps_of_none rfl, fun stamp => ⟨?_, trivial⟩⟩⟩
  intro m hm
  rw [← Option.some.inj hm]
  exact (addChild_stamped fullJID n (GoMessage.delay domain stamp)).mpr h

theorem message_stamps_iff (domain : Str) (s : Session) (node : XmlNode) :
    (Ensures (Stamps self s.fullJID) (GoMessage.handle self domain s node) fun _ => True) ↔
      (MessageGoesOn domain node → fromCount node ≤ 1) := by
  have herr : ∀ errType condition, Ensures (Stamps self s.fullJID)
      (sendStanzaError self s node errType condition >>= fun _ => pure RouteResult.ok) fun _ => True := by
    intro errType condition
    rw [ensures_bind, ensures_sendStanzaError (stamps_text self)]
    trivial
  unfold GoMessage.handle MessageGoesOn
  dsimp only
  constructor
  · intro h hgo
    rw [if_neg hgo.1, if_neg (not_not.mpr hgo.2)] at h
    simp only [ensures_bind, ensures_userExists] at h
    have hfound := h.2 true
    simp only [Bool.not_true, Bool.false_eq_true, if_false, ensures_bind, ensures_findByBareJID] at hfound
    have hsend := (hfound.2 (some (self + 1))).1
    rw [stamps_send_iff (by omega), setAttr_stamped] at hsend
    exact hsend
  · intro h
    split
    · exact herr _ _
    · next hl =>
      split
      · exact herr _ _
      · next hd =>
        have hst := (setAttr_stamped node s.fullJID).mpr (h ⟨hl, not_not.mp hd⟩)
        simp only [ensures_bind, ensures_userExists]
        refine ⟨stamps_of_none rfl, ?_⟩
        intro found
        cases found with
        | false => exact herr _ _
        | true =>
            simp only [Bool.not_true, Bool.false_eq_true, if_false, ensures_bind, ensures_findByBareJID]
            refine ⟨stamps_of_none rfl, ?_⟩
            intro session
            cases session with
            | none =>
                have hstore : Ensures (Stamps self s.fullJID)
                    (GoMessage.storeOffline domain (splitBareJID (node.attr "to")).1 (setAttr node "from" s.fullJID) >>=
                      fun _ => pure RouteResult.ok) fun _ => True := by
                  rw [ensures_bind]
                  exact (storeOffline_stamps domain _ hst).mono (fun _ => id) (fun _ _ => trivial)
                dsimp only
                split_ifs
                · exact hstore
                · trivial
                · exact hstore
                · trivial
            | some t =>
                simp only [ensures_bind, ensures_send, ensures_pure, and_true]
                by_cases ht : t = self
                · rw [ht]
                  exact stamps_self _
                · exact (stamps_send_iff ht _ _).mpr hst

/-- The namespaces whose requests the server answers itself. -/
def Known (ns : Str) : Prop :=
  ns = GoStanza.nsBind ∨ ns = GoStanza.nsSession ∨ ns = GoStanza.nsRoster ∨ ns = GoStanza.nsRegister ∨
    ns = GoStanza.nsDiscoInfo ∨ ns = GoStanza.nsDiscoItems

def IsReply (node : XmlNode) : Prop := node.attr "type" = "result" ∨ node.attr "type" = "error"

/-- The query is one that is forwarded to the session of another user. -/
def QueryGoesOn (domain : Str) (s : Session) (node : XmlNode) : Prop :=
  isServerJID (node.attr "to") domain = false ∧
    (IsReply node ∨ ¬Known (GoStanza.childNS node) ∧ s.isActive = true)

theorem forward_stamps_iff (s : Session) (node : XmlNode) (Q : Bool → Prop) (hQ : ∀ b, Q b) :
    Ensures (Stamps self s.fullJID) (GoStanza.forward s node) Q ↔ fromCount node ≤ 1 := by
  simp only [GoStanza.forward, ensures_bind, ensures_findByBareJID]
  constructor
  · intro h
    have hsend := (h.2 (some (self + 1))).1
    rw [stamps_send_iff (by omega), setAttr_stamped] at hsend
    exact hsend
  · intro h
    refine ⟨stamps_of_none rfl, ?_⟩
    intro session
    cases session with
    | none => exact hQ false
    | some t =>
        simp only [ensures_bind, ensures_send, ensures_pure]
        refine ⟨?_, hQ true⟩
        by_cases ht : t = self
        · rw [ht]
          exact stamps_self _
        · exact (stamps_send_iff ht _ _).mpr ((setAttr_stamped node s.fullJID).mpr h)

theorem query_stamps_iff (domain : Str) (s : Session) (node : XmlNode) :
    (Ensures (Stamps self s.fullJID) (GoStanza.handleIQ domain self s node) fun _ => True) ↔
      (QueryGoesOn domain s node → fromCount node ≤ 1) := by
  have herr : ∀ errType condition, Ensures (Stamps self s.fullJID)
      (sendStanzaError self s node errType condition >>= fun _ => pure (s, RouteResult.ok)) fun _ => True := by
    intro errType condition
    rw [ensures_bind, ensures_sendStanzaError (stamps_text self)]
    trivial
  have hown : ∀ {p : Handler (Session × RouteResult)}, ¬QueryGoesOn domain s node →
      (Ensures (Stamps self s.fullJID) p fun _ => True) →
      ((Ensures (Stamps self s.fullJID) p fun _ => True) ↔ (QueryGoesOn domain s node → fromCount node ≤ 1)) := by
    intro p hno hp
    exact ⟨fun _ hgo => absurd hgo hno, fun _ => hp⟩
  unfold GoStanza.handleIQ
  dsimp only
  by_cases hreply : node.attr "type" = ("result" : Str) ∨ node.attr "type" = ("error" : Str)
  · rw [if_pos hreply]
    by_cases hserver : isServerJID (node.attr "to") domain = true
    · rw [if_pos hserver]
      apply hown
      · intro hgo
        have hforeign := hgo.1
        rw [hserver] at hforeign
        cases hforeign
      · trivial
    · have hgo : QueryGoesOn domain s node := ⟨Bool.eq_false_iff.mpr hserver, Or.inl hreply⟩
      rw [if_neg hserver, ensures_bind]
      simp only [ensures_pure]
      rw [forward_stamps_iff s node _ (fun _ => trivial)]
      exact ⟨fun h _ => h, fun h => h hgo⟩
  · rw [if_neg hreply]
    by_cases hk : Known (GoStanza.childNS node)
    · have hno : ¬QueryGoesOn domain s node := by
        intro hgo
        rcases hgo.2 with h | h
        · exact hreply h
        · exact h.1 hk
      apply hown hno
      split
      · exact handleBind_stamps s node
      split
      · simp only [GoStanza.handleSessionIQ, ensures_bind, ensures_sendText, ensures_pure]
        exact ⟨stamps_text _ _, trivial⟩
      split
      · exact whenActive_stamps (handleRosterIQ_stamps s node)
      split
      · simp only [ensures_bind, ensures_pure]
        exact registerHandleIQ_stamps s node
      split
      · exact whenActive_stamps (discoReply_stamps domain s node _)
      split
      · exact whenActive_stamps (discoReply_stamps domain s node _)
      next hb hs hr hg hi ht =>
        rcases hk with h | h | h | h | h | h
        · exact absurd h hb
        · exact absurd h hs
        · exact absurd h hr
        · exact absurd h hg
        · exact absurd h hi
        · exact absurd h ht
    · simp only [Known, not_or] at hk
      obtain ⟨hb, hs, hr, hg, hi, ht⟩ := hk
      rw [if_neg hb, if_neg hs, if_neg hr, if_neg hg, if_neg hi, if_neg ht]
      by_cases hcond : (!isServerJID (node.attr "to") domain) = true ∧ s.isActive = true
      · have hgo : QueryGoesOn domain s node := by
          refine ⟨by simpa using hcond.1, Or.inr ⟨?_, hcond.2⟩⟩
          simp only [Known, not_or]
          exact ⟨hb, hs, hr, hg, hi, ht⟩
        rw [if_pos hcond, ensures_bind, forward_stamps_iff s node]
        · exact ⟨fun h _ => h, fun h => h hgo⟩
        · intro sent
          cases sent with
          | false => exact herr _ _
          | true => trivial
      · rw [if_neg hcond]
        apply hown
        · intro hgo
          rcases hgo.2 with h | h
          · exact hreply h
          · exact hcond ⟨by simpa using hgo.1, h.2⟩
        · exact herr _ _

/-- Whatever a bound session has forwarded carries one `from`, its own full
address, exactly where the stanza does not go on or came with at most one. -/
theorem sender_stamped (domain : Str) (self : ℕ) (s : Session) (node : XmlNode) :
    ((Ensures (Stamps self s.fullJID) (GoMessage.handle self domain s node) fun _ => True) ↔
      (MessageGoesOn domain node → fromCount node ≤ 1)) ∧
    ((Ensures (Stamps self s.fullJID) (GoStanza.handleIQ domain self s node) fun _ => True) ↔
      (QueryGoesOn domain s node → fromCount node ≤ 1)) ∧
    Ensures (Stamps self s.fullJID) (GoPresence.handleAvailable self s node) fun _ => True :=
  ⟨message_stamps_iff domain s node, query_stamps_iff domain s node, handleAvailable_stamps s node⟩

/-- A second `from` in a namespace of its own goes out as it came in. -/
def forged : XmlNode :=
  .mk "message" [] [⟨"to", [], "bob@localhost"⟩, ⟨"from", [], "alice@localhost"⟩, ⟨"from", "urn:x", "carol@localhost"⟩] [] []

def alice : Session :=
  { jidLocal := "alice", jidDomain := "localhost", jidResource := "home", state := .sessionActive, authenticated := true }

theorem forged_sender_passes :
    ¬∀ (domain : Str) (self : ℕ) (s : Session) (node : XmlNode), s.isActive = true →
      Ensures (Stamps self s.fullJID) (GoMessage.handle self domain s node) fun _ => True := by
  intro h
  have hforged := (@message_stamps_iff 0 "localhost" alice forged).mp (h "localhost" 0 alice forged (by decide))
  have hgo : MessageGoesOn "localhost" forged := by
    unfold MessageGoesOn
    decide
  have hcount := hforged hgo
  revert hcount
  decide

end

end Xmppd.GoSender
