import Xmppd.Frames

/-!
# What one session shows of another

A handler shows session `i` nothing of session `t` if it writes nothing to `t`,
and writes the same to `i` whatever the presence of `t` is. A handler that does
not look at the presence of `t` commutes with changing it, so this is proved
operation by operation.
-/
namespace Xmppd.Silence
open CStrings FileTree LibXml Util ServerState User Roster Message Presence Streams Auth Frames

/-- The same server, where session `t` has another presence. -/
def withPresence (srv : Server) (t : ℕ) (available : Bool) (pres : Option Node) : Server :=
  srv.modify t fun s => { s with available := available, presenceStanza := pres }

/-- The handler of session `i` and the presence of session `t` have nothing to do
with each other. -/
structure Quiet (i t : ℕ) (handle : Server → Server) (srv : Server) : Prop where
  unwritten : ((handle srv).sess t).out = (srv.sess t).out
  unseen : ∀ available pres,
    ((handle (withPresence srv t available pres)).sess i).out = ((handle srv).sess i).out

/-- The operation leaves session `t` alone and does not look at its presence. -/
structure Misses (t : ℕ) (handle : Server → Server) (srv : Server) : Prop where
  same : (handle srv).sess t = srv.sess t
  commutes : ∀ available pres,
    handle (withPresence srv t available pres) = withPresence (handle srv) t available pres

theorem Misses.quiet {i t : ℕ} {handle : Server → Server} {srv : Server} (h : Misses t handle srv)
    (hi : i ≠ t) : Quiet i t handle srv := by
  constructor
  · rw [h.same]
  · intro available pres
    rw [h.commutes]
    exact congrArg Session.out (Server.sess_modify_of_ne _ _ _ _ hi)

/-! ## Changing the presence of a session -/

section
variable (srv : Server) (t : ℕ) (available : Bool) (pres : Option Node)

theorem sess_withPresence {i : ℕ} (hi : i ≠ t) : (withPresence srv t available pres).sess i = srv.sess i :=
  Server.sess_modify_of_ne _ _ _ _ hi

theorem find_withPresence (bare : Str) :
    (withPresence srv t available pres).sessionFindByJid bare = srv.sessionFindByJid bare :=
  Server.sessionFindByJid_modify srv t _ bare (fun _ => rfl) fun _ => rfl

theorem modify_withPresence {i : ℕ} (hi : i ≠ t) (f : Session → Session) :
    (withPresence srv t available pres).modify i f = withPresence (srv.modify i f) t available pres := by
  unfold withPresence Server.modify
  simp only [List.map_map, Server.mk.injEq, true_and, and_true]
  refine List.map_congr_left ?_
  intro s _
  simp only [Function.comp]
  by_cases hs : s.id = i
  · have ht : s.id ≠ t := fun h => hi (hs.symm.trans h)
    simp [hs, hi]
  · by_cases ht : s.id = t
    · simp [ht, Ne.symm hi]
    · simp [hs, ht]

end

/-! ## Operations -/

section
variable {t : ℕ} {srv : Server}

theorem Misses.id : Misses t (fun srv => srv) srv := ⟨rfl, fun _ _ => rfl⟩

theorem Misses.comp {f g : Server → Server} (hf : Misses t f srv) (hg : Misses t g (f srv)) :
    Misses t (fun srv => g (f srv)) srv :=
  ⟨hg.same.trans hf.same, fun v p => by rw [hf.commutes, hg.commutes]⟩

/-- An operation that is another one in the states concerned. -/
theorem Misses.congr {f g : Server → Server} (h : Misses t g srv) (hf : f srv = g srv)
    (hf' : ∀ v p, f (withPresence srv t v p) = g (withPresence srv t v p)) : Misses t f srv := by
  constructor
  · rw [hf, h.same]
  · intro v p
    rw [hf', hf, h.commutes]

/-- What is written to another session may depend on anything but the presence of `t`. -/
theorem Misses.modify {i : ℕ} (hi : i ≠ t) {f : Server → Session → Session}
    (hf : ∀ v p, f (withPresence srv t v p) = f srv) : Misses t (fun srv => srv.modify i (f srv)) srv := by
  constructor
  · exact Server.sess_modify_of_ne _ _ _ _ (Ne.symm hi)
  · intro v p
    rw [hf, modify_withPresence srv t v p hi]

theorem Misses.stanzaSend {i : ℕ} (hi : i ≠ t) (n : Node) : Misses t (fun srv => srv.stanzaSend i n) srv :=
  .modify hi (f := fun _ s => { s with out := s.out ++ [.stanza n] }) fun _ _ => rfl

/-- The stanza may depend on what the record of the session says. -/
theorem Misses.stanzaReply {i : ℕ} (hi : i ≠ t) (n : Config → Session → Node) :
    Misses t (fun srv => srv.stanzaSend i (n srv.cfg (srv.sess i))) srv := by
  refine (Misses.stanzaSend hi (n srv.cfg (srv.sess i))).congr rfl fun v p => ?_
  rw [sess_withPresence srv t v p hi]
  rfl

theorem Misses.unlink (path : Str) : Misses t (fun srv => unlink srv path) srv := by
  constructor
  · unfold User.unlink
    split <;> rfl
  · intro v p
    have hl : locate (withPresence srv t v p) path = locate srv path := rfl
    unfold User.unlink
    rw [hl]
    split <;> rfl

theorem Misses.foldl {α : Type} {f : Server → α → Server} (l : List α)
    (hf : ∀ x ∈ l, ∀ srv, Misses t (fun srv => f srv x) srv) : Misses t (fun srv => l.foldl f srv) srv := by
  induction l generalizing srv with
  | nil => exact .id
  | cons x xs ih =>
      have h := hf x (by simp) srv
      exact h.comp (ih fun y hy => hf y (by simp [hy]))

theorem Misses.rosterLoop {stack : ℕ → Jid} {body : Jid → Server → RosterItem → Server}
    {Q : Server → RosterItem → Prop}
    (hstep : ∀ buf srv item, Q srv item → Misses t (fun srv => body buf srv item) srv)
    (hkeep : ∀ buf srv item other, Q srv other → Q (body buf srv item) other) (items : List RosterItem) :
    ∀ k srv, (∀ item ∈ items, Q srv item) → Misses t (Presence.rosterLoop stack body k items) srv := by
  induction items with
  | nil => exact fun _ _ _ => .id
  | cons item items ih =>
      intro k srv hq
      refine (hstep (stack k) srv item (hq item (by simp))).comp (ih (k+1) _ ?_)
      exact fun other ho => hkeep _ _ _ _ (hq other (by simp [ho]))

theorem Misses.ensureRoster {i : ℕ} (hi : i ≠ t) : Misses t (fun srv => ensureRoster srv i) srv := by
  have hs := fun v p => sess_withPresence srv t v p hi
  by_cases hl : (srv.sess i).roster.loaded = true
  · refine Misses.id.congr ?_ fun v p => ?_
    · exact if_pos hl
    · exact if_pos (by rw [hs]; exact hl)
  · have hload : Misses t (fun srv => rosterLoad srv i) srv :=
      .modify hi (f := fun srv s => { s with roster := rosterLoadForUser srv s.jidLocal.str }) fun _ _ => rfl
    refine hload.congr ?_ fun v p => ?_
    · exact if_neg hl
    · exact if_neg (by rw [hs]; exact hl)

/-! ## Available presence -/

/-- The item leads to another session than `t`. -/
def LeadsElsewhere (t : ℕ) (has : Str → Bool) (srv : Server) (item : RosterItem) : Prop :=
  has item.subscription.str = true → ∀ buf, contactOf srv buf item ≠ some t

theorem LeadsElsewhere.steady {has : Str → Bool} {a b : Server} (h : Steady a b) {item : RosterItem}
    (ha : LeadsElsewhere t has a item) : LeadsElsewhere t has b item := by
  intro hi buf
  unfold contactOf
  rw [h.sessionFindByJid]
  exact ha hi buf

theorem misses_sendToContact {pres : Node} (buf : Jid) {item : RosterItem}
    (h : LeadsElsewhere t subHasFrom srv item) : Misses t (fun srv => sendToContact pres buf srv item) srv := by
  have hc : ∀ v p, contactOf (withPresence srv t v p) buf item = contactOf srv buf item :=
    fun v p => find_withPresence srv t v p _
  unfold sendToContact
  by_cases hf : subHasFrom item.subscription.str = true
  · simp only [hf, if_true]
    cases hk : contactOf srv buf item with
    | none => exact Misses.id.congr (by rw [hk]) fun v p => by rw [hc, hk]
    | some c =>
        have hne : c ≠ t := fun he => h hf buf (he ▸ hk)
        exact (Misses.stanzaSend hne pres).congr (by rw [hk]) fun v p => by rw [hc, hk]
  · simp only [hf, Bool.false_eq_true, if_false]
    exact .id

theorem misses_receiveFromContact {i : ℕ} (hi : i ≠ t) (buf : Jid) {item : RosterItem}
    (h : LeadsElsewhere t subHasTo srv item) : Misses t (fun srv => receiveFromContact i buf srv item) srv := by
  have hc : ∀ v p, contactOf (withPresence srv t v p) buf item = contactOf srv buf item :=
    fun v p => find_withPresence srv t v p _
  unfold receiveFromContact
  by_cases hf : subHasTo item.subscription.str = true
  · simp only [hf, if_true]
    cases hk : contactOf srv buf item with
    | none => exact Misses.id.congr (by rw [hk]) fun v p => by rw [hc, hk]
    | some c =>
        have hne : c ≠ t := fun he => h hf buf (he ▸ hk)
        have hs := fun v p => sess_withPresence srv t v p hne
        cases ha : (srv.sess c).available with
        | false => exact Misses.id.congr (by simp only [hk, ha]) fun v p => by simp only [hc, hk, hs, ha]
        | true =>
            cases hp : (srv.sess c).presenceStanza with
            | none => exact Misses.id.congr (by simp only [hk, ha, hp]) fun v p => by simp only [hc, hk, hs, ha, hp]
            | some pres =>
                exact (Misses.stanzaSend hi pres).congr (by simp only [hk, ha, hp])
                  fun v p => by simp only [hc, hk, hs, ha, hp]
  · simp only [hf, Bool.false_eq_true, if_false]
    exact .id

theorem misses_exchangePresence {i : ℕ} (hi : i ≠ t) (o : Oracle) (pres : Node)
    (hfrom : ∀ item ∈ (srv.sess i).roster.items, LeadsElsewhere t subHasFrom srv item)
    (hto : ∀ item ∈ (srv.sess i).roster.items, LeadsElsewhere t subHasTo srv item) :
    Misses t (fun srv => exchangePresence srv i o pres) srv := by
  have hs := fun v p => sess_withPresence srv t v p hi
  generalize hitems : (srv.sess i).roster.items = items at hfrom hto
  have hsend : Misses t (rosterLoop (fun k => o.stack (2*k)) (sendToContact pres) 0 items) srv := by
    refine Misses.rosterLoop (Q := LeadsElsewhere t subHasFrom) ?_ ?_ items 0 srv hfrom
    · exact fun buf srv item hq => misses_sendToContact buf hq
    · exact fun buf srv item other hq => hq.steady (silent_sendToContact pres buf srv item).steady
  have hsil : Steady srv (rosterLoop (fun k => o.stack (2*k)) (sendToContact pres) 0 items srv) :=
    (silent_rosterLoop (fun buf srv item => silent_sendToContact pres buf srv item) items 0 srv).steady
  have hrecv : Misses t (rosterLoop (fun k => o.stack (2*k+1)) (receiveFromContact i) 0 items)
      (rosterLoop (fun k => o.stack (2*k)) (sendToContact pres) 0 items srv) := by
    refine Misses.rosterLoop (Q := LeadsElsewhere t subHasTo) ?_ ?_ items 0 _ ?_
    · exact fun buf srv item hq => misses_receiveFromContact hi buf hq
    · exact fun buf srv item other hq => hq.steady (silent_receiveFromContact i buf srv item).steady
    · exact fun item hm => (hto item hm).steady hsil
  refine (hsend.comp hrecv).congr ?_ fun v p => ?_
  · simp only [exchangePresence, hitems]
  · simp only [exchangePresence, hs, hitems]

theorem misses_messageDeliverOffline {i : ℕ} (hi : i ≠ t) :
    Misses t (fun srv => messageDeliverOffline srv i) srv := by
  have hs := fun v p => sess_withPresence srv t v p hi
  generalize hdir : offlineDir srv.cfg (srv.sess i).jidLocal.str = dir
  generalize hnames : offlineNames srv dir = names
  have hfold : Misses t (fun srv => (sortNames names.length names).foldl (deliverOne i dir) srv) srv := by
    refine .foldl _ ?_
    intro name _ srv
    have hread : ∀ v p, readFile (withPresence srv t v p) (fileIn dir name) = readFile srv (fileIn dir name) :=
      fun _ _ => rfl
    unfold deliverOne
    dsimp only
    cases hc : readFile srv (fileIn dir name) with
    | none => exact (Misses.unlink (fileIn dir name)).congr (by simp only [hc]) fun v p => by simp only [hread, hc]
    | some c =>
        cases c with
        | text s => exact (Misses.unlink (fileIn dir name)).congr (by simp only [hc]) fun v p => by simp only [hread, hc]
        | xml root =>
            exact ((Misses.stanzaSend hi root).comp (Misses.unlink (fileIn dir name))).congr (by simp only [hc])
              fun v p => by simp only [hread, hc]
  refine hfold.congr ?_ fun v p => ?_
  · simp only [messageDeliverOffline, hdir, hnames]
  · have hd : offlineDir (withPresence srv t v p).cfg (srv.sess i).jidLocal.str = dir := hdir
    have hn : offlineNames (withPresence srv t v p) dir = names := hnames
    simp only [messageDeliverOffline, hs, hd, hn]

theorem misses_redeliverPending {i : ℕ} (hi : i ≠ t) (other : Session) :
    Misses t (fun srv => redeliverPending i srv other) srv := by
  unfold redeliverPending
  by_cases hc : other.id = i ∨ other.jidLocal.str = [] ∨ (!other.roster.loaded) = true
  · simp only [hc, if_true]
    exact .id
  · simp only [hc, if_false]
    refine .foldl _ ?_
    intro item _ srv
    have hs := fun v p => sess_withPresence srv t v p hi
    by_cases hask : item.askSubscribe = true ∧ item.jid = (srv.sess i).bareJid
    · refine (Misses.stanzaSend hi (subNode "subscribe" other.bareJid.str (srv.sess i).bareJid.str)).congr ?_ fun v p => ?_
      · exact if_pos hask
      · simp only [hs, hask, and_self, if_true]
    · refine Misses.id.congr ?_ fun v p => ?_
      · exact if_neg hask
      · simp only [hs, hask, if_false]

theorem misses_redeliver {i : ℕ} (hi : i ≠ t) :
    Misses t (fun srv => presenceRedeliverPendingSubscribes srv i) srv := by
  have hfold : Misses t (fun srv' => srv.sessions.foldl (redeliverPending i) srv') srv :=
    .foldl _ fun other _ srv => misses_redeliverPending hi other
  refine hfold.congr rfl fun v p => ?_
  unfold presenceRedeliverPendingSubscribes
  change List.foldl _ _ (srv.sessions.map _) = _
  rw [List.foldl_map]
  congr 1
  funext srv' other
  split_ifs <;> rfl

theorem misses_deliverInitial {i : ℕ} (hi : i ≠ t) : Misses t (fun srv => deliverInitial srv i) srv := by
  have hm : Misses t (fun srv => srv.modify i fun s => { s with initialPresenceSent := true }) srv :=
    .modify hi (f := fun _ s => { s with initialPresenceSent := true }) fun _ _ => rfl
  exact (hm.comp (misses_messageDeliverOffline hi)).comp (misses_redeliver hi)

/-- Available presence, where no item with a direction leads to session `t`. -/
theorem misses_presenceHandleAvailable {i : ℕ} (hi : i ≠ t) (o : Oracle) (stanza : Node)
    (h : ∀ pres, ∀ item ∈ ((ensureRoster (srv.modify i fun s =>
        { s with available := true, presenceStanza := some pres }) i).sess i).roster.items,
      LeadsElsewhere t subHasFrom srv item ∧ LeadsElsewhere t subHasTo srv item) :
    Misses t (fun srv => presenceHandleAvailable srv i o stanza) srv := by
  have hs := fun v p => sess_withPresence srv t v p hi
  generalize hpres : stanza.setProp "from" (srv.sess i).fullJid.str = pres
  have hload : Misses t (fun srv => ensureRoster (srv.modify i fun s =>
      { s with available := true, presenceStanza := some pres }) i) srv := by
    refine Misses.comp (.modify hi (f := fun _ s => { s with available := true, presenceStanza := some pres }) ?_)
      (.ensureRoster hi)
    exact fun _ _ => rfl
  have hst : Steady srv (ensureRoster (srv.modify i fun s =>
      { s with available := true, presenceStanza := some pres }) i) :=
    (Same.modify srv i (by intro s; rfl)).trans (steady_ensureRoster _ i)
  have hex := hload.comp (misses_exchangePresence hi o pres
    (fun item hm => (h pres item hm).1.steady hst) fun item hm => (h pres item hm).2.steady hst)
  cases hin : (srv.sess i).available with
  | true =>
      refine hex.congr ?_ fun v p => ?_
      · simp only [presenceHandleAvailable, hpres, hin]
        rfl
      · simp only [presenceHandleAvailable, hs, hpres, hin]
        rfl
  | false =>
      refine (hex.comp (misses_deliverInitial hi)).congr ?_ fun v p => ?_
      · simp only [presenceHandleAvailable, hpres, hin]
        rfl
      · simp only [presenceHandleAvailable, hs, hpres, hin]
        rfl

/-! ## Logging in -/

theorem misses_authHandleSasl {i : ℕ} (hi : i ≠ t) (stanza : Node) :
    Misses t (fun srv => authHandleSasl srv i stanza) srv := by
  have hw : ∀ (out : Out) (srv : Server), Misses t (fun srv => srv.sessionWrite i out) srv :=
    fun out srv => .modify hi (f := fun _ s => { s with out := s.out ++ [out] }) fun _ _ => rfl
  unfold authHandleSasl
  split
  · exact hw _ srv
  · rename_i authcid passwd _
    cases hc : userCheckPassword srv authcid passwd with
    | false =>
        refine (hw (saslFailure "not-authorized") srv).congr ?_ fun v p => ?_
        · simp only [hc]
          rfl
        · have hp : userCheckPassword (withPresence srv t v p) authcid passwd = false := hc
          simp only [hp]
          rfl
    | true =>
        have hm : Misses t (fun srv => srv.modify i fun s =>
            { s with
              jidLocal := snprintf 256 authcid
              jidDomain := srv.cfg.domain
              authenticated := true
              state := .authenticated }) srv :=
          .modify hi (f := fun srv s =>
            { s with
              jidLocal := snprintf 256 authcid
              jidDomain := srv.cfg.domain
              authenticated := true
              state := .authenticated }) fun _ _ => rfl
        have hr := (hm.comp (hw (.raw "<success xmlns='urn:ietf:params:xml:ns:xmpp-sasl'/>") _)).comp
          (.modify hi (f := fun _ s => { s with parserResetPending := true }) fun _ _ => rfl)
        refine hr.congr ?_ fun v p => ?_
        · simp only [hc]
          rfl
        · have hp : userCheckPassword (withPresence srv t v p) authcid passwd = true := hc
          simp only [hp]
          rfl

theorem misses_sessionHandleSessionIq {i : ℕ} (hi : i ≠ t) (stanza : Node) :
    Misses t (fun srv => sessionHandleSessionIq srv i stanza) srv := by
  have hm : Misses t (fun srv => srv.modify i fun s => { s with state := .sessionActive }) srv :=
    .modify hi (f := fun _ s => { s with state := .sessionActive }) fun _ _ => rfl
  exact hm.comp (.stanzaSend hi _)

/-- A bind, where the address of the session leads to no other session. -/
theorem misses_sessionHandleBind {i : ℕ} (hi : i ≠ t) (o : Oracle) (stanza : Node)
    (hf : ∀ c, srv.sessionFindByJid (srv.sess i).bareJid.str = some c → c = i) :
    Misses t (fun srv => sessionHandleBind srv i o stanza) srv := by
  have hs := fun v p => sess_withPresence srv t v p hi
  have hkick : ∀ srv' : Server, srv'.sess i = srv.sess i →
      (∀ bare, srv'.sessionFindByJid bare = srv.sessionFindByJid bare) → kickConflict srv' i o = srv' := by
    intro srv' hsess hfind
    unfold kickConflict
    rw [hfind, hsess]
    split
    · rw [if_pos (hf _ ‹_›)]
    · rfl
  by_cases hst : (srv.sess i).state ≠ .authenticated ∧ (srv.sess i).state ≠ .streamOpened
  · have herr : Misses t (fun srv => srv.stanzaSendError i stanza "cancel" "not-allowed") srv :=
      .stanzaReply hi fun cfg s => elem stanza.name
        ([attr "type" "error"] ++ optAttr "id" (stanza.getProp "id") ++
          [attr "from" cfg.domain.str, attr "to" s.fullJid.str])
        [elem "error" [attr "type" "cancel"] [.element "not-allowed" "urn:ietf:params:xml:ns:xmpp-stanzas" [] []]]
    refine herr.congr ?_ fun v p => ?_
    · exact if_pos hst
    · exact if_pos (by rw [hs]; exact hst)
  · have hm : Misses t (fun srv => srv.modify i fun s =>
        { s with jidResource := requestedResource o stanza, state := .bound }) srv :=
      .modify hi (f := fun _ s => { s with jidResource := requestedResource o stanza, state := .bound }) fun _ _ => rfl
    refine (hm.comp (.stanzaReply hi fun _ s => resultIq stanza
      [.element "bind" bindNs [] [.element "jid" bindNs [] [.text s.fullJid.str]]] [])).congr ?_ fun v p => ?_
    · simp only [sessionHandleBind, hst, if_false, hkick srv rfl fun _ => rfl]
    · simp only [sessionHandleBind, hs, hst, if_false,
        hkick (withPresence srv t v p) (hs v p) (find_withPresence srv t v p)]

end

end Xmppd.Silence
