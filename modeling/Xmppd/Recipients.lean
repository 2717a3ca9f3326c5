import Xmppd.Installation
import Xmppd.Outputs
import Xmppd.Phases

/-!
# Who is written to

All deliveries to other sessions go through the search by address, which looks at
no state. The sessions that a step may write to are computed from the state
before it: the session an address in the stanza leads to, and those the rosters
lead to. In runs in which these are bound nothing is delivered to a session that
is not, and a message to a user without a bound session is stored.
-/
namespace Xmppd.Recipients
open CStrings FileTree LibXml Util ServerState User Roster Message Presence Streams Auth Stanza Frames Evolution
open Confinement Outputs EventLoop Installation Phases

/-- The session a message is written to. -/
def messageRecipients (srv : Server) (o : Oracle) (stanza : Node) : List ℕ :=
  let p := jidParse (o.stack 0) (stanza.prop "to")
  if p.ok ∧ p.jid.localpart.str ≠ [] ∧ p.jid.domain = srv.cfg.domain ∧ userExists srv p.jid.localpart.str then
    (srv.sessionFindByJid p.jid.bare.str).toList
  else []

/-- The sessions the handlers for presence write to. A withdrawal is told only to a
session whose roster is loaded. -/
def presenceRecipients (srv : Server) (i : ℕ) (o : Oracle) (stanza : Node) : List ℕ :=
  let jid := (jidParse (o.stack 0) (stanza.prop "to")).jid
  let found := (srv.sessionFindByJid jid.bare.str).toList
  let type := stanza.prop "type"
  if type = [] then contacts srv (fun k => o.stack (2*k)) 0 (ownRoster srv i).items
  else if type = "unavailable" then farewells srv i o
  else if type = "subscribe" then
    whereFound (rosterFindItem (requestItem jid.bare.str (ownRoster srv i)) jid.bare.str).isSome found
  else if type = "subscribed" then
    whereFound (rosterFindItem (approveItem jid.bare.str (ownRoster srv i)) jid.bare.str).isSome found
  else if type = "unsubscribe" ∨ type = "unsubscribed" then (host srv i jid).toList
  else []

/-- The sessions that the session a bind ends has to take leave of. -/
def bindRecipients (srv : Server) (i : ℕ) (o : Oracle) : List ℕ :=
  if (srv.sess i).state ≠ .authenticated ∧ (srv.sess i).state ≠ .streamOpened then []
  else (rival srv i).toList.flatMap fun e => (partings srv e o).filter fun t => t ≠ e

def iqRecipients (srv : Server) (i : ℕ) (o : Oracle) (stanza : Node) : List ℕ :=
  let type := stanza.prop "type"
  let found := if isServerJid srv.cfg (stanza.prop "to") then [] else (routeTarget srv o (stanza.prop "to")).toList
  if type = "result" ∨ type = "error" then found
  else if childNs stanza = bindNs then bindRecipients srv i o
  else if childNs stanza ∈ [sessionNs, rosterNs, discoInfoNs, discoItemsNs, registerNs] then []
  else if (srv.sess i).isActive then found
  else []

/-- The other sessions that a stanza of session `i` is written to. -/
def recipients (srv : Server) (i : ℕ) (o : Oracle) (stanza : Node) : List ℕ :=
  if (srv.sess i).state = .streamOpened ∧ !(srv.sess i).authenticated then []
  else if stanza.name = "iq" then iqRecipients srv i o stanza
  else if (srv.sess i).isActive = false then []
  else if stanza.name = "message" then messageRecipients srv o stanza
  else if stanza.name = "presence" then presenceRecipients srv i o stanza
  else []

/-- The other sessions that a step writes to. -/
def stepRecipients (srv : Server) : Step → List ℕ
  | .hangup i o => farewells srv i o
  | .sax i o .endElement => ((dispatched (srv.sess i)).map (recipients (addDepth srv i (-1)) i o)).getD []
  | .endRead i o => if (srv.sess i).teardownPending then farewells srv i o else []
  | _ => []

/-! ## The handlers -/

section
variable {P : ℕ → Out → Prop} {srv a : Server} {i : ℕ} {o : Oracle} {stanza : Node}

theorem writes_rosterPush (hown : ∀ x, P i x) (srv : Server) (id : Str) (item : RosterItem) :
    Writes P srv (rosterPush srv i id item) := .stanzaSend (hown _)

theorem writes_messageStoreOffline (srv : Server) (o : Oracle) (username : Str) (stanza : Node) :
    Writes P srv (messageStoreOffline srv o username stanza) :=
  .of_filesOnly (filesOnly_messageStoreOffline srv o username stanza)

theorem handleMessage_writes (hown : ∀ x, P i x) (hto : ∀ t ∈ messageRecipients srv o stanza, ∀ n, P t (.stanza n)) :
    Writes P srv (handleMessage srv i o stanza) := by
  unfold handleMessage
  dsimp only
  split
  · exact .stanzaSendError hown _ _ _
  split
  · exact .stanzaSendError hown _ _ _
  split
  · exact .stanzaSendError hown _ _ _
  · next hparse hdomain huser =>
    cases hfind : srv.sessionFindByJid (jidParse (o.stack 0) (stanza.prop "to")).jid.bare.str with
    | none =>
        dsimp only
        split
        · exact .refl srv
        · exact writes_messageStoreOffline srv o _ _
    | some t =>
        refine .stanzaSend (hto t ?_ _)
        simp only [not_or, Bool.not_eq_true', Bool.not_eq_false, ne_eq, not_not] at hparse hdomain huser
        rw [messageRecipients, if_pos ⟨hparse.1, hparse.2, hdomain, huser⟩, hfind]
        exact List.mem_singleton_self t

/-! ### Presence -/

theorem writes_receive (hown : ∀ x, P i x) (stack : ℕ → Jid) (items : List RosterItem) :
    ∀ k srv, Writes P srv (rosterLoop stack (receiveFromContact i) k items srv) := by
  induction items with
  | nil => exact fun _ srv => .refl srv
  | cons item items ih =>
      intro k srv
      refine Writes.trans ?_ (ih (k+1) _)
      unfold receiveFromContact
      split
      · split
        · split
          · exact .stanzaSend (hown _)
          · exact .refl srv
        · exact .refl srv
      · exact .refl srv

theorem writes_deliverOne (hown : ∀ x, P i x) (dir : Str) (srv : Server) (name : Str) :
    Writes P srv (deliverOne i dir srv name) := by
  unfold deliverOne
  dsimp only
  split
  · exact (Writes.stanzaSend (hown _)).trans (.of_filesOnly (filesOnly_unlink _ _))
  · exact .of_filesOnly (filesOnly_unlink _ _)

theorem writes_redeliverPending (hown : ∀ x, P i x) (srv : Server) (other : Session) :
    Writes P srv (redeliverPending i srv other) := by
  unfold redeliverPending
  split
  · exact .refl srv
  · refine Writes.foldl ?_ _ _
    intro srv item
    split
    · exact .stanzaSend (hown _)
    · exact .refl srv

theorem writes_deliverInitial (hown : ∀ x, P i x) (srv : Server) : Writes P srv (deliverInitial srv i) := by
  have hmod : Writes P srv (srv.modify i fun s => { s with initialPresenceSent := true }) := .modify srv i fun _ => rfl
  exact (hmod.trans (.foldl (writes_deliverOne hown _) _ _)).trans (.foldl (writes_redeliverPending hown) _ _)

theorem presenceHandleAvailable_writes (hl : srv.Live i) (hown : ∀ x, P i x)
    (hto : ∀ t ∈ contacts srv (fun k => o.stack (2*k)) 0 (ownRoster srv i).items, ∀ n, P t (.stanza n)) :
    Writes P srv (presenceHandleAvailable srv i o stanza) := by
  unfold presenceHandleAvailable
  dsimp only
  generalize stanza.setProp "from" (srv.sess i).fullJid.str = pres
  have hmod : Writes P srv (srv.modify i fun s => { s with available := true, presenceStanza := some pres }) :=
    .modify srv i fun _ => rfl
  have hroster := ownRoster_modify srv i i (f := fun s => { s with available := true, presenceStanza := some pres }) fun _ => rfl
  have hsteady : Steady srv (srv.modify i fun s => { s with available := true, presenceStanza := some pres }) :=
    .modify srv i fun _ => rfl
  have hexchange : Writes P srv (exchangePresence (ensureRoster (srv.modify i fun s =>
      { s with available := true, presenceStanza := some pres }) i) i o pres) := by
    refine (hmod.trans (writes_ensureRoster _ i)).trans ?_
    refine Writes.trans ?_ (writes_receive hown _ _ _ _)
    have hown' := Own.ensure ((hsteady.live i).mpr hl)
    apply writes_rosterLoop (fun buf a item => (silent_sendToContact pres buf a item).steady)
      (fun _ _ _ hK => writes_sendToContact hK)
    rw [hown'.roster, hroster, contacts_congr (hsteady.trans (steady_ensureRoster _ i)).sessionFindByJid]
    exact fun t ht => hto t ht pres
  split
  · exact hexchange.trans (writes_deliverInitial hown _)
  · exact hexchange

theorem presenceHandleUnavailable_writes (hl : srv.Live i) (hto : ∀ t ∈ farewells srv i o, ∀ n, P t (.stanza n)) :
    Writes P srv (presenceHandleUnavailable srv i o) :=
  (presenceBroadcastUnavailable_writes hl fun t ht _ => hto t ht _).trans (.modify _ i fun _ => rfl)

theorem presenceHandleSubscribe_writes (hl : srv.Live i) (hown : ∀ x, P i x) {dest bare : Str}
    (hbare : (jidParse (o.stack 0) dest).jid.bare.str = bare)
    (hto : ∀ t ∈ whereFound (rosterFindItem (requestItem bare (ownRoster srv i)) bare).isSome
      (srv.sessionFindByJid bare).toList, ∀ n, P t (.stanza n)) :
    Writes P srv (presenceHandleSubscribe srv i o dest) := by
  have hedit := (Own.ensure hl).edit hl (requestItem bare)
  have hwrites : Writes P srv (rosterSave (modifyRoster (ensureRoster srv i) i (requestItem bare)) i) :=
    (writes_ensureRoster srv i).trans (writes_editSave _ i _)
  unfold presenceHandleSubscribe
  dsimp only
  rw [hbare, hedit.roster]
  cases hfound : rosterFindItem (requestItem bare (ownRoster srv i)) bare with
  | none => exact hwrites.trans (.crash _)
  | some item =>
      rw [hfound] at hto
      have hpush := hwrites.trans (writes_rosterPush hown _ (o.ident 0) item)
      have hfind := (hedit.steady.trans (steady_rosterPush _ i (o.ident 0) item)).sessionFindByJid bare
      dsimp only
      rw [hfind]
      cases ht : srv.sessionFindByJid bare with
      | none => exact hpush
      | some t =>
          refine hpush.trans (.stanzaSend (hto t ?_ _))
          rw [ht]
          exact List.mem_singleton_self t

theorem grantTarget_writes {target : Option ℕ} (hto : ∀ t ∈ target, ∀ n, P t (.stanza n)) (a : Server) (localpart bare : Str) :
    Writes P a (grantTarget a o target localpart bare) := by
  unfold grantTarget
  dsimp only
  cases hloaded : loadedSession a target with
  | none => exact writes_rosterSaveForUser a _ _
  | some t =>
      have ht : target = some t := (Option.filter_eq_some_iff.mp hloaded).1
      dsimp only
      split
      · exact (writes_editSave a t _).trans (.stanzaSend (hto t ht _))
      · exact writes_editSave a t _

theorem notifySubscribed_writes {target : Option ℕ} (hto : ∀ t ∈ target, ∀ n, P t (.stanza n)) (a : Server) (src dest : Str) :
    Writes P a (notifySubscribed a i target src dest) := by
  unfold notifySubscribed
  cases target with
  | none => exact .refl a
  | some t =>
      dsimp only
      split
      · exact (Writes.stanzaSend (hto t rfl _)).trans (.stanzaSend (hto t rfl _))
      · exact .stanzaSend (hto t rfl _)

theorem presenceHandleSubscribed_writes (hl : srv.Live i) (hown : ∀ x, P i x) {dest : Str} {jid : Jid}
    (hjid : (jidParse (o.stack 0) dest).jid = jid)
    (hto : ∀ t ∈ whereFound (rosterFindItem (approveItem jid.bare.str (ownRoster srv i)) jid.bare.str).isSome
      (srv.sessionFindByJid jid.bare.str).toList, ∀ n, P t (.stanza n)) :
    Writes P srv (presenceHandleSubscribed srv i o dest) := by
  have hedit := (Own.ensure hl).edit hl (approveItem jid.bare.str)
  have hwrites : Writes P srv (rosterSave (modifyRoster (ensureRoster srv i) i (approveItem jid.bare.str)) i) :=
    (writes_ensureRoster srv i).trans (writes_editSave _ i _)
  unfold presenceHandleSubscribed
  dsimp only
  rw [hjid, hedit.roster]
  cases hfound : rosterFindItem (approveItem jid.bare.str (ownRoster srv i)) jid.bare.str with
  | none => exact hwrites.trans (.crash _)
  | some item =>
      rw [hfound] at hto
      have hpush := hwrites.trans (writes_rosterPush hown _ (o.ident 0) item)
      have hfind := (hedit.steady.trans (steady_rosterPush _ i (o.ident 0) item)).sessionFindByJid jid.bare.str
      have htarget : ∀ t ∈ srv.sessionFindByJid jid.bare.str, ∀ n, P t (.stanza n) :=
        fun t ht => hto t (Option.mem_toList.mpr ht)
      dsimp only
      rw [hfind]
      exact (hpush.trans (grantTarget_writes htarget _ _ _)).trans (notifySubscribed_writes htarget _ _ _)

theorem withdrawAt_writes {t : ℕ} (hto : ∀ n, P t (.stanza n)) (a : Server) (id bare : Str) (f : RosterItem → RosterItem) :
    Writes P a (withdrawAt a t id bare f) := by
  unfold withdrawAt
  split
  · exact (writes_editSave a t _).trans (.stanzaSend (hto _))
  · exact .refl a

theorem withdraw_writes (hl : srv.Live i) (hown : ∀ x, P i x) {dest : Str} {jid : Jid}
    (hjid : (jidParse (o.stack 0) dest).jid = jid) (hto : ∀ t ∈ host srv i jid, ∀ n, P t (.stanza n)) (type : Str)
    (own theirs : RosterItem → RosterItem) : Writes P srv (withdraw type own theirs srv i o dest) := by
  have hat := withdrawAt_own hl (Own.ensure hl) (o.ident 0) jid.bare.str own
  have hwrites : Writes P srv (withdrawAt (ensureRoster srv i) i (o.ident 0) jid.bare.str own) :=
    (writes_ensureRoster srv i).trans (withdrawAt_writes (fun n => hown _) _ _ _ _)
  unfold withdraw withdrawTarget
  dsimp only
  rw [hjid, hat.host (ownRoster_loaded srv i)]
  refine hwrites.trans ?_
  cases hhost : host srv i jid with
  | none =>
      dsimp only
      split
      · exact writes_rosterSaveForUser _ _ _
      · exact .refl _
  | some t =>
      have hsend := hto t hhost
      have hnotify : ∀ n, Writes P _ ((withdrawAt (withdrawAt (ensureRoster srv i) i (o.ident 0) jid.bare.str own) t
          (o.ident 1) ((withdrawAt (ensureRoster srv i) i (o.ident 0) jid.bare.str own).sess i).bareJid.str theirs).stanzaSend t n) :=
        fun n => (withdrawAt_writes hsend _ _ _ _).trans (.stanzaSend (hsend n))
      dsimp only
      split
      · exact (hnotify _).trans (.stanzaSend (hsend _))
      · exact hnotify _

theorem handlePresence_writes (hl : srv.Live i) (hown : ∀ x, P i x)
    (hto : ∀ t ∈ presenceRecipients srv i o stanza, ∀ n, P t (.stanza n)) : Writes P srv (handlePresence srv i o stanza) := by
  unfold presenceRecipients at hto
  unfold handlePresence
  dsimp only at hto ⊢
  split
  · next h =>
    rw [if_pos h] at hto
    exact presenceHandleAvailable_writes hl hown hto
  next h =>
  rw [if_neg h] at hto
  split
  · next h =>
    rw [if_pos h] at hto
    exact presenceHandleUnavailable_writes hl hto
  next h =>
  rw [if_neg h] at hto
  split
  · next h =>
    rw [if_pos h] at hto
    exact presenceHandleSubscribe_writes hl hown rfl hto
  next h =>
  rw [if_neg h] at hto
  split
  · next h =>
    rw [if_pos h] at hto
    exact presenceHandleSubscribed_writes hl hown rfl hto
  next h =>
  rw [if_neg h] at hto
  split
  · next h =>
    rw [if_pos (Or.inl h)] at hto
    exact withdraw_writes hl hown rfl (fun t ht => hto t (Option.mem_toList.mpr ht)) _ _ _
  split
  · next h =>
    rw [if_pos (Or.inr h)] at hto
    exact withdraw_writes hl hown rfl (fun t ht => hto t (Option.mem_toList.mpr ht)) _ _ _
  · exact .refl srv

/-! ### Queries -/

theorem rosterHandleIq_writes (hown : ∀ x, P i x) (o : Oracle) (stanza : Node) : Writes P srv (rosterHandleIq srv i o stanza) := by
  have hset : ∀ (f : Roster → Roster) (a : Server) (n : Node),
      Writes P a ((rosterSave (modifyRoster a i f) i).stanzaSend i n) :=
    fun f a n => (writes_editSave a i f).trans (.stanzaSend (hown _))
  unfold rosterHandleIq
  dsimp only
  refine (writes_ensureRoster srv i).trans ?_
  split
  · exact .stanzaSend (hown _)
  split
  · split
    · exact .stanzaSendError hown _ _ _
    · split
      · exact .stanzaSendError hown _ _ _
      · split
        · exact (hset _ _ _).trans (.stanzaSend (hown _))
        · split
          · exact (hset _ _ _).trans (.stanzaSend (hown _))
          · exact hset _ _ _
  · exact .stanzaSendError hown _ _ _

theorem registerCreate_writes (hown : ∀ x, P i x) (o : Oracle) (stanza : Node) (uname pw : Str) :
    Writes P srv (registerCreate srv i o stanza uname pw) := by
  unfold registerCreate
  dsimp only
  refine Writes.trans (.of_filesOnly (userCreate_filesOnly srv o uname pw)) ?_
  split
  · exact .stanzaSend (hown _)
  split
  · exact .stanzaSendError hown _ _ _
  split
  · exact .stanzaSendError hown _ _ _
  · exact .stanzaSendError hown _ _ _

theorem registerSet_writes (hown : ∀ x, P i x) (o : Oracle) (stanza : Node) : Writes P srv (registerSet srv i o stanza) := by
  unfold registerSet
  dsimp only
  split
  · split
    · exact .stanzaSendError hown _ _ _
    · refine ((Writes.stanzaSend (hown _)).trans (.of_filesOnly (filesOnly_userDelete _ _))).trans (.modify _ i ?_)
      exact fun _ => rfl
  split
  · exact .stanzaSendError hown _ _ _
  split
  · exact registerCreate_writes hown o stanza _ _
  split
  · exact .stanzaSendError hown _ _ _
  · have hchange : ∀ u p, Writes P srv (userChangePassword srv u p).1 := fun u p =>
      .of_filesOnly (filesOnly_userChangePassword srv u p)
    split
    · exact (hchange _ _).trans (.stanzaSend (hown _))
    · exact (hchange _ _).trans (.stanzaSendError hown _ _ _)

theorem registerHandleIq_writes (hown : ∀ x, P i x) (o : Oracle) (stanza : Node) :
    Writes P srv (registerHandleIq srv i o stanza) := by
  unfold registerHandleIq
  split
  · exact .stanzaSend (hown _)
  split
  · exact registerSet_writes hown o stanza
  · exact .stanzaSendError hown _ _ _

theorem sessionHandleSessionIq_writes (hown : ∀ x, P i x) (stanza : Node) : Writes P srv (sessionHandleSessionIq srv i stanza) := by
  have hmod : Writes P srv (srv.modify i fun s => { s with state := .sessionActive }) := .modify srv i fun _ => rfl
  exact hmod.trans (.stanzaSend (hown _))

theorem sessionHandleBind_writes (hown : ∀ x, P i x) (hraw : ∀ t s, P t (.raw s))
    (hto : ∀ t ∈ bindRecipients srv i o, ∀ n, P t (.stanza n)) (stanza : Node) :
    Writes P srv (sessionHandleBind srv i o stanza) := by
  unfold sessionHandleBind
  unfold bindRecipients at hto
  split
  · exact .stanzaSendError hown _ _ _
  · next hstate =>
    rw [if_neg hstate] at hto
    have hkick : Writes P srv (kickConflict srv i o) := by
      apply kickConflict_writes hraw
      intro e he t ht hne
      refine hto t (List.mem_flatMap.mpr ⟨e, Option.mem_toList.mpr he, ?_⟩) _
      exact List.mem_filter.mpr ⟨ht, decide_eq_true hne⟩
    refine (hkick.trans (.modify _ i ?_)).trans (.stanzaSend (hown _))
    exact fun _ => rfl

theorem whenActive_writes (hown : ∀ x, P i x) {srv' : Server} (h : Writes P srv srv') (stanza : Node) :
    Writes P srv (whenActive srv i stanza srv') := by
  unfold whenActive
  split
  · exact h
  · exact .stanzaSendError hown _ _ _

theorem routeReply_writes (hto : ∀ t ∈ (if isServerJid srv.cfg (stanza.prop "to") then [] else
      (routeTarget srv o (stanza.prop "to")).toList), ∀ n, P t (.stanza n)) :
    Writes P srv (routeReply srv i o stanza) := by
  unfold routeReply
  dsimp only
  split
  · exact .refl srv
  · next hother =>
    rw [if_neg hother] at hto
    split
    · next t ht => exact .stanzaSend (hto t (Option.mem_toList.mpr ht) _)
    · exact .refl srv

theorem routeUnknown_writes (hown : ∀ x, P i x) (hto : (srv.sess i).isActive = true →
      ∀ t ∈ (if isServerJid srv.cfg (stanza.prop "to") then [] else (routeTarget srv o (stanza.prop "to")).toList),
        ∀ n, P t (.stanza n)) :
    Writes P srv (routeUnknown srv i o stanza) := by
  unfold routeUnknown
  dsimp only
  split
  · next hother =>
    have hfound := hto hother.2
    rw [if_neg (by simpa using hother.1)] at hfound
    split
    · next t ht => exact .stanzaSend (hfound t (Option.mem_toList.mpr ht) _)
    · exact .stanzaSendError hown _ _ _
  · exact .stanzaSendError hown _ _ _

theorem handleIq_writes (hown : ∀ x, P i x) (hraw : ∀ t s, P t (.raw s))
    (hto : ∀ t ∈ iqRecipients srv i o stanza, ∀ n, P t (.stanza n)) : Writes P srv (handleIq srv i o stanza) := by
  unfold iqRecipients at hto
  unfold handleIq
  dsimp only at hto ⊢
  split
  · next h =>
    rw [if_pos h] at hto
    exact routeReply_writes hto
  next h =>
  rw [if_neg h] at hto
  split
  · next h =>
    rw [if_pos h] at hto
    exact sessionHandleBind_writes hown hraw hto stanza
  next h =>
  rw [if_neg h] at hto
  split
  · exact sessionHandleSessionIq_writes hown stanza
  split
  · exact whenActive_writes hown (rosterHandleIq_writes hown o stanza) stanza
  split
  · exact whenActive_writes hown (.stanzaSend (hown _)) stanza
  split
  · exact whenActive_writes hown (.stanzaSend (hown _)) stanza
  split
  · exact registerHandleIq_writes hown o stanza
  · next hsession hroster hinfo hitems hregister =>
    rw [if_neg (by simp [hsession, hroster, hinfo, hitems, hregister])] at hto
    refine routeUnknown_writes hown ?_
    intro hactive
    rwa [if_pos hactive] at hto

/-! ## Stanzas and steps -/

theorem authHandleSasl_writes (hraw : ∀ s, P i (.raw s)) (stanza : Node) : Writes P srv (authHandleSasl srv i stanza) := by
  unfold authHandleSasl
  split
  · exact .sessionWrite (hraw _)
  split
  · exact .sessionWrite (hraw _)
  · dsimp only
    refine ((Writes.modify srv i ?_).trans (.sessionWrite (hraw _))).trans (.modify _ i ?_)
    · exact fun _ => rfl
    · exact fun _ => rfl

/-- While the parser runs the end of a session is deferred, and nothing is sent to others. -/
theorem teardownOrDefer_deferred (hx : (srv.sess i).inXmlParse = true) : Writes P srv (teardownOrDefer srv i o) := by
  apply teardownOrDefer_writes
  rw [partings, if_pos hx]
  exact fun t ht => absurd ht List.not_mem_nil

theorem inXmlParse_sessionWrite (hx : (srv.sess i).inXmlParse = true) (x : Out) :
    ((srv.sessionWrite i x).sess i).inXmlParse = true :=
  ((Silent.sessionWrite srv i x).get Session.inXmlParse (fun _ => rfl) i).trans hx

theorem streamSendError_deferred (hx : (srv.sess i).inXmlParse = true) (hraw : ∀ s, P i (.raw s)) (condition : Str) :
    Writes P srv (streamSendError srv i o condition) :=
  (Writes.sessionWrite (hraw _)).trans (teardownOrDefer_deferred (inXmlParse_sessionWrite hx _))

theorem streamHandleClose_deferred (hx : (srv.sess i).inXmlParse = true) (hraw : ∀ s, P i (.raw s)) :
    Writes P srv (streamHandleClose srv i o) :=
  (Writes.sessionWrite (hraw _)).trans (teardownOrDefer_deferred (inXmlParse_sessionWrite hx _))

theorem streamHandleOpen_deferred (hx : (srv.sess i).inXmlParse = true) (hraw : ∀ s, P i (.raw s)) (dest : Str) :
    Writes P srv (streamHandleOpen srv i o dest) := by
  unfold streamHandleOpen
  split
  · exact streamSendError_deferred hx hraw _
  · refine ((Writes.sessionWrite (hraw _)).trans (.sessionWrite (hraw _))).trans (.modify _ i ?_)
    exact fun _ => rfl

/-- What a stanza is written to besides the session it came from. -/
theorem stanzaRoute_writes (hl : srv.Live i) (hx : (srv.sess i).inXmlParse = true) (hown : ∀ x, P i x)
    (hraw : ∀ t s, P t (.raw s)) (hto : ∀ t ∈ recipients srv i o stanza, ∀ n, P t (.stanza n)) :
    Writes P srv (stanzaRoute srv i o stanza) := by
  unfold recipients at hto
  unfold stanzaRoute
  split
  · unfold routeBeforeAuth
    split
    · exact authHandleSasl_writes (hraw i) stanza
    split
    · split
      · exact registerHandleIq_writes hown o stanza
      · exact .stanzaSendError hown _ _ _
    · exact streamSendError_deferred hx (hraw i) _
  next hgate =>
  rw [if_neg hgate] at hto
  split
  · next hiq =>
    rw [if_pos hiq] at hto
    exact handleIq_writes hown hraw hto
  next hiq =>
  rw [if_neg hiq] at hto
  split
  · next hmessage =>
    split
    · next hactive =>
      rw [if_neg (by simp [hactive]), if_pos hmessage] at hto
      exact handleMessage_writes hown hto
    · exact streamSendError_deferred hx (hraw i) _
  next hmessage =>
  split
  · next hpresence =>
    split
    · next hactive =>
      rw [if_neg (by simp [hactive]), if_neg hmessage, if_pos hpresence] at hto
      exact handlePresence_writes hl hown hto
    · exact streamSendError_deferred hx (hraw i) _
  · exact streamSendError_deferred hx (hraw i) _

end

/-- Whatever has been written to sessions of other connections, stanzas were written to
bound sessions only. The state before counts, and no step changes that of others. -/
def Delivered (srv : Server) (owner : Option ℕ) (srv' : Server) : Prop :=
  ∀ t, srv'.Live t → owner ≠ some t → ∃ added, (srv'.sess t).out = (srv.sess t).out ++ added ∧
    ∀ n, Out.stanza n ∈ added → (srv.sess t).isActive = true

def DeliversBound (srv : Server) (e : Step) : Prop := Delivered srv e.owner (step srv e)

/-- The sessions that the addresses of a step lead to are bound, its own excepted. -/
def RecipientsBound (srv : Server) (e : Step) : Prop :=
  ∀ t ∈ stepRecipients srv e, e.owner ≠ some t → (srv.sess t).isActive = true

instance (srv : Server) (e : Step) : Decidable (RecipientsBound srv e) :=
  inferInstanceAs (Decidable (∀ t ∈ stepRecipients srv e, e.owner ≠ some t → (srv.sess t).isActive = true))

/-- No session with this address is bound. -/
def Offline (srv : Server) (bare : Str) : Prop := ∀ s ∈ srv.sessions, s.bareJid.str = bare → s.isActive = false

/-- A message that passes all checks is stored where no session of the user is bound. -/
def StoredIfOffline : Server → Step → Prop := OnStanza fun srv i o stanza =>
  let p := jidParse (o.stack 0) (stanza.prop "to")
  stanza.name = "message" → (srv.sess i).isActive = true → stanza.getProp "type" ≠ some "error" →
    p.ok = true → p.jid.localpart.str ≠ [] → p.jid.domain = srv.cfg.domain → userExists srv p.jid.localpart.str = true →
    Offline srv p.jid.bare.str →
      stanzaRoute srv i o stanza =
        messageStoreOffline srv o p.jid.localpart.str (stanza.setProp "from" (srv.sess i).fullJid.str)

section
variable {srv srv' : Server} {i : ℕ} {o : Oracle}

/-- What a step of connection `i` may write. -/
def Allowed (srv : Server) (owner : Option ℕ) (t : ℕ) (x : Out) : Prop :=
  owner = some t ∨ ∀ n, x = .stanza n → (srv.sess t).isActive = true

theorem Allowed.own (x : Out) : Allowed srv (some i) i x := Or.inl rfl

theorem Allowed.raw (owner : Option ℕ) (t : ℕ) (s : Str) : Allowed srv owner t (.raw s) := Or.inr fun _ => Out.noConfusion

theorem Allowed.bound {owner : Option ℕ} {t : ℕ} (h : owner ≠ some t → (srv.sess t).isActive = true) (x : Out) :
    Allowed srv owner t x := by
  by_cases ht : owner = some t
  · exact Or.inl ht
  · exact Or.inr fun _ _ => h ht

theorem onStartElementNs_writes (hx : (srv.sess i).inXmlParse = true) (name uri : Str) (attrs : List Attr) :
    Writes (Allowed srv (some i)) srv (onStartElementNs srv i o name uri attrs) := by
  have hadd : Writes (Allowed srv (some i)) srv (addDepth srv i 1) := .modify srv i fun _ => rfl
  have hdepth : ((addDepth srv i 1).sess i).inXmlParse = true :=
    ((addDepth_silent srv i 1).get Session.inXmlParse (fun _ => rfl) i).trans hx
  refine hadd.trans ?_
  unfold onStartElementNs
  dsimp only
  split
  · exact streamHandleOpen_deferred hdepth (fun s => .own _) _
  · exact .modify _ i fun _ => rfl

theorem onEndElementNs_writes (hl : srv.Live i) (hx : (srv.sess i).inXmlParse = true)
    (h : RecipientsBound srv (.sax i o .endElement)) : Writes (Allowed srv (some i)) srv (onEndElementNs srv i o) := by
  have hadd : Writes (Allowed srv (some i)) srv (addDepth srv i (-1)) := .modify srv i fun _ => rfl
  have hdepth : ((addDepth srv i (-1)).sess i).inXmlParse = true :=
    ((addDepth_silent srv i (-1)).get Session.inXmlParse (fun _ => rfl) i).trans hx
  cases hd : dispatched (srv.sess i) with
  | none =>
      rcases onEndElementNs_cases srv i o hl hd with hcase | hcase | hcase
      · rw [hcase]
        exact hadd.trans (streamHandleClose_deferred hdepth fun s => .own _)
      · rw [hcase]
        exact hadd
      · rw [hcase]
        exact hadd.trans (.modify _ i fun s => rfl)
  | some stanza =>
      rw [onEndElementNs_dispatched srv i o hl hd]
      refine (hadd.trans ?_).trans (.modify _ i fun _ => rfl)
      refine stanzaRoute_writes ((Server.modify_live srv i i _).mpr hl) hdepth Allowed.own (Allowed.raw _) ?_
      intro t ht n
      refine .bound (h t ?_) _
      rw [stepRecipients, hd]
      exact ht

theorem callback_writes (hp : parsing srv i = true) (e : Sax) (h : RecipientsBound srv (.sax i o e)) :
    Writes (Allowed srv (some i)) srv (callback srv i o e) := by
  have hx := (of_decide_eq_true hp).2
  cases e with
  | startElement name uri attrs => exact onStartElementNs_writes hx name uri attrs
  | endElement => exact onEndElementNs_writes (live_of_parsing hp) hx h
  | characters text => exact .modify srv i fun _ => rfl
  | error => exact teardownOrDefer_deferred hx

theorem endChunk_writes (h : RecipientsBound srv (.endRead i o)) : Writes (Allowed srv (some i)) srv (endChunk srv i o) := by
  have hclose : ∀ s, ((closeChunk s).out, (closeChunk s).jidLocal, (closeChunk s).jidDomain, (closeChunk s).available,
      (closeChunk s).initialPresenceSent, (closeChunk s).roster, (closeChunk s).teardownPending) =
        (s.out, s.jidLocal, s.jidDomain, s.available, s.initialPresenceSent, s.roster, s.teardownPending) := by
    intro s
    unfold closeChunk
    split <;> rfl
  simp only [Prod.mk.injEq] at hclose
  have hmod : Writes (Allowed srv (some i)) srv (srv.modify i closeChunk) := .modify srv i fun s => (hclose s).1
  unfold endChunk
  dsimp only
  split
  · next hpending =>
    rw [Server.sess_modify_congr Session.teardownPending srv i i closeChunk fun s => (hclose s).2.2.2.2.2.2] at hpending
    refine hmod.trans (sessionTeardown_writes ?_)
    rw [farewells_modify srv i i o fun s => by
      obtain ⟨-, hlocal, hdomain, havail, hinit, hroster, -⟩ := hclose s
      rw [hlocal, hdomain, havail, hinit, hroster]]
    intro t ht _
    refine .bound (h t ?_) _
    rw [stepRecipients, if_pos hpending]
    exact ht
  · exact hmod

theorem Delivered.of_writes {owner : Option ℕ} (h : Writes (Allowed srv owner) srv srv') : Delivered srv owner srv' := by
  intro t hl ht
  obtain ⟨added, hout, hallowed⟩ := h.out t hl
  exact ⟨added, hout, fun n hn => (hallowed _ hn).elim (absurd · ht) fun hactive => hactive n rfl⟩

/-- A new connection has no output, and nothing is written to the others. -/
theorem serverAccept_out (srv : Server) {t : ℕ} (hl : srv.serverAccept.Live t) :
    (srv.serverAccept.sess t).out = (srv.sess t).out := by
  obtain ⟨hm, hid⟩ := Server.sess_mem hl
  rcases Server.mem_serverAccept hm with hold | hnew
  · rw [← Server.sess_of_mem hold, hid]
  · have hfresh : ¬srv.Live t := by
      intro hlive
      obtain ⟨s, hs, hst⟩ := List.mem_map.mp hlive
      have hlt := srv.fresh s hs
      rw [hst, ← hid, hnew] at hlt
      exact Nat.lt_irrefl _ hlt
    rw [hnew, Server.sess_of_not_live hfresh]
    rfl

theorem step_delivers (srv : Server) (e : Step) : RecipientsBound srv e → DeliversBound srv e := by
  refine step_cases (P := fun e srv' => RecipientsBound srv e → Delivered srv e.owner srv') ?_ ?_ ?_ ?_ ?_ ?_ e
  · exact fun _ _ => .of_writes (.refl srv)
  · intro _ _ t hl _
    exact ⟨[], by rw [serverAccept_out srv hl, List.append_nil], by simp⟩
  · exact fun i o _ h => .of_writes (sessionTeardown_writes fun t ht _ => .bound (h t ht) _)
  · exact fun i _ _ => .of_writes (.modify srv i fun _ => rfl)
  · exact fun i o sax hp h => .of_writes (callback_writes hp sax h)
  · exact fun i o _ h => .of_writes (endChunk_writes h)

theorem step_stores (srv : Server) (e : Step) (h : RecipientsBound srv e) : StoredIfOffline srv e := by
  unfold StoredIfOffline OnStanza
  split
  · next i o =>
    intro stanza hd
    have hto : ∀ t ∈ recipients (addDepth srv i (-1)) i o stanza, some i ≠ some t → (srv.sess t).isActive = true := by
      intro t ht
      apply h t
      rw [stepRecipients, Option.mem_def.mp hd]
      exact ht
    have hactive : ∀ t, ((addDepth srv i (-1)).sess t).isActive = (srv.sess t).isActive :=
      fun t => (addDepth_silent srv i (-1)).get Session.isActive (fun _ => rfl) t
    simp only [← hactive] at hto
    generalize addDepth srv i (-1) = a at hto
    dsimp only
    intro hname ha htype hok hlocal hdomain huser hoffline
    have hiq : stanza.name ≠ "iq" := by
      rw [hname]
      decide
    rw [recipients, if_neg (not_gated ha), if_neg hiq, if_neg (by simp [ha]), if_pos hname, messageRecipients,
      if_pos ⟨hok, hlocal, hdomain, huser⟩] at hto
    have hnone : a.sessionFindByJid (jidParse (o.stack 0) (stanza.prop "to")).jid.bare.str = none := by
      cases hfind : a.sessionFindByJid (jidParse (o.stack 0) (stanza.prop "to")).jid.bare.str with
      | none => rfl
      | some t =>
          obtain ⟨s, hs, rfl, -, hbare⟩ := Server.sessionFindByJid_some hfind
          have hbound : (a.sess s.id).isActive = true := by
            by_cases hi : s.id = i
            · rw [hi]
              exact ha
            · refine hto s.id ?_ fun he => hi (Option.some.inj he).symm
              rw [hfind]
              exact List.mem_singleton_self _
          rw [Server.sess_of_mem hs, hoffline s hs hbare] at hbound
          cases hbound
    have herror : (stanza.setProp "from" (a.sess i).fullJid.str).getProp "type" ≠ some "error" := by
      rwa [Node.getProp_setProp_of_ne stanza _ (by decide)]
    unfold stanzaRoute
    rw [if_neg (not_gated ha), if_neg hiq, if_pos hname, if_pos ha]
    unfold handleMessage
    dsimp only
    rw [if_neg (by simpa using ⟨hok, hlocal⟩), if_neg (by simpa using hdomain), if_neg (by simpa using huser), hnone]
    exact if_neg herror
  · trivial

end

/-- Alice is bound, bob has authenticated, and alice writes to him. -/
def greetedEarly : List Step :=
  [.accept, .accept] ++ login 0 alicePlain ++ chunk 1 (streamHeaderTo "localhost" :: authPlain bobPlain) ++
    [.beginRead 0, .sax 0 exampleOracle (.startElement "message" "jabber:client" [attr "to" "bob@localhost"])]

/-- Both are bound, and alice writes to bob. -/
def greeted : List Step :=
  [.accept, .accept] ++ login 0 alicePlain ++ login 1 bobPlain ++
    chunk 0 (emptyStanza "message" [attr "to" "bob@localhost"])

end Xmppd.Recipients
