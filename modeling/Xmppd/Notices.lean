import Xmppd.Announcements
import Xmppd.RosterTraffic

/-!
# What presence stanzas announce

The loops over a roster send stanzas in turn and change nothing that they read.
The stanzas are therefore those that the state before the loop leads to, and the
handlers for presence and the end of a session announce what is computed here.
-/
namespace Xmppd.Notices
open CStrings FileTree LibXml Util ServerState User Roster Message Presence Streams Auth Stanza EventLoop
open Frames Evolution Confinement Outputs Recipients Announcements

/-- The presence that the contacts of a session are to see. -/
def current (s : Session) : Option Node := if s.available then s.presenceStanza else none

theorem current_of_bearing {s s' : Session} (h : bearing s' = bearing s) : current s' = current s := by
  obtain ⟨havail, hstored, -⟩ := bearing_iff.mp h
  rw [current, current, havail, hstored]

/-- Stanzas sent in turn. -/
def deliver (srv : Server) (l : List (ℕ × Node)) : Server := l.foldl (fun srv p => srv.stanzaSend p.1 p.2) srv

theorem deliver_append (srv : Server) (l m : List (ℕ × Node)) : deliver srv (l ++ m) = deliver (deliver srv l) m :=
  List.foldl_append

theorem utters_deliver (l : List (ℕ × Node)) : ∀ srv, Utters l srv (deliver srv l) := by
  induction l with
  | nil => exact .refl
  | cons p l ih => exact fun srv => (Utters.stanzaSend srv p.1 p.2).trans (ih _)

theorem silent_deliver (l : List (ℕ × Node)) : ∀ srv, Silent srv (deliver srv l) := by
  induction l with
  | nil => exact .refl
  | cons p l ih => exact fun srv => (Silent.stanzaSend srv p.1 p.2).trans (ih _)

/-- What the iterations of a loop over a roster send. -/
def gather (f : ℕ → RosterItem → List (ℕ × Node)) : ℕ → List RosterItem → List (ℕ × Node)
  | _, [] => []
  | k, item :: items => f k item ++ gather f (k+1) items

section
variable {f : ℕ → RosterItem → List (ℕ × Node)} {items : List RosterItem} {item : RosterItem} {p : ℕ × Node} {k : ℕ}

theorem mem_of_gather (h : p ∈ gather f k items) : ∃ k, ∃ item ∈ items, p ∈ f k item := by
  induction items generalizing k with
  | nil => exact absurd h List.not_mem_nil
  | cons item items ih =>
      rcases List.mem_append.mp h with hp | hp
      · exact ⟨k, item, List.mem_cons_self, hp⟩
      · obtain ⟨k, item', hm, hp⟩ := ih hp
        exact ⟨k, item', List.mem_cons_of_mem _ hm, hp⟩

theorem gather_of_mem (hi : item ∈ items) (h : ∀ k, p ∈ f k item) : p ∈ gather f k items := by
  induction items generalizing k with
  | nil => exact absurd hi List.not_mem_nil
  | cons item' items ih =>
      rcases List.mem_cons.mp hi with rfl | hm
      · exact List.mem_append_left _ (h k)
      · exact List.mem_append_right _ (ih hm)

/-- A loop whose body sends what the state before the loop leads to. -/
theorem rosterLoop_eq {srv : Server} {stack : ℕ → Jid} {body : Jid → Server → RosterItem → Server}
    (h : ∀ l k item, body (stack k) (deliver srv l) item = deliver (deliver srv l) (f k item)) (items : List RosterItem) :
    ∀ k l, rosterLoop stack body k items (deliver srv l) = deliver srv (l ++ gather f k items) := by
  induction items with
  | nil =>
      intro k l
      rw [gather, List.append_nil]
      rfl
  | cons item items ih =>
      intro k l
      rw [rosterLoop, h, ← deliver_append, ih, gather, List.append_assoc]

end

/-- The stanza to the contact an item leads to, where that is not the session to skip. -/
def sending (srv : Server) (stack : ℕ → Jid) (pres : Node) (skip : Option ℕ) (k : ℕ) (item : RosterItem) : List (ℕ × Node) :=
  if subHasFrom item.subscription.str then
    ((contactOf srv (stack k) item).filter fun t => some t ≠ skip).toList.map fun t => (t, pres)
  else []

/-- The presence of the contact an item leads to. -/
def receiving (srv : Server) (stack : ℕ → Jid) (i : ℕ) (k : ℕ) (item : RosterItem) : List (ℕ × Node) :=
  if subHasTo item.subscription.str then
    ((contactOf srv (stack k) item).bind fun t => current (srv.sess t)).toList.map fun n => (i, n)
  else []

section
variable {srv : Server} {stack : ℕ → Jid} {pres : Node} {i k t : ℕ} {item : RosterItem} {skip : Option ℕ} {p : ℕ × Node}

theorem mem_sending : p ∈ sending srv stack pres skip k item ↔
    subHasFrom item.subscription.str = true ∧ contactOf srv (stack k) item = some p.1 ∧ some p.1 ≠ skip ∧ p.2 = pres := by
  unfold sending
  split_ifs with h
  · simp only [List.mem_map, Option.mem_toList, Option.filter_eq_some_iff, decide_eq_true_eq, h, true_and]
    constructor
    · rintro ⟨t, ⟨hc, hs⟩, rfl⟩
      exact ⟨hc, hs, rfl⟩
    · rintro ⟨hc, hs, rfl⟩
      exact ⟨p.1, ⟨hc, hs⟩, rfl⟩
  · simp [h]

theorem mem_receiving : p ∈ receiving srv stack i k item ↔
    subHasTo item.subscription.str = true ∧ p.1 = i ∧
      ∃ t, contactOf srv (stack k) item = some t ∧ current (srv.sess t) = some p.2 := by
  unfold receiving
  split_ifs with h
  · simp only [List.mem_map, Option.mem_toList, Option.bind_eq_some_iff, h, true_and]
    constructor
    · rintro ⟨n, ⟨t, hc, hs⟩, rfl⟩
      exact ⟨rfl, t, hc, hs⟩
    · rintro ⟨rfl, t, hc, hs⟩
      exact ⟨p.2, ⟨t, hc, hs⟩, rfl⟩
  · simp [h]

theorem contactOf_deliver (l : List (ℕ × Node)) (buf : Jid) (item : RosterItem) :
    contactOf (deliver srv l) buf item = contactOf srv buf item :=
  (silent_deliver l srv).steady.sessionFindByJid _

theorem sendToContact_loop (srv : Server) (stack : ℕ → Jid) (pres : Node) (k : ℕ) (items : List RosterItem) :
    rosterLoop stack (sendToContact pres) k items srv = deliver srv (gather (sending srv stack pres none) k items) := by
  suffices h : ∀ l k item, _ from rosterLoop_eq h items k []
  intro l k item
  unfold sendToContact sending
  rw [contactOf_deliver]
  split
  · cases contactOf srv (stack k) item with
    | none => rfl
    | some t => rfl
  · rfl

theorem sendUnavailable_loop (srv : Server) (i : ℕ) (stack : ℕ → Jid) (pres : Node) (k : ℕ) (items : List RosterItem) :
    rosterLoop stack (sendUnavailable i pres) k items srv = deliver srv (gather (sending srv stack pres (some i)) k items) := by
  suffices h : ∀ l k item, _ from rosterLoop_eq h items k []
  intro l k item
  unfold sendUnavailable sending
  rw [contactOf_deliver]
  split
  · cases contactOf srv (stack k) item with
    | none => rfl
    | some t =>
        dsimp only
        split_ifs with hti
        · rw [hti, Option.filter_some, if_neg (by simp)]
          rfl
        · rw [Option.filter_some, if_pos (by simpa using hti)]
          rfl
  · rfl

theorem receiveFromContact_loop (srv : Server) (i : ℕ) (stack : ℕ → Jid) (k : ℕ) (items : List RosterItem) :
    rosterLoop stack (receiveFromContact i) k items srv = deliver srv (gather (receiving srv stack i) k items) := by
  suffices h : ∀ l k item, _ from rosterLoop_eq h items k []
  intro l k item
  unfold receiveFromContact receiving
  rw [contactOf_deliver]
  split
  · cases contactOf srv (stack k) item with
    | none => rfl
    | some t =>
        obtain ⟨havail, hstored, -⟩ := bearing_iff.mp ((utters_deliver l srv).bearing t)
        dsimp only [Option.bind_some]
        rw [havail, hstored, current]
        cases (srv.sess t).available with
        | false => rfl
        | true =>
            cases (srv.sess t).presenceStanza with
            | none => rfl
            | some n => rfl
  · rfl

end

/-! ## Availability -/

section
variable {srv : Server} {i : ℕ} {o : Oracle} {stanza : Node}

/-- What is announced when a session is no longer available. -/
def leaving (srv : Server) (i : ℕ) (o : Oracle) : List (ℕ × Node) :=
  if (srv.sess i).available ∨ (srv.sess i).initialPresenceSent then
    gather (sending srv o.stack (unavailableNode (srv.sess i).fullJid.str) (some i)) 0 (ownRoster srv i).items
  else []

/-- The record of a session that has become available. -/
def appear (pres : Node) (s : Session) : Session := { s with available := true, presenceStanza := some pres }

/-- What is announced by available presence. -/
def arriving (srv : Server) (i : ℕ) (o : Oracle) (stanza : Node) : List (ℕ × Node) :=
  let pres := stanza.setProp "from" (srv.sess i).fullJid.str
  gather (sending srv (fun k => o.stack (2*k)) pres none) 0 (ownRoster srv i).items ++
    gather (receiving (srv.modify i (appear pres)) (fun k => o.stack (2*k+1)) i) 0 (ownRoster srv i).items

theorem sending_congr {a : Server} (h : ∀ bare, a.sessionFindByJid bare = srv.sessionFindByJid bare) (stack : ℕ → Jid)
    (pres : Node) (skip : Option ℕ) : sending a stack pres skip = sending srv stack pres skip := by
  funext k item
  unfold sending contactOf
  rw [h]

theorem receiving_congr {a : Server} (h : ∀ bare, a.sessionFindByJid bare = srv.sessionFindByJid bare)
    (hc : ∀ t, current (a.sess t) = current (srv.sess t)) (stack : ℕ → Jid) (i : ℕ) :
    receiving a stack i = receiving srv stack i := by
  funext k item
  unfold receiving contactOf
  simp only [h, hc]

/-- Besides what is announced, nothing but the own record says anything new. -/
structure Turns (l : List (ℕ × Node)) (i : ℕ) (a b : Server) : Prop extends Says l a b where
  stays : ∀ j, a.Live j → b.Live j
  others : ∀ j, j ≠ i → bearing (b.sess j) = bearing (a.sess j)

theorem Turns.then {l : List (ℕ × Node)} {a b c : Server} (hab : Turns l i a b) (hbc : Utters [] b c) : Turns l i a c :=
  ⟨hab.toSays.then hbc.toSays, fun j hj => hbc.stays j (hab.stays j hj),
    fun j hj => (hbc.bearing j).trans (hab.others j hj)⟩

theorem Turns.after {l : List (ℕ × Node)} {a b c : Server} (hab : Turns [] i a b) (hbc : Utters l b c) : Turns l i a c :=
  ⟨hab.toSays.trans hbc.toSays, fun j hj => hbc.stays j (hab.stays j hj),
    fun j hj => (hbc.bearing j).trans (hab.others j hj)⟩

theorem Turns.modify (srv : Server) (i : ℕ) {f : Session → Session}
    (hf : ∀ s, ((f s).out, (f s).authenticated, (f s).jidLocal) = (s.out, s.authenticated, s.jidLocal)) :
    Turns [] i srv (srv.modify i f) := by
  refine ⟨.modify srv i hf, fun j => (Server.modify_live srv i j f).mpr, ?_⟩
  intro j hj
  rw [Server.sess_modify_of_ne _ _ _ _ hj]

theorem Turns.trans {l : List (ℕ × Node)} {a b c : Server} (hab : Turns l i a b) (hbc : Turns [] i b c) : Turns l i a c :=
  ⟨hab.toSays.then hbc.toSays, fun j hj => hbc.stays j (hab.stays j hj),
    fun j hj => (hbc.others j hj).trans (hab.others j hj)⟩

theorem utters_deliverOne (h : Quiet srv) (i : ℕ) (dir name : Str) : Utters [] srv (deliverOne i dir srv name) := by
  unfold deliverOne
  dsimp only
  split
  · next root hread =>
    obtain ⟨q, -, hq⟩ := Option.bind_eq_some_iff.mp hread
    exact (Utters.other (h q root hq) srv i).then (utters_unlink _ _)
  · exact utters_unlink _ _

theorem utters_messageDeliverOffline (h : Quiet srv) (i : ℕ) : Utters [] srv (messageDeliverOffline srv i) := by
  unfold messageDeliverOffline
  dsimp only
  generalize sortNames _ _ = names
  generalize offlineDir _ _ = dir
  induction names generalizing srv with
  | nil => exact .refl srv
  | cons name names ih =>
      have hone := utters_deliverOne h i dir name
      exact hone.then (ih (hone.quiet h))

theorem utters_redeliverPending (i : ℕ) (srv : Server) (other : Session) : Utters [] srv (redeliverPending i srv other) := by
  unfold redeliverPending
  split
  · exact .refl srv
  · refine .foldl ?_ _ _
    intro srv item
    split
    · exact .other (not_isAvailability_of_type "subscribe" rfl (by decide)) srv i
    · exact .refl srv

theorem deliverInitial_turns (h : Quiet srv) (i : ℕ) : Turns [] i srv (deliverInitial srv i) ∧
    ((deliverInitial srv i).sess i).available = (srv.sess i).available ∧
      ((deliverInitial srv i).sess i).presenceStanza = (srv.sess i).presenceStanza := by
  have hmod : Turns [] i srv (srv.modify i fun s => { s with initialPresenceSent := true }) := .modify srv i fun _ => rfl
  have hlast : Utters [] (srv.modify i fun s => { s with initialPresenceSent := true }) (deliverInitial srv i) :=
    (utters_messageDeliverOffline (hmod.quiet h) i).then (.foldl (utters_redeliverPending i) _ _)
  refine ⟨hmod.then hlast, ?_⟩
  obtain ⟨havail, hstored, -⟩ := bearing_iff.mp (hlast.bearing i)
  have hs := Server.sess_modify_congr (fun s => (s.available, s.presenceStanza)) srv i i
    (fun s => { s with initialPresenceSent := true }) fun _ => rfl
  simp only [Prod.mk.injEq] at hs
  exact ⟨havail.trans hs.1, hstored.trans hs.2⟩

theorem presenceHandleAvailable_turns (hl : srv.Live i) (hq : Quiet srv) (o : Oracle) (stanza : Node) :
    Turns (arriving srv i o stanza) i srv (presenceHandleAvailable srv i o stanza) ∧
      current ((presenceHandleAvailable srv i o stanza).sess i) = some (stanza.setProp "from" (srv.sess i).fullJid.str) := by
  unfold presenceHandleAvailable arriving
  dsimp only
  generalize stanza.setProp "from" (srv.sess i).fullJid.str = pres
  have hmod : Turns [] i srv (srv.modify i (appear pres)) := .modify srv i fun _ => rfl
  have hensure := utters_ensureRoster (srv.modify i (appear pres)) i
  have happear : Steady srv (srv.modify i (appear pres)) := .modify srv i fun _ => rfl
  have hsteady := happear.trans (steady_ensureRoster (srv.modify i (appear pres)) i)
  have hroster : ((ensureRoster (srv.modify i (appear pres)) i).sess i).roster = ownRoster srv i := by
    rw [(Own.ensure (hmod.stays i hl)).roster]
    exact ownRoster_modify srv i i fun _ => rfl
  have hsend : gather (sending srv (fun k => o.stack (2*k)) pres none) 0 (ownRoster srv i).items =
      gather (sending (ensureRoster (srv.modify i (appear pres)) i) (fun k => o.stack (2*k)) pres none) 0
        (ownRoster srv i).items := by
    rw [sending_congr hsteady.sessionFindByJid]
  have hexchange : Turns (gather (sending srv (fun k => o.stack (2*k)) pres none) 0 (ownRoster srv i).items ++
      gather (receiving (srv.modify i (appear pres)) (fun k => o.stack (2*k+1)) i) 0 (ownRoster srv i).items) i srv
        (exchangePresence (ensureRoster (srv.modify i (appear pres)) i) i o pres) ∧
      ((exchangePresence (ensureRoster (srv.modify i (appear pres)) i) i o pres).sess i).available = true ∧
      ((exchangePresence (ensureRoster (srv.modify i (appear pres)) i) i o pres).sess i).presenceStanza = some pres := by
    unfold exchangePresence
    dsimp only
    rw [hroster, sendToContact_loop, receiveFromContact_loop, ← deliver_append, hsend]
    generalize hg : gather (sending (ensureRoster (srv.modify i (appear pres)) i) (fun k => o.stack (2*k)) pres none) 0
      (ownRoster srv i).items = greetings
    have hreceive : receiving (deliver (ensureRoster (srv.modify i (appear pres)) i) greetings) (fun k => o.stack (2*k+1)) i =
        receiving (srv.modify i (appear pres)) (fun k => o.stack (2*k+1)) i := by
      apply receiving_congr
      · intro bare
        rw [(silent_deliver greetings _).steady.sessionFindByJid]
        exact (steady_ensureRoster (srv.modify i (appear pres)) i).sessionFindByJid bare
      · exact fun t => current_of_bearing ((hensure.trans (utters_deliver greetings _)).bearing t)
    rw [hreceive]
    have hall := hensure.trans (utters_deliver (greetings ++ gather (receiving (srv.modify i (appear pres))
      (fun k => o.stack (2*k+1)) i) 0 (ownRoster srv i).items) _)
    refine ⟨hmod.after hall, ?_⟩
    obtain ⟨havail, hstored, -⟩ := bearing_iff.mp (hall.bearing i)
    rw [havail, hstored, Server.sess_modify_self hl]
    exact ⟨rfl, rfl⟩
  obtain ⟨hturns, havail, hstored⟩ := hexchange
  have hcurrent : ∀ {s : Session}, s.available = true → s.presenceStanza = some pres → current s = some pres := by
    intro s ha hp
    rw [current, ha, hp]
    rfl
  split
  · obtain ⟨hdeliver, ha, hp⟩ := deliverInitial_turns (hturns.quiet hq) i
    exact ⟨hturns.trans hdeliver, hcurrent (ha.trans havail) (hp.trans hstored)⟩
  · exact ⟨hturns, hcurrent havail hstored⟩

theorem presenceBroadcastUnavailable_turns (hl : srv.Live i) (o : Oracle) :
    Turns (leaving srv i o) i srv (presenceBroadcastUnavailable srv i o) ∧
      bearing ((presenceBroadcastUnavailable srv i o).sess i) =
        (false, (srv.sess i).presenceStanza, (srv.sess i).initialPresenceSent) := by
  unfold presenceBroadcastUnavailable leaving
  dsimp only
  by_cases hheard : (srv.sess i).available = true ∨ (srv.sess i).initialPresenceSent = true
  · rw [if_pos hheard, if_neg (by simpa [imp_iff_not_or] using hheard), (Own.ensure hl).roster, sendUnavailable_loop,
      sending_congr (steady_ensureRoster srv i).sessionFindByJid]
    have hsend := (utters_ensureRoster srv i).trans (utters_deliver (gather (sending srv o.stack
      (unavailableNode (srv.sess i).fullJid.str) (some i)) 0 (ownRoster srv i).items) (ensureRoster srv i))
    have hturns : Turns _ i srv _ := ⟨hsend.toSays, hsend.stays, fun j _ => hsend.bearing j⟩
    refine ⟨hturns.trans (.modify _ i fun _ => rfl), ?_⟩
    obtain ⟨-, hstored, hinit⟩ := bearing_iff.mp (hsend.bearing i)
    rw [Server.sess_modify_self (hsend.stays i hl), bearing, hstored, hinit]
  · simp only [not_or, Bool.not_eq_true] at hheard
    rw [if_neg (by simp [hheard]), if_pos (by simp [hheard]), bearing, hheard.1]
    exact ⟨⟨(Utters.refl srv).toSays, fun _ => id, fun _ _ => rfl⟩, rfl⟩

theorem presenceHandleUnavailable_turns (hl : srv.Live i) (o : Oracle) :
    Turns (leaving srv i o) i srv (presenceHandleUnavailable srv i o) ∧
      bearing ((presenceHandleUnavailable srv i o).sess i) =
        (false, (srv.sess i).presenceStanza, (srv.sess i).initialPresenceSent) := by
  obtain ⟨hturns, hself⟩ := presenceBroadcastUnavailable_turns hl o
  refine ⟨hturns.trans (.modify _ i fun _ => rfl), ?_⟩
  simp only [bearing, Prod.mk.injEq] at hself
  rw [presenceHandleUnavailable, Server.sess_modify_self (hturns.stays i hl), bearing, hself.2.1, hself.2.2]

/-- The session has ended, and nothing else says anything new. -/
structure Departs (l : List (ℕ × Node)) (i : ℕ) (a b : Server) : Prop extends Says l a b where
  gone : ¬b.Live i
  stays : ∀ j, j ≠ i → a.Live j → b.Live j
  others : ∀ j, j ≠ i → bearing (b.sess j) = bearing (a.sess j)

theorem Turns.remove {l : List (ℕ × Node)} {a b : Server} (h : Turns l i a b) : Departs l i a (b.serverRemoveSession i) := by
  have hsess : ∀ j, (b.serverRemoveSession i).Live j → (b.serverRemoveSession i).sess j = b.sess j :=
    fun j hj => Server.sess_serverRemoveSession (Server.live_serverRemoveSession.mp hj).2
  refine ⟨⟨?_, ?_, ?_, h.quiet⟩, fun hi => (Server.live_serverRemoveSession.mp hi).2 rfl, ?_, ?_⟩
  · exact fun j hj => h.live j (Server.live_serverRemoveSession.mp hj).1
  · intro j hj ha
    rw [hsess j hj]
    exact h.names j (Server.live_serverRemoveSession.mp hj).1 ha
  · intro j hj
    rw [hsess j hj]
    exact h.spoken j (Server.live_serverRemoveSession.mp hj).1
  · exact fun j hne hj => Server.live_serverRemoveSession.mpr ⟨h.stays j hj, hne⟩
  · intro j hne
    rw [Server.sess_serverRemoveSession hne]
    exact h.others j hne

/-- The end of a session takes leave, unless there is none to end. -/
theorem sessionTeardown_departs (srv : Server) (i : ℕ) (o : Oracle) :
    sessionTeardown srv i o = srv ∨ srv.Live i ∧ Departs (leaving srv i o) i srv (sessionTeardown srv i o) := by
  unfold sessionTeardown
  split
  · exact .inl rfl
  · next hopen =>
    have hl : srv.Live i := by
      by_contra hn
      exact hopen (Or.inl (by simpa using hn))
    refine .inr ⟨hl, Turns.remove ?_⟩
    split
    · exact (presenceBroadcastUnavailable_turns hl o).1.trans (.modify _ i fun _ => rfl)
    · next hsilent =>
      rw [leaving, if_neg hsilent]
      exact .modify srv i fun _ => rfl

/-! ## Subscriptions -/

theorem utters_subNode (type : Str) (h : type ≠ [] ∧ type ≠ "unavailable") (a : Server) (t : ℕ) (src dest : Str) :
    Utters [] a (a.stanzaSend t (subNode type src dest)) :=
  .other (not_isAvailability_of_type type rfl h) a t

theorem utters_presenceHandleSubscribe (srv : Server) (i : ℕ) (o : Oracle) (dest : Str) :
    Utters [] srv (presenceHandleSubscribe srv i o dest) := by
  have hedit := (utters_ensureRoster srv i).then (utters_editSave _ i (requestItem (jidParse (o.stack 0) dest).jid.bare.str))
  unfold presenceHandleSubscribe
  dsimp only
  split
  · exact hedit.then (.crash _)
  · have hpush := fun item => hedit.then (utters_rosterPush _ i (o.ident 0) item)
    split
    · exact (hpush _).then (utters_subNode _ (by decide) _ _ _ _)
    · exact hpush _

theorem utters_grantTarget (a : Server) (o : Oracle) (target : Option ℕ) (localpart bare : Str) :
    Utters [] a (grantTarget a o target localpart bare) := by
  unfold grantTarget
  dsimp only
  split
  · split
    · exact (utters_editSave a _ _).then (utters_rosterPush _ _ _ _)
    · exact utters_editSave a _ _
  · exact utters_rosterSaveForUser a _ _

/-- What a new contact is told of the session that has approved him. -/
def welcome (srv : Server) (i : ℕ) (target : Option ℕ) : List (ℕ × Node) :=
  (target.bind fun t => (current (srv.sess i)).map fun n => (t, n)).toList

theorem notifySubscribed_utters (a : Server) (i : ℕ) (target : Option ℕ) (src dest : Str) :
    Utters (welcome a i target) a (notifySubscribed a i target src dest) := by
  unfold notifySubscribed welcome
  cases target with
  | none => exact .refl a
  | some t =>
      have hnotice := fun b : Server => utters_subNode "subscribed" (by decide) b t src dest
      dsimp only [Option.bind_some]
      rw [current]
      cases (a.sess i).available with
      | false => exact hnotice a
      | true =>
          cases (a.sess i).presenceStanza with
          | none => exact hnotice a
          | some n => exact (Utters.stanzaSend a t n).then (hnotice _)

/-- An approval by a session whose roster has room. -/
theorem presenceHandleSubscribed_utters (hl : srv.Live i) (o : Oracle) {dest : Str} {jid : Jid}
    (hjid : (jidParse (o.stack 0) dest).jid = jid)
    (hfound : (rosterFindItem (approveItem jid.bare.str (ownRoster srv i)) jid.bare.str).isSome = true) :
    Utters (welcome srv i (srv.sessionFindByJid jid.bare.str)) srv (presenceHandleSubscribed srv i o dest) := by
  have hedit := (Own.ensure hl).edit hl (approveItem jid.bare.str)
  have hsaved := (utters_ensureRoster srv i).then (utters_editSave _ i (approveItem jid.bare.str))
  obtain ⟨item, hitem⟩ := Option.isSome_iff_exists.mp hfound
  unfold presenceHandleSubscribed
  dsimp only
  rw [hjid, hedit.roster, hitem]
  have hpush := hsaved.then (utters_rosterPush _ i (o.ident 0) item)
  have hfind := (hedit.steady.trans (steady_rosterPush _ i (o.ident 0) item)).sessionFindByJid jid.bare.str
  dsimp only
  rw [hfind]
  have hgrant := hpush.then (utters_grantTarget _ o (srv.sessionFindByJid jid.bare.str) jid.localpart.str
    (srv.sess i).bareJid.str)
  have hwelcome : welcome srv i (srv.sessionFindByJid jid.bare.str) = welcome (grantTarget (rosterPush (rosterSave (modifyRoster
      (ensureRoster srv i) i (approveItem jid.bare.str)) i) i (o.ident 0) item) o (srv.sessionFindByJid jid.bare.str)
        jid.localpart.str (srv.sess i).bareJid.str) i (srv.sessionFindByJid jid.bare.str) := by
    rw [welcome, welcome, current_of_bearing (hgrant.bearing i)]
  rw [hwelcome]
  exact hgrant.trans (notifySubscribed_utters _ i _ _ _)

theorem utters_withdrawAt (a : Server) (t : ℕ) (id bare : Str) (f : RosterItem → RosterItem) :
    Utters [] a (withdrawAt a t id bare f) := by
  unfold withdrawAt
  split
  · exact (utters_editSave a t _).then (utters_rosterPush _ _ _ _)
  · exact .refl a

/-- What the other side of a withdrawal is told. -/
def parting (srv : Server) (i : ℕ) (target : Option ℕ) : List (ℕ × Node) :=
  (target.bind fun t => if (srv.sess i).available then some (t, unavailableNode (srv.sess i).fullJid.str) else none).toList

theorem withdraw_utters (hl : srv.Live i) (o : Oracle) {dest : Str} {jid : Jid} (hjid : (jidParse (o.stack 0) dest).jid = jid)
    {type : Str} (htype : type ≠ [] ∧ type ≠ "unavailable") (own theirs : RosterItem → RosterItem) :
    Utters (parting srv i (host srv i jid)) srv (withdraw type own theirs srv i o dest) := by
  have hat := withdrawAt_own hl (Own.ensure hl) (o.ident 0) jid.bare.str own
  have hown : Utters [] srv (withdrawAt (ensureRoster srv i) i (o.ident 0) jid.bare.str own) :=
    (utters_ensureRoster srv i).then (utters_withdrawAt _ _ _ _ _)
  unfold withdraw withdrawTarget parting
  dsimp only
  rw [hjid, hat.host (ownRoster_loaded srv i)]
  cases hhost : host srv i jid with
  | none =>
      refine hown.then ?_
      dsimp only
      split
      · exact utters_rosterSaveForUser _ _ _
      · exact .refl _
  | some t =>
      have hnotify := (hown.then (utters_withdrawAt _ t (o.ident 1) ((withdrawAt (ensureRoster srv i) i (o.ident 0)
        jid.bare.str own).sess i).bareJid.str theirs)).then (utters_subNode type htype _ t ((withdrawAt (ensureRoster srv i) i
          (o.ident 0) jid.bare.str own).sess i).bareJid.str jid.bare.str)
      dsimp only [Option.bind_some]
      rw [(bearing_iff.mp (hnotify.bearing i)).1]
      have hstanding : Steady srv ((withdrawAt (withdrawAt (ensureRoster srv i) i (o.ident 0) jid.bare.str own) t (o.ident 1)
          ((withdrawAt (ensureRoster srv i) i (o.ident 0) jid.bare.str own).sess i).bareJid.str theirs).stanzaSend t
            (subNode type ((withdrawAt (ensureRoster srv i) i (o.ident 0) jid.bare.str own).sess i).bareJid.str jid.bare.str)) :=
        hat.steady.trans ((steady_withdrawAt _ t _ _ theirs).trans (.stanzaSend _ t _))
      rw [hstanding.get Session.fullJid (fun _ => rfl) i]
      split
      · exact hnotify.trans (.stanzaSend _ t _)
      · exact hnotify

/-! ## Steps -/

theorem Utters.departs {l : List (ℕ × Node)} {a b c : Server} (hab : Utters [] a b) (hbc : Departs l i b c) : Departs l i a c :=
  ⟨hab.toSays.trans hbc.toSays, hbc.gone, fun j hne hj => hbc.stays j hne (hab.stays j hj),
    fun j hne => (hbc.others j hne).trans (hab.bearing j)⟩

/-- Writes to a record that leave what a broadcast reads. -/
theorem leaving_modify (srv : Server) (i : ℕ) (o : Oracle) {f : Session → Session}
    (hf : ∀ s, ((f s).jidLocal, (f s).jidDomain, (f s).jidResource, (f s).available, (f s).initialPresenceSent, (f s).roster) =
      (s.jidLocal, s.jidDomain, s.jidResource, s.available, s.initialPresenceSent, s.roster)) :
    leaving (srv.modify i f) i o = leaving srv i o := by
  have hsess := Server.sess_modify_congr
    (fun s => (s.jidLocal, s.jidDomain, s.jidResource, s.available, s.initialPresenceSent, s.roster)) srv i i f hf
  simp only [Prod.mk.injEq] at hsess hf
  obtain ⟨hlocal, hdomain, hresource, havail, hinit, -⟩ := hsess
  have hroster : ownRoster (srv.modify i f) i = ownRoster srv i := by
    apply ownRoster_modify
    intro s
    rw [(hf s).1, (hf s).2.2.2.2.2]
  have hfind := fun bare => Server.sessionFindByJid_modify srv i f bare (fun s => (hf s).1) fun s => (hf s).2.1
  rw [leaving, leaving, havail, hinit, hroster, sending_congr hfind, Session.fullJid, Session.fullJid, hlocal, hdomain, hresource]

theorem closeChunk_same (s : Session) : manner (closeChunk s) = manner s ∧
    ((closeChunk s).jidLocal, (closeChunk s).jidDomain, (closeChunk s).jidResource, (closeChunk s).available,
      (closeChunk s).initialPresenceSent, (closeChunk s).roster) =
        (s.jidLocal, s.jidDomain, s.jidResource, s.available, s.initialPresenceSent, s.roster) := by
  unfold closeChunk
  split
  · exact ⟨rfl, rfl⟩
  · exact ⟨rfl, rfl⟩

theorem endChunk_announces (srv : Server) (i : ℕ) (o : Oracle) : Utters [] srv (endChunk srv i o) ∨
    srv.Live i ∧ Departs (leaving srv i o) i srv (endChunk srv i o) := by
  have hclose : Utters [] srv (srv.modify i closeChunk) := .modify srv i fun s => (closeChunk_same s).1
  unfold endChunk
  dsimp only
  split
  · rcases sessionTeardown_departs (srv.modify i closeChunk) i o with h | ⟨hl, h⟩
    · rw [h]
      exact .inl hclose
    · rw [leaving_modify srv i o fun s => (closeChunk_same s).2] at h
      exact .inr ⟨hclose.live i hl, Utters.departs hclose h⟩
  · exact .inl hclose

/-- A step hands a presence stanza of a bound session to its handler. -/
def HandsPresence (srv : Server) (e : Step) (i : ℕ) (o : Oracle) (stanza : Node) : Prop :=
  e = .sax i o .endElement ∧ dispatched (srv.sess i) = some stanza ∧ srv.Live i ∧
    (srv.sess i).isActive = true ∧ (srv.sess i).authenticated = true ∧ stanza.name = "presence" ∧
    step srv e = (handlePresence (addDepth srv i (-1)) i o stanza).modify i fun s => { s with building := [] }

theorem utters_onStartElementNs (hx : (srv.sess i).inXmlParse = true) (name uri : Str) (attrs : List Attr) :
    Utters [] srv (onStartElementNs srv i o name uri attrs) := by
  have hdepth : ((addDepth srv i 1).sess i).inXmlParse = true :=
    ((addDepth_silent srv i 1).get Session.inXmlParse (fun _ => rfl) i).trans hx
  have hadd : Utters [] srv (addDepth srv i 1) := .modify srv i fun _ => rfl
  refine hadd.then ?_
  unfold onStartElementNs
  dsimp only
  split
  · exact utters_streamHandleOpen hdepth _
  · exact .modify _ i fun _ => rfl

/-- In runs without messages and registrations in which no bind ends a session, a step
announces nothing unless a session ends or a presence stanza is handled. -/
theorem step_announces (srv : Server) (e : Step) :
    OnStanza (fun srv i _ stanza => RosterTraffic.Traffic srv i stanza ∧
      ((srv.sess i).authenticated = true → rival srv i = none)) srv e →
    step srv e = srv.serverAccept ∨ Utters [] srv (step srv e) ∨
      (∃ i o, srv.Live i ∧ Departs (leaving srv i o) i srv (step srv e)) ∨ ∃ i o stanza, HandsPresence srv e i o stanza := by
  unfold HandsPresence
  refine step_cases (P := fun e srv' =>
    OnStanza (fun srv i _ stanza => RosterTraffic.Traffic srv i stanza ∧
      ((srv.sess i).authenticated = true → rival srv i = none)) srv e →
    srv' = srv.serverAccept ∨ Utters [] srv srv' ∨ (∃ i o, srv.Live i ∧ Departs (leaving srv i o) i srv srv') ∨
      ∃ i o stanza, e = .sax i o .endElement ∧ dispatched (srv.sess i) = some stanza ∧ srv.Live i ∧
        (srv.sess i).isActive = true ∧ (srv.sess i).authenticated = true ∧ stanza.name = "presence" ∧
        srv' = (handlePresence (addDepth srv i (-1)) i o stanza).modify i fun s => { s with building := [] })
    ?_ ?_ ?_ ?_ ?_ ?_ e
  · exact fun _ _ => .inr (.inl (.refl srv))
  · exact fun _ _ => .inl rfl
  · intro i o _ _
    rcases sessionTeardown_departs srv i o with h | h
    · rw [h]
      exact .inr (.inl (.refl srv))
    · exact .inr (.inr (.inl ⟨i, o, h⟩))
  · exact fun i _ _ => .inr (.inl (.modify srv i fun _ => rfl))
  · intro i o sax hp ht
    have hx : (srv.sess i).inXmlParse = true := (of_decide_eq_true hp).2
    have hl := live_of_parsing hp
    cases sax with
    | startElement name uri attrs => exact .inr (.inl (utters_onStartElementNs hx name uri attrs))
    | characters text => exact .inr (.inl (.modify srv i fun _ => rfl))
    | error => exact .inr (.inl (utters_deferred hx))
    | endElement =>
        have hsil := addDepth_silent srv i (-1)
        have hadd : Utters [] srv (addDepth srv i (-1)) := .modify srv i fun _ => rfl
        have hdepth : ((addDepth srv i (-1)).sess i).inXmlParse = true := (hsil.get Session.inXmlParse (fun _ => rfl) i).trans hx
        have hcallback : callback srv i o .endElement = onEndElementNs srv i o := rfl
        rw [hcallback]
        cases hd : dispatched (srv.sess i) with
        | none =>
            rcases onEndElementNs_cases srv i o hl hd with hcase | hcase | hcase
            · rw [hcase]
              exact .inr (.inl (hadd.then (utters_streamHandleClose hdepth)))
            · rw [hcase]
              exact .inr (.inl hadd)
            · rw [hcase]
              exact .inr (.inl (hadd.then (.modify _ i fun _ => rfl)))
        | some stanza =>
            obtain ⟨⟨hmessage, hreg, hgate⟩, hrival⟩ := ht stanza hd
            rw [onEndElementNs_dispatched srv i o hl hd]
            rcases stanzaRoute_utters (o := o) hdepth hmessage hreg hrival hgate with h | ⟨hactive, hau, hname, hroute⟩
            · exact .inr (.inl ((hadd.then h).then (.modify _ i fun _ => rfl)))
            · rw [hroute]
              rw [hsil.get Session.isActive (fun _ => rfl) i] at hactive
              rw [hsil.get Session.authenticated (fun _ => rfl) i] at hau
              exact .inr (.inr (.inr ⟨i, o, stanza, rfl, hd, hl, hactive, hau, hname, rfl⟩))
  · intro i o _ _
    rcases endChunk_announces srv i o with h | h
    · exact .inr (.inl h)
    · exact .inr (.inr (.inl ⟨i, o, h⟩))

end

end Xmppd.Notices
