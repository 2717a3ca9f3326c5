import Xmppd.Subscriptions
import Xmppd.Silence

/-!
# Removing a contact

A roster set with subscription `remove` erases the contact's entry from the own
roster and leaves the contact's roster as it is. If the contact's roster had no
direction for the user either, the two are severed: neither sees anything of the
other's presence until one of them approves a subscription of the other.
-/
namespace Xmppd.Removal
open CStrings FileTree LibXml Util ServerState User Roster Message Presence Streams Auth Stanza EventLoop
open Frames Evolution RosterStore Offline RosterItems Coherence RosterTraffic Accounts Entries Grants Installation
open Subscriptions Silence

/-- Session `i` belongs to the user. -/
structure LoggedIn (srv : Server) (i : ℕ) (a : Username) : Prop where
  live : srv.Live i
  authenticated : (srv.sess i).authenticated = true
  name : (srv.sess i).jidLocal.str = a.str

def OneEach (srv : Server) : Prop :=
  ∀ s ∈ srv.sessions, ∀ t ∈ srv.sessions, s.authenticated = true → t.authenticated = true →
    s.jidLocal = t.jidLocal → s.id = t.id

/-- Neither an available presence nor a login of `a` has anything to do with the
presence of `b`. -/
structure Silenced (srv : Server) (a b : Username) : Prop where
  available : ∀ i t, LoggedIn srv i a → LoggedIn srv t b → ∀ o stanza,
    Quiet i t (fun srv => presenceHandleAvailable srv i o stanza) srv
  authenticate : ∀ i t, i ≠ t → ∀ stanza, Quiet i t (fun srv => authHandleSasl srv i stanza) srv
  bind : OneEach srv → ∀ i t, LoggedIn srv i a → LoggedIn srv t b → ∀ o stanza,
    Quiet i t (fun srv => sessionHandleBind srv i o stanza) srv
  session : ∀ i t, LoggedIn srv i a → LoggedIn srv t b → ∀ stanza,
    Quiet i t (fun srv => sessionHandleSessionIq srv i stanza) srv

theorem LoggedIn.ne {srv : Server} {i t : ℕ} {a b : Username} (hi : LoggedIn srv i a) (ht : LoggedIn srv t b)
    (hab : a ≠ b) : i ≠ t := by
  rintro rfl
  exact hab (Username.ext_str (hi.name.symm.trans ht.name))

/-- An item with a direction leads to the session of a user the ledger links. -/
theorem leadsElsewhere_of_severed {srv : Server} (h : InOrder srv) {a b : Username}
    (hs : Severed (ledger srv) a b) {t : ℕ} (ht : LoggedIn srv t b) {item : RosterItem}
    (hm : item ∈ (rosterLoadForUser srv a.str).items) :
    LeadsElsewhere t subHasFrom srv item ∧ LeadsElsewhere t subHasTo srv item := by
  have key : linkOf item ≠ Link.bare → (∃ buf, contactOf srv buf item = some t) →
      ledger srv a b = some (linkOf item) := by
    rintro hl ⟨buf, hc⟩
    obtain ⟨hd, v, hv⟩ := (h.tidy a).placed item hm hl
    rw [contactOf_local hd hv] at hc
    have hvb : v = b := Username.ext_str ((find_user h.home hc).2.2.symm.trans ht.name)
    have he := (h.tidy a).entry_of_mem hm hl
    rw [hv, hvb] at he
    exact he
  constructor
  · intro hf buf hc
    have hl : linkOf item ≠ Link.bare := by
      intro hb
      have := congrArg Link.admits hb
      rw [linkOf, hf] at this
      cases this
    exact hs.admits ⟨linkOf item, key hl ⟨buf, hc⟩, hf⟩
  · intro hf buf hc
    have hl : linkOf item ≠ Link.bare := by
      intro hb
      have := congrArg Link.follows hb
      rw [linkOf, hf] at this
      cases this
    exact hs.follows ⟨linkOf item, key hl ⟨buf, hc⟩, hf⟩

theorem silenced_of_severed {srv : Server} (h : InOrder srv) {a b : Username} (hab : a ≠ b)
    (hs : Severed (ledger srv) a b) : Silenced srv a b where
  available i t hi ht o stanza := by
    refine (misses_presenceHandleAvailable (hi.ne ht hab) o stanza ?_).quiet (hi.ne ht hab)
    intro pres item hm
    have hu : Updated srv i (rosterLoadForUser srv) (ensureRoster (srv.modify i fun s =>
        { s with available := true, presenceStanza := some pres }) i) :=
      ((Updated.start h.synced i).silent (.modify srv i (by intro s; rfl))).ensure hi.authenticated
    have hlive : (srv.modify i fun s => { s with available := true, presenceStanza := some pres }).Live i :=
      (Server.modify_live srv i i _).mpr hi.live
    rw [hu.cached hi.live (Updated.ensure_loaded hlive), hi.name] at hm
    exact leadsElsewhere_of_severed h hs ht hm
  authenticate i t hne stanza := (misses_authHandleSasl hne stanza).quiet hne
  bind hone i t hi ht o stanza := by
    refine (misses_sessionHandleBind (hi.ne ht hab) o stanza ?_).quiet (hi.ne ht hab)
    intro c hc
    rw [bareJid_user h.home hi.live hi.authenticated hi.name] at hc
    obtain ⟨hl, hau, hn⟩ := find_user h.home hc
    obtain ⟨hcm, hcid⟩ := Server.sess_mem hl
    obtain ⟨him, hiid⟩ := Server.sess_mem hi.live
    have := hone _ hcm _ him hau hi.authenticated (Buf.ext (hn.trans hi.name.symm))
    rwa [hcid, hiid] at this
  session i t hi ht stanza := (misses_sessionHandleSessionIq (hi.ne ht hab) stanza).quiet (hi.ne ht hab)

/-! ## The removal -/

/-- The next end of an element completes a roster set of `a` that removes `b`. -/
structure Removes (srv : Server) (i : ℕ) (a b : Username) (stanza : Node) : Prop where
  running : srv.crashed = false ∧ parsing srv i = true
  dispatched : dispatched (srv.sess i) = some stanza
  active : (srv.sess i).isActive = true
  authenticated : (srv.sess i).authenticated = true
  name : (srv.sess i).jidLocal.str = a.str
  request : RosterIq stanza
  removed : removedJid stanza = some (bareOf srv.cfg b).str

instance decidableRemoves (srv : Server) (i : ℕ) (a b : Username) (stanza : Node) :
    Decidable (Removes srv i a b stanza) :=
  decidable_of_iff
    ((srv.crashed = false ∧ parsing srv i = true) ∧ EventLoop.dispatched (srv.sess i) = some stanza ∧
      (srv.sess i).isActive = true ∧ (srv.sess i).authenticated = true ∧
      (srv.sess i).jidLocal.str = a.str ∧ RosterIq stanza ∧
      removedJid stanza = some (bareOf srv.cfg b).str)
    ⟨fun h => ⟨h.1, h.2.1, h.2.2.1, h.2.2.2.1, h.2.2.2.2.1, h.2.2.2.2.2.1, h.2.2.2.2.2.2⟩,
      fun h => ⟨h.running, h.dispatched, h.active, h.authenticated, h.name, h.request, h.removed⟩⟩

theorem stanzaRoute_rosterIq {srv : Server} {i : ℕ} (o : Oracle) {stanza : Node}
    (hau : (srv.sess i).authenticated = true) (hact : (srv.sess i).isActive = true) (hr : RosterIq stanza) :
    stanzaRoute srv i o stanza = rosterHandleIq srv i o stanza := by
  obtain ⟨hn, hreq, hc⟩ := hr
  have hb : childNs stanza ≠ bindNs := by rw [hc]; decide
  have hs : childNs stanza ≠ sessionNs := by rw [hc]; decide
  unfold stanzaRoute handleIq
  simp only [hau, hn, hreq, hb, hs, Bool.not_true, Bool.false_eq_true, and_false, if_true, if_false]
  rw [if_pos hc, whenActive, if_pos hact]

theorem step_severs {srv : Server} (h : InOrder srv) {i : ℕ} (o : Oracle) {a b : Username} {stanza : Node}
    (hr : Removes srv i a b stanza) (hs : Setting (addDepth srv i (-1)) i stanza)
    (hclear : a = b ∨ ¬HasTo srv b a ∧ ¬HasFrom srv b a) :
    Severed (ledger (step srv (.sax i o .endElement))) a b := by
  have hsil := addDepth_silent srv i (-1)
  have hl := live_of_parsing hr.running.2
  have hau : ((addDepth srv i (-1)).sess i).authenticated = true :=
    (hsil.get Session.authenticated (fun _ => rfl) i).trans hr.authenticated
  have hact : ((addDepth srv i (-1)).sess i).isActive = true :=
    (hsil.get Session.isActive (fun _ => rfl) i).trans hr.active
  have hname : ((addDepth srv i (-1)).sess i).jidLocal.str = a.str := by
    rw [hsil.get Session.jidLocal (fun _ => rfl) i]
    exact hr.name
  have hstep : step srv (.sax i o .endElement) =
      (rosterHandleIq (addDepth srv i (-1)) i o stanza).modify i fun s => { s with building := [] } := by
    rw [← stanzaRoute_rosterIq o hau hact hr.request, ← onEndElementNs_dispatched srv i o hl hr.dispatched]
    simp only [step, hr.running, Bool.false_eq_true, if_false, if_true]
    rfl
  obtain ⟨disk, ops, hup, -, hops, hled⟩ := rosterHandleIq_erases hs (h.synced.silent hsil) h.tidy
    ((hsil.live i).mpr hl) hau hname o hr.removed
  have hup' := hup.silent (.modify _ i (f := fun s => { s with building := [] }) (by intro s; rfl))
  have hledger : ledger (step srv (.sax i o .endElement)) = ops.foldl apply (ledger srv) := by
    rw [hstep, ledger, funext hup'.stored, hup'.steady.cfg]
    exact hled
  rw [hasTo_iff h, hasFrom_iff h] at hclear
  have hsev := severed_erase hclear
  rw [hledger]
  rcases hops with rfl | rfl
  · exact hsev
  · have hnote : Severed (apply (apply (ledger srv) (.erase a b)) (.note a b)) a b :=
      apply_severed hsev (by simp) (by simp)
    exact hnote

/-! ## Afterwards -/

/-- No approval between the two users. -/
def NoApproval (a b : Username) (srv : Server) (i : ℕ) (stanza : Node) : Prop :=
  stanza.name = "presence" → stanza.prop "type" = "subscribed" →
    ¬((srv.sess i).jidLocal.str = a.str ∧ addressee srv.cfg (stanza.prop "to") = some b) ∧
      ¬((srv.sess i).jidLocal.str = b.str ∧ addressee srv.cfg (stanza.prop "to") = some a)

instance (a b : Username) (srv : Server) (i : ℕ) (stanza : Node) : Decidable (NoApproval a b srv i stanza) := by
  unfold NoApproval
  infer_instance

theorem step_severed (a b : Username) (srv : Server) (e : Step)
    (h : InOrder srv ∧ Severed (ledger srv) a b)
    (hs : OnStanza (fun srv i _ stanza => Setting srv i stanza ∧ NoApproval a b srv i stanza) srv e) :
    InOrder (step srv e) ∧ Severed (ledger (step srv e)) a b := by
  obtain ⟨hi, -, ops, hops, hl⟩ := step_booked h.1 (hs.mono fun _ _ _ _ h => h.1)
  refine ⟨hi, ?_⟩
  rw [hl]
  refine foldl_severed h.2 ?_
  intro op hm
  have hno : ∀ {x y}, Causes srv e (.accept x y) → (x = a ∧ y = b ∨ x = b ∧ y = a) → False := by
    rintro x y ⟨i, o, stanza, z, rfl, hd, hu, -, rfl, hp, ht, hb⟩ hor
    have hn := (hs stanza hd).2 hp ht
    rw [(addDepth_silent srv i (-1)).get Session.jidLocal (fun _ => rfl) i] at hn
    rcases hor with ⟨rfl, rfl⟩ | ⟨rfl, rfl⟩
    · exact hn.1 ⟨hu, hb⟩
    · exact hn.2 ⟨hu, hb⟩
  constructor
  · rintro rfl
    exact hno (hops _ hm) (Or.inl ⟨rfl, rfl⟩)
  · rintro rfl
    exact hno (hops _ hm) (Or.inr ⟨rfl, rfl⟩)

theorem step_inOrder (srv : Server) (e : Step) (h : InOrder srv)
    (hs : OnStanza (fun srv i _ stanza => Setting srv i stanza) srv e) : InOrder (step srv e) :=
  (step_booked h hs).1

/-- Alice starts to remove bob, up to the end of the request. -/
def removing : List Step :=
  .beginRead 0 :: ((rosterSet [attr "jid" "bob@localhost", attr "subscription" "remove"]).dropLast.map
    (Step.sax 0 exampleOracle))

def removalStanza : Node :=
  .element "iq" "jabber:client" [attr "type" "set", attr "id" "1"]
    [.element "query" "jabber:iq:roster" []
      [.element "item" "jabber:iq:roster" [attr "jid" "bob@localhost", attr "subscription" "remove"] []]]

/-- Alice has bob on her roster, without a subscription. -/
def plainContact : List Step :=
  .accept :: login 0 alicePlain ++ chunk 0 (rosterSet [attr "jid" "bob@localhost"]) ++ removing

/-- The end of the read, and bob's login with his initial presence. -/
def bobComes : List Step :=
  .endRead 0 exampleOracle :: .accept :: login 1 bobPlain ++ chunk 1 (emptyStanza "presence" [])

/-- Alice asked bob for a subscription and bob approved. -/
def subscribedContact : List Step :=
  .accept :: login 0 alicePlain ++ .accept :: login 1 bobPlain ++
    chunk 0 (emptyStanza "presence" [attr "type" "subscribe", attr "to" "bob@localhost"]) ++
    chunk 1 (emptyStanza "presence" [attr "type" "subscribed", attr "to" "alice@localhost"]) ++ removing

end Xmppd.Removal
