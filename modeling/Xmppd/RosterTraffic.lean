import Xmppd.Coherence
import Xmppd.Evolution
import Xmppd.Installation

/-!
# Runs of logins, presence and roster requests

In runs without messages and registration a step either touches no roster and
no file, or it hands a presence stanza or a roster request of an active session
to its handler. The
caches stay in step with the disk as long as no handler changes a file on disk
that some session has loaded; that can happen because files are found by
localpart and sessions by the whole bare address.
-/
namespace Xmppd.RosterTraffic
open CStrings FileTree LibXml Util ServerState User Roster Message Presence Streams Auth Stanza EventLoop
open Frames Evolution RosterStore Offline RosterItems Coherence Installation

def RosterIq (stanza : Node) : Prop :=
  stanza.name = "iq" ∧ ¬(stanza.prop "type" = "result" ∨ stanza.prop "type" = "error") ∧
    childNs stanza = rosterNs

instance decidableRosterIq (stanza : Node) : Decidable (RosterIq stanza) := by
  unfold RosterIq
  infer_instance

/-- Anything but messages and registration, of a connection that is authenticated
or has still to pass the gate. -/
def Traffic (srv : Server) (i : ℕ) (stanza : Node) : Prop :=
  stanza.name ≠ "message" ∧ ¬(stanza.name = "iq" ∧ childNs stanza = registerNs) ∧
    ((srv.sess i).authenticated = true ∨ (srv.sess i).state = .streamOpened)

instance decidableTraffic (srv : Server) (i : ℕ) (stanza : Node) : Decidable (Traffic srv i stanza) := by
  unfold Traffic
  infer_instance

/-- A record whose roster, if it is loaded, was loaded before for the same user. -/
def Carries (s s' : Session) : Prop :=
  (s.roster.loaded = true → s.authenticated = true) → s'.roster.loaded = true →
    s'.roster = s.roster ∧ s'.jidLocal = s.jidLocal ∧ s'.authenticated = true

theorem Carries.of_eq {s s' : Session} (hr : s'.roster = s.roster) (hj : s'.jidLocal = s.jidLocal)
    (ha : s'.authenticated = s.authenticated) : Carries s s' := by
  intro hc hl
  rw [hr] at hl
  exact ⟨hr, hj, ha.trans (hc hl)⟩

theorem loose_carries : Loose Carries where
  trans r s t hrs hst := by
    intro hc hl
    have hs : s.roster.loaded = true → s.authenticated = true := fun h => (hrs hc h).2.2
    obtain ⟨h₁, h₂, h₃⟩ := hst hs hl
    obtain ⟨h₄, h₅, -⟩ := hrs hc (h₁ ▸ hl)
    exact ⟨h₁.trans h₄, h₂.trans h₅, h₃⟩
  held s s' h := .of_eq (holding.get Session.roster (fun _ => rfl) h)
    (holding.get Session.jidLocal (fun _ => rfl) h) (holding.get Session.authenticated (fun _ => rfl) h)
  opened _ := .of_eq rfl rfl rfl
  returned _ := .of_eq rfl rfl rfl
  bound _ _ := .of_eq rfl rfl rfl
  started _ := .of_eq rfl rfl rfl

theorem identifies_carries (domain : Buf 256) : Identifies domain Carries := by
  intro s l ha hc hl
  rw [hc hl] at ha
  cases ha

/-- A step that leaves the files alone and the caches in step with them. -/
structure Untouched (srv srv' : Server) : Prop where
  cfg : srv'.cfg = srv.cfg
  files : srv'.files = srv.files
  synced : Synced srv'

theorem rosterLoadForUser_congr {a b : Server} (hc : b.cfg = a.cfg) (hf : b.files = a.files) (u : Str) :
    rosterLoadForUser b u = rosterLoadForUser a u := by
  unfold rosterLoadForUser readFile locate
  rw [hc, hf]

theorem Untouched.of_evolves {a b : Server} (hy : Synced a) (hc : b.cfg = a.cfg) (hf : b.files = a.files)
    (he : ∀ s' ∈ b.sessions, s'.roster.loaded = true → ∃ s ∈ a.sessions, Carries s s') :
    Untouched a b := by
  refine ⟨hc, hf, ⟨?_, ?_⟩⟩
  · intro s' hs' hl
    obtain ⟨s, hs, hR⟩ := he s' hs' hl
    exact (hR (hy.closed s hs) hl).2.2
  · intro s' hs' hl
    obtain ⟨s, hs, hR⟩ := he s' hs' hl
    obtain ⟨h₁, h₂, -⟩ := hR (hy.closed s hs) hl
    rw [h₁, h₂, rosterLoadForUser_congr hc hf]
    exact hy.coherent s hs (h₁ ▸ hl)

theorem Untouched.of_flow {a b : Server} (hy : Synced a) (h : Flow Carries a b) : Untouched a b := by
  refine .of_evolves hy h.cfg h.files ?_
  intro s' hs' _
  obtain ⟨s, hs, -, hR⟩ := h.evolves s' hs'
  exact ⟨s, hs, hR⟩

theorem Untouched.accept {srv : Server} (hy : Synced srv) : Untouched srv srv.serverAccept := by
  refine .of_evolves hy ?_ ?_ ?_
  · unfold Server.serverAccept
    split <;> rfl
  · unfold Server.serverAccept
    split <;> rfl
  · intro s' hs' hl
    obtain hs | rfl := Server.mem_serverAccept hs'
    · exact ⟨s', hs, .of_eq rfl rfl rfl⟩
    · cases hl

/-- The handler of a presence stanza or a roster request. -/
def handleTraffic (srv : Server) (i : ℕ) (o : Oracle) (stanza : Node) : Server :=
  if stanza.name = "presence" then handlePresence srv i o stanza else rosterHandleIq srv i o stanza

/-- A presence stanza or a roster request of an active session. -/
structure Handled (srv : Server) (i : ℕ) (stanza : Node) : Prop where
  active : (srv.sess i).isActive = true
  authenticated : (srv.sess i).authenticated = true
  kind : RosterIq stanza ∨ stanza.name = "presence"

theorem routeBeforeAuth_traffic {srv : Server} {i : ℕ} (o : Oracle) {stanza : Node}
    (ha : (srv.sess i).authenticated = false) (ht : ¬(stanza.name = "iq" ∧ childNs stanza = registerNs)) :
    Flow Carries srv (routeBeforeAuth srv i o stanza) := by
  have hR := loose_carries.toTame
  unfold routeBeforeAuth
  split
  · exact authHandleSasl_flow srv i hR (identifies_carries _) stanza ha
  split
  · rename_i hn
    rw [if_neg fun h => ht ⟨hn, h⟩]
    exact .of_silent hR (.stanzaSendError srv i _ _ _)
  · exact streamSendError_flow srv i o hR _

theorem handleIq_traffic {srv : Server} {i : ℕ} (o : Oracle) {stanza : Node} (hn : stanza.name = "iq")
    (hau : (srv.sess i).authenticated = true) (ht : childNs stanza ≠ registerNs) :
    Flow Carries srv (handleIq srv i o stanza) ∨
      Handled srv i stanza ∧ handleIq srv i o stanza = handleTraffic srv i o stanza := by
  have hR := loose_carries.toTame
  have hsil : ∀ {srv'}, Silent srv srv' → Flow Carries srv srv' := fun h => .of_silent hR h
  have hactive : ∀ {srv'}, Silent srv srv' → Flow Carries srv (whenActive srv i stanza srv') := by
    intro srv' h
    unfold whenActive
    split
    · exact hsil h
    · exact hsil (.stanzaSendError srv i _ _ _)
  have hnp : stanza.name ≠ "presence" := by rw [hn]; decide
  unfold handleIq
  dsimp only
  split_ifs with hreq hb hs hr hd hi
  · exact Or.inl (hsil (silent_routeReply srv i o stanza))
  · exact Or.inl (sessionHandleBind_flow srv i o loose_carries stanza)
  · exact Or.inl (sessionHandleSessionIq_flow srv i loose_carries stanza)
  · unfold whenActive
    split
    · rename_i hact
      exact Or.inr ⟨⟨hact, hau, Or.inl ⟨hn, hreq, hr⟩⟩, by rw [handleTraffic, if_neg hnp]⟩
    · exact Or.inl (hsil (.stanzaSendError srv i _ _ _))
  · exact Or.inl (hactive (.stanzaSend srv i _))
  · exact Or.inl (hactive (.stanzaSend srv i _))
  · exact Or.inl (hsil (silent_routeUnknown srv i o stanza))

/-- Such a stanza touches no roster and no file, or is handed to its handler. -/
theorem stanzaRoute_traffic {srv : Server} {i : ℕ} (o : Oracle) {stanza : Node} (ht : Traffic srv i stanza) :
    Flow Carries srv (stanzaRoute srv i o stanza) ∨
      Handled srv i stanza ∧ stanzaRoute srv i o stanza = handleTraffic srv i o stanza := by
  have hR := loose_carries.toTame
  obtain ⟨hm, hreg, hor⟩ := ht
  unfold stanzaRoute
  split
  · rename_i hg
    exact Or.inl (routeBeforeAuth_traffic o (by simpa using hg.2) hreg)
  rename_i hg
  have hau : (srv.sess i).authenticated = true := by
    by_contra hn
    exact hg ⟨hor.resolve_left hn, by simpa using hn⟩
  split
  · rename_i hn
    exact handleIq_traffic o hn hau fun h => hreg ⟨hn, h⟩
  split
  · rename_i hp
    split
    · rename_i hact
      exact Or.inr ⟨⟨hact, hau, Or.inr hp⟩, by rw [handleTraffic, if_pos hp]⟩
    · exact Or.inl (streamSendError_flow srv i o hR _)
  · exact Or.inl (streamSendError_flow srv i o hR _)

/-- A step of such a run touches nothing, or hands a stanza to its handler. -/
theorem step_traffic {srv : Server} (hy : Synced srv) (e : Step) :
    OnStanza (fun srv i _ stanza => Traffic srv i stanza) srv e →
    Untouched srv (step srv e) ∨
      ∃ i o stanza, e = .sax i o .endElement ∧ dispatched (srv.sess i) = some stanza ∧ srv.Live i ∧
        Handled (addDepth srv i (-1)) i stanza ∧
        step srv e = (handleTraffic (addDepth srv i (-1)) i o stanza).modify i
          fun s => { s with building := [] } := by
  have hR := loose_carries.toTame
  refine step_cases (P := fun e srv' => OnStanza (fun srv i _ stanza => Traffic srv i stanza) srv e →
    Untouched srv srv' ∨
      ∃ i o stanza, e = .sax i o .endElement ∧ dispatched (srv.sess i) = some stanza ∧ srv.Live i ∧
        Handled (addDepth srv i (-1)) i stanza ∧
        srv' = (handleTraffic (addDepth srv i (-1)) i o stanza).modify i
          fun s => { s with building := [] }) ?_ ?_ ?_ ?_ ?_ ?_ e
  · exact fun _ _ => Or.inl (.of_flow hy (.refl hR srv))
  · exact fun _ _ => Or.inl (Untouched.accept hy)
  · exact fun i o _ _ => Or.inl (.of_flow hy (sessionTeardown_flow srv i o hR))
  · intro i _ _
    exact Or.inl (.of_flow hy (.modify hR srv i fun s _ _ => .of_eq rfl rfl rfl))
  · intro i o sax hp ht
    have hl := live_of_parsing hp
    obtain hf | ⟨rfl, stanza, hd, he⟩ := callback_cases srv i o hR hl sax
    · exact Or.inl (.of_flow hy hf)
    obtain hf | ⟨hh, hr⟩ := stanzaRoute_traffic o (ht stanza hd)
    · left
      rw [he]
      have hb : Flow Carries srv (stanzaRoute (addDepth srv i (-1)) i o stanza) :=
        (Flow.of_silent hR (addDepth_silent srv i (-1))).trans hR hf
      exact .of_flow hy (hb.trans hR (.of_silent hR (.modify _ i fun _ => rfl)))
    · right
      rw [he, hr]
      exact ⟨i, o, stanza, rfl, hd, hl, hh, rfl⟩
  · exact fun i o _ _ => Or.inl (.of_flow hy (endChunk_flow srv i o hR))

/-! ## The caches stay in step -/

/-- The address in the `to` attribute, as the handlers read it. -/
def target (o : Oracle) (stanza : Node) : Jid := (jidParse (o.stack 0) (stanza.prop "to")).jid

/-- No handler changes a file that some session has loaded: initial presence
empties an offline directory that holds no loaded roster, and a subscription
stanza changes the roster its target has loaded or one that nobody has. -/
structure InStep (srv : Server) (i : ℕ) (o : Oracle) (stanza : Node) : Prop where
  initial : stanza.prop "type" = [] → (srv.sess i).available = false → OfflineApart srv i
  subscribed : stanza.prop "type" = "subscribed" →
    Reaches srv i (target o stanza) (setAsk false ∘ grantTo)
  unsubscribe : stanza.prop "type" = "unsubscribe" → Reaches srv i (target o stanza) dropFrom
  unsubscribed : stanza.prop "type" = "unsubscribed" →
    Reaches srv i (target o stanza) (setAsk false ∘ dropTo)

instance decidableInStep (srv : Server) (i : ℕ) (o : Oracle) (stanza : Node) :
    Decidable (InStep srv i o stanza) :=
  decidable_of_iff
    ((stanza.prop "type" = [] → (srv.sess i).available = false → OfflineApart srv i) ∧
      (stanza.prop "type" = "subscribed" → Reaches srv i (target o stanza) (setAsk false ∘ grantTo)) ∧
      (stanza.prop "type" = "unsubscribe" → Reaches srv i (target o stanza) dropFrom) ∧
      (stanza.prop "type" = "unsubscribed" → Reaches srv i (target o stanza) (setAsk false ∘ dropTo)))
    ⟨fun h => ⟨h.1, h.2.1, h.2.2.1, h.2.2.2⟩,
      fun h => ⟨h.initial, h.subscribed, h.unsubscribe, h.unsubscribed⟩⟩

theorem handlePresence_updated {srv : Server} {i : ℕ} (ho : Orderly srv) (hy : Synced srv)
    (hl : srv.Live i) (ha : (srv.sess i).authenticated = true) (o : Oracle) {stanza : Node}
    (hc : InStep srv i o stanza) : ∃ disk, Updated srv i disk (handlePresence srv i o stanza) := by
  unfold handlePresence
  dsimp only
  split
  · obtain ⟨disk, hu, -⟩ := presenceHandleAvailable_updated hy ha o stanza (hc.initial ‹_›)
    exact ⟨disk, hu⟩
  split
  · exact ⟨_, (presenceBroadcastUnavailable_updated hy ha o).silent (.modify _ i fun _ => rfl)⟩
  split
  · exact ⟨_, presenceHandleSubscribe_updated ho hy hl ha o _⟩
  split
  · obtain ⟨disk, hu, -⟩ := presenceHandleSubscribed_updated ho hy hl ha o _ (hc.subscribed ‹_›)
    exact ⟨disk, hu⟩
  split
  · obtain ⟨disk, hu, -⟩ := withdraw_updated ho hy hl ha o _ "unsubscribe"
      ((keepsJid_setAsk false).comp (keepsJid_moveSub _ _ _ _)) (hc.unsubscribe ‹_›)
    exact ⟨disk, hu⟩
  split
  · obtain ⟨disk, hu, -⟩ := withdraw_updated ho hy hl ha o _ "unsubscribed"
      (keepsJid_moveSub _ _ _ _)
      (hc.unsubscribed ‹_›)
    exact ⟨disk, hu⟩
  · exact ⟨_, .start hy i⟩

theorem handleTraffic_updated {srv : Server} {i : ℕ} (ho : Orderly srv) (hy : Synced srv)
    (hl : srv.Live i) (ha : (srv.sess i).authenticated = true) (o : Oracle) {stanza : Node}
    (hc : stanza.name = "presence" → InStep srv i o stanza) :
    ∃ disk, Updated srv i disk (handleTraffic srv i o stanza) := by
  unfold handleTraffic
  split
  · exact handlePresence_updated ho hy hl ha o (hc ‹_›)
  · exact ⟨_, rosterHandleIq_updated ho hy hl ha o stanza⟩

/-- A stanza of the run, where saves go through, no two sessions share a roster,
and the handlers meet no loaded file. -/
structure Coherent (srv : Server) (i : ℕ) (o : Oracle) (stanza : Node) : Prop where
  orderly : Orderly srv
  traffic : Traffic srv i stanza
  inStep : stanza.name = "presence" → InStep srv i o stanza

instance decidableCoherent (srv : Server) (i : ℕ) (o : Oracle) (stanza : Node) :
    Decidable (Coherent srv i o stanza) :=
  decidable_of_iff
    (Orderly srv ∧ Traffic srv i stanza ∧ (stanza.name = "presence" → InStep srv i o stanza))
    ⟨fun h => ⟨h.1, h.2.1, h.2.2⟩, fun h => ⟨h.orderly, h.traffic, h.inStep⟩⟩

theorem step_synced (srv : Server) (e : Step) (hy : Synced srv) (hc : OnStanza Coherent srv e) :
    Synced (step srv e) := by
  have ht : OnStanza (fun srv i _ stanza => Traffic srv i stanza) srv e :=
    hc.mono fun _ _ _ _ h => h.traffic
  obtain h | ⟨i, o, stanza, rfl, hd, hl, hh, he⟩ := step_traffic hy e ht
  · exact h.synced
  · have hc := hc stanza hd
    have hs := addDepth_silent srv i (-1)
    obtain ⟨disk, hu⟩ := handleTraffic_updated hc.orderly (hy.silent hs) ((hs.live i).mpr hl)
      hh.authenticated o hc.inStep
    rw [he]
    exact (hu.silent (.modify _ i (by intro s; rfl))).synced

/-- In every state a run reaches, every loaded roster is what a load would read. -/
theorem rosters_coherent (cfg : Config) (files : FileTree.Tree Content) (steps : List Step)
    (h : Meets (OnStanza Coherent) (Server.init cfg files) steps) :
    ∀ s ∈ (run (Server.init cfg files) steps).sessions, s.roster.loaded = true →
      s.roster = rosterLoadForUser (run (Server.init cfg files) steps) s.jidLocal.str := by
  refine (run_invariant step_synced steps _ ⟨?_, ?_⟩ h).coherent
  · exact fun s hs => absurd hs (by simp [Server.init])
  · exact fun s hs => absurd hs (by simp [Server.init])

/-- Alice and bob log in, bob adds alice to his roster, and alice approves a
subscription of the given address. -/
def approval (dest : Str) : List Step :=
  .accept :: login 0 alicePlain ++ .accept :: login 1 bobPlain ++
    chunk 1 (rosterSet [attr "jid" "alice@localhost"]) ++
    chunk 0 (emptyStanza "presence" [attr "type" "subscribed", attr "to" dest])

set_option maxRecDepth 20000 in
theorem approval_coherent :
    (∀ s ∈ (run exampleServer (approval "bob@localhost")).sessions, s.roster.loaded = true →
      s.roster = rosterLoadForUser (run exampleServer (approval "bob@localhost")) s.jidLocal.str) ∧
      (run exampleServer (approval "bob@localhost")).sessions.map (fun s => s.roster.items.map
        fun item => (item.jid.str, item.subscription.str)) =
        [[("bob@localhost".toList, "from".toList)], [("alice@localhost".toList, "to".toList)]] :=
  ⟨rosters_coherent _ _ (approval "bob@localhost") (by decide +kernel), by decide +kernel⟩

set_option maxRecDepth 20000 in
/-- The address of another domain leads to bob's file and past bob's session. -/
theorem cache_goes_stale :
    ¬∀ cfg files steps,
      Meets (OnStanza fun srv i _ stanza => Orderly srv ∧ Traffic srv i stanza) (Server.init cfg files) steps →
        ∀ s ∈ (run (Server.init cfg files) steps).sessions, s.roster.loaded = true →
          s.roster = rosterLoadForUser (run (Server.init cfg files) steps) s.jidLocal.str := by
  intro h
  have hs := h exampleConfig (dataDirectory exampleAccounts) (approval "bob@elsewhere") (by decide +kernel)
  revert hs
  decide +kernel

end Xmppd.RosterTraffic
