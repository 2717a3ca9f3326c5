import Xmppd.Confinement
import Xmppd.Evolution

/-!
# Rosters that cannot be read

A roster file that is no roster is loaded as an empty one, and the next save
writes the empty roster, as far as it has been changed, over the file. What a
stanza saves is known from the state before it. A run of roster and presence
stanzas leaves the file alone exactly if no stanza saves a roster under a name
that leads to it, or delivers it as a stored message.
-/
namespace Xmppd.Unreadable
open CStrings FileTree LibXml Util ServerState User Roster Message Presence Streams Auth Stanza EventLoop Frames
open RosterStore Offline RosterItems Evolution Confinement Installation

/-- Content that is no document with a roster. -/
def NoRoster (c : Content) : Prop := ∀ root, c = .xml root → root.name ≠ "roster"

/-- Such content is loaded as an empty roster. -/
theorem NoRoster.items {c : Content} (h : NoRoster c) : (loadContent (some c)).items = [] := by
  cases c with
  | xml root => exact if_neg (h root rfl)
  | text s => rfl

theorem NoRoster.ne_saveContent {c : Content} (h : NoRoster c) (r : Roster) : c ≠ saveContent r :=
  fun he => h _ he rfl

/-! ## What is removed -/

/-- The files that the delivery of stored messages removes. -/
def delivered (srv : Server) (i : ℕ) : List Path :=
  let dir := offlineDir srv.cfg (srv.sess i).jidLocal.str
  let names := offlineNames srv dir
  (sortNames names.length names).filterMap fun n => locate srv (fileIn dir n)

theorem content_messageDeliverOffline (srv : Server) (i : ℕ) (q : Path) :
    (messageDeliverOffline srv i).files.content q = if q ∈ delivered srv i then none else srv.files.content q := by
  have key : ∀ (dir : Str) (names : List Str) (a : Server), SamePlaces srv a →
      (names.foldl (deliverOne i dir) a).files.content q =
        if q ∈ names.filterMap fun n => locate srv (fileIn dir n) then none else a.files.content q := by
    intro dir names
    induction names with
    | nil => exact fun a _ => rfl
    | cons n ns ih =>
        intro a ha
        rw [List.foldl_cons, ih _ (ha.trans (samePlaces_deliverOne i dir a n)), content_deliverOne, ha.locate]
        by_cases hn : locate srv (fileIn dir n) = some q
        · rw [if_pos hn, ite_self, if_pos (List.mem_filterMap.mpr ⟨n, List.mem_cons_self, hn⟩)]
        · rw [if_neg hn]
          simp only [List.mem_filterMap, List.mem_cons, exists_eq_or_imp, hn, false_or]
  exact key _ _ srv (.refl srv)

/-! ## What is saved -/

/-- The address in the item of a roster set. -/
def itemJid (stanza : Node) : Option Str :=
  ((stanza.findChild "query").bind fun q => q.findChild "item").bind fun item => item.getProp "jid"

/-- A roster set that changes the roster. -/
def Sets (stanza : Node) : Prop := stanza.prop "type" = "set" ∧ (itemJid stanza).isSome = true

instance (stanza : Node) : Decidable (Sets stanza) := inferInstanceAs (Decidable (_ ∧ _))

/-- The names under which a stanza saves rosters. -/
def rosters (srv : Server) (i : ℕ) (o : Oracle) (stanza : Node) : List Str :=
  if stanza.name = "presence" then saved srv i o stanza
  else if Sets stanza then [(srv.sess i).jidLocal.str]
  else []

/-- A stanza that saves no roster under a name that leads to this file, and does
not have it delivered as a stored message. -/
def Avoids (p : Path) (srv : Server) (i : ℕ) (o : Oracle) (stanza : Node) : Prop :=
  (srv.sess i).isActive = true → (∀ name ∈ rosters srv i o stanza, p ∉ spots srv name) ∧
    (stanza.name = "presence" → stanza.prop "type" = [] → (srv.sess i).available = false → p ∉ delivered srv i)

instance (p : Path) (srv : Server) (i : ℕ) (o : Oracle) (stanza : Node) : Decidable (Avoids p srv i o stanza) :=
  inferInstanceAs (Decidable (_ → _ ∧ _))

/-- Roster queries and presence. -/
def Concerns (stanza : Node) : Prop := stanza.name = "presence" ∨ stanza.name = "iq" ∧ childNs stanza = rosterNs

section
variable {srv a : Server} {i : ℕ} {o : Oracle} {stanza : Node} {p : Path} {c : Content}

theorem content_saving {names : List Str} (h : Saving names srv a) (hc : srv.files.content p = some c) (hu : NoRoster c) :
    a.files.content p = some c ↔ ∀ name ∈ names, p ∉ spots srv name := by
  obtain ⟨l, hwrote, hl⟩ := h
  rcases hwrote.content p with ⟨hout, hsame⟩ | ⟨hin, r, hsaved⟩
  · rw [hsame, hc]
    exact iff_of_true rfl fun name hname hspot => hout ((hl p).mpr ⟨name, hname, hspot⟩)
  · rw [hsaved]
    obtain ⟨name, hname, hspot⟩ := (hl p).mp hin
    exact iff_of_false (fun he => hu.ne_saveContent r (Option.some.inj he).symm) fun hall => hall name hname hspot

theorem rosterHandleIq_saving (hl : srv.Live i) :
    Saving (if Sets stanza then [(srv.sess i).jidLocal.str] else []) srv (rosterHandleIq srv i o stanza) := by
  have hensure := Own.ensure hl
  generalize hnames : (if Sets stanza then [(srv.sess i).jidLocal.str] else []) = names
  have hquiet : ∀ b, Silent (ensureRoster srv i) b → ¬Sets stanza → Saving names srv b := by
    intro b hb hno
    rw [← hnames, if_neg hno]
    exact ⟨[], hensure.toWrote.then_silent hb, by simp⟩
  have hsave : ∀ f b, Silent (rosterSave (modifyRoster (ensureRoster srv i) i f) i) b → Sets stanza →
      Saving names srv b := by
    intro f b hb hsets
    rw [← hnames, if_pos hsets]
    exact ⟨_, (hensure.edit hl f).toWrote.then_silent hb, by simp⟩
  unfold rosterHandleIq
  dsimp only
  split
  · next hget =>
    refine hquiet _ (.stanzaSend _ i _) fun hsets => ?_
    rw [hsets.1] at hget
    revert hget
    decide
  split
  · next hset =>
    split
    · next hnone =>
      refine hquiet _ (.stanzaSendError _ i _ _ _) fun hsets => ?_
      have hjid := hsets.2
      rw [itemJid, hnone] at hjid
      cases hjid
    · next item hitem =>
      split
      · next hnone =>
        refine hquiet _ (.stanzaSendError _ i _ _ _) fun hsets => ?_
        have hjid := hsets.2
        rw [itemJid, hitem, Option.bind_some, hnone] at hjid
        cases hjid
      · next jid hjid =>
        have hsets : Sets stanza := by
          refine ⟨hset, ?_⟩
          rw [itemJid, hitem, Option.bind_some, hjid]
          rfl
        split
        · exact hsave _ _ ((Silent.stanzaSend _ i _).trans (silent_rosterPush _ i _ _)) hsets
        · split
          · exact hsave _ _ ((Silent.stanzaSend _ i _).trans (silent_rosterPush _ i _ _)) hsets
          · exact hsave _ _ (.stanzaSend _ i _) hsets
  · next hset => exact hquiet _ (.stanzaSendError _ i _ _ _) fun hsets => hset hsets.1

theorem files_ensureRoster (srv : Server) (i : ℕ) : (ensureRoster srv i).files = srv.files := by
  unfold ensureRoster
  split <;> rfl

theorem delivered_congr (h : Steady srv a) (hf : a.files = srv.files) : delivered a i = delivered srv i := by
  have hj : (a.sess i).jidLocal = (srv.sess i).jidLocal := h.get Session.jidLocal (fun _ => rfl) i
  unfold delivered offlineNames listDir locate
  rw [hf, h.cfg, hj]

theorem content_redeliver (srv : Server) (i : ℕ) :
    (presenceRedeliverPendingSubscribes srv i).files = srv.files :=
  (Silent.foldl (silent_redeliverPending i) srv.sessions srv).files

/-- Available presence removes the stored messages the first time. -/
theorem content_presenceHandleAvailable :
    (presenceHandleAvailable srv i o stanza).files.content p =
      if (srv.sess i).available = false ∧ p ∈ delivered srv i then none else srv.files.content p := by
  unfold presenceHandleAvailable
  dsimp only
  generalize stanza.setProp "from" (srv.sess i).fullJid.str = pres
  generalize hb : exchangePresence (ensureRoster (srv.modify i fun s =>
    { s with available := true, presenceStanza := some pres }) i) i o pres = b
  have hsilent : Silent (ensureRoster (srv.modify i fun s =>
      { s with available := true, presenceStanza := some pres }) i) b := hb ▸ silent_exchangePresence _ i o pres
  have hfiles : b.files = srv.files := hsilent.files.trans (files_ensureRoster _ i)
  have hmark : Steady srv (srv.modify i fun s => { s with available := true, presenceStanza := some pres }) :=
    .modify srv i fun _ => rfl
  have hsteady : Steady srv b := (hmark.trans (steady_ensureRoster _ i)).trans hsilent.steady
  cases havailable : (srv.sess i).available with
  | true => simp [hfiles]
  | false =>
      have hsent : Steady srv (b.modify i fun s => { s with initialPresenceSent := true }) :=
        hsteady.trans (.modify b i fun _ => rfl)
      have hdelivered := delivered_congr (i := i) hsent hfiles
      simp only [Bool.not_false, if_true, deliverInitial]
      rw [content_redeliver, content_messageDeliverOffline, hdelivered]
      change (if _ then none else b.files.content p) = _
      rw [hfiles]
      simp

/-! ## One stanza -/

/-- A session that is not bound gets an error. -/
theorem files_inactive (h : (srv.sess i).isActive = false) (hs : Concerns stanza) :
    (stanzaRoute srv i o stanza).files = srv.files := by
  have hsend : ∀ condition, (streamSendError srv i o condition).files = srv.files :=
    fun condition => (streamSendError_flow srv i o tame_later condition).files
  have herror : ∀ type condition, (srv.stanzaSendError i stanza type condition).files = srv.files :=
    fun type condition => (Silent.stanzaSendError srv i stanza type condition).files
  unfold stanzaRoute
  split
  · unfold routeBeforeAuth
    rcases hs with hname | ⟨hname, hroster⟩
    · rw [hname, if_neg fun hauth => absurd hauth.1 (by decide), if_neg (by decide)]
      exact hsend _
    · rw [hname, hroster, if_neg fun hauth => absurd hauth.1 (by decide), if_pos rfl, if_neg (by decide)]
      exact herror _ _
  · rcases hs with hname | ⟨hname, hroster⟩
    · rw [hname, if_neg (by decide), if_neg (by decide), if_pos rfl, h, if_neg (by decide)]
      exact hsend _
    · rw [hname, if_pos rfl]
      unfold handleIq whenActive
      dsimp only
      rw [hroster, h]
      split
      · exact (silent_routeReply srv i o stanza).files
      · rw [if_neg (by decide), if_neg (by decide), if_pos rfl, if_neg (by decide)]
        exact herror _ _

theorem route_content (hs : Concerns stanza) (hc : srv.files.content p = some c) (hu : NoRoster c) :
    (stanzaRoute srv i o stanza).files.content p = some c ↔ Avoids p srv i o stanza := by
  cases hactive : (srv.sess i).isActive with
  | false =>
      rw [files_inactive hactive hs, hc]
      refine iff_of_true rfl ?_
      intro ha
      rw [hactive] at ha
      cases ha
  | true =>
      have hl := Server.live_of_isActive hactive
      unfold stanzaRoute Avoids rosters
      rw [if_neg (not_gated hactive), hactive]
      rcases hs with hname | ⟨hname, hroster⟩
      · rw [hname, if_neg (by decide), if_neg (by decide), if_pos rfl, if_pos rfl, if_pos rfl]
        by_cases htype : stanza.prop "type" = []
        · have hsaved : saved srv i o stanza = [] := by
            unfold saved
            rw [htype, if_neg (by decide), if_neg (by decide), if_neg (by decide)]
          unfold handlePresence
          dsimp only
          rw [if_pos htype, content_presenceHandleAvailable, hsaved, hc]
          constructor
          · intro h _
            refine ⟨by simp, ?_⟩
            intro _ _ hfirst hmem
            rw [if_pos ⟨hfirst, hmem⟩] at h
            cases h
          · intro h
            exact if_neg fun hgone => (h rfl).2 rfl htype hgone.1 hgone.2
        · rw [content_saving (handlePresence_saving hl htype) hc hu]
          exact ⟨fun h _ => ⟨h, fun _ ht => absurd ht htype⟩, fun h => (h rfl).1⟩
      · have hpresence : ¬(("iq" : Str) = "presence") := by decide
        rw [hname, if_pos rfl, if_neg hpresence]
        unfold handleIq whenActive
        dsimp only
        rw [hroster, hactive]
        split
        · next hreply =>
          have hno : ¬Sets stanza := by
            intro hsets
            rw [hsets.1] at hreply
            revert hreply
            decide
          rw [(silent_routeReply srv i o stanza).files, hc, if_neg hno]
          exact iff_of_true rfl fun _ => ⟨by simp, fun hp => absurd hp hpresence⟩
        · rw [if_neg (by decide), if_neg (by decide), if_pos rfl, if_pos rfl,
            content_saving (rosterHandleIq_saving hl) hc hu]
          exact ⟨fun h _ => ⟨h, fun hp => absurd hp hpresence⟩, fun h => (h rfl).1⟩

end

/-! ## Runs -/

/-- A stanza of a session, with what its handling draws from outside. -/
structure Request where
  session : ℕ
  oracle : Oracle
  stanza : Node

def handle (srv : Server) (q : Request) : Server := stanzaRoute srv q.session q.oracle q.stanza

/-- No stanza of the run touches the file. -/
def AllAvoid (p : Path) : Server → List Request → Prop
  | _, [] => True
  | srv, q :: qs => Avoids p srv q.session q.oracle q.stanza ∧ AllAvoid p (handle srv q) qs

instance allAvoidDecidable (p : Path) : (srv : Server) → (requests : List Request) → Decidable (AllAvoid p srv requests)
  | _, [] => isTrue trivial
  | srv, q :: qs => @instDecidableAnd _ _ _ (allAvoidDecidable p (handle srv q) qs)

/-- A file that is no roster keeps its content through a run of roster and presence
stanzas exactly if no stanza saves a roster under a name that leads to it, and none
has it delivered as a stored message. -/
theorem unreadable_kept_iff (requests : List Request) : ∀ (srv : Server) (p : Path) (c : Content),
    srv.files.content p = some c → NoRoster c → (∀ q ∈ requests, Concerns q.stanza) →
    ((∀ k ≤ requests.length, ((requests.take k).foldl handle srv).files.content p = some c) ↔ AllAvoid p srv requests) := by
  induction requests with
  | nil =>
      intro srv p c hc _ _
      simpa [AllAvoid] using hc
  | cons q qs ih =>
      intro srv p c hc hu hs
      have hone : (handle srv q).files.content p = some c ↔ Avoids p srv q.session q.oracle q.stanza :=
        route_content (hs q List.mem_cons_self) hc hu
      constructor
      · intro h
        have hstep := h 1 (by simp)
        refine ⟨hone.mp hstep, (ih _ p c hstep hu fun r hr => hs r (List.mem_cons_of_mem q hr)).mp ?_⟩
        intro k hk
        exact h (k + 1) (Nat.succ_le_succ hk)
      · intro h k hk
        cases k with
        | zero => exact hc
        | succ k =>
            exact (ih _ p c (hone.mpr h.1) hu fun r hr => hs r (List.mem_cons_of_mem q hr)).mpr h.2 k
              (Nat.le_of_succ_le_succ hk)

def bobRoster : Path := ["data".toList, "bob".toList, "roster.xml".toList]

/-- Bob's roster file is not a document. -/
def spoiled : Server := { aliceBound with files := aliceBound.files.put bobRoster (.file (.text "<roster")) }

def presenceTo (type dest : Str) : Request := ⟨0, exampleOracle, elem "presence" [attr "type" type, attr "to" dest] []⟩

set_option maxRecDepth 20000 in
/-- Alice's requests to bob do not touch bob's roster. -/
theorem request_keeps :
    (handle spoiled (presenceTo "subscribe" "bob@localhost")).files.content bobRoster = some (.text "<roster") ∧
      (handle (handle spoiled (presenceTo "subscribe" "bob@localhost"))
        (presenceTo "unsubscribe" "bob@localhost")).files.content bobRoster = some (.text "<roster") := by
  have hkept := (unreadable_kept_iff [presenceTo "subscribe" "bob@localhost", presenceTo "unsubscribe" "bob@localhost"] spoiled
    bobRoster (.text "<roster") (by decide +kernel) (fun _ h => Content.noConfusion h) (by
      intro q hq
      simp only [List.mem_cons, List.not_mem_nil, or_false] at hq
      rcases hq with rfl | rfl
      · exact Or.inl rfl
      · exact Or.inl rfl)).mpr (by decide +kernel)
  exact ⟨hkept 1 (by decide), hkept 2 (by decide)⟩

set_option maxRecDepth 20000 in
/-- Her approval of a request that bob never made replaces it. -/
theorem approval_replaces :
    ¬∀ (srv : Server) (username : Str) (p : Path) (c : Content) (requests : List Request), rosterFile srv username = some p →
      srv.files.content p = some c → NoRoster c → (∀ q ∈ requests, Concerns q.stanza) →
      (requests.foldl handle srv).files.content p = some c := by
  intro h
  have hkept := h spoiled "bob" bobRoster (.text "<roster") [presenceTo "subscribed" "bob@localhost"] (by decide +kernel)
    (by decide +kernel) (fun _ h => Content.noConfusion h) (by
      intro q hq
      rw [List.mem_singleton.mp hq]
      exact Or.inl rfl)
  revert hkept
  decide +kernel

end Xmppd.Unreadable
