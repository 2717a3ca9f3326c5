import Xmppd.Confinement

/-!
# Pending subscription requests

A subscription request is kept in the roster of the user who made it. When a
session becomes available, the requests to it are looked for in the rosters of
the other sessions, as far as these have been loaded. What the session is sent is
known from the state before: the presence of contacts, the stored messages, and
the requests that are found.
-/
namespace Xmppd.PendingRequests
open CStrings FileTree LibXml Util ServerState User Roster Message Presence Streams Stanza EventLoop Frames
open RosterStore Offline Confinement Installation

/-- A subscribe presence from this address. -/
def Asks (sender : Str) (n : Node) : Prop :=
  n.name = "presence" ∧ n.getProp "type" = some "subscribe" ∧ n.getProp "from" = some sender

/-- Something is added to the output of session `i`, and a stanza that satisfies
`R` is among it exactly if `S` holds. -/
def Shows (R : Node → Prop) (i : ℕ) (S : Prop) (a b : Server) : Prop :=
  ∃ l : List Node, (b.sess i).out = (a.sess i).out ++ l.map Out.stanza ∧ ((∃ n ∈ l, R n) ↔ S)

/-- The record without the output. -/
def mute : View where
  see s := { s with out := [] }
  id _ := rfl

section
variable {R : Node → Prop} {i : ℕ} {S T : Prop} {srv a b c : Server}

theorem Shows.trans (hab : Shows R i S a b) (hbc : Shows R i T b c) : Shows R i (S ∨ T) a c := by
  obtain ⟨l, hl, hS⟩ := hab
  obtain ⟨m, hm, hT⟩ := hbc
  refine ⟨l ++ m, ?_, ?_⟩
  · rw [hm, hl, List.map_append, List.append_assoc]
  · rw [← hS, ← hT]
    simp only [List.mem_append, or_and_right, exists_or]

theorem Shows.congr (h : Shows R i S a b) (hST : S ↔ T) : Shows R i T a b := by
  obtain ⟨l, hl, hS⟩ := h
  exact ⟨l, hl, hS.trans hST⟩

theorem Shows.of_out (h : (b.sess i).out = (a.sess i).out) : Shows R i False a b :=
  ⟨[], by simpa using h, by simp⟩

theorem Shows.then_out (h : Shows R i S a b) (hc : (c.sess i).out = (b.sess i).out) : Shows R i S a c :=
  (h.trans (.of_out hc)).congr (or_false S).to_iff

theorem Shows.after_out (hb : (b.sess i).out = (a.sess i).out) (h : Shows R i S b c) : Shows R i S a c :=
  ((Shows.of_out hb).trans h).congr (false_or S).to_iff

theorem shows_stanzaSend (hl : a.Live i) (t : ℕ) (n : Node) : Shows R i (t = i ∧ R n) a (a.stanzaSend t n) := by
  by_cases ht : t = i
  · subst ht
    refine ⟨[n], ?_, by simp⟩
    change ((a.modify t _).sess t).out = _
    rw [Server.sess_modify_self hl]
    rfl
  · refine ⟨[], ?_, by simp [ht]⟩
    change ((a.modify t _).sess i).out = _
    rw [Server.sess_modify_of_ne _ _ _ _ (Ne.symm ht)]
    exact (List.append_nil _).symm

theorem mute_stanzaSend (srv : Server) (t : ℕ) (n : Node) : Same mute srv (srv.stanzaSend t n) := .modify srv t fun _ => rfl

/-- A step that sends to session `i` by a condition on what is not output. -/
def Sends (R : Node → Prop) (i : ℕ) (srv : Server) (f : Server → Server) (S : Prop) : Prop :=
  ∀ a, Same mute srv a → a.Live i → Shows R i S a (f a) ∧ Same mute a (f a)

theorem sends_foldl {α : Type} {f : Server → α → Server} {S : α → Prop} (h : ∀ x, Sends R i srv (fun a => f a x) (S x))
    (l : List α) : Sends R i srv (fun a => l.foldl f a) (∃ x ∈ l, S x) := by
  induction l with
  | nil => exact fun a _ _ => ⟨(Shows.of_out rfl).congr (by simp), .refl a⟩
  | cons x xs ih =>
      intro a ha hl
      obtain ⟨hx, hsame⟩ := h x a ha hl
      obtain ⟨hxs, hsame'⟩ := ih (f a x) (ha.trans hsame) ((hsame.live i).mpr hl)
      exact ⟨(hx.trans hxs).congr (by simp), hsame.trans hsame'⟩

theorem sends_rosterLoop {stack : ℕ → Jid} {body : Jid → Server → RosterItem → Server} {S : Jid → RosterItem → Prop}
    (h : ∀ buf item, Sends R i srv (fun a => body buf a item) (S buf item)) (items : List RosterItem) :
    ∀ k, Sends R i srv (rosterLoop stack body k items) (∃ j item, items[j]? = some item ∧ S (stack (k + j)) item) := by
  induction items with
  | nil => exact fun k a _ _ => ⟨(Shows.of_out rfl).congr (by simp), .refl a⟩
  | cons item items ih =>
      intro k a ha hl
      obtain ⟨hx, hsame⟩ := h (stack k) item a ha hl
      obtain ⟨hxs, hsame'⟩ := ih (k + 1) (body (stack k) a item) (ha.trans hsame) ((hsame.live i).mpr hl)
      refine ⟨(hx.trans hxs).congr ?_, hsame.trans hsame'⟩
      constructor
      · rintro (hs | ⟨j, item', hj, hs⟩)
        · exact ⟨0, item, rfl, hs⟩
        · refine ⟨j + 1, item', hj, ?_⟩
          rwa [← Nat.add_assoc, Nat.add_right_comm]
      · rintro ⟨j, item', hj, hs⟩
        cases j with
        | zero =>
            cases hj
            exact Or.inl hs
        | succ j =>
            refine Or.inr ⟨j, item', hj, ?_⟩
            rwa [Nat.add_right_comm, Nat.add_assoc]

end

/-- An address of a user of this server. -/
def address (srv : Server) (username : Str) : Str := (jidBare (snprintf 256 username) srv.cfg.domain).str

/-! ## The presence of contacts -/

theorem asks_type {sender : Str} {n : Node} (h : Asks sender n) : n.prop "type" ≠ [] := by
  rw [Node.prop, h.2.1]
  decide

theorem not_asks_pres {stanza : Node} (h : stanza.prop "type" = []) (sender v : Str) :
    ¬Asks sender (stanza.setProp "from" v) := by
  intro ha
  refine asks_type ha ?_
  rw [Node.prop, Node.getProp_setProp_of_ne stanza v (by decide)]
  exact h

section
variable {R : Node → Prop} {i : ℕ} {srv : Server}

theorem Sends.congr {f : Server → Server} {S T : Prop} (h : Sends R i srv f S) (hST : S ↔ T) : Sends R i srv f T :=
  fun a ha hl => ⟨(h a ha hl).1.congr hST, (h a ha hl).2⟩

theorem sends_id (srv : Server) : Sends R i srv id False := fun a _ _ => ⟨.of_out rfl, .refl a⟩

theorem sends_stanzaSend (t : ℕ) (n : Node) : Sends R i srv (fun a => a.stanzaSend t n) (t = i ∧ R n) :=
  fun a _ hl => ⟨shows_stanzaSend hl t n, mute_stanzaSend a t n⟩

theorem Same.contactOf {a : Server} (h : Same mute srv a) (buf : Jid) (item : RosterItem) :
    contactOf a buf item = contactOf srv buf item :=
  (h.weaken fun _ => rfl : Steady srv a).sessionFindByJid _

theorem sends_sendToContact {pres : Node} (hp : ¬R pres) (buf : Jid) (item : RosterItem) :
    Sends R i srv (fun a => sendToContact pres buf a item) False := by
  intro a ha hl
  unfold sendToContact
  dsimp only
  split
  · split
    · next contact _ =>
      have hs : Sends R i srv (fun b => b.stanzaSend contact pres) _ := sends_stanzaSend contact pres
      exact hs.congr (iff_false_intro fun h => hp h.2) a ha hl
    · exact sends_id srv a ha hl
  · exact sends_id srv a ha hl

/-- The presence of another session that a roster item leads to. -/
def Kept (R : Node → Prop) (srv : Server) (i : ℕ) (buf : Jid) (item : RosterItem) : Prop :=
  subHasTo item.subscription.str = true ∧ ∃ contact, contactOf srv buf item = some contact ∧ contact ≠ i ∧
    (srv.sess contact).available = true ∧ ∃ pres, (srv.sess contact).presenceStanza = some pres ∧ R pres

theorem sends_receiveFromContact (hown : ∀ pres, (srv.sess i).presenceStanza = some pres → ¬R pres) (buf : Jid)
    (item : RosterItem) : Sends R i srv (fun a => receiveFromContact i buf a item) (Kept R srv i buf item) := by
  intro a ha hl
  unfold receiveFromContact Kept
  dsimp only
  split
  · next hto =>
    rw [Same.contactOf ha]
    split
    · next contact hc =>
      have havailable := ha.get Session.available (fun _ => rfl) contact
      have hpres := ha.get Session.presenceStanza (fun _ => rfl) contact
      split
      · next pres h₁ h₂ =>
        have hkept : (srv.sess contact).presenceStanza = some pres := hpres ▸ h₂
        refine (sends_stanzaSend i pres).congr ?_ a ha hl
        constructor
        · intro h
          refine ⟨hto, contact, hc, ?_, havailable ▸ h₁, pres, hkept, h.2⟩
          intro hi
          exact hown pres (hi ▸ hkept) h.2
        · rintro ⟨-, other, hother, -, -, shown, hshown, hr⟩
          cases hc.symm.trans hother
          cases hkept.symm.trans hshown
          exact ⟨rfl, hr⟩
      · next hno =>
        refine (sends_id srv).congr ?_ a ha hl
        refine iff_of_false id ?_
        rintro ⟨-, c, hc', -, h₁, pres, h₂, -⟩
        cases hc.symm.trans hc'
        exact hno pres (havailable.trans h₁) (hpres.trans h₂)
    · next hc =>
      refine (sends_id srv).congr ?_ a ha hl
      rw [hc]
      simp
  · next hto =>
    refine (sends_id srv).congr ?_ a ha hl
    simp [hto]

/-- The two loops. -/
theorem sends_exchangePresence {pres : Node} (hp : ¬R pres)
    (hown : ∀ pres, (srv.sess i).presenceStanza = some pres → ¬R pres) (o : Oracle) :
    Sends R i srv (fun a => exchangePresence a i o pres)
      (∃ j item, (srv.sess i).roster.items[j]? = some item ∧ Kept R srv i (o.stack (2*j+1)) item) := by
  intro a ha hl
  have hitems := congrArg Roster.items (ha.get Session.roster (fun _ => rfl) i)
  have hsend : Sends R i srv (rosterLoop (fun k => o.stack (2*k)) (sendToContact pres) 0 (a.sess i).roster.items) _ :=
    sends_rosterLoop (sends_sendToContact hp) _ 0
  have hreceive : Sends R i srv (rosterLoop (fun k => o.stack (2*k+1)) (receiveFromContact i) 0
      (a.sess i).roster.items) _ := sends_rosterLoop (sends_receiveFromContact hown) _ 0
  have h₁ := hsend a ha hl
  have h₂ := hreceive _ (ha.trans h₁.2) ((h₁.2.live i).mpr hl)
  refine ⟨(h₁.1.trans h₂.1).congr ?_, h₁.2.trans h₂.2⟩
  rw [hitems]
  simp

end

/-! ## Stored messages -/

/-- A stored message of the user of session `i` that is delivered. -/
def Stored (R : Node → Prop) (srv : Server) (i : ℕ) : Prop :=
  ∃ name ∈ offlineNames srv (offlineDir srv.cfg (srv.sess i).jidLocal.str), ∃ n,
    readFile srv (fileIn (offlineDir srv.cfg (srv.sess i).jidLocal.str) name) = some (.xml n) ∧ R n

section
variable {R : Node → Prop} {i : ℕ} {srv : Server}

theorem shows_deliverOne (hl : srv.Live i) (dir name : Str) :
    Shows R i (∃ n, readFile srv (fileIn dir name) = some (.xml n) ∧ R n) srv (deliverOne i dir srv name) := by
  have hout : ∀ a path, ((unlink a path).sess i).out = (a.sess i).out := by
    intro a path
    obtain ⟨t, ht⟩ := filesOnly_unlink a path
    rw [ht]
    rfl
  unfold deliverOne
  dsimp only
  split
  · next n hn =>
    refine ((shows_stanzaSend hl i n).then_out (hout _ _)).congr ?_
    rw [hn]
    simp
  · next hno =>
    refine (Shows.of_out (hout srv _)).congr (iff_of_false id ?_)
    rintro ⟨n, hn, -⟩
    exact hno n hn

/-- A file that is read twice has been removed after the first time. -/
theorem readFile_deliverOne (dir name path : Str) :
    readFile (deliverOne i dir srv name) path =
      if locate srv (fileIn dir name) = locate srv path then none else readFile srv path := by
  unfold readFile
  rw [(samePlaces_deliverOne i dir srv name).locate]
  cases hp : locate srv path with
  | none => simp
  | some p => exact content_deliverOne i dir srv name p

theorem shows_deliver (dir : Str) (names : List Str) : ∀ a : Server, a.Live i →
    Shows R i (∃ name ∈ names, ∃ n, readFile a (fileIn dir name) = some (.xml n) ∧ R n) a
      (names.foldl (deliverOne i dir) a) := by
  induction names with
  | nil => exact fun a _ => (Shows.of_out rfl).congr (by simp)
  | cons name names ih =>
      intro a hl
      have hlive : (deliverOne i dir a name).Live i := ((holding_deliverOne i dir a name).live i).mpr hl
      refine ((shows_deliverOne hl dir name).trans (ih _ hlive)).congr ?_
      simp only [readFile_deliverOne, List.mem_cons, exists_eq_or_imp]
      constructor
      · rintro (h | ⟨other, hother, n, hn, hr⟩)
        · exact Or.inl h
        · split_ifs at hn
          exact Or.inr ⟨other, hother, n, hn, hr⟩
      · rintro (h | ⟨other, hother, n, hn, hr⟩)
        · exact Or.inl h
        · by_cases hsame : locate a (fileIn dir name) = locate a (fileIn dir other)
          · refine Or.inl ⟨n, ?_, hr⟩
            rw [← hn, readFile, readFile, hsame]
          · exact Or.inr ⟨other, hother, n, by rw [if_neg hsame, hn], hr⟩

theorem shows_messageDeliverOffline (hl : srv.Live i) : Shows R i (Stored R srv i) srv (messageDeliverOffline srv i) :=
  (shows_deliver _ _ srv hl).congr (by simp only [mem_sortNames, Stored])

end

/-! ## Requests in the rosters of other sessions -/

/-- A session with a localpart and a loaded roster, other than session `i`, holds a
request for the address of session `i`. -/
def Due (R : Node → Prop) (srv : Server) (i : ℕ) (t : Session) : Prop :=
  t.id ≠ i ∧ t.jidLocal.str ≠ [] ∧ t.roster.loaded = true ∧ ∃ item ∈ t.roster.items,
    item.askSubscribe = true ∧ item.jid = (srv.sess i).bareJid ∧
      R (subNode "subscribe" t.bareJid.str (srv.sess i).bareJid.str)

section
variable {R : Node → Prop} {i : ℕ} {srv : Server}

theorem sends_redeliverPending (t : Session) : Sends R i srv (fun a => redeliverPending i a t) (Due R srv i t) := by
  have hitem : ∀ item : RosterItem, Sends R i srv (fun a =>
      if item.askSubscribe ∧ item.jid = (a.sess i).bareJid then
        a.stanzaSend i (subNode "subscribe" t.bareJid.str (a.sess i).bareJid.str) else a)
      (item.askSubscribe = true ∧ item.jid = (srv.sess i).bareJid ∧
        R (subNode "subscribe" t.bareJid.str (srv.sess i).bareJid.str)) := by
    intro item a ha hl
    dsimp only
    rw [ha.get Session.bareJid (fun _ => rfl) i]
    split
    · next hask =>
      refine (sends_stanzaSend i _).congr ?_ a ha hl
      exact ⟨fun h => ⟨hask.1, hask.2, h.2⟩, fun h => ⟨rfl, h.2.2⟩⟩
    · next hask => exact (sends_id srv).congr (iff_of_false id fun h => hask ⟨h.1, h.2.1⟩) a ha hl
  intro a ha hl
  unfold redeliverPending Due
  dsimp only
  split
  · next hskip =>
    refine (sends_id srv).congr (iff_of_false id ?_) a ha hl
    rintro ⟨hid, hlocal, hloaded, -⟩
    rcases hskip with h | h | h
    · exact hid h
    · exact hlocal h
    · rw [hloaded] at h
      cases h
  · next hscan =>
    simp only [not_or, Bool.not_eq_true', Bool.not_eq_false] at hscan
    refine (sends_foldl hitem t.roster.items).congr ?_ a ha hl
    exact ⟨fun h => ⟨hscan.1, hscan.2.1, hscan.2.2, h⟩, fun h => h.2.2.2⟩

theorem shows_redeliver (hl : srv.Live i) :
    Shows R i (∃ t ∈ srv.sessions, Due R srv i t) srv (presenceRedeliverPendingSubscribes srv i) :=
  (sends_foldl (fun t => sends_redeliverPending t) srv.sessions srv (.refl srv) hl).1

end

/-! ## Initial presence -/

/-- The state in which the presence of session `i` is exchanged. -/
def marked (srv : Server) (i : ℕ) (pres : Node) : Server :=
  ensureRoster (srv.modify i fun s => { s with available := true, presenceStanza := some pres }) i

section
variable {srv : Server} {i : ℕ} (pres : Node)

theorem steady_marked : Steady srv (marked srv i pres) := by
  have hmark : Steady srv (srv.modify i fun s => { s with available := true, presenceStanza := some pres }) :=
    .modify srv i fun _ => rfl
  exact hmark.trans (steady_ensureRoster _ i)

theorem marked_files : (marked srv i pres).files = srv.files := by
  unfold marked ensureRoster
  split <;> rfl

theorem marked_self (hl : srv.Live i) : (marked srv i pres).sess i =
    { srv.sess i with id := i, available := true, presenceStanza := some pres, roster := ownRoster srv i } := by
  have hmark := Server.sess_modify_self hl fun s => { s with available := true, presenceStanza := some pres }
  unfold marked ensureRoster ownRoster
  rw [hmark]
  split
  · rw [hmark]
  · unfold rosterLoad
    rw [Server.sess_modify_self ((Server.modify_live srv i i _).mpr hl), hmark]
    rfl

theorem marked_of_ne {t : ℕ} (ht : t ≠ i) : (marked srv i pres).sess t = srv.sess t := by
  unfold marked ensureRoster
  split
  · exact Server.sess_modify_of_ne _ _ _ _ ht
  · unfold rosterLoad
    rw [Server.sess_modify_of_ne _ _ _ _ ht, Server.sess_modify_of_ne _ _ _ _ ht]

end

/-- Session `i` finds a stanza of this kind when it becomes available: the presence
of a contact, a stored message, or a request in a loaded roster. -/
def Found (R : Node → Prop) (srv : Server) (i : ℕ) (o : Oracle) : Prop :=
  (∃ j item, (ownRoster srv i).items[j]? = some item ∧ Kept R srv i (o.stack (2*j+1)) item) ∨
    Stored R srv i ∨ ∃ t ∈ srv.sessions, Due R srv i t

section
variable {R : Node → Prop} {srv a : Server} {i : ℕ} {o : Oracle} {stanza pres : Node}

theorem kept_marked (buf : Jid) (item : RosterItem) :
    Kept R (marked srv i pres) i buf item ↔ Kept R srv i buf item := by
  unfold Kept contactOf
  rw [(steady_marked pres).sessionFindByJid]
  refine and_congr_right fun _ => exists_congr fun contact => and_congr_right fun _ => and_congr_right fun hne => ?_
  rw [marked_of_ne pres hne]

theorem stored_congr (h : Steady srv a) (hf : a.files = srv.files) : Stored R a i ↔ Stored R srv i := by
  have hj : (a.sess i).jidLocal = (srv.sess i).jidLocal := h.get Session.jidLocal (fun _ => rfl) i
  unfold Stored offlineNames listDir readFile locate
  rw [hf, h.cfg, hj]

theorem due_marked : (∃ t ∈ (marked srv i pres).sessions, Due R srv i t) ↔ ∃ t ∈ srv.sessions, Due R srv i t := by
  have hlive : ∀ t, (marked srv i pres).Live t ↔ srv.Live t := (steady_marked pres).live
  constructor
  · rintro ⟨t, ht, hdue⟩
    have hsess := Server.sess_of_mem ht
    rw [marked_of_ne pres hdue.1] at hsess
    have hmem := (Server.sess_mem ((hlive t.id).mp (Server.live_of_mem ht))).1
    rw [hsess] at hmem
    exact ⟨t, hmem, hdue⟩
  · rintro ⟨t, ht, hdue⟩
    have hsess := Server.sess_of_mem ht
    rw [← marked_of_ne pres hdue.1] at hsess
    have hmem := (Server.sess_mem ((hlive t.id).mpr (Server.live_of_mem ht))).1
    rw [hsess] at hmem
    exact ⟨t, hmem, hdue⟩

/-- What session `i` is sent on initial presence is known from the state before. -/
theorem shows_presenceHandleAvailable (hl : srv.Live i) (hfirst : (srv.sess i).available = false)
    (hp : ¬R (stanza.setProp "from" (srv.sess i).fullJid.str)) :
    Shows R i (Found R srv i o) srv (presenceHandleAvailable srv i o stanza) := by
  unfold presenceHandleAvailable
  dsimp only
  rw [hfirst, Bool.not_false, if_pos rfl]
  generalize stanza.setProp "from" (srv.sess i).fullJid.str = pres at hp ⊢
  change Shows R i _ srv (deliverInitial (exchangePresence (marked srv i pres) i o pres) i)
  have hself := marked_self pres hl
  have hmarked : (marked srv i pres).Live i := ((steady_marked pres).live i).mpr hl
  have hown : ∀ kept, ((marked srv i pres).sess i).presenceStanza = some kept → ¬R kept := by
    intro kept hkept
    rw [hself] at hkept
    exact Option.some.inj hkept ▸ hp
  obtain ⟨hloops, hmute⟩ := sends_exchangePresence hp hown o _ (.refl _) hmarked
  dsimp only at hloops hmute
  have hfiles : (exchangePresence (marked srv i pres) i o pres).files = srv.files :=
    (silent_exchangePresence _ i o pres).files.trans (marked_files pres)
  generalize exchangePresence (marked srv i pres) i o pres = b at hloops hmute hfiles ⊢
  have hholding : Same holding (marked srv i pres) (b.modify i fun s => { s with initialPresenceSent := true }) := by
    refine (hmute.weaken fun _ => rfl).trans (Same.modify b i ?_)
    intro s
    rfl
  have hsent : ((b.modify i fun s => { s with initialPresenceSent := true }).sess i).out = (b.sess i).out :=
    Server.sess_modify_congr Session.out b i i _ fun _ => rfl
  unfold deliverInitial
  dsimp only
  generalize hc : b.modify i (fun s => { s with initialPresenceSent := true }) = c at hholding hsent ⊢
  have hcfiles : c.files = srv.files := by
    rw [← hc]
    exact hfiles
  have hsteady : Steady srv c := (steady_marked pres).trans (hholding.weaken fun _ => rfl)
  have hlive : c.Live i := (hsteady.live i).mpr hl
  have hdeliver := holding_messageDeliverOffline c i
  have hstart : ((marked srv i pres).sess i).out = (srv.sess i).out := by rw [hself]
  have hsends := (((hloops.after_out hstart).then_out hsent).trans (shows_messageDeliverOffline hlive)).trans
    (shows_redeliver ((hdeliver.live i).mpr hlive))
  refine hsends.congr ?_
  rw [or_assoc]
  refine or_congr ?_ (or_congr (stored_congr hsteady hcfiles) ?_)
  · rw [hself]
    simp only [kept_marked]
  · have hbare : ((messageDeliverOffline c i).sess i).bareJid = (srv.sess i).bareJid :=
      (hsteady.trans (steady_messageDeliverOffline c i)).get Session.bareJid (fun _ => rfl) i
    have hdue : ∀ t, Due R (messageDeliverOffline c i) i t ↔ Due R srv i t := by
      intro t
      unfold Due
      rw [hbare]
    simp only [hdue]
    exact ((hholding.trans hdeliver).exists_mem (Due R srv i) fun _ => Iff.rfl).trans due_marked

end

/-! ## The requests that are waiting -/

/-- A user of this server asks for the presence of the user of session `i`, and is
not granted it: the request stands in his file or in a loaded roster of his. -/
def Waits (srv : Server) (i : ℕ) (username : Str) : Prop :=
  userExists srv username = true ∧ ∃ item : RosterItem, item.jid = (srv.sess i).bareJid ∧ item.askSubscribe = true ∧
    subHasTo item.subscription.str = false ∧ (item ∈ (rosterLoadForUser srv username).items ∨
      ∃ t ∈ srv.sessions, t.roster.loaded = true ∧ t.jidLocal.str = username ∧ item ∈ t.roster.items)

/-- A request from this address is added to what session `i` is sent. -/
def Told (sender : Str) (i : ℕ) (srv srv' : Server) : Prop :=
  ∃ n, Out.stanza n ∈ (srv'.sess i).out.drop (srv.sess i).out.length ∧ Asks sender n

theorem Shows.told {srv srv' : Server} {i : ℕ} {sender : Str} {S : Prop} (h : Shows (Asks sender) i S srv srv') :
    Told sender i srv srv' ↔ S := by
  obtain ⟨l, hl, hS⟩ := h
  unfold Told
  rw [hl, List.drop_left, ← hS]
  simp

/-- On its initial presence a session is told of every request that waits for it
exactly if each of them is in a loaded roster of another session at the address it
comes from, or is found among the stored messages or the presence of contacts. -/
theorem requests_told_iff (srv : Server) (i : ℕ) (o : Oracle) (stanza : Node) (hbound : (srv.sess i).isActive = true)
    (hname : stanza.name = "presence") (htype : stanza.prop "type" = []) (hfirst : (srv.sess i).available = false) :
    (∀ username, Waits srv i username → Told (address srv username) i srv (stanzaRoute srv i o stanza)) ↔
      ∀ username, Waits srv i username → Found (Asks (address srv username)) srv i o := by
  rw [stanzaRoute_initial hbound hname htype]
  refine forall_congr' fun username => imp_congr_right fun _ => ?_
  exact (shows_presenceHandleAvailable (Server.live_of_isActive hbound) hfirst (not_asks_pres htype _ _)).told

/-- Carol has asked for bob's presence and is not connected; bob has bound a resource. -/
def carolAsked : Server :=
  let request : Content := .xml (elem "roster" [] [elem "item"
    [attr "jid" "bob@localhost", attr "subscription" "none", attr "ask" "subscribe"] []])
  let srv := run exampleServer (.accept :: login 0 bobPlain)
  { srv with files := srv.files.put [("data" : Str), "carol", "roster.xml"] (.file request) }

def initialPresence : Node := elem "presence" [] []

set_option maxRecDepth 20000 in
theorem carol_told_iff :
    (∀ username, Waits carolAsked 0 username →
      Told (address carolAsked username) 0 carolAsked (stanzaRoute carolAsked 0 exampleOracle initialPresence)) ↔
      ∀ username, Waits carolAsked 0 username → Found (Asks (address carolAsked username)) carolAsked 0 exampleOracle :=
  requests_told_iff carolAsked 0 exampleOracle initialPresence (by decide +kernel) rfl (by decide) (by decide +kernel)

set_option maxRecDepth 20000 in
/-- Bob is not told of carol's request. -/
theorem carol_forgotten :
    ¬∀ (srv : Server) (i : ℕ) (o : Oracle) (stanza : Node), (srv.sess i).isActive = true → stanza.name = "presence" →
      stanza.prop "type" = [] → (srv.sess i).available = false → ∀ username, Waits srv i username →
        Told (address srv username) i srv (stanzaRoute srv i o stanza) := by
  intro h
  have hwaits : Waits carolAsked 0 "carol" := by
    refine ⟨by decide +kernel, ⟨snprintf 512 "bob@localhost", Buf.empty, snprintf 16 "none", true⟩, ?_, rfl, ?_, Or.inl ?_⟩
    · decide +kernel
    · decide +kernel
    · decide +kernel
  obtain ⟨n, hn, -⟩ := h carolAsked 0 exampleOracle initialPresence (by decide +kernel) rfl (by decide)
    (by decide +kernel) "carol" hwaits
  have hnothing : ((stanzaRoute carolAsked 0 exampleOracle initialPresence).sess 0).out.drop
      (carolAsked.sess 0).out.length = [] := by decide +kernel
  rw [hnothing] at hn
  cases hn

end Xmppd.PendingRequests
