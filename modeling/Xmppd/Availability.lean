import Xmppd.Informing

/-!
# Contacts see the right availability

In runs in which every user has at most one session, no item is removed from a
roster and subscriptions end where it is noticed, a session that has sent initial
presence has last heard of every user its own user follows what is stored for
him, if he is available, and nothing that says he is available otherwise.
-/
namespace Xmppd.Availability
open CStrings FileTree LibXml Util ServerState User Roster Message Presence Streams Auth Stanza EventLoop
open Frames Evolution Confinement Outputs Coherence Accounts Entries Grants Subscriptions RosterTraffic Installation
open LastWords Announcements Notices Voices Informing

/-! ## The ledger -/

section
variable {srv srv' : Server} {i : ℕ} {o : Oracle} {stanza : Node} {c d : Username}

theorem sameLinks_of_notes {ops : List (Op Username)} (hl : ledger srv' = ops.foldl apply (ledger srv))
    (hops : ∀ op ∈ ops, ∃ x y, op = .note x y) : SameLinks srv srv' := by
  unfold SameLinks
  rw [hl]
  generalize ledger srv = L
  clear hl
  induction ops generalizing L with
  | nil => exact fun _ _ => ⟨Iff.rfl, Iff.rfl⟩
  | cons op ops ih =>
      obtain ⟨p, q, rfl⟩ := hops op List.mem_cons_self
      intro x y
      obtain ⟨hf, had⟩ := ih (fun op hm => hops op (List.mem_cons_of_mem _ hm)) (apply L (.note p q)) x y
      rw [follows_note] at hf
      rw [admits_note] at had
      exact ⟨hf, had⟩

theorem ledger_updated {disk : Str → Roster} (h : Updated srv i disk srv') : ledger srv' = ledgerOf srv.cfg disk := by
  rw [ledger, h.steady.cfg, funext h.stored]

theorem sameLinks_of_booked (h : Booked srv i c stanza srv') (hname : stanza.name = "presence")
    (htype : stanza.prop "type" ≠ "subscribed" ∧ stanza.prop "type" ≠ "unsubscribe" ∧ stanza.prop "type" ≠ "unsubscribed") :
    SameLinks srv srv' := by
  obtain ⟨disk, ops, hup, -, hops, hled⟩ := h
  refine sameLinks_of_notes ((ledger_updated hup).trans hled) ?_
  intro op hm
  have hmeans := hops op hm
  cases op with
  | note x y => exact ⟨x, y, rfl⟩
  | accept x y => exact absurd hmeans.2.2.1 htype.1
  | leave x y => exact absurd hmeans.2.2.1 htype.2.1
  | expel x y => exact absurd hmeans.2.2.1 htype.2.2
  | erase x y =>
      have hiq := hmeans.2.1.1
      rw [hname] at hiq
      exact absurd hiq (by decide)

end

/-! ## Steps -/

/-- What is asked of the stanzas that the two users send each other: neither
unsubscribes, and the first is told when the second ends a subscription. -/
structure Gentle (a b : Username) (srv : Server) (i : ℕ) (stanza : Node) : Prop extends Additive srv i stanza where
  stays : stanza.name = "presence" → stanza.prop "type" = "unsubscribe" →
    ¬((srv.sess i).jidLocal.str = a.str ∧ addressee srv.cfg (stanza.prop "to") = some b) ∧
      ¬((srv.sess i).jidLocal.str = b.str ∧ addressee srv.cfg (stanza.prop "to") = some a)
  told : stanza.name = "presence" → stanza.prop "type" = "unsubscribed" → (srv.sess i).jidLocal.str = b.str →
    addressee srv.cfg (stanza.prop "to") = some a → ∀ s ∈ srv.sessions, s.authenticated = true → s.jidLocal.str = a.str → s.roster.loaded = true

set_option synthInstance.maxSize 400 in
instance decidableGentle (a b : Username) (srv : Server) (i : ℕ) (stanza : Node) : Decidable (Gentle a b srv i stanza) :=
  decidable_of_iff
    (Additive srv i stanza ∧ (stanza.name = "presence" → stanza.prop "type" = "unsubscribe" →
        ¬((srv.sess i).jidLocal.str = a.str ∧ addressee srv.cfg (stanza.prop "to") = some b) ∧
          ¬((srv.sess i).jidLocal.str = b.str ∧ addressee srv.cfg (stanza.prop "to") = some a)) ∧
      (stanza.name = "presence" → stanza.prop "type" = "unsubscribed" → (srv.sess i).jidLocal.str = b.str →
        addressee srv.cfg (stanza.prop "to") = some a → ∀ s ∈ srv.sessions, s.authenticated = true → s.jidLocal.str = a.str →
          s.roster.loaded = true))
    ⟨fun h => ⟨h.1, h.2.1, h.2.2⟩, fun h => ⟨h.toAdditive, h.stays, h.told⟩⟩

/-- A step of such a run. -/
structure Fair (a b : Username) (srv : Server) (e : Step) : Prop where
  peaceful : Peaceful (step srv e)
  gentle : OnStanza (fun srv i _ stanza => Gentle a b srv i stanza) srv e

instance decidableFair (a b : Username) (srv : Server) (e : Step) : Decidable (Fair a b srv e) :=
  decidable_of_iff (Peaceful (step srv e) ∧ OnStanza (fun srv i _ stanza => Gentle a b srv i stanza) srv e)
    ⟨fun h => ⟨h.1, h.2⟩, fun h => ⟨h.peaceful, h.gentle⟩⟩

/-- All that holds in the states of such a run. -/
structure Calm (a b : Username) (srv : Server) : Prop where
  order : InOrder srv
  peaceful : Peaceful srv
  granted : Granted (ledger srv)
  quiet : Quiet srv
  poised : Poised srv a b

section
variable {srv srv' : Server} {a b : Username} {e : Step} {i : ℕ} {o : Oracle} {stanza : Node}

/-- Besides the handler for presence nothing changes who follows and who admits. -/
theorem step_sameLinks (h : InOrder srv) (hg : OnStanza (fun srv i _ stanza => Additive srv i stanza) srv e) :
    SameLinks srv (step srv e) ∨ ∃ i o stanza, HandsPresence srv e i o stanza := by
  obtain huntouched | ⟨i, o, stanza, rfl, hd, hl, hh, he⟩ := step_traffic h.synced e (hg.mono fun _ _ _ _ h => h.traffic)
  · left
    have hledger : ledger (step srv e) = ledger srv := by
      unfold ledger
      rw [huntouched.cfg, funext (rosterLoadForUser_congr huntouched.cfg huntouched.files)]
    exact sameLinks_of_notes (show ledger (step srv e) = ([] : List (Op Username)).foldl apply (ledger srv) from hledger)
      (by simp)
  · have hsil := addDepth_silent srv i (-1)
    by_cases hname : stanza.name = "presence"
    · right
      rw [handleTraffic, if_pos hname] at he
      exact ⟨i, o, stanza, rfl, hd, hl, (hsil.get Session.isActive (fun _ => rfl) i).symm.trans hh.active,
        (hsil.get Session.authenticated (fun _ => rfl) i).symm.trans hh.authenticated, hname, he⟩
    · left
      have hiq := hh.kind.resolve_right hname
      obtain ⟨-, -, ops, hops, hled⟩ := step_booked h (hg.mono fun _ _ _ _ h => h.toSetting)
      refine sameLinks_of_notes hled ?_
      intro op hm
      obtain ⟨j, o', n, c, hsax, hd', -, -, hmeans⟩ := hops op hm
      cases hsax
      obtain rfl := Option.some.inj (hd.symm.trans hd')
      cases op with
      | note x y => exact ⟨x, y, rfl⟩
      | accept x y => exact absurd hmeans.2.1 hname
      | leave x y => exact absurd hmeans.2.1 hname
      | expel x y => exact absurd hmeans.2.1 hname
      | erase x y =>
          have hkeeps := (hg stanza hd).keeps hiq
          rw [hmeans.2.2] at hkeeps
          cases hkeeps

/-- The handler for presence leaves the sessions informed. -/
theorem handlePresence_poised (hne : a ≠ b) (h : Calm a b srv) (hg : Gentle a b srv i stanza) (hl : srv.Live i)
    (hau : (srv.sess i).authenticated = true) (hname : stanza.name = "presence") (o : Oracle) :
    Poised (handlePresence srv i o stanza) a b ∧ Quiet (handlePresence srv i o stanza) := by
  obtain ⟨c, hc⟩ := h.peaceful.stands hl hau
  have hset := hg.toSetting
  have hlinks := sameLinks_of_booked
    (handlePresence_booked hset h.order.home h.order.synced h.order.tidy hl hau hc.name o hname) hname
  have hsteady := steady_handlePresence srv i o stanza
  generalize he : handlePresence srv i o stanza = srv' at hlinks hsteady ⊢
  unfold handlePresence at he
  dsimp only at he
  split at he
  · next htype =>
    subst he
    obtain ⟨hturns, hself⟩ := presenceHandleAvailable_turns hl h.quiet o stanza
    have hsame := hlinks (by rw [htype]; decide)
    exact ⟨.arriving h.order hc hturns hself h.poised hname htype h.peaceful hsteady hsame h.granted hne, hturns.quiet h.quiet⟩
  split at he
  · next htype =>
    subst he
    obtain ⟨hturns, hself⟩ := presenceHandleUnavailable_turns hl o
    have hsame := hlinks (by rw [htype]; decide)
    exact ⟨Poised.leaving h.order h.peaceful h.poised hne hl hturns.toSays (fun j _ => hturns.stays j) hturns.others
      (fun _ => hself) hsteady.cfg hsame, hturns.quiet h.quiet⟩
  split at he
  · next htype =>
    subst he
    have hsays := utters_presenceHandleSubscribe srv i o (stanza.prop "to")
    exact ⟨h.poised.utters hsays hsteady.cfg (hlinks (by rw [htype]; decide)), hsays.quiet h.quiet⟩
  split at he
  · next htype =>
    subst he
    obtain ⟨d, hd, hsd⟩ := hset.addressed hname (by rw [htype]; decide)
    obtain ⟨disk, hup, -, hled⟩ := presenceHandleSubscribed_amends hset h.order.home h.order.synced h.order.tidy hl hau
      hc.name o hd hsd
    have hledger := (ledger_updated hup).trans hled
    have hroom := find_approveItem (hset.capacity hau) (bareOf srv.cfg d)
    have hsays := presenceHandleSubscribed_utters hl o (rfl : (jidParse (o.stack 0) (stanza.prop "to")).jid = _) (by
      rw [bare_addressee hd, ownRoster_user h.order hc, ← hc.name]
      exact Option.isSome_iff_ne_none.mpr hroom)
    rw [bare_addressee hd] at hsays
    refine ⟨h.poised.subscribed h.order h.peaceful hc hsteady hsays ?_ ?_, hsays.quiet h.quiet⟩
    · rw [hledger, admits_accept]
    · rw [hledger, follows_accept]
      exact fun hf => hf.imp_right And.left
  have hhost : ∀ d, addressee srv.cfg (stanza.prop "to") = some d →
      ∀ t ∈ host srv i (jidParse (o.stack 0) (stanza.prop "to")).jid, Stands srv d t := by
    intro d hd t ht
    have hfind := (host_eq_some_iff.mp ht).1
    rw [bare_addressee hd] at hfind
    exact stands_of_find h.order.home hfind
  split at he
  · next htype =>
    subst he
    obtain ⟨d, hd, hsd⟩ := hset.addressed hname (by rw [htype]; decide)
    obtain ⟨disk, hup, -, hled⟩ := withdraw_amends hset h.order.home h.order.synced h.order.tidy hl hau hc.name o hd hsd
      (moves_dropTo.ask false) moves_dropFrom rfl rfl "unsubscribe"
    have hledger : ledger (presenceHandleUnsubscribe srv i o (stanza.prop "to")) = apply (ledger srv) (.leave c d) :=
      (ledger_updated hup).trans hled
    have hsays : Utters _ srv (presenceHandleUnsubscribe srv i o (stanza.prop "to")) :=
      withdraw_utters hl o rfl (by decide) _ _
    obtain ⟨hfirst, hsecond⟩ := hg.stays hname htype
    have hapart : ¬(b = c ∧ a = d) := fun he => hsecond ⟨he.1 ▸ hc.name, he.2 ▸ hd⟩
    refine ⟨h.poised.withdrawn h.order h.peaceful hc hsteady (hhost d hd) hsays (fun hb ha => absurd ⟨hb, ha⟩ hapart) ?_ ?_,
      hsays.quiet h.quiet⟩
    · rw [hledger, admits_leave]
      exact fun had => Or.inl ⟨had, fun he => hfirst ⟨he.2 ▸ hc.name, he.1 ▸ hd⟩⟩
    · rw [hledger, follows_leave]
      exact fun hf => ⟨hf.1, hapart⟩
  split at he
  · next htype =>
    subst he
    obtain ⟨d, hd, hsd⟩ := hset.addressed hname (by rw [htype]; decide)
    obtain ⟨disk, hup, -, hled⟩ := withdraw_amends hset h.order.home h.order.synced h.order.tidy hl hau hc.name o hd hsd
      moves_dropFrom (moves_dropTo.ask false) rfl rfl "unsubscribed"
    have hledger : ledger (presenceHandleUnsubscribed srv i o (stanza.prop "to")) = apply (ledger srv) (.expel c d) :=
      (ledger_updated hup).trans hled
    have hsays : Utters _ srv (presenceHandleUnsubscribed srv i o (stanza.prop "to")) :=
      withdraw_utters hl o rfl (by decide) _ _
    refine ⟨h.poised.withdrawn h.order h.peaceful hc hsteady (hhost d hd) hsays ?_ ?_ ?_, hsays.quiet h.quiet⟩
    · rintro rfl rfl t ht
      refine host_eq_some_iff.mpr ⟨?_, Or.inr ?_⟩
      · rw [bare_addressee hd]
        exact h.peaceful.find h.order.home ht
      · exact hg.told hname htype hc.name hd _ (Server.sess_mem ht.live).1 ht.authenticated ht.name
    · rw [hledger, admits_expel]
      intro had
      by_cases he : b = c ∧ a = d
      · exact Or.inr he
      · exact Or.inl ⟨had, he⟩
    · rw [hledger, follows_expel]
      exact fun hf => ⟨hf.1, fun he => hf.2 ⟨he.2, he.1⟩⟩
  · subst he
    exact ⟨h.poised, h.quiet⟩

theorem step_calm (hne : a ≠ b) (srv : Server) (e : Step) (h : Calm a b srv) (hf : Fair a b srv e) : Calm a b (step srv e) := by
  have hadditive : OnStanza (fun srv i _ stanza => Additive srv i stanza) srv e := hf.gentle.mono fun _ _ _ _ h => h.toAdditive
  have hset : OnStanza (fun srv i _ stanza => Setting srv i stanza) srv e := hadditive.mono fun _ _ _ _ h => h.toSetting
  obtain ⟨horder, hcfg, ops, hops, hled⟩ := step_booked h.order hset
  have hgranted : Granted (ledger (step srv e)) := by
    rw [hled]
    exact foldl_granted h.granted fun op hm => Additive.no_erase hadditive (hops op hm)
  suffices hpoised : Poised (step srv e) a b ∧ Quiet (step srv e) from ⟨horder, hf.peaceful, hgranted, hpoised.2, hpoised.1⟩
  by_cases hpresence : ∃ i o stanza, HandsPresence srv e i o stanza
  · obtain ⟨i, o, stanza, rfl, hd, hl, hactive, hau, hname, he⟩ := hpresence
    have hsil := addDepth_silent srv i (-1)
    have hadd : Utters [] srv (addDepth srv i (-1)) := .modify srv i fun _ => rfl
    have hsame : ∀ (srv : Server) (i : ℕ) (f : Session → Session), SameLinks srv (srv.modify i f) :=
      fun _ _ _ _ _ => ⟨Iff.rfl, Iff.rfl⟩
    have hcalm : Calm a b (addDepth srv i (-1)) :=
      ⟨h.order.silent hsil, h.peaceful.steady hsil.steady, h.granted, hadd.quiet h.quiet, h.poised.utters hadd rfl (hsame _ _ _)⟩
    obtain ⟨hpoised, hquiet⟩ := handlePresence_poised hne hcalm (hf.gentle stanza hd) ((hsil.live i).mpr hl)
      ((hsil.get Session.authenticated (fun _ => rfl) i).trans hau) hname o
    rw [he]
    have hlast : Utters [] (handlePresence (addDepth srv i (-1)) i o stanza)
        ((handlePresence (addDepth srv i (-1)) i o stanza).modify i fun s => { s with building := [] }) := .modify _ i fun _ => rfl
    exact ⟨hpoised.utters hlast rfl (hsame _ _ _), hlast.quiet hquiet⟩
  · have hlinks := (step_sameLinks h.order hadditive).resolve_right hpresence
    have hrivals : OnStanza (fun srv i _ stanza => Traffic srv i stanza ∧
        ((srv.sess i).authenticated = true → rival srv i = none)) srv e := by
      have hgentle := hf.gentle
      unfold OnStanza at hgentle ⊢
      split at hgentle
      · next i o =>
        intro stanza hd
        have hsil := addDepth_silent srv i (-1)
        refine ⟨(hgentle stanza hd).traffic, fun hau => ?_⟩
        have hpeaceful := h.peaceful.steady hsil.steady
        obtain ⟨u, hu⟩ := hpeaceful.stands (live_of_authenticated hau) hau
        exact hpeaceful.rival (h.order.silent hsil).home hu
      · trivial
    rcases step_announces srv e hrivals with haccept | hutters | ⟨i, o, hl, hdeparts⟩ | hp
    · rw [haccept] at hlinks ⊢
      refine ⟨h.poised.accept hlinks, ?_⟩
      unfold Quiet
      rw [serverAccept_files]
      exact h.quiet
    · exact ⟨h.poised.utters hutters hcfg hlinks, hutters.quiet h.quiet⟩
    · refine ⟨Poised.leaving h.order h.peaceful h.poised hne hl hdeparts.toSays hdeparts.stays hdeparts.others
        (fun hi => absurd hi hdeparts.gone) hcfg hlinks, hdeparts.quiet h.quiet⟩
    · exact absurd hp hpresence

end

/-! ## Runs -/

/-- The session has last heard of the user what his session says of itself. -/
structure SeesRight (srv : Server) (b : Username) (t i : ℕ) : Prop where
  present : (srv.sess i).available = true →
    ∃ n, (srv.sess i).presenceStanza = some n ∧ heard srv b t = some (.stanza n)
  absent : (srv.sess i).available = false → ∀ n, heard srv b t = some (.stanza n) → n.prop "type" = "unavailable"

theorem Calm.seesRight {srv : Server} {a b : Username} (h : Calm a b srv) {t i : ℕ} (ht : Stands srv a t) (hi : Stands srv b i)
    (hinit : (srv.sess t).initialPresenceSent = true) (hf : Follows (ledger srv) a b) : SeesRight srv b t i := by
  have hinformed := h.poised.informed t ht
  constructor
  · intro havail
    obtain ⟨n, hn⟩ := h.poised.stored i havail
    exact ⟨n, hn, hinformed.told i n hi hinit (by rw [current, if_pos havail, hn]) hf⟩
  · intro havail n hn
    have hvoice : speaksFor srv.cfg b n = true := (mem_of_lastOf hn).2
    refine (of_decide_eq_true (of_decide_eq_true hvoice).1).2.resolve_left fun htype => ?_
    obtain ⟨-, j, hj, hcurrent⟩ := hinformed.founded n hn htype
    rw [h.peaceful.one hj hi, current, havail] at hcurrent
    cases hcurrent

/-- No message that is stored at the start is an announcement. -/
def quietFiles (t : FileTree.Tree Content) : Bool := t.entries.all fun e => match e.2 with
  | .file (.xml n) => !isAvailability n
  | _ => true

theorem quiet_init {cfg : Config} {files : FileTree.Tree Content} (h : quietFiles files = true) : Quiet (Server.init cfg files) := by
  intro q n hq
  change files.content q = some (.xml n) at hq
  unfold Tree.content at hq
  split at hq
  · next c hl =>
    cases hq
    obtain ⟨e, he, hs⟩ := Option.map_eq_some_iff.mp hl
    have ha := List.all_eq_true.mp h e (List.mem_of_find?_eq_some he)
    rw [hs] at ha
    simpa using ha
  · cases hq

theorem calm_init {cfg : Config} {files : FileTree.Tree Content} (htidy : TidyDisk cfg (rosterLoadForUser (Server.init cfg files)))
    (hgranted : Granted (ledger (Server.init cfg files))) (hquiet : quietFiles files = true) (a b : Username) :
    Calm a b (Server.init cfg files) := by
  have hlive : ∀ j, ¬(Server.init cfg files).Live j := fun j => List.not_mem_nil
  refine ⟨inOrder_init htidy, ⟨fun s hs => absurd hs List.not_mem_nil, fun s hs => absurd hs List.not_mem_nil⟩, hgranted,
    quiet_init hquiet, ⟨fun t _ => heard_of_not_live (hlive t), ?_, ?_, fun t ht => absurd ht.live (hlive t)⟩⟩
  · intro i n hn
    exact absurd (live_of_stored hn) (hlive i)
  · intro i hi
    rw [Server.sess_of_not_live (hlive i)] at hi
    cases hi

/-- Alice and bob log in and become available, alice asks bob, and he approves. -/
def acquaintance : List Step :=
  [.accept, .accept] ++ login 0 alicePlain ++ login 1 bobPlain ++ chunk 0 (emptyStanza "presence" []) ++
    chunk 1 (emptyStanza "presence" []) ++
    chunk 0 (emptyStanza "presence" [attr "type" "subscribe", attr "to" "bob@localhost"]) ++
    chunk 1 (emptyStanza "presence" [attr "type" "subscribed", attr "to" "alice@localhost"])

instance (srv : Server) (u : Username) (i : ℕ) : Decidable (Stands srv u i) :=
  decidable_of_iff (srv.Live i ∧ (srv.sess i).authenticated = true ∧ (srv.sess i).jidLocal.str = u.str)
    ⟨fun h => ⟨h.1, h.2.1, h.2.2⟩, fun h => ⟨h.live, h.authenticated, h.name⟩⟩

theorem granted_example : Granted (ledger exampleServer) := by
  rintro x y ⟨l, hl, -⟩
  rw [exampleServer, ledger_init fun u => load_rosterless (by decide) u.str] at hl
  cases hl

/-- Bob, who does not follow alice, then unsubscribes from her. -/
def misunderstanding : List Step :=
  acquaintance ++ chunk 1 (emptyStanza "presence" [attr "type" "unsubscribe", attr "to" "alice@localhost"])

set_option maxRecDepth 20000 in
/-- One who may unsubscribe is announced unavailable while he is available. -/
theorem alice_misses_bob :
    Meets (fun srv e => Peaceful (step srv e) ∧ OnStanza (fun srv i _ stanza => Additive srv i stanza) srv e)
      exampleServer misunderstanding ∧
    Stands (run exampleServer misunderstanding) alice 0 ∧ Stands (run exampleServer misunderstanding) bob 1 ∧
    ((run exampleServer misunderstanding).sess 0).initialPresenceSent = true ∧
    HasFrom (run exampleServer misunderstanding) bob alice ∧ HasTo (run exampleServer misunderstanding) alice bob ∧
    ((run exampleServer misunderstanding).sess 1).available = true ∧
    heard (run exampleServer misunderstanding) bob 0 ≠
      ((run exampleServer misunderstanding).sess 1).presenceStanza.map Out.stanza := by
  decide +kernel

end Xmppd.Availability
