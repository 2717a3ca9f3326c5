import Xmppd.GrantHistory
import Xmppd.Subscriptions

/-!
# The subscriptions a run leaves

Each stanza of a bound session means one operation on the ledger or none. The
rosters change by these operations and by entries that say nothing. Hence the
last of the stanzas that bear on two users decides whether one of them grants the
other a subscription, and there is no subscription whose last such stanza is not
an approval.
-/
namespace Xmppd.Bookkeeping
open CStrings FileTree LibXml Util ServerState User Roster Message Presence Stanza EventLoop
open Frames Evolution Coherence RosterTraffic Accounts Entries Grants LastWords GrantHistory Subscriptions Installation

/-- The user with this bare address. -/
def owner (cfg : Config) (jid : Str) : Option Username :=
  (Username.ofStr (jid.takeWhile (· ≠ '@'))).filter fun u => jid = (bareOf cfg u).str

/-- The operation that a stanza of a user means. -/
def meant (cfg : Config) (u : Username) (stanza : Node) : Option (Op Username) :=
  if stanza.name = "presence" then
    (addressee cfg (stanza.prop "to")).bind fun w =>
      if stanza.prop "type" = "subscribed" then some (.accept u w)
      else if stanza.prop "type" = "unsubscribe" then some (.leave u w)
      else if stanza.prop "type" = "unsubscribed" then some (.expel u w)
      else none
  else if RosterIq stanza then ((removedJid stanza).bind (owner cfg)).map (.erase u)
  else none

/-- The stanza that the step completes for a bound session, and the session's user. -/
def handed (srv : Server) : Step → Option (Username × Node)
  | .sax i _ .endElement =>
      if srv.crashed = false ∧ parsing srv i = true ∧ (srv.sess i).isActive = true ∧ (srv.sess i).authenticated = true then
        (dispatched (srv.sess i)).bind fun stanza => (Username.ofStr (srv.sess i).jidLocal.str).map (·, stanza)
      else none
  | _ => none

def meaning (srv : Server) (e : Step) : Option (Op Username) := (handed srv e).bind fun p => meant srv.cfg p.1 p.2

/-- The operations that the stanzas of a run mean. -/
def meanings : Server → List Step → List (Op Username)
  | _, [] => []
  | srv, e :: es => (meaning srv e).toList ++ meanings (step srv e) es

/-- An operation that is not just an entry that says nothing. -/
def isMove : Op Username → Bool
  | .note _ _ => false
  | _ => true

/-- The ledger moves by these operations, and by entries that say nothing. -/
def Moved (L : Ledger Username) (moves : List (Op Username)) (L' : Ledger Username) : Prop :=
  ∃ ops : List (Op Username), ops.filter isMove = moves ∧ L' = ops.foldl apply L

theorem Moved.trans {L L' L'' : Ledger Username} {m m' : List (Op Username)} (h : Moved L m L') (h' : Moved L' m' L'') :
    Moved L (m ++ m') L'' := by
  obtain ⟨ops, rfl, rfl⟩ := h
  obtain ⟨ops', rfl, rfl⟩ := h'
  exact ⟨ops ++ ops', List.filter_append .., List.foldl_append.symm⟩

theorem Moved.same (L : Ledger Username) : Moved L [] L := ⟨[], rfl, rfl⟩

/-! ## What a stanza means -/

section
variable {srv : Server} {i : ℕ} {o : Oracle} {stanza : Node} {a : Username} {op : Op Username} {cfg : Config}

theorem owner_bareOf (cfg : Config) (u : Username) : owner cfg (bareOf cfg u).str = some u := by
  have ht : (u.str ++ '@' :: cfg.domain.str).takeWhile (· ≠ '@') = u.str := by
    rw [List.takeWhile_append_of_pos]
    · simp
    · intro c hc
      simp only [decide_eq_true_eq]
      rintro rfl
      exact u.not_mem (by decide) hc
  unfold owner
  rw [bareOf_str, ht, Username.ofStr_str, Option.filter_some, if_pos]
  exact decide_eq_true (bareOf_str cfg u).symm

theorem owner_eq_some {jid : Str} {u : Username} (h : owner cfg jid = some u) : jid = (bareOf cfg u).str := by
  obtain ⟨-, hp⟩ := Option.filter_eq_some_iff.mp h
  exact of_decide_eq_true hp

/-- Whatever is more than an entry is what the stanza means. -/
theorem meant_of_means (h : Means cfg a stanza op) (hmove : isMove op = true) : meant cfg a stanza = some op := by
  cases op with
  | note x y => cases hmove
  | accept x y =>
      obtain ⟨rfl, hname, htype, hto⟩ := h
      rw [meant, if_pos hname, hto, htype]
      rfl
  | leave x y =>
      obtain ⟨rfl, hname, htype, hto⟩ := h
      rw [meant, if_pos hname, hto, htype]
      rfl
  | expel x y =>
      obtain ⟨rfl, hname, htype, hto⟩ := h
      rw [meant, if_pos hname, hto, htype]
      rfl
  | erase x y =>
      obtain ⟨rfl, hiq, hremoved⟩ := h
      have hname : stanza.name ≠ "presence" := by
        rw [hiq.1]
        decide
      rw [meant, if_neg hname, if_pos hiq, hremoved, Option.bind_some, owner_bareOf]
      rfl

theorem stanzaRoute_rosterIq (ha : (srv.sess i).isActive = true) (h : RosterIq stanza) (o : Oracle) :
    stanzaRoute srv i o stanza = rosterHandleIq srv i o stanza := by
  obtain ⟨hname, htype, hchild⟩ := h
  unfold stanzaRoute
  rw [if_neg (not_gated ha), if_pos hname]
  unfold handleIq
  dsimp only
  rw [if_neg htype, hchild, if_neg (by decide), if_neg (by decide), if_pos rfl, whenActive, if_pos ha]

/-- The handlers do to the ledger what the stanza means. -/
theorem handleTraffic_moved (hin : InOrder srv) (hset : Setting srv i stanza) (hl : srv.Live i)
    (hau : (srv.sess i).authenticated = true) (hu : (srv.sess i).jidLocal.str = a.str)
    (hm : meant srv.cfg a stanza = some op) (o : Oracle) :
    ∃ disk, Updated srv i disk (handleTraffic srv i o stanza) ∧ Moved (ledger srv) [op] (ledgerOf srv.cfg disk) := by
  unfold meant at hm
  unfold handleTraffic
  by_cases hname : stanza.name = "presence"
  · rw [if_pos hname] at hm ⊢
    obtain ⟨w, hw, hm⟩ := Option.bind_eq_some_iff.mp hm
    have hsaves : isSubscription (stanza.prop "type") = true → RosterStore.Saves srv w.str := by
      intro htype
      obtain ⟨w', hw', hs⟩ := hset.addressed hname htype
      obtain rfl := Option.some.inj (hw.symm.trans hw')
      exact hs
    unfold handlePresence
    dsimp only
    split_ifs at hm with haccept hleave hexpel
    · obtain ⟨disk, hup, -, hled⟩ := presenceHandleSubscribed_amends hset hin.home hin.synced hin.tidy hl hau hu o hw
        (hsaves (by rw [haccept]; decide))
      cases hm
      rw [haccept, if_neg (by decide), if_neg (by decide), if_neg (by decide), if_pos rfl]
      exact ⟨disk, hup, [.accept a w], rfl, hled⟩
    · obtain ⟨disk, hup, -, hled⟩ := withdraw_amends hset hin.home hin.synced hin.tidy hl hau hu o hw
        (hsaves (by rw [hleave]; decide)) (moves_dropTo.ask false) moves_dropFrom rfl rfl "unsubscribe"
      cases hm
      rw [hleave, if_neg (by decide), if_neg (by decide), if_neg (by decide), if_neg (by decide), if_pos rfl]
      exact ⟨disk, hup, [.leave a w], rfl, hled⟩
    · obtain ⟨disk, hup, -, hled⟩ := withdraw_amends hset hin.home hin.synced hin.tidy hl hau hu o hw
        (hsaves (by rw [hexpel]; decide)) moves_dropFrom (moves_dropTo.ask false) rfl rfl "unsubscribed"
      cases hm
      rw [hexpel, if_neg (by decide), if_neg (by decide), if_neg (by decide), if_neg (by decide), if_neg (by decide), if_pos rfl]
      exact ⟨disk, hup, [.expel a w], rfl, hled⟩
  · rw [if_neg hname] at hm ⊢
    split_ifs at hm with hiq
    obtain ⟨w, hw, rfl⟩ := Option.map_eq_some_iff.mp hm
    obtain ⟨jid, hjid, hw⟩ := Option.bind_eq_some_iff.mp hw
    rw [owner_eq_some hw] at hjid
    obtain ⟨disk, ops, hup, -, hops, hled⟩ := rosterHandleIq_erases hset hin.synced hin.tidy hl hau hu o hjid
    refine ⟨disk, hup, ops, ?_, hled⟩
    rcases hops with rfl | rfl
    · rfl
    · rfl

end

/-! ## Steps -/

section
variable {srv : Server} {e : Step} {i : ℕ} {o : Oracle} {stanza : Node} {u : Username} {op : Op Username}

/-- What is known of a step that hands over a stanza. -/
theorem handed_eq_some (h : handed srv e = some (u, stanza)) : ∃ i o, e = .sax i o .endElement ∧ srv.crashed = false ∧
    parsing srv i = true ∧ (srv.sess i).isActive = true ∧ (srv.sess i).authenticated = true ∧
    dispatched (srv.sess i) = some stanza ∧ (srv.sess i).jidLocal.str = u.str := by
  unfold handed at h
  split at h
  · next i o =>
    split_ifs at h with hp
    obtain ⟨n, hn, h⟩ := Option.bind_eq_some_iff.mp h
    obtain ⟨w, hw, h⟩ := Option.map_eq_some_iff.mp h
    cases h
    exact ⟨i, o, rfl, hp.1, hp.2.1, hp.2.2.1, hp.2.2.2, hn, (Username.ofStr_eq_some hw).symm⟩
  · cases h

theorem step_sax (srv : Server) (i : ℕ) (o : Oracle) (e : Sax) : step srv (.sax i o e) =
    if srv.crashed then srv else if parsing srv i then callback srv i o e else srv := rfl

theorem ledger_congr {a b : Server} (hc : b.cfg = a.cfg) (hf : b.files = a.files) : ledger b = ledger a := by
  unfold ledger
  rw [hc, funext (rosterLoadForUser_congr hc hf)]

variable (hin : InOrder srv) (hs : OnStanza (fun srv i _ stanza => Setting srv i stanza) srv e)
include hin hs

theorem step_meant (hh : handed srv e = some (u, stanza)) (hm : meant srv.cfg u stanza = some op) :
    Moved (ledger srv) [op] (ledger (step srv e)) := by
  obtain ⟨i, o, rfl, hcrash, hp, hactive, hau, hd, hu⟩ := handed_eq_some hh
  have hl := live_of_parsing hp
  have hsil := addDepth_silent srv i (-1)
  have hactive' : ((addDepth srv i (-1)).sess i).isActive = true :=
    (hsil.get Session.isActive (fun _ => rfl) i).trans hactive
  have hroute : stanzaRoute (addDepth srv i (-1)) i o stanza = handleTraffic (addDepth srv i (-1)) i o stanza := by
    unfold handleTraffic
    split_ifs with hname
    · exact stanzaRoute_presence hactive' hname o
    · rw [meant, if_neg hname] at hm
      split_ifs at hm with hiq
      exact stanzaRoute_rosterIq hactive' hiq o
  have hstep : step srv (.sax i o .endElement) =
      (handleTraffic (addDepth srv i (-1)) i o stanza).modify i fun s => { s with building := [] } := by
    rw [step_sax, if_neg (by rw [hcrash]; decide), if_pos hp]
    exact (onEndElementNs_dispatched srv i o hl hd).trans (by rw [hroute])
  obtain ⟨disk, hup, hmoved⟩ := handleTraffic_moved (hin.silent hsil) (hs stanza hd) ((hsil.live i).mpr hl)
    ((hsil.get Session.authenticated (fun _ => rfl) i).trans hau)
    ((congrArg Buf.str (hsil.get Session.jidLocal (fun _ => rfl) i)).trans hu) hm o
  have hup' : Updated (addDepth srv i (-1)) i disk (step srv (.sax i o .endElement)) := by
    rw [hstep]
    exact hup.silent (.modify _ i (by intro s; rfl))
  have hled : ledger (step srv (.sax i o .endElement)) = ledgerOf srv.cfg disk := by
    rw [ledger, hup'.steady.cfg, funext hup'.stored]
    rfl
  rw [hled]
  exact hmoved

theorem step_meaningless (hm : meaning srv e = none) : Moved (ledger srv) [] (ledger (step srv e)) := by
  obtain h | ⟨i, o, stanza, rfl, hd, hl, hh, he⟩ := step_traffic hin.synced e (hs.mono fun _ _ _ _ h => h.traffic)
  · rw [ledger_congr h.cfg h.files]
    exact .same _
  by_cases hp : srv.crashed = false ∧ parsing srv i = true
  swap
  · have hidle : step srv (.sax i o .endElement) = srv := by
      rw [step_sax]
      split_ifs with hcrash hparse
      · rfl
      · exact absurd ⟨by simpa using hcrash, hparse⟩ hp
      · rfl
    rw [hidle]
    exact .same _
  have hsil := addDepth_silent srv i (-1)
  have hset := hs stanza hd
  have hl' := (hsil.live i).mpr hl
  obtain ⟨a, ha⟩ := Option.isSome_iff_exists.mp (hset.users _ (Server.sess_mem hl').1 hh.authenticated)
  have hu := (Username.ofStr_eq_some ha).symm
  have hhanded : handed srv (.sax i o .endElement) = some (a, stanza) := by
    have hu' := (hsil.get Session.jidLocal (fun _ => rfl) i)
    rw [hu'] at ha
    rw [handed, if_pos ⟨hp.1, hp.2, (hsil.get Session.isActive (fun _ => rfl) i).symm.trans hh.active,
      (hsil.get Session.authenticated (fun _ => rfl) i).symm.trans hh.authenticated⟩, hd, Option.bind_some, ha]
    rfl
  rw [meaning, hhanded, Option.bind_some] at hm
  obtain ⟨disk, ops, hup, -, hops, hled⟩ := handleTraffic_booked (hin.silent hsil) hset hl' hh o hu
  have hup' : Updated (addDepth srv i (-1)) i disk (step srv (.sax i o .endElement)) := by
    rw [he]
    exact hup.silent (.modify _ i (by intro s; rfl))
  refine ⟨ops, List.filter_eq_nil_iff.mpr fun op hop hmove => ?_, ?_⟩
  · have hmeant : meant srv.cfg a stanza = some op := meant_of_means (hops op hop) hmove
    rw [hm] at hmeant
    cases hmeant
  · rw [ledger, hup'.steady.cfg, funext hup'.stored]
    exact hled

/-- A step moves the ledger by what the stanza it completes means. -/
theorem step_moved : Moved (ledger srv) (meaning srv e).toList (ledger (step srv e)) := by
  cases hm : meaning srv e with
  | none => exact step_meaningless hin hs hm
  | some op =>
      obtain ⟨⟨u, stanza⟩, hh, hop⟩ := Option.bind_eq_some_iff.mp hm
      exact step_meant hin hs hh hop

end

/-! ## Runs -/

theorem run_moved (steps : List Step) : ∀ srv, InOrder srv → Meets (OnStanza fun srv i _ stanza => Setting srv i stanza) srv steps →
    InOrder (run srv steps) ∧ Moved (ledger srv) (meanings srv steps) (ledger (run srv steps)) := by
  induction steps with
  | nil => exact fun srv h _ => ⟨h, .same _⟩
  | cons e es ih =>
      intro srv h hmeets
      obtain ⟨hin, hmoved⟩ := ih _ (step_booked h hmeets.1).1 hmeets.2
      exact ⟨hin, (step_moved h hmeets.1).trans hmoved⟩

theorem tidy_example : TidyDisk exampleConfig (rosterLoadForUser exampleServer) :=
  fun u => tidy_of_empty (load_rosterless (by decide) u.str)

theorem isMove_of_onAdmission {a b : Username} (op : Op Username) (h : onAdmission a b op = true) : isMove op = true := by
  cases op with
  | note x y => cases h
  | accept x y => rfl
  | leave x y => rfl
  | expel x y => rfl
  | erase x y => rfl

theorem isMove_of_onFollowing {a b : Username} (op : Op Username) (h : onFollowing a b op = true) : isMove op = true := by
  cases op with
  | note x y => cases h
  | accept x y => rfl
  | leave x y => rfl
  | expel x y => rfl
  | erase x y => rfl

end Xmppd.Bookkeeping
