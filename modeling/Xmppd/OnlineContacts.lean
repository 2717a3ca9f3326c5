import Xmppd.Misaddressed

/-!
# Telling a contact that is online

An `unsubscribe` or `unsubscribed` changes the roster of the other side in one of
two branches, and the notices to the other side stand in one of them only. That
branch is taken where the session found for the address has its roster in the cache.
A contact who has bound but has not asked for his roster, nor sent any presence, is
told nothing, and the change is made in his file.
-/
namespace Xmppd.OnlineContacts
open CStrings LibXml Util ServerState User Roster Message Presence Stanza EventLoop Frames RosterItems Confinement Installation MessageFate
open Outputs Recipients RosterPushes SubscriptionEffects Misaddressed

section
variable (k : Kind) (srv : Server) (i t : ℕ)

/-- The contact's item for the sender once the stanza is handled. Where the contact is
the sender himself, the own side comes first. -/
def contactItem : Option RosterItem :=
  (rosterFindItem (ownRoster srv t) (srv.sess i).bareJid.str).map fun item =>
    otherChange k (if t = i then ownChange k item else item)

/-- The notice from the bare address of the sender, and the sender's absence if he is available. -/
def notices : List Out :=
  .stanza (subNode (typeOf k) (srv.sess i).bareJid.str (srv.sess t).bareJid.str) ::
    if (srv.sess i).available then [.stanza (unavailableNode (srv.sess i).fullJid.str)] else []

/-- The push of an item, if there is one. -/
def pushed (id : Str) (item : Option RosterItem) : List Out :=
  (item.map fun item => .stanza (pushNode id (srv.sess t).fullJid.str item)).toList

/-- The contact gets a push of his item for the sender, if he has one, and then the notices. -/
def Told (srv' : Server) : Prop :=
  ∃ (before : List Out) (id : Str), (t ≠ i → before = []) ∧
    (srv'.sess t).out = (srv.sess t).out ++ (before ++ (pushed srv t id (contactItem k srv i t) ++ notices k srv i t))

end

section
variable {k : Kind} {srv a : Server} {i t : ℕ} {o : Oracle} {jid : Jid} {bare id : Str} {f : RosterItem → RosterItem}

/-! ## The own side -/

theorem stage_own (hl : srv.Live i) (id bare : Str) (f : RosterItem → RosterItem) :
    ∃ disk, Stage srv i (rosterEdit (ownRoster srv i) bare f) disk (withdrawAt (ensureRoster srv i) i id bare f) := by
  have hens := Stage.ensure hl
  cases hfind : rosterFindItem (ownRoster srv i) bare with
  | some item => exact ⟨_, hens.withdrawAt_found hl (ownRoster_loaded srv i) id hfind⟩
  | none =>
      rw [hens.withdrawAt_none hfind, rosterEdit_of_find_none _ hfind]
      exact ⟨_, hens⟩

theorem unheard_own (id bare : Str) (f : RosterItem → RosterItem) :
    Same unheard srv (withdrawAt (ensureRoster srv i) i id bare f) := by
  have hens : Same unheard srv (ensureRoster srv i) := by
    unfold ensureRoster
    split
    · exact .refl srv
    · exact .modify srv i fun _ => rfl
  exact hens.trans (unheard_withdrawAt id bare f)

/-- What the own side queues. -/
def ownPushes (srv : Server) (i t : ℕ) (id bare : Str) (f : RosterItem → RosterItem) : List Out :=
  if t = i then withdrawn (ownRoster srv i) id bare (srv.sess i).fullJid.str f else []

theorem out_own (hl : srv.Live i) (t : ℕ) (id bare : Str) (f : RosterItem → RosterItem) :
    ((withdrawAt (ensureRoster srv i) i id bare f).sess t).out = (srv.sess t).out ++ ownPushes srv i t id bare f := by
  unfold ownPushes
  by_cases ht : t = i
  · have hens := Stage.ensure hl
    have hfull : ((ensureRoster srv i).sess i).fullJid = (srv.sess i).fullJid := hens.steady.get Session.fullJid (fun _ => rfl) i
    rw [ht, if_pos rfl, out_withdrawAt ((hens.live i).mpr hl), out_ensureRoster, hens.own, hfull]
  · obtain ⟨disk, hstage⟩ := stage_own hl id bare f
    rw [if_neg ht, List.append_nil, hstage.quiet t ht]

theorem mem_ownPushes {x : Out} (h : x ∈ ownPushes srv i t id bare f) :
    ∃ item, x = .stanza (pushNode id (srv.sess i).fullJid.str item) := by
  unfold ownPushes at h
  split at h
  · obtain ⟨item, -, hx⟩ := Option.map_eq_some_iff.mp (Option.mem_toList.mp h)
    exact ⟨f item, hx.symm⟩
  · cases h

/-! ## The other side -/

/-- The session that is not found gets nothing. -/
theorem out_withdrawTarget_of_ne (type : Str) (theirs : RosterItem → RosterItem) (ht : a.Live t)
    (hne : loadedSession a (a.sessionFindByJid jid.bare.str) ≠ some t) :
    ((withdrawTarget type theirs a i o jid).sess t).out = (a.sess t).out := by
  have hwrites : Writes (fun j _ => j ≠ t) a (withdrawTarget type theirs a i o jid) := by
    unfold withdrawTarget
    cases hu : loadedSession a (a.sessionFindByJid jid.bare.str) with
    | none =>
        dsimp only
        split
        · exact writes_rosterSaveForUser _ _ _
        · exact .refl a
    | some u =>
        rw [hu] at hne
        have hut : u ≠ t := fun h => hne (congrArg some h)
        have hat := withdrawAt_writes (P := fun j _ => j ≠ t) (fun _ => hut) a (o.ident 1) (a.sess i).bareJid.str theirs
        dsimp only
        split
        · exact (hat.trans (.stanzaSend hut)).trans (.stanzaSend hut)
        · exact hat.trans (.stanzaSend hut)
  obtain ⟨added, hout, hadded⟩ := hwrites.out t (((steady_withdrawTarget type theirs a i o jid).live t).mpr ht)
  rw [hout, List.eq_nil_iff_forall_not_mem.mpr fun x hx => hadded x hx rfl, List.append_nil]

/-- The roster of the contact as the other side finds it. -/
theorem withdrawn_contact {disk : Str → Roster} (hstage : Stage srv i (rosterEdit (ownRoster srv i) jid.bare.str (ownChange k)) disk a)
    (hhost : host srv i jid = some t) (id : Str) :
    withdrawn (a.sess t).roster id (srv.sess i).bareJid.str (srv.sess t).fullJid.str (otherChange k) =
      pushed srv t id (contactItem k srv i t) := by
  unfold withdrawn pushed contactItem
  rw [Option.map_map]
  by_cases hi : t = i
  · rw [hi] at hhost ⊢
    rw [hstage.own, Server.bareJid_of_found (host_eq_some_iff.mp hhost).1, find_rosterEdit_self _ (keepsJid_ownChange k), Option.map_map]
    simp only [if_true]
    rfl
  · have hloaded := (host_eq_some_iff.mp hhost).2.resolve_left hi
    have hroster : ownRoster srv t = (srv.sess t).roster := if_pos hloaded
    rw [hstage.others t hi, hroster]
    simp only [if_neg hi]
    rfl

section
variable (hl : srv.Live i) (o : Oracle) {dest : Str} (hjid : (jidParse (o.stack 0) dest).jid = jid)
include hl hjid

/-- The contact that is found with a roster is told. -/
theorem told_of_host (hhost : host srv i jid = some t) :
    Told k srv i t (withdraw (typeOf k) (ownChange k) (otherChange k) srv i o dest) := by
  obtain ⟨disk, hstage⟩ := stage_own hl (o.ident 0) jid.bare.str (ownChange k)
  have hout := out_own hl t (o.ident 0) jid.bare.str (ownChange k)
  have hsame := @unheard_own srv i (o.ident 0) jid.bare.str (ownChange k)
  unfold withdraw
  dsimp only
  rw [hjid]
  generalize withdrawAt (ensureRoster srv i) i (o.ident 0) jid.bare.str (ownChange k) = a at hstage hout hsame ⊢
  have hsearch := (host_eq_some_iff.mp hhost).1
  have hlive : a.Live t := (hstage.live t).mpr (Server.sessionFindByJid_live hsearch)
  have hfound : loadedSession a (a.sessionFindByJid jid.bare.str) = some t := by
    rw [hstage.target, hstage.host (by rw [rosterEdit_loaded]; exact ownRoster_loaded srv i), hhost]
  refine ⟨ownPushes srv i t (o.ident 0) jid.bare.str (ownChange k), o.ident 1, fun hi => if_neg hi, ?_⟩
  rw [out_withdrawTarget hlive hfound, hout, hstage.bareJid, hsame.get Session.fullJid (fun _ => rfl) t,
    hsame.get Session.fullJid (fun _ => rfl) i, hsame.get Session.available (fun _ => rfl) i, withdrawn_contact hstage hhost,
    List.append_assoc, notices, Server.bareJid_of_found hsearch]

/-- Any other contact is not. -/
theorem not_told (ht : srv.Live t) (hhost : host srv i jid ≠ some t) :
    ¬Told k srv i t (withdraw (typeOf k) (ownChange k) (otherChange k) srv i o dest) := by
  obtain ⟨disk, hstage⟩ := stage_own hl (o.ident 0) jid.bare.str (ownChange k)
  have hout := out_own hl t (o.ident 0) jid.bare.str (ownChange k)
  have hown := fun x => @mem_ownPushes srv i t jid.bare.str (o.ident 0) (ownChange k) x
  rintro ⟨before, id, -, htold⟩
  unfold withdraw at htold
  dsimp only at htold
  rw [hjid] at htold
  generalize withdrawAt (ensureRoster srv i) i (o.ident 0) jid.bare.str (ownChange k) = a at hstage hout htold
  have hfound : loadedSession a (a.sessionFindByJid jid.bare.str) ≠ some t := by
    rw [hstage.target, hstage.host (by rw [rosterEdit_loaded]; exact ownRoster_loaded srv i)]
    exact hhost
  rw [out_withdrawTarget_of_ne _ _ ((hstage.live t).mpr ht) hfound, hout] at htold
  have hadded := List.append_cancel_left htold
  obtain ⟨item, hitem⟩ := hown (.stanza (subNode (typeOf k) (srv.sess i).bareJid.str (srv.sess t).bareJid.str)) (by
    rw [hadded, notices]
    simp)
  have hname : ("presence" : Str) = "iq" := congrArg Node.name (Out.stanza.inj hitem)
  exact absurd hname (by decide)

theorem handle_told_iff (hk : addition k = none) (ht : srv.Live t) :
    Told k srv i t (handle k srv i o dest) ↔ host srv i jid = some t := by
  have hhandle : handle k srv i o dest = withdraw (typeOf k) (ownChange k) (otherChange k) srv i o dest := by
    cases k with
    | subscribe => cases hk
    | subscribed => cases hk
    | unsubscribe => rfl
    | unsubscribed => rfl
  rw [hhandle]
  constructor
  · intro htold
    by_contra hhost
    exact not_told hl o hjid ht hhost htold
  · exact told_of_host hl o hjid

end

end

/-- A contact who is online is told of a withdrawal exactly if his session is the one found
for the address, and has its roster in the cache or is the sender's own. -/
theorem told_iff (srv : Server) (i t : ℕ) (o : Oracle) (stanza : Node) (k : Kind) (hbound : (srv.sess i).isActive = true)
    (hname : stanza.name = "presence") (htype : stanza.prop "type" = typeOf k) (hk : k = .unsubscribe ∨ k = .unsubscribed)
    (ht : (srv.sess t).isActive = true) :
    Told k srv i t (stanzaRoute srv i o stanza) ↔
      srv.sessionFindByJid (addressee o stanza).bare.str = some t ∧ (t = i ∨ (srv.sess t).roster.loaded = true) := by
  have hadd : addition k = none := by
    rcases hk with rfl | rfl
    · rfl
    · rfl
  rw [stanzaRoute_kind hbound hname htype, handle_told_iff (Server.live_of_isActive hbound) o rfl hadd (Server.live_of_isActive ht),
    host_eq_some_iff]
  rfl

/-! ## A contact who has not asked for his roster -/

def aliceAndBob : Server := run exampleServer ([.accept, .accept] ++ login 0 alicePlain ++ login 1 bobPlain)

/-- Bob has asked for his roster. -/
def bobListed : Server := run aliceAndBob (chunk 1 (iqRequest "get" "query" rosterNs))

set_option maxRecDepth 20000 in
/-- Alice withdraws from bob, who has asked for his roster. -/
theorem withdrawal_told :
    Told .unsubscribe bobListed 0 1 (stanzaRoute bobListed 0 exampleOracle (withdrawalFrom "bob@localhost")) :=
  (told_iff bobListed 0 1 exampleOracle (withdrawalFrom "bob@localhost") .unsubscribe (by decide +kernel) rfl rfl (.inl rfl)
    (by decide +kernel)).mpr ⟨by decide +kernel, .inr (by decide +kernel)⟩

set_option maxRecDepth 20000 in
/-- He has not, and is told nothing. -/
theorem withdrawal_untold :
    ¬∀ (srv : Server) (i t : ℕ) (o : Oracle) (stanza : Node) (k : Kind), (srv.sess i).isActive = true →
      stanza.name = "presence" → stanza.prop "type" = typeOf k → k = .unsubscribe ∨ k = .unsubscribed →
      (srv.sess t).isActive = true → (srv.sess t).jidDomain = srv.cfg.domain →
      stanza.prop "to" = (srv.sess t).bareJid.str ∨ stanza.prop "to" = (srv.sess t).fullJid.str →
      Told k srv i t (stanzaRoute srv i o stanza) := by
  intro h
  have hbound : (aliceAndBob.sess 0).isActive = true := by decide +kernel
  have honline : (aliceAndBob.sess 1).isActive = true := by decide +kernel
  have htold := h aliceAndBob 0 1 exampleOracle (withdrawalFrom "bob@localhost") .unsubscribe hbound rfl rfl (.inl rfl) honline
    (by decide +kernel) (.inl (by decide +kernel))
  rw [told_iff aliceAndBob 0 1 exampleOracle (withdrawalFrom "bob@localhost") .unsubscribe hbound rfl rfl (.inl rfl) honline] at htold
  have hunloaded : ¬(1 = 0 ∨ (aliceAndBob.sess 1).roster.loaded = true) := by decide +kernel
  exact hunloaded htold.2

end Xmppd.OnlineContacts
