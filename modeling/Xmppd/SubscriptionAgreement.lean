import Xmppd.Addressing
import Xmppd.GoRosterFamilies
import Xmppd.Lockstep
import Xmppd.OfflineDirectory
import Xmppd.RosterFamilies

/-!
# The same subscriptions in both servers

Both servers change the rosters of sender and target in the same way, wherever
these are held, and do so whatever else there is in the rosters. What differs is how the
Go server writes the roster of a target who has no session: if a JID or a name in
it has a character that the file does not keep, the roster that is read back is
another one.
-/
namespace Xmppd.SubscriptionAgreement
open CStrings LibXml Util ServerState Roster Presence Stanza Frames RosterStore RosterItems Entries Evolution
open Confinement Installation
open GoXml Programs Program Triples GoSession GoWorld Lockstep Addressing Addresses
open RosterPushes (Kind)
open Accounts (home locate_plain spare)
open Misaddressed (withdrawalFrom)
open OfflineDirectory (isDir_unlisted)
open SubscriptionEffects (typeOf)
open RosterFamilies (IsUser)
open GoPresence (turn gainTo gainFrom loseTo loseFrom)
open GoRosterFamilies (otherTurn settle reread)
open GoRosterFile (Plain PlainItem LegalItem)

/-! ## One roster in two forms -/

/-- An item by its strings. -/
def view (i : RosterItem) : Item := ⟨i.jid.str, i.name.str, i.subscription.str, i.askSubscribe⟩

def viewRoster (r : ServerState.Roster) : GoSession.Roster := ⟨r.items.map view, r.loaded⟩

/-- The change to an item of the sender's roster. -/
def ownTurn : Kind → Item → Item
  | .subscribe => fun i => { i with askSubscribe := true }
  | .subscribed => turn gainFrom false
  | .unsubscribe => turn loseTo true
  | .unsubscribed => turn loseFrom false

section
variable {r : ServerState.Roster} {jid : Str} {f : RosterItem → RosterItem} {g : Item → Item}

/-- A two-way comparison is a table of two lines. -/
theorem view_moveSub {a a' b b' : Str} (ha : a'.length < 16) (hb : b'.length < 16) (i : RosterItem) :
    view (moveSub a a' b b' i) = turn [(a, a'), (b, b')] false (view i) := by
  have hfit : a'.take 15 = a' := List.take_of_length_le (by omega)
  have hfit' : b'.take 15 = b' := List.take_of_length_le (by omega)
  unfold moveSub turn view
  by_cases hs : i.subscription.str = a
  · simp [hs, hfit]
  · by_cases hs' : i.subscription.str = b
    · have hab : a ≠ b := fun he => hs (hs'.trans he.symm)
      simp [hs', hab, hab.symm, hfit']
    · simp [hs, hs', Ne.symm hs, Ne.symm hs']

theorem view_setAsk_moveSub {a a' b b' : Str} (ha : a'.length < 16) (hb : b'.length < 16) (i : RosterItem) :
    view ((setAsk false ∘ moveSub a a' b b') i) = turn [(a, a'), (b, b')] true (view i) := by
  have hmove : view (moveSub a a' b b' i) = turn [(a, a'), (b, b')] false (view i) := view_moveSub ha hb i
  have hset : view ((setAsk false ∘ moveSub a a' b b') i) = { view (moveSub a a' b b' i) with askSubscribe := false } := rfl
  rw [hset, hmove]
  rfl

theorem view_ownChange (k : Kind) (i : RosterItem) : view (Misaddressed.ownChange k i) = ownTurn k (view i) := by
  cases k with
  | subscribe => rfl
  | subscribed => exact view_moveSub (by decide) (by decide) i
  | unsubscribe => exact view_setAsk_moveSub (by decide) (by decide) i
  | unsubscribed => exact view_moveSub (by decide) (by decide) i

theorem view_otherChange (k : Kind) (i : RosterItem) : view (Misaddressed.otherChange k i) = otherTurn k (view i) := by
  cases k with
  | subscribe => rfl
  | subscribed => exact view_setAsk_moveSub (by decide) (by decide) i
  | unsubscribe => exact view_moveSub (by decide) (by decide) i
  | unsubscribed => exact view_setAsk_moveSub (by decide) (by decide) i

theorem find_viewRoster (r : ServerState.Roster) (jid : Str) : (viewRoster r).find jid = (rosterFindItem r jid).map view := by
  unfold Roster.find rosterFindItem viewRoster
  rw [List.find?_map]
  rfl

theorem viewRoster_edit (hg : ∀ i, view (f i) = g (view i)) : viewRoster (rosterEdit r jid f) = (viewRoster r).update jid g := by
  have hgo : ∀ l : List RosterItem, (editItem jid f l).map view = Roster.update.go jid g (l.map view) := by
    intro l
    induction l with
    | nil => rfl
    | cons i is ih =>
        unfold editItem
        rw [List.map_cons, Roster.update.go]
        by_cases hi : i.jid.str = jid
        · have hi' : (view i).jid = jid := hi
          rw [if_pos hi, if_pos hi', List.map_cons, hg]
        · have hi' : ¬(view i).jid = jid := hi
          rw [if_neg hi, if_neg hi', List.map_cons, ih]
  unfold viewRoster Roster.update
  rw [← hgo]
  rfl

/-- An item that is added. -/
theorem viewRoster_add (hfind : rosterFindItem r jid = none) (hroom : r.items.length < maxRosterItems) (hjid : jid.length < 512)
    {sub : Str} (hsub : sub.length < 16) (hne : sub ≠ []) (ask : Bool) :
    viewRoster (rosterAddItem r jid none (some sub) ask) = (viewRoster r).addOrUpdate jid [] sub ask := by
  have hnone : (viewRoster r).find jid = none := by
    rw [find_viewRoster, hfind]
    rfl
  have hitem : view (newItem jid none (some sub) ask) = ⟨jid, [], sub, ask⟩ := by
    have hj : (snprintf 512 jid).str = jid := snprintf_fits hjid
    have hs : (snprintf 16 sub).str = sub := snprintf_fits hsub
    unfold view newItem
    dsimp only
    rw [hj, Option.getD_some, hs]
    rfl
  have hitems : (viewRoster (rosterAddItem r jid none (some sub) ask)).items = (viewRoster r).items ++ [⟨jid, [], sub, ask⟩] := by
    unfold viewRoster
    rw [rosterAddItem_items hfind hroom, List.map_append, List.map_singleton, hitem]
  unfold Roster.addOrUpdate
  rw [hnone]
  dsimp only
  rw [if_neg hne, ← hitems]
  unfold viewRoster
  rw [rosterAddItem_loaded]

theorem viewRoster_ownEdit (k : Kind) (hroom : r.items.length < maxRosterItems) (hjid : jid.length < 512) :
    viewRoster (Misaddressed.ownEdit k jid r) = GoRosterFamilies.ownEdit k jid (viewRoster r) := by
  have hfind := find_viewRoster r jid
  unfold Misaddressed.ownEdit
  cases hitem : rosterFindItem r jid with
  | some item =>
      rw [hitem, Option.map_some] at hfind
      dsimp only
      rw [viewRoster_edit (view_ownChange k)]
      cases k with
      | subscribe =>
          unfold GoRosterFamilies.ownEdit
          dsimp only
          rw [hfind]
          rfl
      | subscribed =>
          unfold GoRosterFamilies.ownEdit
          dsimp only
          rw [hfind]
          rfl
      | unsubscribe => rfl
      | unsubscribed => rfl
  | none =>
      rw [hitem, Option.map_none] at hfind
      cases k with
      | subscribe =>
          unfold GoRosterFamilies.ownEdit
          dsimp only [Misaddressed.addition]
          rw [hfind]
          exact viewRoster_add hitem hroom hjid (by decide) (by decide) true
      | subscribed =>
          unfold GoRosterFamilies.ownEdit
          dsimp only [Misaddressed.addition]
          rw [hfind]
          exact viewRoster_add hitem hroom hjid (by decide) (by decide) false
      | unsubscribe => exact (GoRosterFamilies.update_of_find_none hfind).symm
      | unsubscribed => exact (GoRosterFamilies.update_of_find_none hfind).symm

end

/-! ## What a file keeps -/

/-- The subscriptions of the state machine. -/
def stances : List Str := ["none", "to", "from", "both"]

/-- The strings of the item can stand in a document, and it has one of these subscriptions. -/
structure Sound (i : Item) : Prop where
  jid : ∀ c ∈ i.jid, XmlReader.isLegal c = true
  name : ∀ c ∈ i.name, XmlReader.isLegal c = true
  stance : i.subscription ∈ stances

/-- The JID and the name have no character that the roster file of the Go server changes. -/
def PlainNames (isPrint : Char → Bool) (i : Item) : Prop := (∀ c ∈ i.jid, Plain isPrint c) ∧ ∀ c ∈ i.name, Plain isPrint c

section
variable {i : Item}

theorem Sound.legal (h : Sound i) : LegalItem i := by
  have hall : ∀ s ∈ stances, (∀ c ∈ s, XmlReader.isLegal c = true) ∧ s ≠ [] := by
    simp only [stances, List.forall_mem_cons]
    refine ⟨⟨List.all_eq_true.mp (by decide), by decide⟩, ⟨List.all_eq_true.mp (by decide), by decide⟩,
      ⟨List.all_eq_true.mp (by decide), by decide⟩, ⟨List.all_eq_true.mp (by decide), by decide⟩, fun _ hs => by cases hs⟩
  exact ⟨h.jid, h.name, (hall _ h.stance).1, (hall _ h.stance).2⟩

/-- The letters of the subscriptions are printed as they are. -/
theorem Sound.plain_iff {isPrint : Char → Bool} (hprint : ∀ c ∈ stances.flatten, isPrint c = true) (h : Sound i) :
    PlainItem isPrint i ↔ PlainNames isPrint i := by
  have hspecial : ∀ c ∈ stances.flatten, c ∉ ['"', '\\', '<', '&', '\t', '\n', '\r'] := by
    have hall : (stances.flatten.all fun c => c ∉ ['"', '\\', '<', '&', '\t', '\n', '\r']) = true := by decide
    exact fun c hc => of_decide_eq_true (List.all_eq_true.mp hall c hc)
  have hsub : ∀ c ∈ i.subscription, Plain isPrint c := by
    intro c hc
    have hmem := List.mem_flatten.mpr ⟨i.subscription, h.stance, hc⟩
    exact ⟨hprint c hmem, hspecial c hmem⟩
  unfold PlainItem PlainNames
  rw [← and_assoc]
  exact and_iff_left hsub

theorem stance_turn (k : Kind) (h : i.subscription ∈ stances) : (otherTurn k i).subscription ∈ stances := by
  have hall : ∀ table ∈ [gainTo, loseFrom, loseTo], ∀ s ∈ stances,
      ((table.find? fun x => x.1 = s).map Prod.snd).getD s ∈ stances := by decide
  cases k with
  | subscribe => exact h
  | subscribed => exact hall gainTo (by decide) _ h
  | unsubscribe => exact hall loseFrom (by decide) _ h
  | unsubscribed => exact hall loseTo (by decide) _ h

theorem names_turn (k : Kind) (i : Item) : (otherTurn k i).jid = i.jid ∧ (otherTurn k i).name = i.name := by
  cases k with
  | subscribe => exact ⟨rfl, rfl⟩
  | subscribed => exact ⟨rfl, rfl⟩
  | unsubscribe => exact ⟨rfl, rfl⟩
  | unsubscribed => exact ⟨rfl, rfl⟩

theorem Sound.turn (k : Kind) (h : Sound i) : Sound (otherTurn k i) := by
  obtain ⟨hjid, hname⟩ := names_turn k i
  exact ⟨hjid ▸ h.jid, hname ▸ h.name, stance_turn k h.stance⟩

theorem plainNames_turn (isPrint : Char → Bool) (k : Kind) (i : Item) :
    PlainNames isPrint (otherTurn k i) ↔ PlainNames isPrint i := by
  obtain ⟨hjid, hname⟩ := names_turn k i
  unfold PlainNames
  rw [hjid, hname]

end

section
variable {r : GoSession.Roster} {jid : Str} {f : Item → Item} {P : Item → Prop}

theorem forall_update (hP : ∀ i, P i → P (f i)) (h : ∀ i ∈ r.items, P i) : ∀ i ∈ (r.update jid f).items, P i := by
  have hgo : ∀ l : List Item, (∀ i ∈ l, P i) → ∀ i ∈ Roster.update.go jid f l, P i := by
    intro l
    induction l with
    | nil => exact fun h => h
    | cons i is ih =>
        intro hl
        rw [List.forall_mem_cons] at hl
        rw [Roster.update.go]
        split
        · exact List.forall_mem_cons.mpr ⟨hP i hl.1, hl.2⟩
        · exact List.forall_mem_cons.mpr ⟨hl.1, ih hl.2⟩
  exact hgo r.items h

theorem forall_update_iff (hP : ∀ i, P (f i) ↔ P i) : (∀ i ∈ (r.update jid f).items, P i) ↔ ∀ i ∈ r.items, P i := by
  have hgo : ∀ l : List Item, (∀ i ∈ Roster.update.go jid f l, P i) ↔ ∀ i ∈ l, P i := by
    intro l
    induction l with
    | nil => exact Iff.rfl
    | cons i is ih =>
        rw [Roster.update.go]
        split
        · rw [List.forall_mem_cons, List.forall_mem_cons, hP]
        · rw [List.forall_mem_cons, List.forall_mem_cons, ih]
  exact hgo r.items

/-- A roster is read back as it was written exactly if all its JIDs and names are plain. -/
theorem reread_iff {isPrint : Char → Bool} (hprint : ∀ c ∈ stances.flatten, isPrint c = true) (hl : r.loaded = true)
    (hs : ∀ i ∈ r.items, Sound i) : reread isPrint r = r ↔ ∀ i ∈ r.items, PlainNames isPrint i := by
  have hr : ({ items := r.items, loaded := true } : GoSession.Roster) = r := by rw [← hl]
  have hround := @GoRosterFile.roster_round_trip_iff isPrint r fun i hi => (hs i hi).legal
  rw [hr] at hround
  unfold reread
  rw [hround]
  exact forall_congr' fun i => imp_congr_right fun hi => (hs i hi).plain_iff hprint

end

/-! ## One stanza -/

/-- A subscription stanza of one user to another, as both servers read it. -/
structure Message (domain : Str) where
  kind : Kind
  sender : Str
  target : Str
  resource : Option Str
  dest : CString
  address : Address dest target domain resource
  fits : Fits target domain resource
  tree : Node
  name : tree.name = "presence"
  type : tree.prop "type" = typeOf kind
  dest_tree : tree.prop "to" = dest.str
  node : XmlNode
  node_name : node.name = ("presence" : Str)
  node_type : node.attr "type" = typeOf kind
  dest_node : node.attr "to" = dest.str
  oracle : Oracle

/-- The C server is given the stanza by the session of the sender. -/
def serve {domain : Str} (srv : Server) (m : Message domain) : Server :=
  match srv.sessionFindByJid (RosterFamilies.address srv m.sender) with
  | some i => stanzaRoute srv i m.oracle m.tree
  | none => srv

section
variable (isPrint : Char → Bool) (outside : ℕ → (c : Call) → Result c) (sessions : ℕ → GoSession.Session) {domain : Str}

/-- The Go server is. -/
def goServe (w : World) (m : Message domain) : World :=
  match w.registry (GoRosterFamilies.address domain m.sender) with
  | some t => ((GoStanza.route domain t (sessions t) m.node).exec (answer isPrint outside t) w).2.1
  | none => w

end

/-- The rosters of all users are the same, item by item. -/
def Agree (srv a : Server) (w : World) : Prop :=
  ∀ u, IsUser srv u → viewRoster (RosterFamilies.effective a u) = GoRosterFamilies.effective w srv.cfg.domain.str u

/-- The servers have the same rosters, and no session is two users'. -/
structure Common (srv : Server) (w : World) : Prop where
  home : AtHome srv
  domain : srv.cfg.domain.str ≠ []
  apart : GoRosterFamilies.Apart w.registry
  agree : Agree srv srv w
  sound : ∀ u, IsUser srv u → ∀ i ∈ (GoRosterFamilies.effective w srv.cfg.domain.str u).items, Sound i

/-- Both are users, and the sender has bound a resource in both servers. -/
structure Sends (srv : Server) (w : World) (sessions : ℕ → GoSession.Session) (m : Message srv.cfg.domain.str) : Prop where
  sender : IsUser srv m.sender
  target : IsUser srv m.target
  bound : ∃ i, srv.sessionFindByJid (RosterFamilies.address srv m.sender) = some i ∧ (srv.sess i).isActive = true
  goBound : ∃ t, w.registry (GoRosterFamilies.address srv.cfg.domain.str m.sender) = some t ∧ (sessions t).jidLocal = m.sender ∧
    (sessions t).jidDomain = srv.cfg.domain.str ∧ (sessions t).isActive = true

/-- The roster of the sender has room for an item. -/
def Room {domain : Str} (srv : Server) (m : Message domain) : Prop :=
  (RosterFamilies.effective srv m.sender).items.length < maxRosterItems

/-- The stanza changes no file of the Go server that is read again, or one that keeps what it is given. -/
def Kept (isPrint : Char → Bool) (srv : Server) (w : World) (m : Message srv.cfg.domain.str) : Prop :=
  m.kind = .subscribe ∨ (w.registry (GoRosterFamilies.address srv.cfg.domain.str m.target)).isSome = true ∨
    ∀ i ∈ (GoRosterFamilies.effective w srv.cfg.domain.str m.target).items, PlainNames isPrint i

/-- The servers after some stanzas, compared with the servers `srv` and `w` before. -/
structure Related (isPrint : Char → Bool) (srv : Server) (w : World) (a : Server) (b : World) : Prop where
  shows : RosterFamilies.Shows srv (RosterFamilies.effective a) a
  goShows : GoRosterFamilies.Shows w.registry srv.cfg.domain.str (GoRosterFamilies.effective b srv.cfg.domain.str) b
  agree : Agree srv a b
  sound : ∀ u, IsUser srv u → w.registry (GoRosterFamilies.address srv.cfg.domain.str u) = none →
    ∀ i ∈ (GoRosterFamilies.effective b srv.cfg.domain.str u).items, Sound i
  names : ∀ u, IsUser srv u → w.registry (GoRosterFamilies.address srv.cfg.domain.str u) = none →
    ((∀ i ∈ (GoRosterFamilies.effective b srv.cfg.domain.str u).items, PlainNames isPrint i) ↔
      ∀ i ∈ (GoRosterFamilies.effective w srv.cfg.domain.str u).items, PlainNames isPrint i)

section
variable {isPrint : Char → Bool} {outside : ℕ → (c : Call) → Result c} {sessions : ℕ → GoSession.Session}
  {srv a : Server} {w b : World} {m : Message srv.cfg.domain.str}

theorem Common.related (hc : Common srv w) : Related isPrint srv w srv w :=
  ⟨.start srv, ⟨rfl, fun _ => rfl⟩, hc.agree, fun u hu _ => hc.sound u hu, fun _ _ _ => Iff.rfl⟩

/-- What the parser of the C server makes of the address. -/
theorem Message.parse (m : Message srv.cfg.domain.str) (ht : IsUser srv m.target) (hd : srv.cfg.domain.str ≠ []) (buf : Jid) :
    (jidParse buf m.dest.str).jid.bare.str = RosterFamilies.address srv m.target ∧
      (jidParse buf m.dest.str).jid.localpart.str = m.target := by
  have hjid := (m.address.parse buf).2 ht.plain.1 hd
  have hl : (snprintf 256 m.target).str = m.target := snprintf_fits m.fits.name
  have hdomain : (snprintf 256 srv.cfg.domain.str).str = srv.cfg.domain.str := snprintf_fits m.fits.host
  rw [hjid]
  refine ⟨?_, hl⟩
  unfold Jid.bare RosterFamilies.address
  rw [jidBare_str, hl, hdomain]

/-- What the Go server cuts out of it. -/
theorem Message.cut {domain : Str} (m : Message domain) :
    bareJID m.dest.str = GoRosterFamilies.address domain m.target ∧
      localPart (GoRosterFamilies.address domain m.target) = m.target := by
  have hslash : '/' ∉ GoRosterFamilies.address domain m.target := by
    unfold GoRosterFamilies.address
    rw [List.mem_append, List.mem_cons, not_or, not_or]
    exact ⟨m.address.slash, by decide, m.address.host⟩
  have hall : ∀ c ∈ GoRosterFamilies.address domain m.target, decide (c ≠ '/') = true :=
    fun c hc => decide_eq_true fun he => hslash (he ▸ hc)
  have hsign : ∀ c ∈ m.target, decide (c ≠ '@') = true := fun c hc => decide_eq_true fun he => m.address.sign (he ▸ hc)
  constructor
  · have heq : m.dest.str = GoRosterFamilies.address domain m.target ++ m.resource.elim [] ('/' :: ·) := by
      rw [m.address.eq, GoRosterFamilies.address, List.append_assoc, List.cons_append]
    unfold bareJID
    rw [heq, List.takeWhile_append_of_pos hall]
    cases m.resource with
    | none => exact List.append_nil _
    | some r => exact List.append_nil _
  · unfold localPart GoRosterFamilies.address
    rw [List.takeWhile_append_of_pos hsign]
    exact List.append_nil _

variable (hc : Common srv w) (hr : Related isPrint srv w a b) (hm : Sends srv w sessions m)
include hc hr hm

theorem served (hroom : Room a m) :
    RosterFamilies.Shows srv (RosterFamilies.exchanged srv m.kind m.sender m.target (RosterFamilies.effective a))
      (serve a m) := by
  obtain ⟨i, hi, hactive⟩ := hm.bound
  obtain ⟨hbare, hlocal⟩ := m.parse hm.target hc.domain (m.oracle.stack 0)
  have hbound : (a.sess i).isActive = true := by
    rw [hr.shows.steady.get Session.isActive (fun _ => rfl) i, hactive]
  unfold serve
  rw [hr.shows.found, hi]
  dsimp only
  rw [SubscriptionEffects.stanzaRoute_kind hbound m.name m.type, m.dest_tree]
  exact RosterFamilies.shows_handle hc.home hm.sender hm.target hi rfl hbare hlocal hr.shows m.kind hroom

variable (outside) in
theorem goServed : GoRosterFamilies.Shows w.registry srv.cfg.domain.str
    (GoRosterFamilies.exchanged isPrint w.registry srv.cfg.domain.str m.kind m.sender m.target
      (GoRosterFamilies.effective b srv.cfg.domain.str)) (goServe isPrint outside sessions b m) := by
  obtain ⟨t, ht, hlocal, hdomain, hactive⟩ := hm.goBound
  obtain ⟨hleads, hother⟩ := m.cut
  have hbare : (sessions t).bareJID = GoRosterFamilies.address srv.cfg.domain.str m.sender := by
    unfold Session.bareJID GoRosterFamilies.address
    rw [hlocal, hdomain, if_neg hm.sender.plain.1]
  unfold goServe
  rw [hr.goShows.registry, ht]
  exact GoRosterFamilies.triple_route ⟨hc.apart, ht, hlocal, hbare, hleads, hother⟩ hr.goShows.loaded m.kind hactive m.node_name
    m.node_type m.dest_node srv.cfg.domain.str b hr.goShows

omit hc in
/-- What both servers make of the rosters differs at the target only. -/
theorem exchanged_view (hroom : Room a m) (u : Str) (hu : IsUser srv u) :
    GoRosterFamilies.exchanged isPrint w.registry srv.cfg.domain.str m.kind m.sender m.target
        (GoRosterFamilies.effective b srv.cfg.domain.str) u =
      if u = m.target then settle isPrint (w.registry (GoRosterFamilies.address srv.cfg.domain.str m.target)).isSome m.kind
        (viewRoster (RosterFamilies.exchanged srv m.kind m.sender m.target (RosterFamilies.effective a) u))
      else viewRoster (RosterFamilies.exchanged srv m.kind m.sender m.target (RosterFamilies.effective a) u) := by
  have hshort : List.length (RosterFamilies.address srv m.target) < 512 := by
    have hl := m.fits.name
    have hd := m.fits.host
    unfold RosterFamilies.address
    rw [List.length_append, List.length_cons]
    omega
  have hown : ∀ v, IsUser srv v → viewRoster (Function.update (RosterFamilies.effective a) m.sender
      (Misaddressed.ownEdit m.kind (RosterFamilies.address srv m.target) (RosterFamilies.effective a m.sender)) v) =
      Function.update (GoRosterFamilies.effective b srv.cfg.domain.str) m.sender
        (GoRosterFamilies.ownEdit m.kind (GoRosterFamilies.address srv.cfg.domain.str m.target)
          (GoRosterFamilies.effective b srv.cfg.domain.str m.sender)) v := by
    intro v hv
    by_cases hne : v = m.sender
    · rw [hne, Function.update_self, Function.update_self, viewRoster_ownEdit m.kind hroom hshort, hr.agree _ hm.sender]
      rfl
    · rw [Function.update_of_ne hne, Function.update_of_ne hne, hr.agree v hv]
  unfold GoRosterFamilies.exchanged RosterFamilies.exchanged
  by_cases hne : u = m.target
  · rw [if_pos hne, hne, Function.update_self, Function.update_self, viewRoster_edit (view_otherChange m.kind),
      hown _ hm.target]
    rfl
  · rw [if_neg hne, Function.update_of_ne hne, Function.update_of_ne hne, hown u hu]

omit hc hr in
/-- A user without a session has sent nothing. -/
theorem ne_sender {u : Str} (hu : w.registry (GoRosterFamilies.address srv.cfg.domain.str u) = none) : u ≠ m.sender := by
  obtain ⟨t, ht, -⟩ := hm.goBound
  intro he
  rw [he, ht] at hu
  cases hu

omit hc in
/-- The roster of a target without a session, as the C server leaves it. -/
theorem exchanged_target (hu : w.registry (GoRosterFamilies.address srv.cfg.domain.str m.target) = none) :
    viewRoster (RosterFamilies.exchanged srv m.kind m.sender m.target (RosterFamilies.effective a) m.target) =
      (GoRosterFamilies.effective b srv.cfg.domain.str m.target).update (RosterFamilies.address srv m.sender)
        (otherTurn m.kind) := by
  unfold RosterFamilies.exchanged
  rw [Function.update_self, Function.update_of_ne (ne_sender hm hu), viewRoster_edit (view_otherChange m.kind),
    hr.agree _ hm.target]

omit hc in
/-- It is kept exactly if its names and JIDs are. -/
theorem settled_iff (hprint : ∀ c ∈ stances.flatten, isPrint c = true) :
    settle isPrint (w.registry (GoRosterFamilies.address srv.cfg.domain.str m.target)).isSome m.kind
        (viewRoster (RosterFamilies.exchanged srv m.kind m.sender m.target (RosterFamilies.effective a) m.target)) =
        viewRoster (RosterFamilies.exchanged srv m.kind m.sender m.target (RosterFamilies.effective a) m.target) ↔
      Kept isPrint srv w m := by
  unfold settle Kept
  by_cases hsame : (w.registry (GoRosterFamilies.address srv.cfg.domain.str m.target)).isSome = true ∨ m.kind = .subscribe
  · rw [if_pos hsame]
    exact iff_of_true rfl (hsame.elim (fun h => .inr (.inl h)) .inl)
  · rw [if_neg hsame]
    rw [not_or, Bool.not_eq_true, Option.isSome_eq_false_iff, Option.isNone_iff_eq_none] at hsame
    obtain ⟨hoffline, hkind⟩ := hsame
    have hsound : ∀ i ∈ ((GoRosterFamilies.effective b srv.cfg.domain.str m.target).update (RosterFamilies.address srv m.sender)
        (otherTurn m.kind)).items, Sound i := forall_update (fun _ => Sound.turn m.kind) (hr.sound _ hm.target hoffline)
    have hloaded : ((GoRosterFamilies.effective b srv.cfg.domain.str m.target).update (RosterFamilies.address srv m.sender)
        (otherTurn m.kind)).loaded = true := GoRosterFamilies.effective_loaded b srv.cfg.domain.str m.target
    rw [exchanged_target hr hm hoffline, reread_iff hprint hloaded hsound, forall_update_iff (plainNames_turn isPrint m.kind),
      hr.names _ hm.target hoffline, hoffline]
    simp [hkind]

/-- A stanza that is kept leaves the servers as alike as they were. -/
theorem related_step (hprint : ∀ c ∈ stances.flatten, isPrint c = true) (hroom : Room a m) (hkept : Kept isPrint srv w m) :
    Related isPrint srv w (serve a m) (goServe isPrint outside sessions b m) := by
  have hserved := served hc hr hm hroom
  have hgo := goServed outside hc hr hm
  have hview := exchanged_view hr hm hroom
  have hsettled := (settled_iff hr hm hprint).mpr hkept
  have hagree : Agree srv (serve a m) (goServe isPrint outside sessions b m) := by
    intro u hu
    rw [hserved.shown u hu, hgo.shown u, hview u hu]
    split
    · next hu => rw [hu, hsettled]
    · rfl
  have hoffline : ∀ u, IsUser srv u → w.registry (GoRosterFamilies.address srv.cfg.domain.str u) = none →
      GoRosterFamilies.effective (goServe isPrint outside sessions b m) srv.cfg.domain.str u =
        if u = m.target then (GoRosterFamilies.effective b srv.cfg.domain.str u).update (RosterFamilies.address srv m.sender)
          (otherTurn m.kind)
        else GoRosterFamilies.effective b srv.cfg.domain.str u := by
    intro u hu hnone
    split
    · next ht =>
      rw [← hagree u hu, hserved.shown u hu, ht]
      rw [ht] at hnone
      exact exchanged_target hr hm hnone
    · next ht =>
      rw [hgo.shown u]
      unfold GoRosterFamilies.exchanged
      rw [Function.update_of_ne ht, Function.update_of_ne (ne_sender hm hnone)]
  refine ⟨⟨hserved.toSamePlaces, hserved.steady, fun _ _ => rfl⟩, ⟨hgo.registry, fun _ => rfl⟩, hagree, ?_, ?_⟩
  · intro u hu hnone
    rw [hoffline u hu hnone]
    split
    · exact forall_update (fun _ => Sound.turn m.kind) (hr.sound u hu hnone)
    · exact hr.sound u hu hnone
  · intro u hu hnone
    rw [hoffline u hu hnone, ← hr.names u hu hnone]
    split
    · exact forall_update_iff (plainNames_turn isPrint m.kind)
    · exact Iff.rfl

/-- Any other stanza is seen at once. -/
theorem not_agree_step (hprint : ∀ c ∈ stances.flatten, isPrint c = true) (hroom : Room a m) (hlost : ¬Kept isPrint srv w m) :
    ¬Agree srv (serve a m) (goServe isPrint outside sessions b m) := by
  intro hagree
  have hsame := hagree _ hm.target
  rw [(served hc hr hm hroom).shown _ hm.target, (goServed outside hc hr hm).shown,
    exchanged_view hr hm hroom _ hm.target, if_pos rfl] at hsame
  exact hlost ((settled_iff hr hm hprint).mp hsame.symm)

end

/-- The servers have the same rosters after each of some subscription stanzas exactly if
every one of them is kept. -/
theorem rosters_alike_iff (isPrint : Char → Bool) (hprint : ∀ c ∈ stances.flatten, isPrint c = true)
    (outside : ℕ → (c : Call) → Result c) (sessions : ℕ → GoSession.Session) {srv : Server} {w : World} (hc : Common srv w)
    (ms : List (Message srv.cfg.domain.str)) (hms : ∀ m ∈ ms, Sends srv w sessions m) (hroom : Along serve Room srv ms) :
    Alike serve (goServe isPrint outside sessions) (Agree srv) srv w ms ↔ ∀ m ∈ ms, Kept isPrint srv w m := by
  have hkeep : ∀ a b m, Related isPrint srv w a b → Sends srv w sessions m ∧ Room a m → Kept isPrint srv w m →
      Related isPrint srv w (serve a m) (goServe isPrint outside sessions b m) :=
    fun a b m hr hm hkept => related_step hc hr hm.1 hprint hm.2 hkept
  have hbreak : ∀ a b m, Related isPrint srv w a b → Sends srv w sessions m ∧ Room a m → ¬Kept isPrint srv w m →
      ¬Agree srv (serve a m) (goServe isPrint outside sessions b m) :=
    fun a b m hr hm hlost => not_agree_step hc hr hm.1 hprint hm.2 hlost
  exact alike_iff (fun _ _ hr => hr.agree) hkeep hbreak hc.related (hroom.and_forall hms)

/-- A user has a directory. -/
theorem user_listed {srv : Server} {d : FileTree.Path} {u : Str} (hu : IsUser srv u) (hhome : home srv = some d)
    (hroom : srv.cfg.datadir.str.length ≤ 1000) : u ∈ srv.files.readdir d := by
  obtain ⟨p, hp, hwritable⟩ := hu.saves
  obtain ⟨d', hd, he⟩ := locate_plain hu.plain hu.short (by decide) (by decide) (by decide) hp
  obtain rfl : d = d' := Option.some.inj (hhome.symm.trans hd)
  have hspare : ¬spare srv.cfg u ≤ 1 := by
    have hshort := hu.short
    unfold spare
    omega
  rw [if_neg hspare] at he
  unfold FileTree.Tree.writable at hwritable
  rw [he, List.append_cons, List.dropLast_concat, Bool.and_eq_true] at hwritable
  by_contra hmissing
  have hnone := isDir_unlisted srv.files hu.plain.2.2.2 hmissing
  rw [hnone] at hwritable
  cases hwritable.1

/-! ## Withdrawals from users who are away -/

section

/-- A user who is subscribed to alice and has given her a name. -/
def contactRoster (name : Str) : ServerState.Roster :=
  rosterAddItem (loadContent none) "alice@localhost" (some name) (some "to") false

/-- Bob and carol are away. -/
def contactServer : Server :=
  { aliceBound with
    files := (aliceBound.files.put [("data" : Str), "bob", "roster.xml"] (.file (saveContent (contactRoster "R&D")))).put
      [("data" : Str), "carol", "roster.xml"] (.file (saveContent (contactRoster "Alice"))) }

def contactFile (name : Str) : Str :=
  ("<?xml version=\"1.0\"?>\n<roster>\n  <item jid=\"alice@localhost\" name=\"" : Str) ++
    (name ++ ("\" subscription=\"to\"/>\n</roster>\n" : Str))

/-- The same users in the Go server. -/
def contactWorld : World where
  registry := fun j => if j = ("alice@localhost" : Str) then some 0 else none
  jid := fun _ => []
  rosters := fun _ => {}
  rosterFiles := fun u =>
    if u = ("bob" : Str) then some (contactFile "R&amp;D") else if u = ("carol" : Str) then some (contactFile "Alice") else none
  offline := fun _ => none
  closed := fun _ => false
  log := []
  reading := fun _ => none
  replaced := fun _ => false
  clock := 0

def contactSessions (_ : ℕ) : GoSession.Session :=
  { jidLocal := "alice", jidDomain := "localhost", jidResource := "r", state := .bound, authenticated := true }

def aliceItem (name : Str) : Item := { jid := "alice@localhost", name := name, subscription := "to", askSubscribe := false }

/-- The users, and what is in their rosters. -/
def contacts : List (Str × List Item) := [("alice", []), ("bob", [aliceItem "R&D"]), ("carol", [aliceItem "Alice"])]

/-- What both servers say of them, evaluated once. -/
theorem contact_facts :
    (contactServer.cfg.domain.str = "localhost" ∧ home contactServer = some [("data" : Str)] ∧
        contactServer.cfg.datadir.str.length ≤ 1000 ∧
        contactServer.files.readdir [("data" : Str)] = contacts.map Prod.fst ∧
        contactServer.sessionFindByJid (RosterFamilies.address contactServer "alice") = some 0 ∧
        (contactServer.sess 0).isActive = true ∧
        (RosterFamilies.effective contactServer "alice").items.length < maxRosterItems) ∧
      ∀ x ∈ contacts, Saves contactServer x.1 ∧
        viewRoster (RosterFamilies.effective contactServer x.1) =
          GoRosterFamilies.effective contactWorld contactServer.cfg.domain.str x.1 ∧
        (GoRosterFamilies.effective contactWorld contactServer.cfg.domain.str x.1).items = x.2 := by
  decide +kernel

theorem contact_domain : contactServer.cfg.domain.str = "localhost" := contact_facts.1.1

/-- Alice withdraws from a user. -/
def withdrawal {dest : CString} {target : Str} (ha : Address dest target "localhost" none) (hl : target.length < 256) :
    Message contactServer.cfg.domain.str where
  kind := .unsubscribe
  sender := "alice"
  target := target
  resource := none
  dest := dest
  address := contact_domain ▸ ha
  fits := ⟨hl, contact_domain ▸ by decide, by decide⟩
  tree := withdrawalFrom dest.str
  name := rfl
  type := rfl
  dest_tree := rfl
  node := .mk "presence" "jabber:client" [⟨"type", [], "unsubscribe"⟩, ⟨"to", [], dest.str⟩] [] []
  node_name := rfl
  node_type := rfl
  dest_node := rfl
  oracle := exampleOracle

def carolDest : CString := ⟨"carol@localhost", by decide, by decide⟩

theorem carolDest_address : Address carolDest "carol" "localhost" none := ⟨by decide, by decide, by decide, by decide⟩

def fromBob : Message contactServer.cfg.domain.str := withdrawal bobDest_address (by decide)

def fromCarol : Message contactServer.cfg.domain.str := withdrawal carolDest_address (by decide)

theorem alice_contact : (("alice", []) : Str × List Item) ∈ contacts := .head _

theorem bob_contact : (("bob", [aliceItem "R&D"]) : Str × List Item) ∈ contacts := .tail _ (.head _)

theorem carol_contact : (("carol", [aliceItem "Alice"]) : Str × List Item) ∈ contacts := .tail _ (.tail _ (.head _))

/-- What holds of the three users holds of all users. -/
theorem contact_users {P : Str → Prop} (h : ∀ x ∈ contacts, P x.1) : ∀ u, IsUser contactServer u → P u := by
  obtain ⟨⟨-, hhome, hroom, hlisted, -⟩, -⟩ := contact_facts
  intro u hu
  have hmem := user_listed hu hhome hroom
  rw [hlisted] at hmem
  obtain ⟨x, hx, rfl⟩ := List.mem_map.mp hmem
  exact h x hx

theorem contact_items {x : Str × List Item} (hx : x ∈ contacts) :
    (GoRosterFamilies.effective contactWorld contactServer.cfg.domain.str x.1).items = x.2 := (contact_facts.2 x hx).2.2

theorem printable_stances : ∀ c ∈ stances.flatten, GoRosterFile.printable c = true := List.all_eq_true.mp (by decide)

theorem alice_plain : PlainNames GoRosterFile.printable (aliceItem "Alice") := by
  have hall : ∀ s : Str, (s.all fun c => GoRosterFile.printable c ∧ c ∉ ['"', '\\', '<', '&', '\t', '\n', '\r']) = true →
      ∀ c ∈ s, Plain GoRosterFile.printable c := by
    intro s hs c hc
    have hone := of_decide_eq_true (List.all_eq_true.mp hs c hc)
    exact hone
  exact ⟨hall _ (by decide), hall _ (by decide)⟩

theorem contact_common : Common contactServer contactWorld := by
  have hitem : ∀ name : Str, (∀ c ∈ name, XmlReader.isLegal c = true) → Sound (aliceItem name) := by
    have hjid : ∀ c ∈ ("alice@localhost" : Str), XmlReader.isLegal c = true := List.all_eq_true.mp (by decide)
    have hstance : ("to" : Str) ∈ stances := by decide
    exact fun name hn => ⟨hjid, hn, hstance⟩
  refine ⟨atHome_files aliceBound_home _, by rw [contact_domain]; decide, ?_, ?_, ?_⟩
  · intro j k t hj hk
    simp only [contactWorld, Option.ite_none_right_eq_some] at hj hk
    rw [hj.1, hk.1]
  · exact contact_users fun x hx => (contact_facts.2 x hx).2.1
  · apply contact_users
    intro x hx
    rw [contact_items hx]
    simp only [contacts, List.mem_cons, List.not_mem_nil, or_false] at hx
    rcases hx with rfl | rfl | rfl
    · exact fun i hi => by cases hi
    · rw [List.forall_mem_singleton]
      exact hitem _ (List.all_eq_true.mp (by decide))
    · rw [List.forall_mem_singleton]
      exact hitem _ (List.all_eq_true.mp (by decide))

/-- Alice can write to another user. -/
theorem contact_sends {dest : CString} {target : Str} (ha : Address dest target "localhost" none) (hl : target.length < 256)
    (ht : IsUser contactServer target) : Sends contactServer contactWorld contactSessions (withdrawal ha hl) := by
  obtain ⟨⟨-, -, -, -, hbound, hactive, -⟩, hcontacts⟩ := contact_facts
  have halice : IsUser contactServer "alice" :=
    ⟨⟨by decide, by decide, by decide, by decide⟩, by decide, by decide, (hcontacts _ alice_contact).1⟩
  have hfound : contactWorld.registry (GoRosterFamilies.address contactServer.cfg.domain.str "alice") = some 0 := by
    rw [contact_domain]
    rfl
  exact ⟨halice, ht, ⟨0, hbound, hactive⟩, 0, hfound, rfl, contact_domain.symm, rfl⟩

theorem contact_room {dest : CString} {target : Str} (ha : Address dest target "localhost" none) (hl : target.length < 256) :
    Along serve Room contactServer [withdrawal ha hl] := by
  obtain ⟨⟨-, -, -, -, -, -, hroom⟩, -⟩ := contact_facts
  exact ⟨hroom, trivial⟩

set_option maxRecDepth 20000 in
/-- A contact without special characters is kept. -/
theorem withdrawal_from_carol :
    Alike serve (goServe GoRosterFile.printable plainOutside contactSessions) (Agree contactServer) contactServer contactWorld
      [fromCarol] := by
  have hcarol : IsUser contactServer "carol" :=
    ⟨⟨by decide, by decide, by decide, by decide⟩, by decide, by decide, (contact_facts.2 _ carol_contact).1⟩
  have hsends : ∀ m ∈ [fromCarol], Sends contactServer contactWorld contactSessions m := by
    rw [List.forall_mem_singleton]
    exact contact_sends _ _ hcarol
  apply (rosters_alike_iff GoRosterFile.printable printable_stances plainOutside contactSessions contact_common [fromCarol]
    hsends (contact_room _ _)).mpr
  rw [List.forall_mem_singleton]
  refine .inr (.inr ?_)
  intro i hi
  have hone := List.mem_singleton.mp (contact_items carol_contact ▸ hi)
  exact hone ▸ alice_plain

set_option maxRecDepth 20000 in
/-- A contact with an ampersand in its name costs bob his roster. -/
theorem withdrawal_from_bob :
    ¬∀ (isPrint : Char → Bool) (outside : ℕ → (c : Call) → Result c) (sessions : ℕ → GoSession.Session) (srv : Server) (w : World)
      (ms : List (Message srv.cfg.domain.str)), (∀ c ∈ stances.flatten, isPrint c = true) → Common srv w →
      (∀ m ∈ ms, Sends srv w sessions m) → Along serve Room srv ms →
      Alike serve (goServe isPrint outside sessions) (Agree srv) srv w ms := by
  intro h
  have hbob : IsUser contactServer "bob" :=
    ⟨⟨by decide, by decide, by decide, by decide⟩, by decide, by decide, (contact_facts.2 _ bob_contact).1⟩
  have hsends : ∀ m ∈ [fromBob], Sends contactServer contactWorld contactSessions m := by
    rw [List.forall_mem_singleton]
    exact contact_sends _ _ hbob
  have halike := h GoRosterFile.printable plainOutside contactSessions contactServer contactWorld [fromBob] printable_stances
    contact_common hsends (contact_room _ _)
  have hkept := (rosters_alike_iff GoRosterFile.printable printable_stances plainOutside contactSessions contact_common [fromBob]
    hsends (contact_room _ _)).mp halike fromBob (List.mem_singleton_self _)
  have hmem : aliceItem "R&D" ∈ (GoRosterFamilies.effective contactWorld contactServer.cfg.domain.str "bob").items := by
    rw [contact_items bob_contact]
    exact List.mem_singleton_self _
  have haway : contactWorld.registry (GoRosterFamilies.address contactServer.cfg.domain.str "bob") = none := by
    rw [contact_domain]
    rfl
  have hspecial : ¬Plain GoRosterFile.printable '&' := by
    unfold Plain
    decide
  rcases hkept with hkind | honline | hplain
  · cases hkind
  · rw [show fromBob.target = ("bob" : Str) from rfl, haway] at honline
    cases honline
  · exact hspecial ((hplain _ hmem).2 '&' (by decide))

end

end Xmppd.SubscriptionAgreement
