import Xmppd.RosterTraffic
import Xmppd.Accounts
import Xmppd.Entries

/-!
# The ledger of a server

The rosters of all users make up one ledger. In runs of logins, presence and
roster requests, with one session for every user, every stanza moves the ledger
by the operations it stands for, wherever the rosters concerned are held. What
holds of the ledger after every operation therefore holds in every state.
-/
namespace Xmppd.Subscriptions
open CStrings FileTree LibXml Util ServerState User Roster Message Presence Streams Auth Stanza EventLoop
open Frames Evolution RosterStore Offline RosterItems Coherence RosterTraffic Accounts Entries Grants Installation

/-- The address that a roster set removes. -/
def removedJid (stanza : Node) : Option Str :=
  if stanza.prop "type" = "set" then
    ((stanza.findChild "query").bind fun q => q.findChild "item").bind fun item =>
      if item.getProp "subscription" = some "remove" then item.getProp "jid" else none
  else none

def isSubscription (type : Str) : Bool :=
  type = "subscribe" ∨ type = "subscribed" ∨ type = "unsubscribe" ∨ type = "unsubscribed"

/-- The circumstances in which stanzas are handled here: sessions are logged in
under names of users, one for each user, saves go through, the sender's roster
has room, and subscription stanzas are addressed to users. -/
structure Setting (srv : Server) (i : ℕ) (stanza : Node) : Prop where
  traffic : Traffic srv i stanza
  users : ∀ s ∈ srv.sessions, s.authenticated = true → (Username.ofStr s.jidLocal.str).isSome = true
  saves : ∀ s ∈ srv.sessions, s.authenticated = true → Saves srv s.jidLocal.str
  single : ∀ s ∈ srv.sessions, ∀ t ∈ srv.sessions, s.authenticated = true → t.authenticated = true →
    s.jidLocal = t.jidLocal → s.id = t.id
  capacity : (srv.sess i).authenticated = true →
    (rosterLoadForUser srv (srv.sess i).jidLocal.str).items.length < maxRosterItems
  addressed : stanza.name = "presence" → isSubscription (stanza.prop "type") = true →
    ∃ b ∈ addressee srv.cfg (stanza.prop "to"), Saves srv b.str

instance decidableSetting (srv : Server) (i : ℕ) (stanza : Node) : Decidable (Setting srv i stanza) :=
  decidable_of_iff
    (Traffic srv i stanza ∧
      (∀ s ∈ srv.sessions, s.authenticated = true → (Username.ofStr s.jidLocal.str).isSome = true) ∧
      (∀ s ∈ srv.sessions, s.authenticated = true → Saves srv s.jidLocal.str) ∧
      (∀ s ∈ srv.sessions, ∀ t ∈ srv.sessions, s.authenticated = true → t.authenticated = true →
        s.jidLocal = t.jidLocal → s.id = t.id) ∧
      ((srv.sess i).authenticated = true →
        (rosterLoadForUser srv (srv.sess i).jidLocal.str).items.length < maxRosterItems) ∧
      (stanza.name = "presence" → isSubscription (stanza.prop "type") = true →
        ∃ b ∈ addressee srv.cfg (stanza.prop "to"), Saves srv b.str))
    ⟨fun h => ⟨h.1, h.2.1, h.2.2.1, h.2.2.2.1, h.2.2.2.2.1, h.2.2.2.2.2⟩,
      fun h => ⟨h.traffic, h.users, h.saves, h.single, h.capacity, h.addressed⟩⟩

theorem rosterChange_removed {stanza : Node} {jid : Str} (h : removedJid stanza = some jid) :
    rosterChange stanza = fun r => rosterRemoveItem r jid := by
  unfold removedJid at h
  split_ifs at h with ht
  obtain ⟨item, hi, hj⟩ := Option.bind_eq_some_iff.mp h
  split_ifs at hj with hr
  funext r
  simp only [rosterChange, ht, hi, hj, hr, if_true]

/-! ## Ledgers and disks -/

def ledgerOf (cfg : Config) (disk : Str → Roster) : Ledger Username :=
  fun a b => entry (disk a.str) (bareOf cfg b).str

/-- What the rosters of all users say. -/
def ledger (srv : Server) : Ledger Username := ledgerOf srv.cfg (rosterLoadForUser srv)

def TidyDisk (cfg : Config) (disk : Str → Roster) : Prop := ∀ u : Username, Tidy (IsLocal cfg) (disk u.str)

theorem bareOf_str_eq {cfg : Config} {u v : Username} : (bareOf cfg u).str = (bareOf cfg v).str ↔ u = v :=
  ⟨fun h => bareOf_inj (Buf.ext h), fun h => by rw [h]⟩

section
variable {srv : Server} {a b : Username} {f : Roster → Roster} {disk : Str → Roster}

theorem editAt_user (hs : Saves srv a.str) (x : Username) :
    editAt srv a.str f disk x.str = if x = a then f (disk x.str) else disk x.str := by
  obtain ⟨p, hp, -⟩ := hs
  unfold editAt
  by_cases h : x = a
  · rw [h, if_pos rfl, if_pos rfl]
  · rw [if_neg h, if_neg]
    rw [hp]
    exact fun hx => h (rosterFile_inj hx hp)

theorem tidy_editAt {cfg : Config} (hs : Saves srv a.str) (hd : TidyDisk cfg disk)
    (hf : ∀ {r}, Tidy (IsLocal cfg) r → Tidy (IsLocal cfg) (f r)) :
    TidyDisk cfg (editAt srv a.str f disk) := by
  intro u
  rw [editAt_user hs]
  split_ifs
  · exact hf (hd u)
  · exact hd u

theorem ledgerOf_editAt {cfg : Config} (hs : Saves srv a.str) {g : Option Link → Option Link}
    (hf : ∀ other, entry (f (disk a.str)) other =
      if other = (bareOf cfg b).str then g (entry (disk a.str) other) else entry (disk a.str) other) :
    ledgerOf cfg (editAt srv a.str f disk) = amend (ledgerOf cfg disk) a b g := by
  funext x y
  unfold ledgerOf amend
  rw [editAt_user hs]
  by_cases hx : x = a
  · rw [if_pos hx, hx, hf]
    simp only [bareOf_str_eq, true_and]
  · rw [if_neg hx, if_neg fun h => hx h.1]

theorem ledgerOf_editAt_self {cfg : Config} (hs : Saves srv a.str)
    (hf : ∀ y : Username, entry (f (disk a.str)) (bareOf cfg y).str = entry (disk a.str) (bareOf cfg y).str) :
    ledgerOf cfg (editAt srv a.str f disk) = ledgerOf cfg disk := by
  funext x y
  unfold ledgerOf
  rw [editAt_user hs]
  split_ifs with hx
  · rw [hx, hf]
  · rfl

end

/-! ## Sessions of users -/

section
variable {srv : Server} {i : ℕ} {stanza : Node} (h : Setting srv i stanza)
include h

theorem Setting.orderly : Orderly srv := by
  refine ⟨h.saves, ?_⟩
  intro s hs t ht hsa hta hf
  obtain ⟨u, hu⟩ := Option.isSome_iff_exists.mp (h.users s hs hsa)
  obtain ⟨v, hv⟩ := Option.isSome_iff_exists.mp (h.users t ht hta)
  obtain ⟨p, hp, -⟩ := h.saves s hs hsa
  have hus := Username.ofStr_eq_some hu
  have hvs := Username.ofStr_eq_some hv
  have he : u = v := by
    have hpu : rosterFile srv u.str = some p := by rw [hus, hp]
    have hpv : rosterFile srv v.str = some p := by rw [hvs, ← hf, hp]
    exact rosterFile_inj hpu hpv
  exact h.single s hs t ht hsa hta (Buf.ext (by rw [← hus, ← hvs, he]))

omit h in
theorem find_user (ha : AtHome srv) {b : Username} {t : ℕ}
    (hf : srv.sessionFindByJid (bareOf srv.cfg b).str = some t) :
    srv.Live t ∧ (srv.sess t).authenticated = true ∧ (srv.sess t).jidLocal.str = b.str := by
  obtain ⟨s, hs, rfl, hne, hj⟩ := Server.sessionFindByJid_some hf
  have hau := (ha s hs).known hne
  rw [Server.sess_of_mem hs]
  refine ⟨Server.live_of_mem hs, hau, ?_⟩
  rw [Session.bareJid, (ha s hs).domain hau, jidBare_str, bareOf_str] at hj
  exact List.append_cancel_right hj

omit h in
theorem bareJid_user (ha : AtHome srv) (hl : srv.Live i) (hau : (srv.sess i).authenticated = true)
    {a : Username} (hu : (srv.sess i).jidLocal.str = a.str) : (srv.sess i).bareJid = bareOf srv.cfg a := by
  rw [Session.bareJid, (ha _ (Server.sess_mem hl).1).domain hau]
  exact congrArg (jidBare · srv.cfg.domain) (Buf.ext hu)

omit h in
theorem find_user_none (ha : AtHome srv) {b : Username}
    (hf : srv.sessionFindByJid (bareOf srv.cfg b).str = none) {s : Session} (hs : s ∈ srv.sessions)
    (hau : s.authenticated = true) : s.jidLocal.str ≠ b.str := by
  intro hj
  have hn := List.find?_eq_none.mp (Option.map_eq_none_iff.mp hf) s hs
  refine hn (decide_eq_true ⟨?_, ?_⟩)
  · rw [hj]
    exact b.ne_nil
  · rw [Session.bareJid, (ha s hs).domain hau, jidBare_str, bareOf_str, hj]

/-- The roster of a user is found where it is loaded. -/
theorem Setting.reaches (ha : AtHome srv) (hy : Synced srv) (hl : srv.Live i)
    (hau : (srv.sess i).authenticated = true) (o : Oracle) {b : Username}
    (hb : addressee srv.cfg (stanza.prop "to") = some b) (hs : Saves srv b.str)
    (theirs : RosterItem → RosterItem) : Reaches srv i (target o stanza) theirs := by
  have hbare : (target o stanza).bare = bareOf srv.cfg b := bare_addressee hb _
  have hloc : (target o stanza).localpart.str = b.str := congrArg Buf.str (jidParse_addressee hb _).1
  have hsame : ∀ s ∈ srv.sessions, s.authenticated = true →
      rosterFile srv s.jidLocal.str = rosterFile srv b.str → s.jidLocal.str = b.str := by
    intro s hm hsa hf
    obtain ⟨u, hu⟩ := Option.isSome_iff_exists.mp (h.users s hm hsa)
    obtain ⟨p, hp, -⟩ := hs
    have hus := Username.ofStr_eq_some hu
    have hpu : rosterFile srv u.str = some p := by rw [hus, hf, hp]
    have he : u = b := rosterFile_inj hpu hp
    rw [← hus, he]
  have hclosed : ∀ s ∈ srv.sessions, s.id = i ∨ s.roster.loaded = true → s.authenticated = true := by
    rintro s hm (hi | hld)
    · rw [← hi, Server.sess_of_mem hm] at hau
      exact hau
    · exact hy.closed s hm hld
  unfold Reaches
  rw [hbare, hloc]
  cases hf : srv.sessionFindByJid (bareOf srv.cfg b).str with
  | none =>
      right
      constructor
      · intro hne
        have hm := (Server.sess_mem hl).1
        refine find_user_none ha hf hm hau ?_
        have hj := congrArg Buf.str hne
        rw [Session.bareJid, (ha _ hm).domain hau, bareOf_str, jidBare_str] at hj
        exact (List.append_cancel_right hj).symm
      · intro s hm hor hfile
        exact absurd (hsame s hm (hclosed s hm hor) hfile) (find_user_none ha hf hm (hclosed s hm hor))
  | some t =>
      obtain ⟨hlt, hta, htj⟩ := find_user ha hf
      by_cases hor : t = i ∨ (srv.sess t).roster.loaded = true
      · exact Or.inl ⟨t, rfl, hor⟩
      · right
        have hone : ∀ s ∈ srv.sessions, s.authenticated = true → s.jidLocal.str = b.str → s.id = t := by
          intro s hm hsa hj
          obtain ⟨htm, hid⟩ := Server.sess_mem hlt
          rw [← hid]
          exact h.single s hm _ htm hsa hta (Buf.ext (hj.trans htj.symm))
        constructor
        · intro hne
          obtain ⟨hm, hid⟩ := Server.sess_mem hl
          refine hor (Or.inl ?_)
          rw [← hid]
          refine (hone _ hm hau ?_).symm
          have hj := congrArg Buf.str hne
          rw [Session.bareJid, (ha _ hm).domain hau, bareOf_str, jidBare_str] at hj
          exact (List.append_cancel_right hj).symm
        · intro s hm hs' hfile
          have hst := hone s hm (hclosed s hm hs') (hsame s hm (hclosed s hm hs') hfile)
          refine absurd ?_ hor
          rcases hs' with hi | hld
          · exact Or.inl (hst.symm.trans hi)
          · right
            rw [← hst, Server.sess_of_mem hm]
            exact hld

omit h in
/-- The target's roster is changed under the target's name. -/
theorem targetEdit_user (ha : AtHome srv) (o : Oracle) {b : Username}
    (hb : addressee srv.cfg (stanza.prop "to") = some b) (hs : Saves srv b.str) {f : Roster → Roster}
    {disk disk' : Str → Roster} (ht : TargetEdit srv (target o stanza) f disk disk') :
    disk' = editAt srv b.str f disk := by
  have hbare : (target o stanza).bare = bareOf srv.cfg b := bare_addressee hb _
  have hloc : (target o stanza).localpart.str = b.str := congrArg Buf.str (jidParse_addressee hb _).1
  unfold TargetEdit at ht
  rw [hbare, hloc] at ht
  rcases ht with ⟨t, hf, he⟩ | ⟨-, he⟩ | ⟨hn, -⟩
  · rw [he, (find_user ha hf).2.2]
  · exact he
  · exact absurd hs hn

end

/-! ## What a stanza does to the ledger -/

/-- The operations a stanza of user `a` can stand for. -/
def Means (cfg : Config) (a : Username) (stanza : Node) : Op Username → Prop
  | .note x _ => x = a
  | .accept x b => x = a ∧ stanza.name = "presence" ∧ stanza.prop "type" = "subscribed" ∧
      addressee cfg (stanza.prop "to") = some b
  | .leave x b => x = a ∧ stanza.name = "presence" ∧ stanza.prop "type" = "unsubscribe" ∧
      addressee cfg (stanza.prop "to") = some b
  | .expel x b => x = a ∧ stanza.name = "presence" ∧ stanza.prop "type" = "unsubscribed" ∧
      addressee cfg (stanza.prop "to") = some b
  | .erase x b => x = a ∧ RosterIq stanza ∧ removedJid stanza = some (bareOf cfg b).str

/-- The handler has left the rosters tidy and moved the ledger by such operations. -/
def Booked (srv : Server) (i : ℕ) (a : Username) (stanza : Node) (srv' : Server) : Prop :=
  ∃ (disk : Str → Roster) (ops : List (Op Username)), Updated srv i disk srv' ∧ TidyDisk srv.cfg disk ∧
    (∀ op ∈ ops, Means srv.cfg a stanza op) ∧
    ledgerOf srv.cfg disk = ops.foldl apply (ledger srv)

section
variable {srv srv' : Server} {i : ℕ} {a : Username} {stanza : Node} {disk : Str → Roster}
  (hu : Updated srv i disk srv') (ht : TidyDisk srv.cfg disk)
include hu ht

theorem Booked.none (hl : ledgerOf srv.cfg disk = ledger srv) : Booked srv i a stanza srv' :=
  ⟨disk, [], hu, ht, by simp, hl⟩

theorem Booked.one (op : Op Username) (hm : Means srv.cfg a stanza op)
    (hl : ledgerOf srv.cfg disk = apply (ledger srv) op) : Booked srv i a stanza srv' :=
  ⟨disk, [op], hu, ht, List.forall_mem_singleton.mpr hm, hl⟩

end

theorem amend_amend {U : Type} [DecidableEq U] (L : Ledger U) (a b : U) (f g : Option Link → Option Link) :
    amend (amend L a b f) a b g = amend L a b (g ∘ f) := by
  funext x y
  unfold amend
  split_ifs <;> rfl

section
variable {srv : Server} {i : ℕ} {stanza : Node} (h : Setting srv i stanza) (ha : AtHome srv) (hy : Synced srv)
  (htd : TidyDisk srv.cfg (rosterLoadForUser srv)) (hl : srv.Live i) (hau : (srv.sess i).authenticated = true)
  {a : Username} (hu : (srv.sess i).jidLocal.str = a.str) (o : Oracle)
include h hy htd hl hau hu

/-- A removal erases the entry for the user. -/
theorem rosterHandleIq_erases {b : Username} (hrj : removedJid stanza = some (bareOf srv.cfg b).str) :
    ∃ (disk : Str → Roster) (ops : List (Op Username)),
      Updated srv i disk (rosterHandleIq srv i o stanza) ∧ TidyDisk srv.cfg disk ∧
      (ops = [.erase a b] ∨ ops = [.erase a b, .note a b]) ∧
      ledgerOf srv.cfg disk = ops.foldl apply (ledger srv) := by
  have hs : Saves srv a.str := hu ▸ h.saves _ (Server.sess_mem hl).1 hau
  have hup := rosterHandleIq_updated h.orderly hy hl hau o stanza
  rw [hu, rosterChange_removed hrj] at hup
  have htidy := tidy_editAt hs htd fun h => tidy_rosterRemoveItem h (bareOf srv.cfg b).str
  have hent := entry_rosterRemoveItem (htd a) (bareOf srv.cfg b).str
  have hled : ∀ {g : Option Link → Option Link},
      entry (rosterRemoveItem (rosterLoadForUser srv a.str) (bareOf srv.cfg b).str) (bareOf srv.cfg b).str =
        g (entry (rosterLoadForUser srv a.str) (bareOf srv.cfg b).str) →
      ledgerOf srv.cfg (editAt srv a.str (fun r => rosterRemoveItem r (bareOf srv.cfg b).str)
        (rosterLoadForUser srv)) = amend (ledger srv) a b g := by
    intro g hg
    refine ledgerOf_editAt hs ?_
    intro other
    split_ifs with ho
    · rw [ho, hg]
    · obtain ⟨he, -⟩ | ⟨he, -⟩ := hent other
      · exact he
      · exact absurd he ho
  obtain ⟨-, hne⟩ | ⟨-, hnone | hbare⟩ := hent (bareOf srv.cfg b).str
  · exact absurd rfl hne
  · exact ⟨_, _, hup, htidy, Or.inl rfl, hled (g := fun _ => none) hnone⟩
  · refine ⟨_, _, hup, htidy, Or.inr rfl, ?_⟩
    rw [hled (g := fun _ => some .bare) hbare]
    exact (amend_amend (ledger srv) a b (fun _ => none) fun l => some (l.getD .bare)).symm

theorem rosterHandleIq_booked (hr : RosterIq stanza) : Booked srv i a stanza (rosterHandleIq srv i o stanza) := by
  have hs : Saves srv a.str := hu ▸ h.saves _ (Server.sess_mem hl).1 hau
  have hcap := hu ▸ h.capacity hau
  have hup := rosterHandleIq_updated h.orderly hy hl hau o stanza
  rw [hu] at hup
  have hsame : (∀ r, rosterChange stanza r = r) → Booked srv i a stanza (rosterHandleIq srv i o stanza) := by
    intro hid
    rw [editAt_id hid] at hup
    exact .none hup htd rfl
  by_cases ht : stanza.prop "type" = "set"
  swap
  · exact hsame fun r => by rw [rosterChange, if_neg ht]
  cases hi : (stanza.findChild "query").bind fun q => q.findChild "item" with
  | none => exact hsame fun r => by rw [rosterChange, if_pos ht, hi]
  | some item =>
  cases hj : item.getProp "jid" with
  | none => exact hsame fun r => by simp only [rosterChange, ht, hi, hj, if_true]
  | some jid =>
  by_cases hrem : item.getProp "subscription" = some "remove"
  · have hc : rosterChange stanza = fun r => rosterRemoveItem r jid := by
      funext r
      simp only [rosterChange, ht, hi, hj, hrem, if_true]
    have hrj : removedJid stanza = some jid := by
      simp only [removedJid, ht, hi, hrem, hj, if_true, Option.bind_some]
    rw [hc] at hup
    by_cases hb : ∃ b : Username, (bareOf srv.cfg b).str = jid
    · obtain ⟨b, rfl⟩ := hb
      obtain ⟨disk, ops, hu', htidy, hops, hled⟩ := rosterHandleIq_erases h hy htd hl hau hu o hrj
      refine ⟨disk, ops, hu', htidy, ?_, hled⟩
      have hmean : Means srv.cfg a stanza (.erase a b) := ⟨rfl, hr, hrj⟩
      rcases hops with rfl | rfl
      · exact List.forall_mem_singleton.mpr hmean
      · intro op hop
        rcases List.mem_cons.mp hop with rfl | hop
        · exact hmean
        · rw [List.mem_singleton.mp hop]
          rfl
    · refine .none hup (tidy_editAt hs htd fun h => tidy_rosterRemoveItem h jid) (ledgerOf_editAt_self hs ?_)
      intro y
      obtain ⟨he, -⟩ | ⟨he, -⟩ := entry_rosterRemoveItem (htd a) jid (bareOf srv.cfg y).str
      · exact he
      · exact absurd ⟨y, he⟩ hb
  · have hc : rosterChange stanza = updateItem jid (item.getProp "name") := by
      funext r
      simp only [rosterChange, ht, hi, hj, hrem, if_true, if_false]
    rw [hc] at hup
    have htidy := tidy_editAt hs htd (fun h => tidy_updateItem h jid (item.getProp "name"))
    have hent := entry_updateItem (htd a) hcap jid (item.getProp "name")
    by_cases hb : ∃ b : Username, (bareOf srv.cfg b).str = (snprintf 512 jid).str
    · obtain ⟨b, hb⟩ := hb
      refine .one hup htidy (.note a b) rfl
        (ledgerOf_editAt hs (g := fun l => some (l.getD .bare)) ?_)
      intro other
      rw [hb]
      exact hent other
    · refine .none hup htidy (ledgerOf_editAt_self hs ?_)
      intro y
      rw [hent, if_neg fun he => hb ⟨y, he⟩]

include ha in
/-- An approval moves the ledger as one operation. -/
theorem presenceHandleSubscribed_amends {b : Username} (hb : addressee srv.cfg (stanza.prop "to") = some b)
    (hsb : Saves srv b.str) : ∃ disk, Updated srv i disk (presenceHandleSubscribed srv i o (stanza.prop "to")) ∧
      TidyDisk srv.cfg disk ∧ ledgerOf srv.cfg disk = apply (ledger srv) (.accept a b) := by
  have hs : Saves srv a.str := hu ▸ h.saves _ (Server.sess_mem hl).1 hau
  have hcap := hu ▸ h.capacity hau
  obtain ⟨disk, hup, hor⟩ := presenceHandleSubscribed_updated h.orderly hy hl hau o _
    (h.reaches ha hy hl hau o hb hsb _)
  have hdom := (addressee_eq_some hb).1
  have hown := tidy_editAt hs htd fun h => tidy_approveItem h (bareOf srv.cfg b) ⟨hdom, b, rfl⟩
  rw [bare_addressee hb, hu] at hor
  rcases hor with ht | hn
  · obtain rfl := targetEdit_user ha o hb hsb ht
    rw [bareJid_user ha hl hau hu] at hup
    refine ⟨_, hup, ?_, ?_⟩
    · exact tidy_editAt hsb hown fun h => h.edit (moves_grantTo.ask false) _
        (Or.inr fun c hc => ⟨hdom, a, Buf.ext hc⟩)
    · rw [ledgerOf_editAt hsb fun other => entry_edit (hown b) (moves_grantTo.ask false) _ other,
        ledgerOf_editAt hs (g := fun l => some (setAdmits true (l.getD .bare)))
          fun other => entry_approveItem (htd a) hcap (bareOf srv.cfg b) other]
      rfl
  · exact absurd hn (find_approveItem hcap _)

include ha in
/-- A withdrawal amends the entries of the two for each other. -/
theorem withdraw_amends {b : Username} (hb : addressee srv.cfg (stanza.prop "to") = some b) (hsb : Saves srv b.str)
    {own theirs : RosterItem → RosterItem} {f g : Link → Link} (hown : Moves own f) (htheirs : Moves theirs g)
    (hf : f .bare = .bare) (hg : g .bare = .bare) (type : Str) :
    ∃ disk, Updated srv i disk (withdraw type own theirs srv i o (stanza.prop "to")) ∧ TidyDisk srv.cfg disk ∧
      ledgerOf srv.cfg disk = amend (amend (ledger srv) a b (Option.map f)) b a (Option.map g) := by
  have hs : Saves srv a.str := hu ▸ h.saves _ (Server.sess_mem hl).1 hau
  obtain ⟨disk, hup, ht⟩ := withdraw_updated h.orderly hy hl hau o _ type hown.jid (h.reaches ha hy hl hau o hb hsb theirs)
  obtain rfl := targetEdit_user ha o hb hsb ht
  rw [bare_addressee hb, hu, bareJid_user ha hl hau hu] at hup
  have htidy := tidy_editAt hs htd fun h => h.edit hown (bareOf srv.cfg b).str (Or.inl hf)
  refine ⟨_, hup, tidy_editAt hsb htidy fun h => h.edit htheirs _ (Or.inl hg), ?_⟩
  rw [ledgerOf_editAt hsb fun other => entry_edit (htidy b) htheirs _ other,
    ledgerOf_editAt hs fun other => entry_edit (htd a) hown _ other]
  rfl

include ha in
theorem handlePresence_booked (hp : stanza.name = "presence") :
    Booked srv i a stanza (handlePresence srv i o stanza) := by
  have hs : Saves srv a.str := hu ▸ h.saves _ (Server.sess_mem hl).1 hau
  have hcap := hu ▸ h.capacity hau
  have hclosed : ∀ s ∈ srv.sessions, s.id = i ∨ s.roster.loaded = true → s.authenticated = true := by
    rintro s hm (hi | hld)
    · rw [← hi, Server.sess_of_mem hm] at hau
      exact hau
    · exact hy.closed s hm hld
  unfold handlePresence
  dsimp only
  split
  · obtain ⟨disk, hup, hd⟩ := presenceHandleAvailable_updated hy hau o stanza (by
      intro _ s hm hor p d hpf hdf
      obtain ⟨u, hus⟩ := Option.isSome_iff_exists.mp (h.users s hm (hclosed s hm hor))
      rw [← Username.ofStr_eq_some hus] at hpf
      rw [hu] at hdf
      exact rosterFile_apart hpf hdf)
    have hdisk : ∀ u : Username, disk u.str = rosterLoadForUser srv u.str := by
      intro u
      cases hf : rosterFile srv u.str with
      | some p =>
          refine hd _ p hf ?_
          intro d hdf
          rw [hu] at hdf
          exact rosterFile_apart hf hdf
      | none =>
          rw [← hup.stored, rosterLoadForUser_eq, rosterLoadForUser_eq, hup.rosterFile_eq, hf]
          rfl
    refine .none hup ?_ ?_
    · intro u
      rw [hdisk]
      exact htd u
    · funext x y
      exact congrArg (entry · _) (hdisk x)
  split
  · exact .none ((presenceBroadcastUnavailable_updated hy hau o).silent (.modify _ i (by intro s; rfl))) htd rfl
  split
  · rename_i hty
    obtain ⟨b, hb, hsb⟩ := h.addressed hp (by rw [hty]; decide)
    have hup := presenceHandleSubscribe_updated h.orderly hy hl hau o (stanza.prop "to")
    rw [hu, bare_addressee hb] at hup
    exact .one hup (tidy_editAt hs htd fun h => tidy_requestItem h _) (.note a b) rfl
      (ledgerOf_editAt hs (g := fun l => some (l.getD .bare)) fun other => entry_requestItem (htd a) hcap _ other)
  split
  · rename_i hty
    obtain ⟨b, hb, hsb⟩ := h.addressed hp (by rw [hty]; decide)
    obtain ⟨disk, hup, htidy, hled⟩ := presenceHandleSubscribed_amends h ha hy htd hl hau hu o hb hsb
    exact .one hup htidy (.accept a b) ⟨rfl, hp, hty, hb⟩ hled
  split
  · rename_i hty
    obtain ⟨b, hb, hsb⟩ := h.addressed hp (by rw [hty]; decide)
    obtain ⟨disk, hup, htidy, hled⟩ := withdraw_amends h ha hy htd hl hau hu o hb hsb (moves_dropTo.ask false) moves_dropFrom
      rfl rfl "unsubscribe"
    exact .one hup htidy (.leave a b) ⟨rfl, hp, hty, hb⟩ hled
  split
  · rename_i hty
    obtain ⟨b, hb, hsb⟩ := h.addressed hp (by rw [hty]; decide)
    obtain ⟨disk, hup, htidy, hled⟩ := withdraw_amends h ha hy htd hl hau hu o hb hsb moves_dropFrom (moves_dropTo.ask false)
      rfl rfl "unsubscribed"
    exact .one hup htidy (.expel a b) ⟨rfl, hp, hty, hb⟩ hled
  · exact .none (.start hy i) htd rfl

end

/-! ## Runs -/

/-- The caches are in step with the disk, addresses are at home and rosters tidy. -/
structure InOrder (srv : Server) : Prop where
  synced : Synced srv
  home : AtHome srv
  tidy : TidyDisk srv.cfg (rosterLoadForUser srv)

theorem InOrder.silent {srv srv' : Server} (h : InOrder srv) (hs : Silent srv srv') : InOrder srv' := by
  refine ⟨h.synced.silent hs, ?_, ?_⟩
  · intro s' hs'
    obtain ⟨s, hm, hv⟩ := hs.mem hs'
    rw [hs.cfg]
    exact (settled_rehomed _).held s s' hv (h.home s hm)
  · intro u
    rw [hs.cfg, rosterLoadForUser_congr hs.cfg hs.files]
    exact h.tidy u

/-- The operations a step can stand for. -/
def Causes (srv : Server) (e : Step) (op : Op Username) : Prop :=
  ∃ i o stanza a, e = .sax i o .endElement ∧ dispatched (srv.sess i) = some stanza ∧
    (srv.sess i).jidLocal.str = a.str ∧ (srv.sess i).bareJid = bareOf srv.cfg a ∧ Means srv.cfg a stanza op

theorem handleTraffic_booked {srv : Server} {i : ℕ} {stanza : Node} (hi : InOrder srv)
    (h : Setting srv i stanza) (hl : srv.Live i) (hh : Handled srv i stanza) (o : Oracle) {a : Username}
    (hu : (srv.sess i).jidLocal.str = a.str) : Booked srv i a stanza (handleTraffic srv i o stanza) := by
  unfold handleTraffic
  split
  · exact handlePresence_booked h hi.home hi.synced hi.tidy hl hh.authenticated hu o ‹_›
  · exact rosterHandleIq_booked h hi.synced hi.tidy hl hh.authenticated hu o (hh.kind.resolve_right ‹_›)

/-- A step moves the ledger by the operations it stands for. -/
theorem step_booked {srv : Server} (hi : InOrder srv) {e : Step}
    (hs : OnStanza (fun srv i _ stanza => Setting srv i stanza) srv e) :
    InOrder (step srv e) ∧ (step srv e).cfg = srv.cfg ∧
      ∃ ops : List (Op Username), (∀ op ∈ ops, Causes srv e op) ∧
        ledger (step srv e) = ops.foldl apply (ledger srv) := by
  have hhome := step_homed hi.home e
  have ht : OnStanza (fun srv i _ stanza => Traffic srv i stanza) srv e :=
    hs.mono fun _ _ _ _ h => h.traffic
  obtain h | ⟨i, o, stanza, rfl, hd, hl, hh, he⟩ := step_traffic hi.synced e ht
  · have hsame : rosterLoadForUser (step srv e) = rosterLoadForUser srv := by
      funext u
      exact rosterLoadForUser_congr h.cfg h.files u
    refine ⟨⟨h.synced, ?_, ?_⟩, h.cfg, [], by simp, ?_⟩
    · rw [AtHome, h.cfg]
      exact hhome
    · rw [hsame, h.cfg]
      exact hi.tidy
    · rw [ledger, h.cfg, hsame]
      rfl
  · have hset := hs stanza hd
    have hsil := addDepth_silent srv i (-1)
    have hl' := (hsil.live i).mpr hl
    have hin : InOrder (addDepth srv i (-1)) := hi.silent hsil
    obtain ⟨a, ha⟩ := Option.isSome_iff_exists.mp (hset.users _ (Server.sess_mem hl').1 hh.authenticated)
    have hu := (Username.ofStr_eq_some ha).symm
    obtain ⟨disk, ops, hup, htd, hops, hled⟩ := handleTraffic_booked hin hset hl' hh o hu
    have hup' : Updated (addDepth srv i (-1)) i disk (step srv (.sax i o .endElement)) := by
      rw [he]
      exact hup.silent (.modify _ i (by intro s; rfl))
    have hcfg : (step srv (.sax i o .endElement)).cfg = srv.cfg := hup'.steady.cfg
    have hdisk : rosterLoadForUser (step srv (.sax i o .endElement)) = disk := funext hup'.stored
    refine ⟨⟨hup'.synced, ?_, ?_⟩, hcfg, ops, ?_, ?_⟩
    · rw [AtHome, hcfg]
      exact hhome
    · rw [hdisk, hcfg]
      exact htd
    · intro op hop
      have hbare := bareJid_user hin.home hl' hh.authenticated hu
      rw [hsil.get Session.jidLocal (fun _ => rfl) i] at hu
      rw [hsil.get Session.bareJid (fun _ => rfl) i] at hbare
      exact ⟨i, o, stanza, a, rfl, hd, hu, hbare, hops op hop⟩
    · rw [ledger, hcfg, hdisk]
      exact hled

theorem tidy_of_empty {P : Buf 512 → Prop} {r : Roster} (h : r.items = []) : Tidy P r := by
  refine ⟨?_, ?_, ?_⟩
  · rw [h]
    simp
  · rw [h]
    exact .nil
  · rw [h]
    simp

theorem inOrder_init {cfg : Config} {files : FileTree.Tree Content}
    (h : TidyDisk cfg (rosterLoadForUser (Server.init cfg files))) : InOrder (Server.init cfg files) := by
  refine ⟨⟨?_, ?_⟩, ?_, h⟩
  · exact fun s hs => absurd hs (by simp [Server.init])
  · exact fun s hs => absurd hs (by simp [Server.init])
  · exact fun s hs => absurd hs (by simp [Server.init])

theorem ledger_init {cfg : Config} {files : FileTree.Tree Content}
    (h : ∀ u : Username, (rosterLoadForUser (Server.init cfg files) u.str).items = []) (a b : Username) :
    ledger (Server.init cfg files) a b = none := by
  unfold ledger ledgerOf entry rosterFindItem
  rw [h a]
  rfl

/-! ## Effective rosters -/

/-- The cached roster of the user's session if it is loaded, and the file otherwise. -/
def effectiveRoster (srv : Server) (u : Username) : Roster :=
  match srv.sessions.find? fun s => s.authenticated ∧ s.jidLocal.str = u.str ∧ s.roster.loaded with
  | some s => s.roster
  | none => rosterLoadForUser srv u.str

theorem effectiveRoster_eq {srv : Server} (h : Synced srv) (u : Username) :
    effectiveRoster srv u = rosterLoadForUser srv u.str := by
  unfold effectiveRoster
  split
  · rename_i s hs
    have hp := List.find?_some hs
    obtain ⟨-, hj, hl⟩ := of_decide_eq_true hp
    rw [h.coherent s (List.mem_of_find?_eq_some hs) hl, hj]
  · rfl

/-- The user's effective roster has subscription `to` or `both` for the other. -/
def HasTo (srv : Server) (a b : Username) : Prop :=
  ∃ item ∈ (effectiveRoster srv a).items, item.jid = bareOf srv.cfg b ∧
    subHasTo item.subscription.str = true

/-- The user's effective roster has subscription `from` or `both` for the other. -/
def HasFrom (srv : Server) (a b : Username) : Prop :=
  ∃ item ∈ (effectiveRoster srv a).items, item.jid = bareOf srv.cfg b ∧
    subHasFrom item.subscription.str = true

section
variable {srv : Server} (h : InOrder srv) (a b : Username)
include h

theorem entry_of_item {item : RosterItem} (hi : item ∈ (effectiveRoster srv a).items)
    (hj : item.jid = bareOf srv.cfg b) (hl : linkOf item ≠ Link.bare) :
    ledger srv a b = some (linkOf item) := by
  rw [effectiveRoster_eq h.synced] at hi
  have he := (h.tidy a).entry_of_mem hi hl
  rw [hj] at he
  exact he

theorem item_of_entry {l : Link} (hl : ledger srv a b = some l) :
    ∃ item ∈ (effectiveRoster srv a).items, item.jid = bareOf srv.cfg b ∧ linkOf item = l := by
  obtain ⟨item, hf, rfl⟩ := Option.map_eq_some_iff.mp hl
  rw [effectiveRoster_eq h.synced]
  exact ⟨item, List.mem_of_find?_eq_some hf, Buf.ext (by simpa using List.find?_some hf), rfl⟩

theorem hasTo_iff : HasTo srv a b ↔ Follows (ledger srv) a b := by
  constructor
  · rintro ⟨item, hi, hj, hs⟩
    refine ⟨linkOf item, entry_of_item h a b hi hj ?_, hs⟩
    intro hl
    have := congrArg Link.follows hl
    rw [linkOf, hs] at this
    cases this
  · rintro ⟨l, hl, hf⟩
    obtain ⟨item, hi, hj, rfl⟩ := item_of_entry h a b hl
    exact ⟨item, hi, hj, hf⟩

theorem hasFrom_iff : HasFrom srv a b ↔ Admits (ledger srv) a b := by
  constructor
  · rintro ⟨item, hi, hj, hs⟩
    refine ⟨linkOf item, entry_of_item h a b hi hj ?_, hs⟩
    intro hl
    have := congrArg Link.admits hl
    rw [linkOf, hs] at this
    cases this
  · rintro ⟨l, hl, hf⟩
    obtain ⟨item, hi, hj, rfl⟩ := item_of_entry h a b hl
    exact ⟨item, hi, hj, hf⟩

end

/-! ## No subscription without a grant -/

/-- In these runs nobody removes an item from a roster. -/
structure Additive (srv : Server) (i : ℕ) (stanza : Node) : Prop extends Setting srv i stanza where
  keeps : RosterIq stanza → removedJid stanza = none

instance decidableAdditive (srv : Server) (i : ℕ) (stanza : Node) : Decidable (Additive srv i stanza) :=
  decidable_of_iff (Setting srv i stanza ∧ (RosterIq stanza → removedJid stanza = none))
    ⟨fun h => ⟨h.1, h.2⟩, fun h => ⟨h.toSetting, h.keeps⟩⟩

theorem Additive.no_erase {srv : Server} {e : Step} {op : Op Username}
    (h : OnStanza (fun srv i _ stanza => Additive srv i stanza) srv e) (hc : Causes srv e op) :
    ∀ a b, op ≠ .erase a b := by
  rintro a b rfl
  obtain ⟨i, o, stanza, x, rfl, hd, -, -, -, hr, hj⟩ := hc
  rw [(h stanza hd).keeps hr] at hj
  cases hj

theorem step_granted (srv : Server) (e : Step) (h : InOrder srv ∧ Granted (ledger srv))
    (hs : OnStanza (fun srv i _ stanza => Additive srv i stanza) srv e) :
    InOrder (step srv e) ∧ Granted (ledger (step srv e)) := by
  obtain ⟨hi, -, ops, hops, hl⟩ := step_booked h.1 (hs.mono fun _ _ _ _ h => h.toSetting)
  refine ⟨hi, ?_⟩
  rw [hl]
  exact foldl_granted h.2 fun op hm => Additive.no_erase hs (hops op hm)

/-- No file of the tree holds a roster with items. -/
def rosterless (t : FileTree.Tree Content) : Bool :=
  t.entries.all fun e => match e.2 with
    | .file c => (loadContent (some c)).items = []
    | .dir => true

theorem load_rosterless {cfg : Config} {files : FileTree.Tree Content} (h : rosterless files = true) (u : Str) :
    (rosterLoadForUser (Server.init cfg files) u).items = [] := by
  rw [rosterLoadForUser_eq]
  cases hp : rosterFile (Server.init cfg files) u with
  | none => rfl
  | some p =>
      rw [Option.bind_some]
      change (loadContent (files.content p)).items = []
      cases hc : files.content p with
      | none => rfl
      | some c =>
          unfold Tree.content at hc
          split at hc
          · rename_i c' hl
            cases hc
            obtain ⟨e, he, hs⟩ := Option.map_eq_some_iff.mp hl
            have ha := List.all_eq_true.mp h e (List.mem_of_find?_eq_some he)
            rw [hs] at ha
            simpa using ha
          · cases hc

def alice : Username := ⟨snprintf 256 "alice", by decide, by decide⟩

def bob : Username := ⟨snprintf 256 "bob", by decide, by decide⟩

/-- Alice asks bob and leaves; bob logs in and approves. -/
def request : List Step :=
  .accept :: login 0 alicePlain ++
    chunk 0 (emptyStanza "presence" [attr "type" "subscribe", attr "to" "bob@localhost"] ++ [.endElement])

def approve : List Step :=
  .accept :: login 1 bobPlain ++
    chunk 1 (emptyStanza "presence" [attr "type" "subscribed", attr "to" "alice@localhost/home"])

instance (srv : Server) (a b : Username) : Decidable (HasTo srv a b) := by
  unfold HasTo
  infer_instance

instance (srv : Server) (a b : Username) : Decidable (HasFrom srv a b) := by
  unfold HasFrom
  infer_instance

/-- An approval goes to a user whose roster has an item for the sender, or to the
sender himself. -/
structure Solicited (srv : Server) (i : ℕ) (stanza : Node) : Prop extends Additive srv i stanza where
  asked : stanza.name = "presence" → stanza.prop "type" = "subscribed" →
    ∀ b ∈ addressee srv.cfg (stanza.prop "to"), (srv.sess i).jidLocal.str = b.str ∨
      (rosterFindItem (effectiveRoster srv b) (srv.sess i).bareJid.str).isSome = true

instance decidableSolicited (srv : Server) (i : ℕ) (stanza : Node) : Decidable (Solicited srv i stanza) :=
  decidable_of_iff
    (Additive srv i stanza ∧ (stanza.name = "presence" → stanza.prop "type" = "subscribed" →
      ∀ b ∈ addressee srv.cfg (stanza.prop "to"), (srv.sess i).jidLocal.str = b.str ∨
        (rosterFindItem (effectiveRoster srv b) (srv.sess i).bareJid.str).isSome = true))
    ⟨fun h => ⟨h.1, h.2⟩, fun h => ⟨h.toAdditive, h.asked⟩⟩

theorem Solicited.accept_asked {srv : Server} {e : Step} (hi : InOrder srv)
    (h : OnStanza (fun srv i _ stanza => Solicited srv i stanza) srv e) {x y : Username}
    (hc : Causes srv e (.accept x y)) : x = y ∨ (ledger srv y x).isSome = true := by
  obtain ⟨i, o, stanza, a, rfl, hd, hu, hbare, rfl, hp, ht, hb⟩ := hc
  have hsil := addDepth_silent srv i (-1)
  have hsol := (h stanza hd).asked hp ht y hb
  rw [hsil.get Session.jidLocal (fun _ => rfl) i, hsil.get Session.bareJid (fun _ => rfl) i, hu, hbare,
    effectiveRoster_eq (hi.synced.silent hsil)] at hsol
  rcases hsol with he | hs
  · exact Or.inl (Username.ext_str he)
  · right
    unfold ledger ledgerOf entry
    rw [Option.isSome_map]
    exact hs

theorem step_mirrored (srv : Server) (e : Step) (h : InOrder srv ∧ Mirrored (ledger srv))
    (hs : OnStanza (fun srv i _ stanza => Solicited srv i stanza) srv e) :
    InOrder (step srv e) ∧ Mirrored (ledger (step srv e)) := by
  obtain ⟨hi, -, ops, hops, hl⟩ := step_booked h.1 (hs.mono fun _ _ _ _ h => h.toSetting)
  refine ⟨hi, ?_⟩
  rw [hl]
  refine foldl_mirrored h.2 ?_ ?_
  · exact fun op hm => Additive.no_erase (hs.mono fun _ _ _ _ h => h.toAdditive) (hops op hm)
  · rintro op hm x y rfl
    exact Solicited.accept_asked h.1 hs (hops _ hm)

/-- Bob approves alice, who never asked. -/
def unsolicited : List Step :=
  .accept :: login 0 bobPlain ++
    chunk 0 (emptyStanza "presence" [attr "type" "subscribed", attr "to" "alice@localhost"])

end Xmppd.Subscriptions
