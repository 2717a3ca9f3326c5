import Xmppd.Addresses
import Xmppd.MessageFate
import Xmppd.Notices
import Xmppd.Subscriptions

/-!
# Who speaks and who is spoken to

An announcement carries the full address of the session it is about, and is
thereby the announcement of one user. Where every user has at most one session,
the items of a user's roster lead to the sessions of those they name, so that the
ledger says whom an announcement reaches.
-/
namespace Xmppd.Voices
open CStrings FileTree LibXml Util ServerState User Roster Message Presence EventLoop
open Frames Evolution Confinement Outputs Coherence Accounts Entries Grants Subscriptions LastWords Announcements Notices

/-- The announcement comes from a session of this user. -/
def speaksFor (cfg : Config) (u : Username) (n : Node) : Bool :=
  isAvailability n ∧ ∃ v ∈ MessageFate.plainProp n "from", (bareOf cfg u).str ++ ['/'] <+: v

def voice (cfg : Config) (u : Username) : Out → Bool
  | .raw _ => false
  | .stanza n => speaksFor cfg u n

/-- The last announcement of a user that has been written to a session. -/
def heard (srv : Server) (u : Username) (t : ℕ) : Option Out := lastOf (voice srv.cfg u) (srv.sess t).out

theorem takeWhile_bareOf {cfg : Config} {u : Username} {v : Str} (h : (bareOf cfg u).str ++ ['/'] <+: v) :
    v.takeWhile (· ≠ '@') = u.str := by
  obtain ⟨r, rfl⟩ := h
  rw [bareOf_str, List.append_assoc, List.append_assoc, List.takeWhile_append_of_pos]
  · simp
  · intro c hc
    rw [decide_eq_true_eq]
    rintro rfl
    exact u.not_mem (by decide) hc

theorem speaksFor_iff {cfg : Config} {u w : Username} {n : Node} {v : Str} (hn : isAvailability n = true)
    (hv : MessageFate.plainProp n "from" = some v) (hw : (bareOf cfg w).str ++ ['/'] <+: v) :
    speaksFor cfg u n = true ↔ u = w := by
  rw [speaksFor, decide_eq_true_eq, hv]
  constructor
  · rintro ⟨-, v', hv', hu⟩
    rw [← Option.some.inj hv'] at hu
    exact Username.ext_str ((takeWhile_bareOf hu).symm.trans (takeWhile_bareOf hw))
  · rintro rfl
    exact ⟨hn, v, rfl, hw⟩

theorem announces_of_voice {cfg : Config} {u : Username} {x : Out} (h : voice cfg u x = true) : announces x = true := by
  cases x with
  | raw s => cases h
  | stanza n => exact (of_decide_eq_true h).1

/-! ## What has been heard -/

section
variable {srv srv' : Server} {l : List (ℕ × Node)} {u : Username} {t : ℕ} {n : Node}

theorem lastOf_announces (cfg : Config) (u : Username) (out : List Out) :
    lastOf (voice cfg u) (out.filter announces) = lastOf (voice cfg u) out := by
  unfold lastOf
  rw [List.filter_filter]
  congr 1
  apply List.filter_congr
  intro x _
  cases hx : voice cfg u x with
  | false => rfl
  | true => exact (announces_of_voice hx).trans rfl

variable (h : Says l srv srv') (hcfg : srv'.cfg = srv.cfg) (hl : srv'.Live t)
include h hcfg hl

theorem heard_eq : heard srv' u t = lastOf (voice srv.cfg u) ((srv.sess t).out.filter announces ++ said t l) := by
  rw [heard, hcfg, ← lastOf_announces, h.spoken t hl]

/-- Nothing of the user's was announced to the session. -/
theorem heard_same (hnone : ∀ n, (t, n) ∈ l → speaksFor srv.cfg u n = false) : heard srv' u t = heard srv u t := by
  rw [heard_eq h hcfg hl, lastOf_append_of_forall, lastOf_announces]
  · rfl
  · intro x hx
    obtain ⟨n, hn, -, rfl⟩ := mem_said.mp hx
    exact hnone n hn

/-- One stanza of the user's was. -/
theorem heard_news (hn : (t, n) ∈ l) (hs : speaksFor srv.cfg u n = true)
    (hone : ∀ m, (t, m) ∈ l → speaksFor srv.cfg u m = true → m = n) : heard srv' u t = some (.stanza n) := by
  rw [heard_eq h hcfg hl]
  refine lastOf_append_of_mem (mem_said.mpr ⟨n, hn, (of_decide_eq_true hs).1, rfl⟩) hs ?_
  intro x hx hv
  obtain ⟨m, hm, -, rfl⟩ := mem_said.mp hx
  rw [hone m hm hv]

end

/-! ## Sessions of users -/

/-- A session is logged in under the user's name. -/
structure Stands (srv : Server) (u : Username) (i : ℕ) : Prop where
  live : srv.Live i
  authenticated : (srv.sess i).authenticated = true
  name : (srv.sess i).jidLocal.str = u.str

/-- Sessions are logged in under names of users, one for each user. -/
structure Peaceful (srv : Server) : Prop where
  users : ∀ s ∈ srv.sessions, s.authenticated = true → (Username.ofStr s.jidLocal.str).isSome = true
  single : ∀ s ∈ srv.sessions, ∀ t ∈ srv.sessions, s.authenticated = true → t.authenticated = true →
    s.jidLocal = t.jidLocal → s.id = t.id

instance decidablePeaceful (srv : Server) : Decidable (Peaceful srv) :=
  decidable_of_iff
    ((∀ s ∈ srv.sessions, s.authenticated = true → (Username.ofStr s.jidLocal.str).isSome = true) ∧
      ∀ s ∈ srv.sessions, ∀ t ∈ srv.sessions, s.authenticated = true → t.authenticated = true →
        s.jidLocal = t.jidLocal → s.id = t.id)
    ⟨fun h => ⟨h.1, h.2⟩, fun h => ⟨h.users, h.single⟩⟩

section
variable {srv srv' : Server} {u w : Username} {i j : ℕ}

theorem Stands.user (hi : Stands srv u i) (hj : Stands srv w i) : u = w := Username.ext_str (hi.name.symm.trans hj.name)

theorem Peaceful.one (hp : Peaceful srv) (hi : Stands srv u i) (hj : Stands srv u j) : i = j := by
  obtain ⟨hmi, hid⟩ := Server.sess_mem hi.live
  obtain ⟨hmj, hjd⟩ := Server.sess_mem hj.live
  have h := hp.single _ hmi _ hmj hi.authenticated hj.authenticated (Buf.ext (hi.name.trans hj.name.symm))
  rwa [hid, hjd] at h

theorem live_of_authenticated (hau : (srv.sess i).authenticated = true) : srv.Live i := by
  by_contra hl
  rw [Server.sess_of_not_live hl] at hau
  cases hau

theorem Peaceful.stands (hp : Peaceful srv) (hl : srv.Live i) (hau : (srv.sess i).authenticated = true) : ∃ u, Stands srv u i := by
  obtain ⟨u, hu⟩ := Option.isSome_iff_exists.mp (hp.users _ (Server.sess_mem hl).1 hau)
  exact ⟨u, hl, hau, (Username.ofStr_eq_some hu).symm⟩

theorem Peaceful.steady (h : Peaceful srv) (hs : Steady srv srv') : Peaceful srv' := by
  constructor
  · intro s' hs' hau
    obtain ⟨s, hm, hv⟩ := hs.mem hs'
    rw [standing.get Session.jidLocal (fun _ => rfl) hv]
    exact h.users s hm ((standing.get Session.authenticated (fun _ => rfl) hv).symm.trans hau)
  · intro s' hs' t' ht' hsa hta hname
    obtain ⟨s, hm, hv⟩ := hs.mem hs'
    obtain ⟨t, htm, htv⟩ := hs.mem ht'
    rw [standing.get Session.jidLocal (fun _ => rfl) hv, standing.get Session.jidLocal (fun _ => rfl) htv] at hname
    rw [standing.get Session.id (fun _ => rfl) hv, standing.get Session.id (fun _ => rfl) htv]
    exact h.single s hm t htm ((standing.get Session.authenticated (fun _ => rfl) hv).symm.trans hsa)
      ((standing.get Session.authenticated (fun _ => rfl) htv).symm.trans hta) hname

theorem stands_of_find (ha : AtHome srv) (h : srv.sessionFindByJid (bareOf srv.cfg u).str = some i) : Stands srv u i := by
  obtain ⟨hl, hau, hname⟩ := find_user ha h
  exact ⟨hl, hau, hname⟩

theorem Peaceful.find (hp : Peaceful srv) (ha : AtHome srv) (h : Stands srv u i) :
    srv.sessionFindByJid (bareOf srv.cfg u).str = some i := by
  cases hf : srv.sessionFindByJid (bareOf srv.cfg u).str with
  | none => exact absurd h.name (find_user_none ha hf (Server.sess_mem h.live).1 h.authenticated)
  | some j => rw [hp.one (stands_of_find ha hf) h]

/-- No other session has the address of a session. -/
theorem Peaceful.rival (hp : Peaceful srv) (ha : AtHome srv) (h : Stands srv u i) : Outputs.rival srv i = none := by
  rw [Outputs.rival, bareJid_user ha h.live h.authenticated h.name, hp.find ha h, Option.filter_some, if_neg]
  simp

theorem fullJid_begins (ha : AtHome srv) (h : Stands srv u i) : (bareOf srv.cfg u).str ++ ['/'] <+: (srv.sess i).fullJid.str := by
  have hd := (ha _ (Server.sess_mem h.live).1).domain h.authenticated
  rw [Session.fullJid, Addresses.jidFull_str, hd, h.name, bareOf_str]
  exact ⟨(srv.sess i).jidResource.str, by simp⟩

theorem speaks_unavailable (ha : AtHome srv) (h : Stands srv u i) (w : Username) :
    speaksFor srv.cfg w (unavailableNode (srv.sess i).fullJid.str) = true ↔ w = u :=
  speaksFor_iff (decide_eq_true ⟨rfl, Or.inr rfl⟩) rfl (fullJid_begins ha h)

theorem speaks_available (ha : AtHome srv) (h : Stands srv u i) {stanza : Node} (hname : stanza.name = "presence")
    (htype : stanza.prop "type" = []) (w : Username) :
    speaksFor srv.cfg w (stanza.setProp "from" (srv.sess i).fullJid.str) = true ↔ w = u := by
  have helement : stanza.isElement = true := by
    cases stanza with
    | text s => cases hname
    | element => rfl
  refine speaksFor_iff ?_ (MessageFate.stamped_setProp helement _).sender (fullJid_begins ha h)
  refine decide_eq_true ⟨(stanza.name_setProp "from" _).trans hname, Or.inl ?_⟩
  rw [Node.prop, Node.getProp_setProp_of_ne stanza _ (by decide)]
  exact htype

end

/-! ## Whom a roster leads to -/

section
variable {srv a : Server} {u w : Username} {i t : ℕ} {item : RosterItem} {stack : ℕ → Jid} {pres n : Node} {skip : Option ℕ}
  (hin : InOrder srv)
include hin

theorem ownRoster_user (h : Stands srv u i) : ownRoster srv i = rosterLoadForUser srv u.str := by
  unfold ownRoster
  split
  · next hloaded => rw [hin.synced.coherent _ (Server.sess_mem h.live).1 hloaded, h.name]
  · rw [h.name]

/-- An item with a direction leads to a session of the user it is about. -/
theorem contact_user (hi : item ∈ (rosterLoadForUser srv u.str).items) (hlink : linkOf item ≠ .bare) {buf : Jid}
    (hc : contactOf srv buf item = some t) : ∃ w, Stands srv w t ∧ ledger srv u w = some (linkOf item) := by
  obtain ⟨hd, w, hw⟩ := (hin.tidy u).placed item hi hlink
  rw [contactOf_local hd hw] at hc
  refine ⟨w, stands_of_find hin.home hc, ?_⟩
  have he := (hin.tidy u).entry_of_mem hi hlink
  rw [hw] at he
  exact he

/-- A session of a user whom the roster is about is found there. -/
theorem contact_of_entry (hp : Peaceful srv) (hw : Stands srv w t) {link : Link} (he : ledger srv u w = some link)
    (hlink : link ≠ .bare) : ∃ item ∈ (rosterLoadForUser srv u.str).items, linkOf item = link ∧
      ∀ buf, contactOf srv buf item = some t := by
  obtain ⟨item, hf, rfl⟩ := Option.map_eq_some_iff.mp he
  have hi := List.mem_of_find?_eq_some hf
  have hj : item.jid = bareOf srv.cfg w := Buf.ext (by simpa using List.find?_some hf)
  refine ⟨item, hi, rfl, fun buf => ?_⟩
  rw [contactOf_local ((hin.tidy u).placed item hi hlink).1 hj]
  exact hp.find hin.home hw

variable (hu : Stands srv u i)
include hu

theorem sent_user {k : ℕ} (h : (t, n) ∈ gather (sending srv stack pres skip) k (ownRoster srv i).items) :
    n = pres ∧ some t ≠ skip ∧ ∃ w, Stands srv w t ∧ Admits (ledger srv) u w := by
  obtain ⟨k, item, hi, hm⟩ := mem_of_gather h
  obtain ⟨hfrom, hc, hskip, hn⟩ := mem_sending.mp hm
  rw [ownRoster_user hin hu] at hi
  obtain ⟨w, hw, he⟩ := contact_user hin hi (by rw [linkOf, hfrom]; simp [Link.bare]) hc
  exact ⟨hn, hskip, w, hw, _, he, hfrom⟩

theorem sent_of_admits (hp : Peaceful srv) (hw : Stands srv w t) (h : Admits (ledger srv) u w) (hskip : some t ≠ skip)
    (stack : ℕ → Jid) (pres : Node) (k : ℕ) : (t, pres) ∈ gather (sending srv stack pres skip) k (ownRoster srv i).items := by
  obtain ⟨link, he, hadmits⟩ := h
  obtain ⟨item, hi, rfl, hc⟩ := contact_of_entry hin hp hw he (fun hbare => by rw [hbare] at hadmits; cases hadmits)
  rw [ownRoster_user hin hu]
  exact gather_of_mem hi fun k => mem_sending.mpr ⟨hadmits, hc _, hskip, rfl⟩

variable (hfind : ∀ bare, a.sessionFindByJid bare = srv.sessionFindByJid bare)
include hfind

theorem received_user {k j : ℕ} (h : (j, n) ∈ gather (receiving a stack i) k (ownRoster srv i).items) :
    j = i ∧ ∃ w t, Stands srv w t ∧ Follows (ledger srv) u w ∧ current (a.sess t) = some n := by
  obtain ⟨k, item, hi, hm⟩ := mem_of_gather h
  obtain ⟨hto, hj, t, hc, hn⟩ := mem_receiving.mp hm
  rw [contactOf, hfind] at hc
  rw [ownRoster_user hin hu] at hi
  obtain ⟨w, hw, he⟩ := contact_user hin hi (by rw [linkOf, hto]; simp [Link.bare]) hc
  exact ⟨hj, w, t, hw, ⟨_, he, hto⟩, hn⟩

theorem received_of_follows (hp : Peaceful srv) (hw : Stands srv w t) (h : Follows (ledger srv) u w)
    (hn : current (a.sess t) = some n) (stack : ℕ → Jid) (k : ℕ) :
    (i, n) ∈ gather (receiving a stack i) k (ownRoster srv i).items := by
  obtain ⟨link, he, hfollows⟩ := h
  obtain ⟨item, hi, rfl, hc⟩ := contact_of_entry hin hp hw he (fun hbare => by rw [hbare] at hfollows; cases hfollows)
  rw [ownRoster_user hin hu]
  refine gather_of_mem hi fun k => mem_receiving.mpr ⟨hfollows, rfl, t, ?_, hn⟩
  rw [contactOf, hfind]
  exact hc _

end

end Xmppd.Voices
