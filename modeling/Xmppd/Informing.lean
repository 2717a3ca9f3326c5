import Xmppd.Voices

/-!
# Contacts see the right availability

What a session has last heard of a user who is available is the user's stored
presence, once it has sent initial presence and while its own user follows that
user. What it has last heard of a user who is not available is at most that. The
reason is that nobody is told of a user who does not admit him, and that whoever
has been told is told of every change. Two handlers break the rule. One announces
the sender of `unsubscribe` as unavailable to a contact whom he still admits, the
other does not announce the end of a subscription to a session without a roster.
-/
namespace Xmppd.Informing
open CStrings FileTree LibXml Util ServerState User Roster Message Presence EventLoop
open Frames Evolution Confinement Outputs Coherence Accounts Grants Subscriptions Announcements Notices Voices

/-- What a session has heard of a user as available is so, and what its own user
is to know of him it has heard. -/
structure Informed (srv : Server) (a b : Username) (t : ℕ) : Prop where
  founded : ∀ n, heard srv b t = some (.stanza n) → n.prop "type" = [] →
    Admits (ledger srv) b a ∧ ∃ i, Stands srv b i ∧ current (srv.sess i) = some n
  told : ∀ i n, Stands srv b i → (srv.sess t).initialPresenceSent = true → current (srv.sess i) = some n →
    Follows (ledger srv) a b → heard srv b t = some (.stanza n)

/-- Besides, a session that is not logged in has heard and said nothing, and what
is stored for a session is its own. -/
structure Poised (srv : Server) (a b : Username) : Prop where
  fresh : ∀ t, (srv.sess t).authenticated = false → heard srv b t = none ∧ bearing (srv.sess t) = (false, none, false)
  own : ∀ i n, (srv.sess i).presenceStanza = some n →
    ∃ u, Stands srv u i ∧ n.prop "type" = [] ∧ ∀ w, speaksFor srv.cfg w n = true ↔ w = u
  stored : ∀ i, (srv.sess i).available = true → ∃ n, (srv.sess i).presenceStanza = some n
  informed : ∀ t, Stands srv a t → Informed srv a b t

section
variable {srv srv' : Server} {a b : Username} {t : ℕ}

theorem Informed.keep (h : Informed srv a b t) (hheard : heard srv' b t = heard srv b t)
    (hinit : (srv'.sess t).initialPresenceSent = true → (srv.sess t).initialPresenceSent = true)
    (hadmits : Admits (ledger srv) b a → Admits (ledger srv') b a)
    (hforth : ∀ i n, Stands srv b i → current (srv.sess i) = some n → Stands srv' b i ∧ current (srv'.sess i) = some n)
    (hback : ∀ i n, Stands srv' b i → current (srv'.sess i) = some n → Follows (ledger srv') a b →
      Stands srv b i ∧ current (srv.sess i) = some n ∧ Follows (ledger srv) a b) : Informed srv' a b t := by
  constructor
  · intro n hn htype
    rw [hheard] at hn
    obtain ⟨had, i, hi, hcurrent⟩ := h.founded n hn htype
    obtain ⟨hi', hcurrent'⟩ := hforth i n hi hcurrent
    exact ⟨hadmits had, i, hi', hcurrent'⟩
  · intro i n hi hin hcurrent hf
    obtain ⟨hi', hcurrent', hf'⟩ := hback i n hi hcurrent hf
    rw [hheard]
    exact h.told i n hi' (hinit hin) hcurrent' hf'

/-- The session has heard the stored presence. -/
theorem Informed.news {i : ℕ} {n : Node} (hheard : heard srv b t = some (.stanza n)) (hadmits : Admits (ledger srv) b a)
    (hi : Stands srv b i) (hone : ∀ j, Stands srv b j → j = i) (hcurrent : current (srv.sess i) = some n) :
    Informed srv a b t := by
  constructor
  · intro m hm _
    obtain rfl := Out.stanza.inj (Option.some.inj (hheard.symm.trans hm))
    exact ⟨hadmits, i, hi, hcurrent⟩
  · intro j m hj _ hm _
    rw [hone j hj, hcurrent] at hm
    rw [hheard, Option.some.inj hm]

/-- The session has not heard that the user is available, and is not to know. -/
theorem Informed.away (hheard : ∀ n, heard srv b t = some (.stanza n) → n.prop "type" ≠ [])
    (hnone : ∀ i n, Stands srv b i → (srv.sess t).initialPresenceSent = true → current (srv.sess i) = some n →
      ¬Follows (ledger srv) a b) : Informed srv a b t :=
  ⟨fun n hn htype => absurd htype (hheard n hn), fun i n hi hinit hn hf => absurd hf (hnone i n hi hinit hn)⟩

/-- The session has neither heard nor said anything. -/
theorem Informed.stranger (h : heard srv b t = none ∧ bearing (srv.sess t) = (false, none, false)) : Informed srv a b t := by
  obtain ⟨hnone, hbare⟩ := h
  obtain ⟨-, -, hinit⟩ := bearing_eq.mp hbare
  refine .away ?_ ?_
  · intro n hn
    rw [hnone] at hn
    cases hn
  · intro i n _ hsent
    rw [hinit] at hsent
    cases hsent

theorem current_eq_some {s : Session} {n : Node} (h : current s = some n) : s.available = true ∧ s.presenceStanza = some n := by
  unfold current at h
  split_ifs at h with ha
  exact ⟨ha, h⟩

/-! ## Steps that announce nothing -/

/-- Whoever is logged in stays so under the same name. -/
def NamesKept (srv srv' : Server) : Prop := ∀ j, srv'.Live j → (srv.sess j).authenticated = true →
  (srv'.sess j).authenticated = true ∧ (srv'.sess j).jidLocal = (srv.sess j).jidLocal

section
variable {u : Username} {i j : ℕ} {n : Node} (hnames : NamesKept srv srv')
include hnames

theorem NamesKept.forth (hl : srv'.Live j) (h : Stands srv u j) : Stands srv' u j := by
  obtain ⟨hau, hname⟩ := hnames j hl h.authenticated
  exact ⟨hl, hau, (congrArg Buf.str hname).trans h.name⟩

theorem NamesKept.back (hau : (srv.sess j).authenticated = true) (h : Stands srv' u j) : Stands srv u j := by
  refine ⟨?_, hau, (congrArg Buf.str (hnames j h.live hau).2).symm.trans h.name⟩
  by_contra hl
  rw [Server.sess_of_not_live hl] at hau
  cases hau

theorem NamesKept.unauthenticated (hl : srv'.Live j) (hau : (srv'.sess j).authenticated = false) :
    (srv.sess j).authenticated = false := by
  by_contra hn
  rw [(hnames j hl (by simpa using hn)).1] at hau
  cases hau

variable (h : Poised srv a b)
include h

/-- A session with a stored presence had its user before. -/
theorem Poised.stands_back (hj : Stands srv' u j) (hn : (srv.sess j).presenceStanza = some n) : Stands srv u j := by
  obtain ⟨w, hw, -⟩ := h.own j n hn
  exact hnames.back hw.authenticated hj

/-- What is stored stays the sender's. -/
theorem Poised.own_kept (hcfg : srv'.cfg = srv.cfg) (hl : srv'.Live j) (hn : (srv.sess j).presenceStanza = some n) :
    ∃ u, Stands srv' u j ∧ n.prop "type" = [] ∧ ∀ w, speaksFor srv'.cfg w n = true ↔ w = u := by
  obtain ⟨u, hu, htype, hspeaks⟩ := h.own j n hn
  rw [hcfg]
  exact ⟨u, hnames.forth hl hu, htype, hspeaks⟩

end

theorem live_of_stored {j : ℕ} {n : Node} (h : (srv.sess j).presenceStanza = some n) : srv.Live j := by
  by_contra hl
  rw [Server.sess_of_not_live hl] at h
  cases h

theorem live_of_available {j : ℕ} (h : (srv.sess j).available = true) : srv.Live j := by
  by_contra hl
  rw [Server.sess_of_not_live hl] at h
  cases h

/-- The entries that announcements depend on are as before. -/
def SameLinks (srv srv' : Server) : Prop := ∀ x y, (Follows (ledger srv') x y ↔ Follows (ledger srv) x y) ∧
  (Admits (ledger srv') x y ↔ Admits (ledger srv) x y)

theorem heard_of_not_live (hl : ¬srv.Live t) : heard srv b t = none ∧ bearing (srv.sess t) = (false, none, false) := by
  rw [heard, Server.sess_of_not_live hl]
  exact ⟨rfl, rfl⟩

/-- It is enough to look at the sessions that were not logged in before. -/
theorem NamesKept.fresh (hnames : NamesKept srv srv') (h : ∀ t, srv'.Live t → (srv.sess t).authenticated = false →
      heard srv' b t = none ∧ bearing (srv'.sess t) = (false, none, false)) (t : ℕ) (hau : (srv'.sess t).authenticated = false) :
    heard srv' b t = none ∧ bearing (srv'.sess t) = (false, none, false) := by
  by_cases hl : srv'.Live t
  · exact h t hl (hnames.unauthenticated hl hau)
  · exact heard_of_not_live hl

theorem Poised.same (h : Poised srv a b) (hnames : NamesKept srv srv') (hstays : ∀ j, srv.Live j → srv'.Live j)
    (hbearing : ∀ j, bearing (srv'.sess j) = bearing (srv.sess j))
    (hheard : ∀ j, srv'.Live j → heard srv' b j = heard srv b j) (hcfg : srv'.cfg = srv.cfg) (hlinks : SameLinks srv srv') :
    Poised srv' a b := by
  have hb := fun j => bearing_iff.mp (hbearing j)
  have hfresh : ∀ t, srv'.Live t → (srv.sess t).authenticated = false →
      heard srv' b t = none ∧ bearing (srv'.sess t) = (false, none, false) := by
    intro t hl hau
    rw [hheard t hl, hbearing]
    exact h.fresh t hau
  refine ⟨hnames.fresh hfresh, ?_, ?_, ?_⟩
  · intro j n hn
    exact h.own_kept hnames hcfg (live_of_stored hn) ((hb j).2.1 ▸ hn)
  · intro j hj
    rw [(hb j).2.1]
    exact h.stored j ((hb j).1 ▸ hj)
  · intro t ht
    by_cases hau : (srv.sess t).authenticated = true
    · refine (h.informed t (hnames.back hau ht)).keep (hheard t ht.live) ?_ (hlinks b a).2.mpr ?_ ?_
      · rw [(hb t).2.2]
        exact id
      · intro i n hi hn
        exact ⟨hnames.forth (hstays i hi.live) hi, (current_of_bearing (hbearing i)).trans hn⟩
      · intro i n hi hn hf
        rw [current_of_bearing (hbearing i)] at hn
        exact ⟨h.stands_back hnames hi (current_eq_some hn).2, hn, (hlinks a b).1.mp hf⟩
    · exact .stranger (hfresh t ht.live (by simpa using hau))

theorem Poised.utters (h : Poised srv a b) (hu : Utters [] srv srv') (hcfg : srv'.cfg = srv.cfg) (hlinks : SameLinks srv srv') :
    Poised srv' a b := by
  refine h.same hu.names hu.stays hu.bearing ?_ hcfg hlinks
  intro j hl
  exact heard_same hu.toSays hcfg hl fun n hn => absurd hn List.not_mem_nil

theorem serverAccept_cfg (srv : Server) : srv.serverAccept.cfg = srv.cfg := by
  unfold Server.serverAccept
  split_ifs
  · rfl
  · rfl

theorem serverAccept_files (srv : Server) : srv.serverAccept.files = srv.files := by
  unfold Server.serverAccept
  split_ifs
  · rfl
  · rfl

theorem live_serverAccept {j : ℕ} (hl : srv.Live j) : srv.serverAccept.Live j := by
  unfold Server.serverAccept
  split_ifs
  · exact hl
  · exact List.mem_map.mpr (by
      obtain ⟨s, hs, hj⟩ := List.mem_map.mp hl
      exact ⟨s, List.mem_append_left _ hs, hj⟩)

/-- A new connection has a record like that of none. -/
theorem manner_serverAccept (srv : Server) (j : ℕ) : manner (srv.serverAccept.sess j) = manner (srv.sess j) := by
  by_cases hl : srv.Live j
  · obtain ⟨hm, hid⟩ := Server.sess_mem (live_serverAccept hl)
    rcases Server.mem_serverAccept hm with hold | hnew
    · rw [← Server.sess_of_mem hold, hid]
    · have hlt := srv.fresh _ (Server.sess_mem hl).1
      rw [(Server.sess_mem hl).2, ← hid, hnew] at hlt
      exact absurd hlt (Nat.lt_irrefl _)
  · rw [Server.sess_of_not_live hl]
    by_cases hl' : srv.serverAccept.Live j
    · obtain ⟨hm, hid⟩ := Server.sess_mem hl'
      rcases Server.mem_serverAccept hm with hold | hnew
      · exact absurd (hid ▸ Server.live_of_mem hold) hl
      · rw [hnew]
        rfl
    · rw [Server.sess_of_not_live hl']

theorem Poised.accept (h : Poised srv a b) (hlinks : SameLinks srv srv.serverAccept) : Poised srv.serverAccept a b := by
  have hmanner := manner_serverAccept srv
  simp only [manner, Prod.mk.injEq] at hmanner
  refine h.same ?_ (fun j => live_serverAccept) (fun j => (hmanner j).2.1) ?_ (serverAccept_cfg srv) hlinks
  · exact fun j _ hau => ⟨(hmanner j).2.2.1.trans hau, (hmanner j).2.2.2⟩
  · intro j _
    rw [heard, heard, serverAccept_cfg, (hmanner j).1]

/-! ## Leaving -/

section
variable {l : List (ℕ × Node)}

/-- Nothing is announced to a session that is not logged in. -/
theorem Poised.strange (h : Poised srv a b) (hs : Says l srv srv') (hcfg : srv'.cfg = srv.cfg)
    (hto : ∀ p ∈ l, (srv.sess p.1).authenticated = true)
    (hbearing : ∀ j, srv'.Live j → (srv.sess j).authenticated = false → bearing (srv'.sess j) = bearing (srv.sess j))
    (t : ℕ) (hl : srv'.Live t) (hau : (srv.sess t).authenticated = false) :
    heard srv' b t = none ∧ bearing (srv'.sess t) = (false, none, false) := by
  rw [hbearing t hl hau, heard_same hs hcfg hl]
  · exact h.fresh t hau
  · intro n hn
    rw [hto _ hn] at hau
    cases hau

variable (hin : InOrder srv) (hp : Peaceful srv) (h : Poised srv a b) (hne : a ≠ b) {i : ℕ} {o : Oracle}
include hin hp h

/-- Only a session that is logged in takes leave, and only of sessions that are. -/
theorem leaving_user (hl : srv.Live i) {n : Node} (hn : (t, n) ∈ leaving srv i o) :
    ∃ u, Stands srv u i ∧ n = unavailableNode (srv.sess i).fullJid.str ∧ t ≠ i ∧ ∃ w, Stands srv w t ∧ Admits (ledger srv) u w := by
  unfold leaving at hn
  split_ifs at hn with hheard
  · have hau : (srv.sess i).authenticated = true := by
      by_contra hau
      obtain ⟨havail, -, hinit⟩ := bearing_eq.mp (h.fresh i (by simpa using hau)).2
      rw [havail, hinit] at hheard
      exact hheard.elim Bool.noConfusion Bool.noConfusion
    obtain ⟨u, hu⟩ := hp.stands hl hau
    obtain ⟨hnode, hskip, hw⟩ := sent_user hin hu hn
    exact ⟨u, hu, hnode, fun he => hskip (congrArg some he), hw⟩
  · exact absurd hn List.not_mem_nil

/-- Whoever hears nothing of the leave has not heard that the user is available. -/
theorem leaving_heard (hne : a ≠ b) (hs : Says (leaving srv i o) srv srv') (hcfg : srv'.cfg = srv.cfg) (hl : srv.Live i)
    (hb : Stands srv b i) (ht : Stands srv a t) (hlt : srv'.Live t) {n : Node} (hn : heard srv' b t = some (.stanza n)) :
    n.prop "type" ≠ [] := by
  intro htype
  by_cases hm : ∃ m, (t, m) ∈ leaving srv i o
  · obtain ⟨m, hm⟩ := hm
    obtain ⟨u, -, rfl, -⟩ := leaving_user hin hp h hl hm
    have hspeaks := (speaks_unavailable hin.home hb b).mpr rfl
    rw [heard_news hs hcfg hlt hm hspeaks] at hn
    · obtain rfl := Out.stanza.inj (Option.some.inj hn)
      have htag : (unavailableNode (srv.sess i).fullJid.str).prop "type" = "unavailable" := rfl
      rw [htag] at htype
      exact absurd htype (by decide)
    · intro m' hm' _
      obtain ⟨-, -, rfl, -⟩ := leaving_user hin hp h hl hm'
      rfl
  · rw [heard_same hs hcfg hlt fun m hm' => absurd ⟨m, hm'⟩ hm] at hn
    obtain ⟨hadmits, j, hj, hcurrent⟩ := (h.informed t ht).founded n hn htype
    obtain rfl := hp.one hj hb
    refine hm ⟨unavailableNode (srv.sess j).fullJid.str, ?_⟩
    rw [leaving, if_pos (Or.inl (current_eq_some hcurrent).1)]
    refine sent_of_admits hin hb hp ht hadmits ?_ _ _ _
    intro he
    obtain rfl := Option.some.inj he
    exact hne (ht.user hb)

/-- The session announces that it is not available any more. -/
theorem Poised.leaving (hne : a ≠ b) (hl : srv.Live i) (hs : Says (leaving srv i o) srv srv')
    (hstays : ∀ j, j ≠ i → srv.Live j → srv'.Live j) (hothers : ∀ j, j ≠ i → bearing (srv'.sess j) = bearing (srv.sess j))
    (hself : srv'.Live i → bearing (srv'.sess i) = (false, (srv.sess i).presenceStanza, (srv.sess i).initialPresenceSent))
    (hcfg : srv'.cfg = srv.cfg) (hlinks : SameLinks srv srv') : Poised srv' a b := by
  have hnames : NamesKept srv srv' := hs.names
  have hlater : ∀ j, srv'.Live j → (srv'.sess j).presenceStanza = (srv.sess j).presenceStanza ∧
      (srv'.sess j).initialPresenceSent = (srv.sess j).initialPresenceSent := by
    intro j hlj
    by_cases hji : j = i
    · rw [hji]
      exact (bearing_eq.mp (hself (hji ▸ hlj))).2
    · exact (bearing_iff.mp (hothers j hji)).2
  have hgone : ∀ j, srv'.Live j → (srv'.sess j).available = true → j ≠ i := by
    rintro j hlj hj rfl
    rw [(bearing_eq.mp (hself hlj)).1] at hj
    cases hj
  have hback : ∀ j n, Stands srv' b j → current (srv'.sess j) = some n →
      j ≠ i ∧ Stands srv b j ∧ current (srv.sess j) = some n := by
    intro j n hj hn
    have hji := hgone j hj.live (current_eq_some hn).1
    rw [current_of_bearing (hothers j hji)] at hn
    exact ⟨hji, h.stands_back hnames hj (current_eq_some hn).2, hn⟩
  have hstrange : ∀ t, srv'.Live t → (srv.sess t).authenticated = false →
      heard srv' b t = none ∧ bearing (srv'.sess t) = (false, none, false) := by
    refine h.strange hs hcfg ?_ ?_
    · intro p hm
      obtain ⟨-, -, -, -, w, hw, -⟩ := leaving_user hin hp h hl hm
      exact hw.authenticated
    · intro j hlj hau
      by_cases hji : j = i
      · subst hji
        obtain ⟨havail, -, -⟩ := bearing_eq.mp (h.fresh j hau).2
        exact bearing_iff.mpr ⟨(bearing_eq.mp (hself hlj)).1.trans havail.symm, hlater j hlj⟩
      · exact hothers j hji
  refine ⟨hnames.fresh hstrange, ?_, ?_, ?_⟩
  · intro j n hn
    have hlj := live_of_stored hn
    exact h.own_kept hnames hcfg hlj ((hlater j hlj).1 ▸ hn)
  · intro j hj
    have hlj := live_of_available hj
    obtain ⟨havail, -⟩ := bearing_iff.mp (hothers j (hgone j hlj hj))
    rw [(hlater j hlj).1]
    exact h.stored j (havail ▸ hj)
  · intro t ht
    by_cases hau : (srv.sess t).authenticated = true
    swap
    · exact .stranger (hstrange t ht.live (by simpa using hau))
    have hta := hnames.back hau ht
    by_cases hbi : Stands srv b i
    · refine .away (fun n hn => leaving_heard hin hp h hne hs hcfg hl hbi hta ht.live hn) ?_
      intro j n hj _ hn
      obtain ⟨hji, hj, -⟩ := hback j n hj hn
      exact absurd (hp.one hj hbi) hji
    · refine (h.informed t hta).keep (heard_same hs hcfg ht.live ?_) ?_ (hlinks b a).2.mpr ?_ ?_
      · intro n hm
        obtain ⟨u, hu, rfl, -⟩ := leaving_user hin hp h hl hm
        by_contra hspeaks
        rw [Bool.not_eq_false, speaks_unavailable hin.home hu] at hspeaks
        exact hbi (hspeaks ▸ hu)
      · rw [(hlater t ht.live).2]
        exact id
      · intro j n hj hn
        have hji : j ≠ i := by
          rintro rfl
          exact hbi hj
        exact ⟨hnames.forth (hstays j hji hj.live) hj, (current_of_bearing (hothers j hji)).trans hn⟩
      · exact fun j n hj hn hf => ⟨(hback j n hj hn).2.1, (hback j n hj hn).2.2, (hlinks a b).1.mp hf⟩

end

/-! ## Presence and subscriptions -/

/-- The stamp on a presence does not change its type. -/
theorem setFrom_type {stanza : Node} (htype : stanza.prop "type" = []) (v : Str) : (stanza.setProp "from" v).prop "type" = [] := by
  rw [Node.prop, Node.getProp_setProp_of_ne stanza _ (by decide)]
  exact htype

theorem find_appear (srv : Server) (i : ℕ) (n : Node) (bare : Str) :
    (srv.modify i (appear n)).sessionFindByJid bare = srv.sessionFindByJid bare :=
  Server.sessionFindByJid_modify srv i _ bare (fun _ => rfl) fun _ => rfl

theorem stands_steady {u : Username} {j : ℕ} (h : Steady srv srv') : Stands srv' u j ↔ Stands srv u j := by
  have hau := h.get Session.authenticated (fun _ => rfl) j
  have hname := h.get Session.jidLocal (fun _ => rfl) j
  constructor
  · exact fun hs => ⟨(h.live j).mp hs.live, hau.symm.trans hs.authenticated, (congrArg Buf.str hname).symm.trans hs.name⟩
  · exact fun hs => ⟨(h.live j).mpr hs.live, hau.trans hs.authenticated, (congrArg Buf.str hname).trans hs.name⟩

section
variable {i : ℕ} {o : Oracle} {c : Username} {stanza : Node} (hin : InOrder srv) (hc : Stands srv c i)
  (hs : Turns (arriving srv i o stanza) i srv srv')
  (hself : current (srv'.sess i) = some (stanza.setProp "from" (srv.sess i).fullJid.str))
include hc hs hself

/-- What the sessions say is what they say once the session has become available. -/
theorem arriving_seen (j : ℕ) : current ((srv.modify i (appear (stanza.setProp "from" (srv.sess i).fullJid.str))).sess j) =
    current (srv'.sess j) := by
  by_cases hji : j = i
  · rw [hji, hself, Server.sess_modify_self hc.live]
    rfl
  · rw [Server.sess_modify_of_ne _ _ _ _ hji, current_of_bearing (hs.others j hji)]

include hin

/-- The contacts are sent the presence, and the session that of those it follows. -/
theorem arriving_sent {n : Node} (hn : (t, n) ∈ arriving srv i o stanza) :
    n = stanza.setProp "from" (srv.sess i).fullJid.str ∧ (∃ w, Stands srv w t ∧ Admits (ledger srv) c w) ∨
      t = i ∧ ∃ w j, Stands srv w j ∧ Follows (ledger srv) c w ∧ current (srv'.sess j) = some n := by
  rcases List.mem_append.mp hn with hn | hn
  · obtain ⟨hnode, -, hw⟩ := sent_user hin hc hn
    exact Or.inl ⟨hnode, hw⟩
  · obtain ⟨hti, w, j, hw, hf, hcurrent⟩ := received_user hin hc (find_appear srv i _) hn
    exact Or.inr ⟨hti, w, j, hw, hf, (arriving_seen hc hs hself j).symm.trans hcurrent⟩

variable (h : Poised srv a b) (hname : stanza.name = "presence") (htype : stanza.prop "type" = [])
include h hname htype

theorem arriving_voice {j : ℕ} {w : Username} {n : Node} (hw : Stands srv w j) (hn : current (srv'.sess j) = some n) :
    n.prop "type" = [] ∧ ∀ x, speaksFor srv.cfg x n = true ↔ x = w := by
  by_cases hji : j = i
  · subst hji
    rw [hself] at hn
    obtain rfl := Option.some.inj hn
    obtain rfl := hw.user hc
    exact ⟨setFrom_type htype _, speaks_available hin.home hc hname htype⟩
  · rw [current_of_bearing (hs.others j hji)] at hn
    obtain ⟨u, hu, hn, hx⟩ := h.own j n (current_eq_some hn).2
    obtain rfl := hw.user hu
    exact ⟨hn, hx⟩

variable (hp : Peaceful srv) (hsteady : Steady srv srv') (hlinks : SameLinks srv srv') (hgranted : Granted (ledger srv))
  (ht : Stands srv a t)
include hp hsteady hlinks hgranted ht

/-- The session of a follower hears of one who becomes available. -/
theorem Informed.arriving_own (hne : a ≠ b) (hcb : c = b) : Informed srv' a b t := by
  subst hcb
  have hti : t ≠ i := by
    rintro rfl
    exact hne (ht.user hc)
  have hlt := (hsteady.live t).mpr ht.live
  have hspeaks := speaks_available hin.home hc hname htype
  by_cases hadmits : Admits (ledger srv) c a
  · refine .news ?_ ((hlinks c a).2.mpr hadmits) ((stands_steady hsteady).mpr hc)
      (fun j hj => hp.one ((stands_steady hsteady).mp hj) hc) hself
    apply heard_news hs.toSays hsteady.cfg hlt
    · exact List.mem_append_left _ (sent_of_admits hin hc hp ht hadmits (by simp) _ _ _)
    · exact (hspeaks c).mpr rfl
    · intro m hm _
      rcases arriving_sent hin hc hs hself hm with ⟨hm, -⟩ | ⟨he, -⟩
      · exact hm
      · exact absurd he hti
  · have hsame : heard srv' c t = heard srv c t := by
      refine heard_same hs.toSays hsteady.cfg hlt fun n hn => ?_
      rcases arriving_sent hin hc hs hself hn with ⟨-, w, hw, hcw⟩ | ⟨he, -⟩
      · exact absurd (hw.user ht ▸ hcw) hadmits
      · exact absurd he hti
    refine .away ?_ fun _ _ _ _ _ hf => hadmits (hgranted a c ((hlinks a c).1.mp hf))
    intro n hn htag
    rw [hsame] at hn
    exact hadmits ((h.informed t ht).founded n hn htag).1

/-- One who becomes available hears of those he follows. -/
theorem Informed.arriving_reader (hne : a ≠ b) (hca : c = a) : Informed srv' a b t := by
  subst hca
  obtain rfl := hp.one ht hc
  have hlt := (hsteady.live t).mpr ht.live
  have hspeaks := speaks_available hin.home hc hname htype
  by_cases hknown : ∃ j n, Stands srv b j ∧ Follows (ledger srv) c b ∧ current (srv'.sess j) = some n
  · obtain ⟨j, n, hj, hf, hn⟩ := hknown
    refine .news ?_ ((hlinks b c).2.mpr (hgranted c b hf)) ((stands_steady hsteady).mpr hj)
      (fun k hk => hp.one ((stands_steady hsteady).mp hk) hj) hn
    apply heard_news hs.toSays hsteady.cfg hlt
    · exact List.mem_append_right _
        (received_of_follows hin hc (find_appear srv t _) hp hj hf ((arriving_seen hc hs hself j).trans hn) _ _)
    · exact ((arriving_voice hin hc hs hself h hname htype hj hn).2 b).mpr rfl
    · intro m hm hsp
      rcases arriving_sent hin hc hs hself hm with ⟨rfl, -⟩ | ⟨-, w, k, hk, -, hmk⟩
      · exact absurd ((hspeaks b).mp hsp).symm hne
      · obtain rfl := ((arriving_voice hin hc hs hself h hname htype hk hmk).2 b).mp hsp
        rw [hp.one hk hj, hn] at hmk
        exact (Option.some.inj hmk).symm
  · have hsame : heard srv' b t = heard srv b t := by
      refine heard_same hs.toSays hsteady.cfg hlt fun n hn => ?_
      by_contra hsp
      rw [Bool.not_eq_false] at hsp
      rcases arriving_sent hin hc hs hself hn with ⟨rfl, -⟩ | ⟨-, w, k, hk, hf, hnk⟩
      · exact hne ((hspeaks b).mp hsp).symm
      · obtain rfl := ((arriving_voice hin hc hs hself h hname htype hk hnk).2 b).mp hsp
        exact hknown ⟨k, n, hk, hf, hnk⟩
    constructor
    · intro n hn htag
      rw [hsame] at hn
      obtain ⟨hadmits, j, hj, hcurrent⟩ := (h.informed t ht).founded n hn htag
      have hjt : j ≠ t := by
        rintro rfl
        exact hne (hc.user hj)
      exact ⟨(hlinks b c).2.mpr hadmits, j, (stands_steady hsteady).mpr hj,
        (current_of_bearing (hs.others j hjt)).trans hcurrent⟩
    · exact fun j n hj _ hn hf => absurd ⟨j, n, (stands_steady hsteady).mp hj, (hlinks c b).1.mp hf, hn⟩ hknown

omit hgranted hp in
/-- Nothing changes between two users when a third becomes available. -/
theorem Informed.arriving_aside (hcb : c ≠ b) (hca : c ≠ a) : Informed srv' a b t := by
  have hspeaks := speaks_available hin.home hc hname htype
  have hti : t ≠ i := by
    rintro rfl
    exact hca (hc.user ht)
  have hother : ∀ j, Stands srv b j → j ≠ i := by
    rintro j hj rfl
    exact hcb (hc.user hj)
  obtain ⟨-, -, hinit⟩ := bearing_iff.mp (hs.others t hti)
  refine (h.informed t ht).keep ?_ ?_ (hlinks b a).2.mpr ?_ ?_
  · refine heard_same hs.toSays hsteady.cfg ((hsteady.live t).mpr ht.live) fun n hn => ?_
    rcases arriving_sent hin hc hs hself hn with ⟨rfl, -⟩ | ⟨he, -⟩
    · by_contra hsp
      rw [Bool.not_eq_false] at hsp
      exact hcb ((hspeaks b).mp hsp).symm
    · exact absurd he hti
  · rw [hinit]
    exact id
  · exact fun j n hj hn => ⟨(stands_steady hsteady).mpr hj, (current_of_bearing (hs.others j (hother j hj))).trans hn⟩
  · intro j n hj hn hf
    have hj' := (stands_steady hsteady).mp hj
    rw [current_of_bearing (hs.others j (hother j hj'))] at hn
    exact ⟨hj', hn, (hlinks a b).1.mp hf⟩

omit ht in
/-- The session announces its presence and learns that of others. -/
theorem Poised.arriving (hne : a ≠ b) : Poised srv' a b := by
  have hcfg := hsteady.cfg
  have hstrange : ∀ t, srv'.Live t → (srv.sess t).authenticated = false →
      heard srv' b t = none ∧ bearing (srv'.sess t) = (false, none, false) := by
    refine h.strange hs.toSays hcfg ?_ ?_
    · intro p hm
      rcases arriving_sent hin hc hs hself hm with ⟨-, w, hw, -⟩ | ⟨hpi, -⟩
      · exact hw.authenticated
      · rw [hpi]
        exact hc.authenticated
    · intro j _ hau
      refine hs.others j ?_
      rintro rfl
      rw [hc.authenticated] at hau
      cases hau
  refine ⟨NamesKept.fresh hs.names hstrange, ?_, ?_, ?_⟩
  · intro j n hn
    by_cases hji : j = i
    · subst hji
      rw [(current_eq_some hself).2] at hn
      obtain rfl := Option.some.inj hn
      rw [hcfg]
      exact ⟨c, (stands_steady hsteady).mpr hc, setFrom_type htype _, speaks_available hin.home hc hname htype⟩
    · obtain ⟨-, hstored, -⟩ := bearing_iff.mp (hs.others j hji)
      exact h.own_kept hs.names hcfg (live_of_stored hn) (hstored ▸ hn)
  · intro j hj
    by_cases hji : j = i
    · rw [hji]
      exact ⟨_, (current_eq_some hself).2⟩
    · obtain ⟨havail, hstored, -⟩ := bearing_iff.mp (hs.others j hji)
      rw [hstored]
      exact h.stored j (havail ▸ hj)
  · intro t ht
    have hta := (stands_steady hsteady).mp ht
    by_cases hcb : c = b
    · exact .arriving_own hin hc hs hself h hname htype hp hsteady hlinks hgranted hta hne hcb
    · by_cases hca : c = a
      · exact .arriving_reader hin hc hs hself h hname htype hp hsteady hlinks hgranted hta hne hca
      · exact .arriving_aside hin hc hs hself h hname htype hsteady hlinks hta hcb hca

end

section
variable {i : ℕ} {c d : Username} (hin : InOrder srv) (hp : Peaceful srv) (h : Poised srv a b) (hc : Stands srv c i)
  (hsteady : Steady srv srv')
include hin hp h hc hsteady

omit hin hp hc in
/-- Stanzas to sessions that are logged in, where no bearing changes. -/
theorem Poised.utters_to {l : List (ℕ × Node)} (hs : Utters l srv srv') (hto : ∀ p ∈ l, (srv.sess p.1).authenticated = true)
    (hinformed : ∀ t, Stands srv a t → Informed srv' a b t) : Poised srv' a b := by
  refine ⟨NamesKept.fresh hs.names (h.strange hs.toSays hsteady.cfg hto fun j _ _ => hs.bearing j), ?_, ?_, ?_⟩
  · intro j n hn
    have hb := bearing_iff.mp (hs.bearing j)
    exact h.own_kept hs.names hsteady.cfg (live_of_stored hn) (hb.2.1 ▸ hn)
  · intro j hj
    have hb := bearing_iff.mp (hs.bearing j)
    rw [hb.2.1]
    exact h.stored j (hb.1 ▸ hj)
  · exact fun t ht => hinformed t ((stands_steady hsteady).mp ht)

omit hin hp hc in
/-- A session to which nothing of the user's is announced. -/
theorem Poised.aside {l : List (ℕ × Node)} (hs : Utters l srv srv') (ht : Stands srv a t)
    (hquiet : ∀ n, (t, n) ∈ l → speaksFor srv.cfg b n = false) (hadmits : Admits (ledger srv) b a → Admits (ledger srv') b a)
    (hfollows : ∀ j n, Stands srv b j → current (srv.sess j) = some n → Follows (ledger srv') a b → Follows (ledger srv) a b) :
    Informed srv' a b t := by
  have hb := bearing_iff.mp (hs.bearing t)
  refine (h.informed t ht).keep (heard_same hs.toSays hsteady.cfg (hs.stays t ht.live) hquiet) ?_ hadmits ?_ ?_
  · rw [hb.2.2]
    exact id
  · exact fun j n hj hn => ⟨(stands_steady hsteady).mpr hj, (current_of_bearing (hs.bearing j)).trans hn⟩
  · intro j n hj hn hf
    have hj' := (stands_steady hsteady).mp hj
    rw [current_of_bearing (hs.bearing j)] at hn
    exact ⟨hj', hn, hfollows j n hj' hn hf⟩

/-- The session approves a user, who then knows of its presence. -/
theorem Poised.subscribed (hs : Utters (welcome srv i (srv.sessionFindByJid (bareOf srv.cfg d).str)) srv srv')
    (hadmits : Admits (ledger srv') b a ↔ Admits (ledger srv) b a ∨ b = c ∧ a = d)
    (hfollows : Follows (ledger srv') a b → Follows (ledger srv) a b ∨ a = d ∧ b = c) : Poised srv' a b := by
  have hto : ∀ t n, (t, n) ∈ welcome srv i (srv.sessionFindByJid (bareOf srv.cfg d).str) →
      Stands srv d t ∧ current (srv.sess i) = some n := by
    intro t n hn
    simp only [welcome, Option.mem_toList, Option.bind_eq_some_iff, Option.map_eq_some_iff, Prod.mk.injEq] at hn
    obtain ⟨t', ht', n', hn', rfl, rfl⟩ := hn
    exact ⟨stands_of_find hin.home ht', hn'⟩
  refine h.utters_to hsteady hs (fun p hm => (hto p.1 p.2 hm).1.authenticated) ?_
  intro t ht
  by_cases hnews : ∃ n, b = c ∧ a = d ∧ current (srv.sess i) = some n
  · obtain ⟨n, rfl, rfl, hn⟩ := hnews
    obtain ⟨u, hu, -, hspeaks⟩ := h.own i n (current_eq_some hn).2
    obtain rfl := hu.user hc
    refine .news ?_ (hadmits.mpr (Or.inr ⟨rfl, rfl⟩)) ((stands_steady hsteady).mpr hc) ?_
      ((current_of_bearing (hs.bearing i)).trans hn)
    · refine heard_news hs.toSays hsteady.cfg (hs.stays t ht.live) ?_ ((hspeaks u).mpr rfl) ?_
      · rw [welcome, hp.find hin.home ht, Option.bind_some, hn]
        exact List.mem_singleton_self _
      · intro m hm _
        exact Option.some.inj ((hto t m hm).2.symm.trans hn)
    · exact fun j hj => hp.one ((stands_steady hsteady).mp hj) hc
  · refine h.aside hsteady hs ht ?_ (fun had => hadmits.mpr (Or.inl had)) ?_
    · intro n hn
      by_contra hsp
      rw [Bool.not_eq_false] at hsp
      obtain ⟨htd, hcurrent⟩ := hto t n hn
      obtain ⟨u, hu, -, hspeaks⟩ := h.own i n (current_eq_some hcurrent).2
      exact hnews ⟨n, ((hspeaks b).mp hsp).trans (hu.user hc), ht.user htd, hcurrent⟩
    · intro j n hj hn hf
      rcases hfollows hf with hf | ⟨rfl, rfl⟩
      · exact hf
      · obtain rfl := hp.one hj hc
        exact absurd ⟨n, rfl, rfl, hn⟩ hnews

/-- The session withdraws from a user, who is told so if this ends his subscription. -/
theorem Poised.withdrawn {target : Option ℕ} (htarget : ∀ t ∈ target, Stands srv d t) (hs : Utters (parting srv i target) srv srv')
    (hreach : b = c → a = d → ∀ t, Stands srv a t → target = some t)
    (hadmits : Admits (ledger srv) b a → Admits (ledger srv') b a ∨ b = c ∧ a = d)
    (hfollows : Follows (ledger srv') a b → Follows (ledger srv) a b ∧ ¬(b = c ∧ a = d)) : Poised srv' a b := by
  have hto : ∀ t n, (t, n) ∈ parting srv i target →
      target = some t ∧ (srv.sess i).available = true ∧ n = unavailableNode (srv.sess i).fullJid.str := by
    intro t n hn
    simp only [parting, Option.mem_toList, Option.bind_eq_some_iff] at hn
    obtain ⟨t', ht', hn⟩ := hn
    split_ifs at hn with havail
    cases hn
    exact ⟨ht', havail, rfl⟩
  refine h.utters_to hsteady hs (fun p hm => (htarget p.1 (hto p.1 p.2 hm).1).authenticated) ?_
  intro t ht
  by_cases hends : b = c ∧ a = d
  · obtain ⟨rfl, rfl⟩ := hends
    have htt := hreach rfl rfl t ht
    refine .away ?_ fun _ _ _ _ _ hf => (hfollows hf).2 ⟨rfl, rfl⟩
    intro n hn htype
    by_cases havail : (srv.sess i).available = true
    · rw [heard_news hs.toSays hsteady.cfg (hs.stays t ht.live) (n := unavailableNode (srv.sess i).fullJid.str)] at hn
      · obtain rfl := Out.stanza.inj (Option.some.inj hn)
        have htag : (unavailableNode (srv.sess i).fullJid.str).prop "type" = "unavailable" := rfl
        rw [htag] at htype
        exact absurd htype (by decide)
      · rw [parting, htt, Option.bind_some, if_pos havail]
        exact List.mem_singleton_self _
      · exact (speaks_unavailable hin.home hc b).mpr rfl
      · exact fun m hm _ => (hto t m hm).2.2
    · rw [heard_same hs.toSays hsteady.cfg (hs.stays t ht.live) fun m hm => absurd (hto t m hm).2.1 havail] at hn
      obtain ⟨-, j, hj, hcurrent⟩ := (h.informed t ht).founded n hn htype
      obtain rfl := hp.one hj hc
      exact havail (current_eq_some hcurrent).1
  · refine h.aside hsteady hs ht ?_ (fun had => (hadmits had).resolve_right hends) fun _ _ _ _ hf => (hfollows hf).1
    intro n hn
    obtain ⟨htt, -, rfl⟩ := hto t n hn
    by_contra hsp
    rw [Bool.not_eq_false, speaks_unavailable hin.home hc] at hsp
    exact hends ⟨hsp, ht.user (htarget t htt)⟩

end

end

end Xmppd.Informing
