import Xmppd.Evolution
import Xmppd.Installation

/-!
# One active session for each user

A bind ends the session that the search for the own address returns. The search
returns the first session in the table, which may be the binding session itself
or a third one that has only authenticated, and a session request looks for no
other session at all. The result is stated for runs in which a session becomes
active only when the search returns the one that is active already.
-/
namespace Xmppd.Conflict
open CStrings FileTree LibXml Util ServerState Roster Streams Stanza EventLoop Frames Evolution Installation

/-- At most one session with a given bare address is active. -/
def OneActive (srv : Server) : Prop :=
  ∀ s ∈ srv.sessions, ∀ t ∈ srv.sessions, s.isActive = true → t.isActive = true →
    s.bareJid = t.bareJid → s.id = t.id

/-- At most one parser is on the call stack. -/
def OneParser (srv : Server) : Prop :=
  ∀ s ∈ srv.sessions, ∀ t ∈ srv.sessions, s.inXmlParse = true → t.inXmlParse = true → s.id = t.id

instance (srv : Server) : Decidable (OneActive srv) :=
  inferInstanceAs (Decidable (∀ s ∈ srv.sessions, ∀ t ∈ srv.sessions, _))

/-- A bind request that is not refused. -/
def Binds (srv : Server) (i : ℕ) (stanza : Node) : Prop :=
  Activates stanza ∧ childNs stanza = bindNs ∧
    ((srv.sess i).state = .authenticated ∨
      (srv.sess i).state = .streamOpened ∧ (srv.sess i).authenticated = true)

/-- A session request that passes the gate. -/
def Starts (srv : Server) (i : ℕ) (stanza : Node) : Prop :=
  Activates stanza ∧ childNs stanza = sessionNs ∧
    ¬((srv.sess i).state = .streamOpened ∧ (srv.sess i).authenticated = false)

/-- Another active session with the address of session `i`. -/
def Rival (srv : Server) (i : ℕ) (t : Session) : Prop :=
  t.isActive = true ∧ t.id ≠ i ∧ t.bareJid = (srv.sess i).bareJid

/-- A request of session `i` that leaves no rival: a bind finds the only one, and
a session request comes where there is none. -/
def Clears (srv : Server) (i : ℕ) (stanza : Node) : Prop :=
  ∀ t ∈ srv.sessions, Rival srv i t →
    (Binds srv i stanza → srv.sessionFindByJid (srv.sess i).bareJid.str = some t.id) ∧
      ¬Starts srv i stanza

def RivalsCleared : Server → Step → Prop := OnStanza fun srv i _ stanza => Clears srv i stanza

instance (stanza : Node) : Decidable (Activates stanza) := inferInstanceAs (Decidable (_ ∧ _))

instance (srv : Server) (i : ℕ) (stanza : Node) : Decidable (Binds srv i stanza) := inferInstanceAs (Decidable (_ ∧ _))

instance (srv : Server) (i : ℕ) (stanza : Node) : Decidable (Starts srv i stanza) := inferInstanceAs (Decidable (_ ∧ _))

instance (srv : Server) (i : ℕ) (t : Session) : Decidable (Rival srv i t) := inferInstanceAs (Decidable (_ ∧ _))

instance (srv : Server) (i : ℕ) (stanza : Node) : Decidable (Clears srv i stanza) :=
  decidable_of_iff (∀ t ∈ srv.sessions, ¬Rival srv i t ∨
    (¬Binds srv i stanza ∨ srv.sessionFindByJid (srv.sess i).bareJid.str = some t.id) ∧ ¬Starts srv i stanza)
    (by simp only [Clears, imp_iff_not_or])

instance (srv : Server) (e : Step) : Decidable (RivalsCleared srv e) := decidableOnStanza _ srv e

section
variable {a b : Server}

theorem OneActive.evolve (h : OneActive a)
    (hab : Evolves (fun s s' => s'.isActive = true → s.isActive = true ∧ s'.bareJid = s.bareJid) a b) :
    OneActive b := by
  intro s' hs' t' ht' hsa hta he
  obtain ⟨s, hs, hid, hR⟩ := hab s' hs'
  obtain ⟨t, ht, hid', hQ⟩ := hab t' ht'
  obtain ⟨hs₁, hs₂⟩ := hR hsa
  obtain ⟨ht₁, ht₂⟩ := hQ hta
  rw [← hid, ← hid']
  exact h s hs t ht hs₁ ht₁ (by rw [← hs₂, ← ht₂, he])

theorem OneActive.later (h : OneActive a) (hab : Evolves Later a b) : OneActive b :=
  h.evolve (hab.mono fun _ _ => Later.active)

theorem OneParser.kept (h : OneParser a) (hab : Evolves Kept a b) : OneParser b := by
  intro s' hs' t' ht' hsx htx
  obtain ⟨s, hs, hid, hR⟩ := hab s' hs'
  obtain ⟨t, ht, hid', hQ⟩ := hab t' ht'
  rw [← hid, ← hid']
  exact h s hs t ht (hR.inXmlParse hsx) (hQ.inXmlParse htx)

theorem OneParser.others {i : ℕ} (h : OneParser a) (hx : (a.sess i).inXmlParse = true)
    (hl : a.Live i) : ∀ t ∈ a.sessions, t.id ≠ i → t.inXmlParse = false := by
  intro t ht hti
  obtain ⟨hm, hi⟩ := Server.sess_mem hl
  by_contra hn
  exact hti ((h t ht _ hm (by simpa using hn) hx).trans hi)

/-- A session becomes active where no other with its address is. -/
theorem OneActive.activate (h : OneActive a) (i : ℕ) {f : Session → Session}
    (hf : ∀ s, Session.bareJid { f s with id := s.id } = s.bareJid)
    (hno : ∀ t ∈ a.sessions, ¬Rival a i t) : OneActive (a.modify i f) := by
  have own : ∀ s ∈ a.sessions, s.id = i → a.sess i = s := by
    rintro s hs rfl
    exact Server.sess_of_mem hs
  intro s' hs' t' ht' hsa hta he
  obtain ⟨s, hs, rfl⟩ := (Server.mem_modify a i f).mp hs'
  obtain ⟨t, ht, rfl⟩ := (Server.mem_modify a i f).mp ht'
  split_ifs at hsa hta he ⊢ with hsi hti hti
  · exact hsi.trans hti.symm
  · refine absurd ⟨hta, hti, ?_⟩ (hno t ht)
    rw [← he, hf, own s hs hsi]
  · refine absurd ⟨hsa, hsi, ?_⟩ (hno s hs)
    rw [he, hf, own t ht hti]
  · exact h s hs t ht hsa hta he

end

/-! ## The two requests -/

section
variable {srv : Server} {i : ℕ} (o : Oracle) {stanza : Node}

/-- After the conflict check no rival is left. -/
theorem kickConflict_rival (hx : ∀ t ∈ srv.sessions, t.id ≠ i → t.inXmlParse = false)
    (hc : ∀ t ∈ srv.sessions, Rival srv i t →
      srv.sessionFindByJid (srv.sess i).bareJid.str = some t.id) :
    ∀ t ∈ (kickConflict srv i o).sessions, ¬Rival (kickConflict srv i o) i t := by
  rintro t ht ⟨hta, hti, htj⟩
  obtain ⟨s, hs, hid, hR⟩ := (kickConflict_flow srv i o tame_later).evolves t ht
  obtain ⟨hsa, hj⟩ := hR.active hta
  have hsi : s.id ≠ i := hid ▸ hti
  have hb := standing.get Session.bareJid (fun _ => rfl) (kickConflict_standing srv i o)
  have hf := hc s hs ⟨hsa, hsi, by rw [← hj, htj, hb]⟩
  have hss := Server.sess_of_mem hs
  refine kickConflict_removes srv i o hf hsi ?_ ?_ (hid ▸ Server.live_of_mem ht)
  · rw [hss]
    exact hx s hs hsi
  · rw [hss]
    intro hd
    simp [Session.isActive, hd] at hsa

theorem sessionHandleBind_oneActive (h : OneActive srv)
    (hx : ∀ t ∈ srv.sessions, t.id ≠ i → t.inXmlParse = false)
    (hg : ¬((srv.sess i).state = .streamOpened ∧ (srv.sess i).authenticated = false))
    (ha : Activates stanza) (hb : childNs stanza = bindNs) (hc : Clears srv i stanza) :
    OneActive (sessionHandleBind srv i o stanza) := by
  unfold sessionHandleBind
  split
  · exact h.later (.of_steady (.stanzaSendError srv i _ _ _))
  · rename_i hs
    have hbinds : Binds srv i stanza := by
      refine ⟨ha, hb, ?_⟩
      by_cases h₁ : (srv.sess i).state = .authenticated
      · exact Or.inl h₁
      · have h₂ : (srv.sess i).state = .streamOpened := by
          by_contra h₂
          exact hs ⟨h₁, h₂⟩
        exact Or.inr ⟨h₂, by simpa [h₂] using hg⟩
    have hk := (h.later (kickConflict_flow srv i o tame_later).evolves).activate i
      (f := fun s => { s with jidResource := requestedResource o stanza, state := .bound })
      (fun _ => rfl) (kickConflict_rival o hx fun t ht hr => (hc t ht hr).1 hbinds)
    exact hk.later (.of_steady (.stanzaSend _ i _))

theorem sessionHandleSessionIq_oneActive (h : OneActive srv)
    (hg : ¬((srv.sess i).state = .streamOpened ∧ (srv.sess i).authenticated = false))
    (ha : Activates stanza) (hb : childNs stanza ≠ bindNs) (hc : Clears srv i stanza) :
    OneActive (sessionHandleSessionIq srv i stanza) := by
  have hs : Starts srv i stanza := ⟨ha, ha.2.2.resolve_left hb, hg⟩
  have hk := h.activate i (f := fun s => { s with state := .sessionActive }) (fun _ => rfl)
    fun t ht hr => (hc t ht hr).2 hs
  exact hk.later (.of_steady (.stanzaSend _ i _))

theorem stanzaRoute_oneActive (h : OneActive srv)
    (hx : ∀ t ∈ srv.sessions, t.id ≠ i → t.inXmlParse = false) (hc : Clears srv i stanza) :
    OneActive (stanzaRoute srv i o stanza) := by
  by_cases hg : (srv.sess i).state = .streamOpened ∧ (srv.sess i).authenticated = false
  · exact h.later (stanzaRoute_later srv i o (Or.inl hg))
  by_cases ha : Activates stanza
  · rw [stanzaRoute_activates srv i o ha hg]
    split
    · exact sessionHandleBind_oneActive o h hx hg ha ‹_› hc
    · exact sessionHandleSessionIq_oneActive h hg ha ‹_› hc
  · exact h.later (stanzaRoute_later srv i o (Or.inr ha))

end

/-! ## Steps and runs -/

/-- What every step that meets the condition keeps. -/
def Exclusive (srv : Server) : Prop := OneActive srv ∧ OneParser srv

theorem Exclusive.later {a b : Server} (h : Exclusive a) (hab : Evolves Later a b) : Exclusive b :=
  ⟨h.1.later hab, h.2.kept hab.kept⟩

theorem serverAccept_exclusive {srv : Server} (h : Exclusive srv) : Exclusive srv.serverAccept := by
  constructor
  · intro s hs t ht hsa hta he
    obtain hs | rfl := Server.mem_serverAccept hs
    · obtain ht | rfl := Server.mem_serverAccept ht
      · exact h.1 s hs t ht hsa hta he
      · cases hta
    · cases hsa
  · intro s hs t ht hsx htx
    obtain hs | rfl := Server.mem_serverAccept hs
    · obtain ht | rfl := Server.mem_serverAccept ht
      · exact h.2 s hs t ht hsx htx
      · cases htx
    · cases hsx

/-- A read starts where no parser runs, so its parser is the only one. -/
theorem beginChunk_exclusive {srv : Server} {i : ℕ} (h : Exclusive srv) (hi : idle srv = true) :
    Exclusive (beginChunk srv i) := by
  have hx : ∀ s ∈ srv.sessions, s.inXmlParse = false := by
    intro s hs
    simpa using List.all_eq_true.mp hi s hs
  have hown : ∀ s ∈ (beginChunk srv i).sessions, s.inXmlParse = true → s.id = i := by
    intro s' hs' hp
    obtain ⟨s, hs, rfl⟩ := (Server.mem_modify srv i _).mp hs'
    split_ifs at hp ⊢ with hsi
    · exact hsi
    · rw [hx s hs] at hp
      cases hp
  refine ⟨h.1.evolve (.modify srv i ?_ ?_), ?_⟩
  · exact fun s h => ⟨h, rfl⟩
  · exact fun s _ _ h => ⟨h, rfl⟩
  · intro s hs t ht hsx htx
    rw [hown s hs hsx, hown t ht htx]

theorem callback_exclusive {srv : Server} {i : ℕ} (o : Oracle) (e : Sax) (h : Exclusive srv)
    (hp : parsing srv i = true) (hc : RivalsCleared srv (.sax i o e)) :
    Exclusive (callback srv i o e) := by
  have hl := live_of_parsing hp
  refine ⟨?_, h.2.kept (callback_kept srv i o hl e)⟩
  obtain hf | ⟨rfl, stanza, hd, he⟩ := callback_cases srv i o tame_later hl e
  · exact h.1.later hf.evolves
  · have hs := (addDepth_silent srv i (-1)).steady
    have hl' := (hs.live i).mpr hl
    have hx := (h.2.kept (Evolves.of_steady hs).kept).others
      ((hs.get Session.inXmlParse (fun _ => rfl) i).trans (of_decide_eq_true hp).2) hl'
    have hr := stanzaRoute_oneActive o (h.1.later (.of_steady hs)) hx (hc stanza hd)
    rw [he]
    exact hr.later (.of_steady (.modify _ i fun _ => rfl))

theorem step_exclusive (srv : Server) (e : Step) (h : Exclusive srv) :
    RivalsCleared srv e → Exclusive (step srv e) := by
  refine step_cases (P := fun e srv' => RivalsCleared srv e → Exclusive srv') ?_ ?_ ?_ ?_ ?_ ?_ e
  · exact fun _ _ => h
  · exact fun _ _ => serverAccept_exclusive h
  · exact fun i o _ _ => h.later (sessionTeardown_flow srv i o tame_later).evolves
  · exact fun i hi _ => beginChunk_exclusive h hi
  · exact fun i o sax hp hc => callback_exclusive o sax h hp hc
  · exact fun i o _ _ => h.later (endChunk_flow srv i o tame_later).evolves

/-- In every state a run reaches, no user has two active sessions. -/
theorem one_active_session (cfg : Config) (files : FileTree.Tree Content) (steps : List Step)
    (h : Meets RivalsCleared (Server.init cfg files) steps) :
    OneActive (run (Server.init cfg files) steps) := by
  refine (run_invariant step_exclusive steps _ ⟨?_, ?_⟩ h).1
  · exact fun s hs => absurd hs (by simp [Server.init])
  · exact fun s hs => absurd hs (by simp [Server.init])

/-- Two connections of one user that log in one after the other. -/
def orderedLogins : List Step := .accept :: login 0 bobPlain ++ .accept :: login 1 bobPlain

set_option maxRecDepth 20000 in
theorem orderedLogins_oneActive :
    OneActive (run exampleServer orderedLogins) ∧
      (run exampleServer orderedLogins).sessions.map (fun s => (s.id, s.state)) = [(1, .bound)] :=
  ⟨one_active_session _ _ orderedLogins (by decide +kernel), by decide +kernel⟩

/-- Two connections of one user, the second to connect binding first. -/
def crossedLogins : List Step := [.accept, .accept] ++ login 1 bobPlain ++ login 0 bobPlain

set_option maxRecDepth 20000 in
theorem two_active_sessions :
    ¬∀ cfg files steps, OneActive (run (Server.init cfg files) steps) := by
  intro h
  have ho := h exampleConfig (dataDirectory exampleAccounts) crossedLogins
  revert ho
  decide +kernel

end Xmppd.Conflict
