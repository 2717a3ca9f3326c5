import Xmppd.Stanza

/-!
# What the handlers leave alone

The handlers for messages, presence, rosters and queries write to outputs,
presence fields, rosters and files. What decides how far a session has come and
how it is found is its standing, and these handlers keep the standing of every
session in the table.
-/
namespace Xmppd.Frames
open CStrings FileTree LibXml Util ServerState User Roster Message Presence Streams Auth Stanza

/-- A part of the record, as the record with everything else cleared. -/
structure View where
  see : Session → Session
  id : ∀ s, (see s).id = s.id

instance : CoeFun View fun _ => Session → Session := ⟨View.see⟩

/-- The record without the parser's position, the output and the presence. -/
def holding : View where
  see s := { s with
    out := []
    building := []
    stanzaDepth := 0
    parserResetPending := false
    teardownPending := false
    available := false
    initialPresenceSent := false
    presenceStanza := none }
  id _ := rfl

/-- The same without the roster. -/
def standing : View where
  see s := { holding s with roster := Roster.empty }
  id _ := rfl

/-- What can be read off a view agrees where the view does. -/
theorem View.get (v : View) {α : Type} (g : Session → α) (hg : ∀ s, g (v s) = g s)
    {s s' : Session} (h : v s' = v s) : g s' = g s := by
  rw [← hg s', ← hg s, h]

/-- The configuration and the view of every session are unchanged. -/
structure Same (v : View) (srv srv' : Server) : Prop where
  cfg : srv'.cfg = srv.cfg
  nextId : srv'.nextId = srv.nextId
  views : srv'.sessions.map v = srv.sessions.map v

abbrev Steady : Server → Server → Prop := Same standing

namespace Same
variable {v : View} {a b c : Server}

theorem refl (srv : Server) : Same v srv srv := ⟨rfl, rfl, rfl⟩

theorem trans (hab : Same v a b) (hbc : Same v b c) : Same v a c :=
  ⟨hbc.cfg.trans hab.cfg, hbc.nextId.trans hab.nextId, hbc.views.trans hab.views⟩

theorem of_filesOnly (h : FilesOnly a b) : Same v a b := by
  obtain ⟨t, rfl⟩ := h
  exact ⟨rfl, rfl, rfl⟩

theorem modify (srv : Server) (i : ℕ) {f : Session → Session}
    (hf : ∀ s, v { f s with id := s.id } = v s) : Same v srv (srv.modify i f) := by
  refine ⟨rfl, rfl, ?_⟩
  simp only [Server.modify, List.map_map]
  congr 1
  funext s
  simp only [Function.comp]
  split_ifs
  · exact hf s
  · rfl

theorem crash (srv : Server) : Same v srv srv.crash := ⟨rfl, rfl, rfl⟩

theorem foldl {α : Type} {f : Server → α → Server} (hf : ∀ srv x, Same v srv (f srv x)) (l : List α) :
    ∀ srv, Same v srv (l.foldl f srv) := by
  induction l with
  | nil => exact refl
  | cons x xs ih => exact fun srv => (hf srv x).trans (ih _)

/-- Less is seen to be unchanged where more is. -/
theorem weaken {w : View} (h : Same v a b) (hw : ∀ s, w (v s) = w s) : Same w a b := by
  have hm : ∀ srv : Server, srv.sessions.map w = (srv.sessions.map v).map w := by
    intro srv
    rw [List.map_map]
    exact List.map_congr_left fun s _ => (hw s).symm
  exact ⟨h.cfg, h.nextId, by rw [hm, hm, h.views]⟩

theorem mem (h : Same v a b) {s' : Session} (hs' : s' ∈ b.sessions) :
    ∃ s ∈ a.sessions, v s' = v s := by
  have hm : v s' ∈ a.sessions.map v := h.views ▸ List.mem_map_of_mem hs'
  obtain ⟨s, hs, he⟩ := List.mem_map.mp hm
  exact ⟨s, hs, he.symm⟩

/-- A property that the view shows is found in both tables or in none. -/
theorem exists_mem (h : Same v a b) (P : Session → Prop) (hP : ∀ s, P (v s) ↔ P s) :
    (∃ s ∈ b.sessions, P s) ↔ ∃ s ∈ a.sessions, P s := by
  have hview : ∀ srv : Server, (∃ s ∈ srv.sessions, P s) ↔ ∃ s ∈ srv.sessions.map v, P s := by
    intro srv
    simp only [List.mem_map, exists_exists_and_eq_and, hP]
  rw [hview, hview, h.views]

theorem ids (h : Same v a b) : b.sessions.map Session.id = a.sessions.map Session.id := by
  have hm := congrArg (List.map Session.id) h.views
  rw [List.map_map, List.map_map] at hm
  simpa only [Function.comp_def, v.id] using hm

theorem live (h : Same v a b) (i : ℕ) : b.Live i ↔ a.Live i := by
  unfold Server.Live
  rw [h.ids]

theorem sess (h : Same v a b) (i : ℕ) : v (b.sess i) = v (a.sess i) := by
  by_cases hl : b.Live i
  · obtain ⟨hm, hi⟩ := Server.sess_mem hl
    obtain ⟨s, hs, he⟩ := h.mem hm
    have hid : s.id = i := by rw [← v.id s, ← he, v.id, hi]
    rw [he, ← hid, Server.sess_of_mem hs]
  · rw [Server.sess_of_not_live hl, Server.sess_of_not_live fun ha => hl ((h.live i).mpr ha)]

/-- A field the view shows is kept by every record. -/
theorem get {α : Type} (g : Session → α) (hg : ∀ s, g (v s) = g s) (h : Same v a b) (i : ℕ) :
    g (b.sess i) = g (a.sess i) := v.get g hg (h.sess i)

/-- The search goes by what the standing shows. -/
theorem sessionFindByJid (h : Steady a b) (bare : Str) :
    b.sessionFindByJid bare = a.sessionFindByJid bare := by
  have key : ∀ srv : Server, srv.sessionFindByJid bare =
      ((srv.sessions.map standing).find? fun s => s.jidLocal.str ≠ [] ∧ s.bareJid.str = bare).map
        Session.id := by
    intro srv
    rw [List.find?_map, Option.map_map]
    rfl
  rw [key, key, h.views]

end Same

/-- Only outputs, presence fields and the parser's position differ. -/
structure Silent (srv srv' : Server) : Prop extends Same holding srv srv' where
  files : srv'.files = srv.files

namespace Silent
variable {a b c : Server}

theorem refl (srv : Server) : Silent srv srv := ⟨.refl srv, rfl⟩

theorem trans (hab : Silent a b) (hbc : Silent b c) : Silent a c :=
  ⟨hab.toSame.trans hbc.toSame, hbc.files.trans hab.files⟩

theorem steady (h : Silent a b) : Steady a b := h.toSame.weaken fun _ => rfl

theorem modify (srv : Server) (i : ℕ) {f : Session → Session}
    (hf : ∀ s, holding { f s with id := s.id } = holding s) : Silent srv (srv.modify i f) :=
  ⟨.modify srv i hf, rfl⟩

theorem sessionWrite (srv : Server) (i : ℕ) (out : Out) : Silent srv (srv.sessionWrite i out) :=
  modify srv i fun _ => rfl

theorem stanzaSend (srv : Server) (i : ℕ) (n : Node) : Silent srv (srv.stanzaSend i n) :=
  sessionWrite srv i _

theorem stanzaSendError (srv : Server) (i : ℕ) (n : Node) (t c : Str) :
    Silent srv (srv.stanzaSendError i n t c) := sessionWrite srv i _

theorem crash (srv : Server) : Silent srv srv.crash := ⟨.crash srv, rfl⟩

theorem foldl {α : Type} {f : Server → α → Server} (hf : ∀ srv x, Silent srv (f srv x)) (l : List α) :
    ∀ srv, Silent srv (l.foldl f srv) := by
  induction l with
  | nil => exact refl
  | cons x xs ih => exact fun srv => (hf srv x).trans (ih _)

end Silent

theorem Same.sessionWrite (srv : Server) (i : ℕ) (out : Out) : Steady srv (srv.sessionWrite i out) :=
  (Silent.sessionWrite srv i out).steady

theorem Same.stanzaSend (srv : Server) (i : ℕ) (n : Node) : Steady srv (srv.stanzaSend i n) :=
  (Silent.stanzaSend srv i n).steady

theorem Same.stanzaSendError (srv : Server) (i : ℕ) (n : Node) (t c : Str) :
    Steady srv (srv.stanzaSendError i n t c) := (Silent.stanzaSendError srv i n t c).steady

/-! ## Files and rosters -/

theorem filesOnly_writeFile_getD (srv : Server) (path : Str) (c : Content) :
    FilesOnly srv ((writeFile srv path c).getD srv) := by
  cases h : writeFile srv path c with
  | none => exact .refl srv
  | some s =>
      obtain ⟨p, t, -, -, rfl⟩ := writeFile_eq_some h
      exact ⟨t, rfl⟩

theorem filesOnly_mkdir_getD (srv : Server) (path : Str) :
    FilesOnly srv ((mkdir srv path).getD srv) := by
  cases h : mkdir srv path with
  | none => exact .refl srv
  | some s =>
      obtain ⟨p, t, -, -, rfl⟩ := mkdir_eq_some h
      exact ⟨t, rfl⟩

theorem filesOnly_unlink (srv : Server) (path : Str) : FilesOnly srv (unlink srv path) := by
  unfold unlink
  split
  · exact ⟨_, rfl⟩
  · exact .refl srv

theorem filesOnly_rmdir (srv : Server) (path : Str) : FilesOnly srv (rmdir srv path) := by
  unfold rmdir
  split
  · exact ⟨_, rfl⟩
  · exact .refl srv

theorem filesOnly_foldl {α : Type} {f : Server → α → Server} (hf : ∀ srv x, FilesOnly srv (f srv x))
    (l : List α) : ∀ srv, FilesOnly srv (l.foldl f srv) := by
  induction l with
  | nil => exact FilesOnly.refl
  | cons x xs ih => exact fun srv => (hf srv x).trans (ih _)

theorem filesOnly_userDelete (srv : Server) (username : Str) : FilesOnly srv (userDelete srv username) := by
  unfold userDelete
  refine FilesOnly.trans ?_ (filesOnly_rmdir _ _)
  refine FilesOnly.trans ?_ (filesOnly_unlink _ _)
  refine FilesOnly.trans ?_ (filesOnly_unlink _ _)
  refine FilesOnly.trans ?_ (filesOnly_rmdir _ _)
  exact filesOnly_foldl (fun srv n => filesOnly_unlink srv _) _ srv

theorem filesOnly_userChangePassword (srv : Server) (username password : Str) :
    FilesOnly srv (userChangePassword srv username password).1 := by
  unfold userChangePassword
  split
  · exact .refl srv
  · rename_i s h
    obtain ⟨p, t, -, -, rfl⟩ := writeFile_eq_some h
    exact ⟨t, rfl⟩

theorem filesOnly_rosterSaveForUser (srv : Server) (username : Str) (r : Roster) :
    FilesOnly srv (rosterSaveForUser srv username r) := filesOnly_writeFile_getD srv _ _

theorem steady_rosterSave (srv : Server) (i : ℕ) : Steady srv (rosterSave srv i) :=
  .of_filesOnly (filesOnly_rosterSaveForUser srv _ _)

theorem steady_ensureRoster (srv : Server) (i : ℕ) : Steady srv (ensureRoster srv i) := by
  unfold ensureRoster
  split
  · exact .refl srv
  · exact .modify srv i fun _ => rfl

theorem steady_modifyRoster (srv : Server) (i : ℕ) (f : Roster → Roster) :
    Steady srv (modifyRoster srv i f) := .modify srv i fun _ => rfl

theorem silent_rosterPush (srv : Server) (i : ℕ) (id : Str) (item : RosterItem) :
    Silent srv (rosterPush srv i id item) := .stanzaSend srv i _

theorem steady_rosterPush (srv : Server) (i : ℕ) (id : Str) (item : RosterItem) :
    Steady srv (rosterPush srv i id item) := (silent_rosterPush srv i id item).steady

/-- A roster changed and saved. -/
theorem steady_editSave (srv : Server) (i : ℕ) (f : Roster → Roster) :
    Steady srv (rosterSave (modifyRoster srv i f) i) :=
  (steady_modifyRoster srv i f).trans (steady_rosterSave _ i)

theorem steady_rosterHandleIq (srv : Server) (i : ℕ) (o : Oracle) (stanza : Node) :
    Steady srv (rosterHandleIq srv i o stanza) := by
  refine (steady_ensureRoster srv i).trans ?_
  unfold rosterHandleIq
  dsimp only
  generalize ensureRoster srv i = srv
  split
  · exact .stanzaSend srv i _
  split
  · split
    · exact .stanzaSendError srv i _ _ _
    · split
      · exact .stanzaSendError srv i _ _ _
      · split
        · exact ((steady_editSave srv i _).trans (.stanzaSend _ i _)).trans (steady_rosterPush _ i _ _)
        · split
          · exact ((steady_editSave srv i _).trans (.stanzaSend _ i _)).trans (steady_rosterPush _ i _ _)
          · exact (steady_editSave srv i _).trans (.stanzaSend _ i _)
  · exact .stanzaSendError srv i _ _ _

/-! ## Messages -/

theorem filesOnly_messageStoreOffline (srv : Server) (o : Oracle) (username : Str) (stanza : Node) :
    FilesOnly srv (messageStoreOffline srv o username stanza) :=
  (filesOnly_mkdir_getD srv _).trans (filesOnly_writeFile_getD _ _ _)

theorem steady_handleMessage (srv : Server) (i : ℕ) (o : Oracle) (stanza : Node) :
    Steady srv (handleMessage srv i o stanza) := by
  unfold handleMessage
  dsimp only
  split
  · exact .stanzaSendError srv i _ _ _
  split
  · exact .stanzaSendError srv i _ _ _
  split
  · exact .stanzaSendError srv i _ _ _
  split
  · exact .stanzaSend srv _ _
  split
  · exact .refl srv
  · exact .of_filesOnly (filesOnly_messageStoreOffline srv o _ _)

theorem holding_deliverOne (i : ℕ) (dir : Str) (srv : Server) (name : Str) :
    Same holding srv (deliverOne i dir srv name) := by
  unfold deliverOne
  dsimp only
  split
  · exact (Silent.stanzaSend srv i _).toSame.trans (.of_filesOnly (filesOnly_unlink _ _))
  · exact .of_filesOnly (filesOnly_unlink _ _)

theorem holding_messageDeliverOffline (srv : Server) (i : ℕ) :
    Same holding srv (messageDeliverOffline srv i) :=
  .foldl (holding_deliverOne i _) _ srv

theorem steady_messageDeliverOffline (srv : Server) (i : ℕ) : Steady srv (messageDeliverOffline srv i) :=
  (holding_messageDeliverOffline srv i).weaken fun _ => rfl

/-! ## Presence -/

theorem silent_rosterLoop {stack : ℕ → Jid} {body : Jid → Server → RosterItem → Server}
    (hb : ∀ buf srv item, Silent srv (body buf srv item)) (items : List RosterItem) :
    ∀ k srv, Silent srv (rosterLoop stack body k items srv) := by
  induction items with
  | nil => exact fun _ => Silent.refl
  | cons item items ih => exact fun k srv => (hb _ srv item).trans (ih (k+1) _)

theorem silent_sendToContact (pres : Node) (buf : Jid) (srv : Server) (item : RosterItem) :
    Silent srv (sendToContact pres buf srv item) := by
  unfold sendToContact
  split
  · split
    · exact .stanzaSend srv _ _
    · exact .refl srv
  · exact .refl srv

theorem silent_receiveFromContact (i : ℕ) (buf : Jid) (srv : Server) (item : RosterItem) :
    Silent srv (receiveFromContact i buf srv item) := by
  unfold receiveFromContact
  split
  · split
    · split
      · exact .stanzaSend srv _ _
      · exact .refl srv
    · exact .refl srv
  · exact .refl srv

theorem silent_sendUnavailable (i : ℕ) (pres : Node) (buf : Jid) (srv : Server) (item : RosterItem) :
    Silent srv (sendUnavailable i pres buf srv item) := by
  unfold sendUnavailable
  split
  · split
    · split
      · exact .refl srv
      · exact .stanzaSend srv _ _
    · exact .refl srv
  · exact .refl srv

theorem silent_redeliverPending (i : ℕ) (srv : Server) (other : Session) :
    Silent srv (redeliverPending i srv other) := by
  unfold redeliverPending
  split
  · exact .refl srv
  · refine Silent.foldl ?_ _ srv
    intro srv item
    split
    · exact .stanzaSend srv i _
    · exact .refl srv

theorem silent_exchangePresence (srv : Server) (i : ℕ) (o : Oracle) (pres : Node) :
    Silent srv (exchangePresence srv i o pres) :=
  (silent_rosterLoop (silent_sendToContact pres) _ 0 srv).trans
    (silent_rosterLoop (silent_receiveFromContact i) _ 0 _)

theorem steady_deliverInitial (srv : Server) (i : ℕ) : Steady srv (deliverInitial srv i) := by
  refine Same.trans ?_ (Silent.foldl (silent_redeliverPending i) _ _).steady
  exact (Same.modify srv i (by intro s; rfl)).trans (steady_messageDeliverOffline _ i)

theorem steady_presenceHandleAvailable (srv : Server) (i : ℕ) (o : Oracle) (stanza : Node) :
    Steady srv (presenceHandleAvailable srv i o stanza) := by
  unfold presenceHandleAvailable
  dsimp only
  generalize stanza.setProp "from" (srv.sess i).fullJid.str = pres
  have hm : Steady srv (srv.modify i fun s =>
      { s with available := true, presenceStanza := some pres }) := .modify srv i fun _ => rfl
  have he := (hm.trans (steady_ensureRoster _ i)).trans (silent_exchangePresence _ i o pres).steady
  split
  · exact he.trans (steady_deliverInitial _ i)
  · exact he

/-- A broadcast of unavailability loads the own roster and is silent otherwise. -/
theorem presenceBroadcastUnavailable_silent (srv : Server) (i : ℕ) (o : Oracle) :
    presenceBroadcastUnavailable srv i o = srv ∨
      Silent (ensureRoster srv i) (presenceBroadcastUnavailable srv i o) := by
  unfold presenceBroadcastUnavailable
  dsimp only
  split
  · exact Or.inl rfl
  · refine Or.inr (Silent.trans ?_ (.modify _ i fun _ => rfl))
    exact silent_rosterLoop (silent_sendUnavailable i _) _ _ _

theorem steady_presenceBroadcastUnavailable (srv : Server) (i : ℕ) (o : Oracle) :
    Steady srv (presenceBroadcastUnavailable srv i o) := by
  obtain h | h := presenceBroadcastUnavailable_silent srv i o
  · rw [h]
    exact .refl srv
  · exact (steady_ensureRoster srv i).trans h.steady

theorem steady_presenceHandleSubscribe (srv : Server) (i : ℕ) (o : Oracle) (dest : Str) :
    Steady srv (presenceHandleSubscribe srv i o dest) := by
  unfold presenceHandleSubscribe
  dsimp only
  have hs := (steady_ensureRoster srv i).trans
    (steady_editSave _ i (requestItem (jidParse (o.stack 0) dest).jid.bare.str))
  split
  · exact hs.trans (.crash _)
  · split
    · exact (hs.trans (steady_rosterPush _ i _ _)).trans (.stanzaSend _ _ _)
    · exact hs.trans (steady_rosterPush _ i _ _)

theorem steady_grantTarget (srv : Server) (o : Oracle) (target : Option ℕ) (localpart bare : Str) :
    Steady srv (grantTarget srv o target localpart bare) := by
  unfold grantTarget
  dsimp only
  split
  · split
    · exact (steady_editSave srv _ _).trans (steady_rosterPush _ _ _ _)
    · exact steady_editSave srv _ _
  · exact .of_filesOnly (filesOnly_rosterSaveForUser srv _ _)

theorem silent_notifySubscribed (srv : Server) (i : ℕ) (target : Option ℕ) (src dest : Str) :
    Silent srv (notifySubscribed srv i target src dest) := by
  unfold notifySubscribed
  split
  · dsimp only
    split
    · exact (Silent.stanzaSend srv _ _).trans (.stanzaSend _ _ _)
    · exact .stanzaSend srv _ _
  · exact .refl srv

theorem steady_presenceHandleSubscribed (srv : Server) (i : ℕ) (o : Oracle) (dest : Str) :
    Steady srv (presenceHandleSubscribed srv i o dest) := by
  unfold presenceHandleSubscribed
  dsimp only
  have hs := (steady_ensureRoster srv i).trans
    (steady_editSave _ i (approveItem (jidParse (o.stack 0) dest).jid.bare.str))
  split
  · exact hs.trans (.crash _)
  · exact ((hs.trans (steady_rosterPush _ i _ _)).trans (steady_grantTarget _ o _ _ _)).trans
      (silent_notifySubscribed _ i _ _ _).steady

theorem steady_withdrawAt (srv : Server) (i : ℕ) (id jid : Str) (f : RosterItem → RosterItem) :
    Steady srv (withdrawAt srv i id jid f) := by
  unfold withdrawAt
  split
  · exact (steady_editSave srv i _).trans (steady_rosterPush _ i _ _)
  · exact .refl srv

theorem steady_withdrawTarget (type : Str) (theirs : RosterItem → RosterItem)
    (srv : Server) (i : ℕ) (o : Oracle) (jid : Jid) :
    Steady srv (withdrawTarget type theirs srv i o jid) := by
  unfold withdrawTarget
  dsimp only
  split
  · split
    · exact ((steady_withdrawAt srv _ _ _ theirs).trans (.stanzaSend _ _ _)).trans (.stanzaSend _ _ _)
    · exact (steady_withdrawAt srv _ _ _ theirs).trans (.stanzaSend _ _ _)
  · split
    · exact .of_filesOnly (filesOnly_rosterSaveForUser _ _ _)
    · exact .refl srv

theorem steady_withdraw (type : Str) (own theirs : RosterItem → RosterItem)
    (srv : Server) (i : ℕ) (o : Oracle) (dest : Str) :
    Steady srv (withdraw type own theirs srv i o dest) :=
  ((steady_ensureRoster srv i).trans (steady_withdrawAt _ i _ _ own)).trans
    (steady_withdrawTarget type theirs _ i o _)

theorem steady_handlePresence (srv : Server) (i : ℕ) (o : Oracle) (stanza : Node) :
    Steady srv (handlePresence srv i o stanza) := by
  unfold handlePresence
  dsimp only
  split
  · exact steady_presenceHandleAvailable srv i o stanza
  split
  · exact (steady_presenceBroadcastUnavailable srv i o).trans (.modify _ i fun _ => rfl)
  split
  · exact steady_presenceHandleSubscribe srv i o _
  split
  · exact steady_presenceHandleSubscribed srv i o _
  split
  · exact steady_withdraw _ _ _ srv i o _
  split
  · exact steady_withdraw _ _ _ srv i o _
  · exact .refl srv

/-! ## Registration and the remaining requests -/

theorem steady_registerCreate (srv : Server) (i : ℕ) (o : Oracle) (stanza : Node) (uname pw : Str) :
    Steady srv (registerCreate srv i o stanza uname pw) := by
  have hc : Steady srv (userCreate srv o uname pw).1 := .of_filesOnly (userCreate_filesOnly srv o uname pw)
  unfold registerCreate
  dsimp only
  split
  · exact hc.trans (.stanzaSend _ i _)
  split
  · exact hc.trans (.stanzaSendError _ i _ _ _)
  split
  · exact hc.trans (.stanzaSendError _ i _ _ _)
  · exact hc.trans (.stanzaSendError _ i _ _ _)

theorem steady_registerSet (srv : Server) (i : ℕ) (o : Oracle) (stanza : Node) :
    Steady srv (registerSet srv i o stanza) := by
  unfold registerSet
  dsimp only
  split
  · split
    · exact .stanzaSendError srv i _ _ _
    · refine Same.trans ?_ (.modify _ i fun _ => rfl)
      exact (Same.stanzaSend srv i _).trans (.of_filesOnly (filesOnly_userDelete _ _))
  split
  · exact .stanzaSendError srv i _ _ _
  split
  · exact steady_registerCreate srv i o stanza _ _
  split
  · exact .stanzaSendError srv i _ _ _
  have hc : ∀ uname pw, Steady srv (userChangePassword srv uname pw).1 := fun uname pw =>
    .of_filesOnly (filesOnly_userChangePassword srv uname pw)
  split
  · exact (hc _ _).trans (.stanzaSend _ i _)
  · exact (hc _ _).trans (.stanzaSendError _ i _ _ _)

theorem steady_registerHandleIq (srv : Server) (i : ℕ) (o : Oracle) (stanza : Node) :
    Steady srv (registerHandleIq srv i o stanza) := by
  unfold registerHandleIq
  split
  · exact .stanzaSend srv i _
  split
  · exact steady_registerSet srv i o stanza
  · exact .stanzaSendError srv i _ _ _

theorem silent_routeReply (srv : Server) (i : ℕ) (o : Oracle) (stanza : Node) :
    Silent srv (routeReply srv i o stanza) := by
  unfold routeReply
  dsimp only
  split
  · exact .refl srv
  split
  · exact .stanzaSend srv _ _
  · exact .refl srv

theorem silent_routeUnknown (srv : Server) (i : ℕ) (o : Oracle) (stanza : Node) :
    Silent srv (routeUnknown srv i o stanza) := by
  unfold routeUnknown
  dsimp only
  split
  · split
    · exact .stanzaSend srv _ _
    · exact .stanzaSendError srv i _ _ _
  · exact .stanzaSendError srv i _ _ _

theorem steady_whenActive {srv srv' : Server} (i : ℕ) (stanza : Node) (h : Steady srv srv') :
    Steady srv (whenActive srv i stanza srv') := by
  unfold whenActive
  split
  · exact h
  · exact .stanzaSendError srv i _ _ _

end Xmppd.Frames
