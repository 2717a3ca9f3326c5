import Xmppd.Coherence
import Xmppd.Unreadable

/-!
# What all rosters keep

A property of the items of a roster that every cached roster and every roster file
has. The handlers change a roster in five ways. Three of them, which edit the item
for the sender in the roster of another user, and the approval must keep the
property whatever the roster is; what a session asks for in its own roster must
keep it there. The other handlers write no rosters, and files without items.
-/
namespace Xmppd.KeptRosters
open CStrings FileTree LibXml Util ServerState User Roster Message Presence Streams Auth Stanza EventLoop
open Frames Evolution RosterStore Coherence Confinement Unreadable

/-- The items of every cached roster and of every roster file have the property, and
so has the roster without items. -/
structure AllRosters (P : List RosterItem → Prop) (srv : Server) : Prop where
  empty : P []
  cached : ∀ s ∈ srv.sessions, P s.roster.items
  stored : ∀ p c, srv.files.content p = some c → P (loadContent (some c)).items

/-- The changes that do not depend on what a session asks for keep the property. -/
structure Closed (P : List RosterItem → Prop) : Prop where
  approve : ∀ (r : Roster) (bare : Buf 512), P r.items → P (approveItem bare.str r).items
  grantTo : ∀ (r : Roster) (bare : Str), P r.items → P (rosterEdit r bare (setAsk false ∘ grantTo)).items
  dropTo : ∀ (r : Roster) (bare : Str), P r.items → P (rosterEdit r bare (setAsk false ∘ dropTo)).items
  dropFrom : ∀ (r : Roster) (bare : Str), P r.items → P (rosterEdit r bare dropFrom).items

/-- The change a bound session asks for keeps the property. -/
structure Allowed (P : List RosterItem → Prop) (srv : Server) (i : ℕ) (o : Oracle) (stanza : Node) : Prop where
  request : stanza.name = "presence" → (srv.sess i).isActive = true → stanza.prop "type" = "subscribe" →
    P (requestItem (jidParse (o.stack 0) (stanza.prop "to")).jid.bare.str (ownRoster srv i)).items
  set : stanza.name = "iq" → (srv.sess i).isActive = true → childNs stanza = rosterNs →
    P (rosterChange stanza (ownRoster srv i)).items

/-! ## Files without items -/

/-- Only files change, and a file that is new or overwritten holds no roster item. -/
structure Inert (a b : Server) : Prop where
  sessions : b.sessions = a.sessions
  stored : ∀ p c, b.files.content p = some c → a.files.content p = some c ∨ (loadContent (some c)).items = []

namespace Inert
variable {a b c : Server}

theorem refl (srv : Server) : Inert srv srv := ⟨rfl, fun _ _ h => Or.inl h⟩

theorem trans (hab : Inert a b) (hbc : Inert b c) : Inert a c := by
  refine ⟨hbc.sessions.trans hab.sessions, ?_⟩
  intro p d hd
  rcases hbc.stored p d hd with hb | he
  · exact hab.stored p d hb
  · exact Or.inr he

theorem foldl {α : Type} {f : Server → α → Server} (hf : ∀ srv x, Inert srv (f srv x)) (l : List α) :
    ∀ srv, Inert srv (l.foldl f srv) := by
  induction l with
  | nil => exact refl
  | cons x xs ih => exact fun srv => (hf srv x).trans (ih _)

end Inert

section
variable (srv : Server) (path : Str)

theorem content_put_dir (t : FileTree.Tree Content) (p q : Path) {c : Content} (h : (t.put p .dir).content q = some c) :
    t.content q = some c := by
  by_cases hq : q = p
  · rw [hq, Tree.content, Tree.lookup_put_self] at h
    cases h
  · rwa [Tree.content_put_of_ne t _ hq] at h

theorem content_remove (t : FileTree.Tree Content) (p q : Path) {c : Content} (h : (t.remove p).content q = some c) :
    t.content q = some c := by
  by_cases hq : q = p
  · have hgone : (t.remove q).lookup q = none := by simp [Tree.lookup, Tree.remove]
    rw [← hq, Tree.content, hgone] at h
    cases h
  · rwa [Tree.content, Tree.lookup_remove_of_ne t hq] at h

theorem inert_unlink : Inert srv (unlink srv path) := by
  unfold unlink
  split
  · next p _ =>
    refine ⟨rfl, ?_⟩
    intro q c hc
    change (srv.files.unlink p).content q = some c at hc
    rw [Tree.content_unlink] at hc
    split at hc
    · cases hc
    · exact Or.inl hc
  · exact .refl srv

theorem inert_rmdir : Inert srv (rmdir srv path) := by
  unfold rmdir
  split
  · next p _ =>
    refine ⟨rfl, ?_⟩
    intro q c hc
    change (srv.files.rmdir p).content q = some c at hc
    unfold Tree.rmdir at hc
    split at hc
    · exact Or.inl (content_remove _ _ _ hc)
    · exact Or.inl hc
  · exact .refl srv

variable {srv path}

theorem inert_mkdir {srv' : Server} (h : mkdir srv path = some srv') : Inert srv srv' := by
  obtain ⟨p, t, -, ht, rfl⟩ := User.mkdir_eq_some h
  obtain ⟨-, rfl⟩ := Tree.mkdir_eq_some ht
  exact ⟨rfl, fun q c hc => Or.inl (content_put_dir _ _ _ hc)⟩

theorem inert_writeFile {srv' : Server} {c : Content} (hc : (loadContent (some c)).items = [])
    (h : writeFile srv path c = some srv') : Inert srv srv' := by
  obtain ⟨p, t, -, ht, rfl⟩ := User.writeFile_eq_some h
  refine ⟨rfl, ?_⟩
  intro q d hd
  by_cases hq : q = p
  · rw [hq] at hd
    cases (Tree.content_write_self ht).symm.trans hd
    exact Or.inr hc
  · rw [Tree.content, Tree.lookup_write_of_ne ht hq] at hd
    exact Or.inl hd

theorem items_passwordLine (password : Str) : (loadContent (some (passwordLine password))).items = [] := rfl

theorem items_emptyRoster : (loadContent (some emptyRoster)).items = [] := by decide

theorem inert_userCreate (o : Oracle) (username password : Str) : Inert srv (userCreate srv o username password).1 := by
  unfold userCreate
  split
  · exact .refl srv
  split
  · exact .refl srv
  dsimp only
  split
  · exact .refl srv
  rename_i s₁ h₁
  have f₁ : Inert srv s₁ := by
    split at h₁
    · cases h₁
    · exact inert_mkdir h₁
  split
  · exact f₁
  rename_i s₂ h₂
  have f₂ : Inert srv s₂ := by
    split at h₂
    · cases h₂
    · exact f₁.trans (inert_writeFile (items_passwordLine password) h₂)
  split
  · exact f₂
  rename_i s₃ h₃
  have f₃ : Inert srv s₃ := by
    split at h₃
    · cases h₃
    · exact f₂.trans (inert_writeFile items_emptyRoster h₃)
  split
  · exact f₃
  rename_i s₄ h₄
  split at h₄
  · cases h₄
  · exact f₃.trans (inert_mkdir h₄)

theorem inert_userDelete (username : Str) : Inert srv (userDelete srv username) := by
  unfold userDelete
  refine Inert.trans ?_ (inert_rmdir _ _)
  refine Inert.trans ?_ (inert_unlink _ _)
  refine Inert.trans ?_ (inert_unlink _ _)
  refine Inert.trans ?_ (inert_rmdir _ _)
  exact Inert.foldl (fun srv n => inert_unlink srv _) _ srv

theorem inert_userChangePassword (username password : Str) : Inert srv (userChangePassword srv username password).1 := by
  unfold userChangePassword
  split
  · exact .refl srv
  · next h => exact inert_writeFile (items_passwordLine password) h

/-- A stored message is no roster. -/
theorem inert_messageStoreOffline (o : Oracle) (username : Str) {stanza : Node} (hn : stanza.name = "message") :
    Inert srv (messageStoreOffline srv o username stanza) := by
  have hmade : ∀ p, Inert srv ((mkdir srv p).getD srv) := by
    intro p
    cases h : mkdir srv p with
    | none => exact .refl srv
    | some a => exact inert_mkdir h
  have hitems : ∀ d : Node, (loadContent (some (.xml (stanza.addChild d)))).items = [] := by
    intro d
    apply NoRoster.items
    intro root hroot
    cases hroot
    have hname : (stanza.addChild d).name = stanza.name := by cases stanza <;> rfl
    rw [hname, hn]
    decide
  unfold messageStoreOffline
  dsimp only
  generalize hm : (mkdir srv (offlineDir srv.cfg username)).getD srv = a
  have ha : Inert srv a := hm ▸ hmade _
  refine ha.trans ?_
  generalize (fileIn _ _) = q
  cases hw : writeFile a q (.xml (stanza.addChild (delayNode a.cfg o))) with
  | none => exact .refl a
  | some b => exact inert_writeFile (hitems _) hw

end

/-! ## The handlers -/

def SameRoster (s s' : Session) : Prop := s'.roster = s.roster

theorem loose_sameRoster : Loose SameRoster where
  trans _ _ _ h₁ h₂ := h₂.trans h₁
  held _ _ h := holding.get Session.roster (fun _ => rfl) h
  opened _ := rfl
  returned _ := rfl
  bound _ _ := rfl
  started _ := rfl

namespace AllRosters
variable {P : List RosterItem → Prop} {a b : Server} (h : AllRosters P a)
include h

theorem of_flow (hf : Flow SameRoster a b) : AllRosters P b := by
  refine ⟨h.empty, ?_, ?_⟩
  · intro s' hs'
    obtain ⟨s, hs, -, hr⟩ := hf.evolves s' hs'
    rw [hr]
    exact h.cached s hs
  · rw [hf.files]
    exact h.stored

theorem of_silent (hs : Silent a b) : AllRosters P b := h.of_flow (.of_silent loose_sameRoster.toTame hs)

theorem of_inert (hi : Inert a b) : AllRosters P b := by
  refine ⟨h.empty, ?_, ?_⟩
  · rw [hi.sessions]
    exact h.cached
  · intro p c hc
    rcases hi.stored p c hc with hc | he
    · exact h.stored p c hc
    · rw [he]
      exact h.empty

theorem own (i : ℕ) : P (a.sess i).roster.items := by
  by_cases hl : a.Live i
  · exact h.cached _ (Server.sess_mem hl).1
  · rw [Server.sess_of_not_live hl]
    exact h.empty

theorem load (username : Str) : P (rosterLoadForUser a username).items := by
  unfold rosterLoadForUser readFile
  cases hl : locate a (userPath a.cfg username "roster.xml") with
  | none => exact h.empty
  | some p =>
      rw [Option.bind_some]
      cases hc : a.files.content p with
      | none => exact h.empty
      | some c => exact h.stored p c hc

theorem ownRoster (i : ℕ) : P (ownRoster a i).items := by
  unfold Confinement.ownRoster
  split
  · exact h.own i
  · exact h.load _

theorem modifyRoster {i : ℕ} {f : Roster → Roster} (hf : P (f (a.sess i).roster).items) :
    AllRosters P (modifyRoster a i f) := by
  refine ⟨h.empty, ?_, h.stored⟩
  intro s' hs'
  obtain ⟨s, hs, rfl⟩ := (Server.mem_modify a i _).mp hs'
  split
  · next hi =>
    have hsess := Server.sess_of_mem hs
    rw [hi] at hsess
    rw [hsess] at hf
    exact hf
  · exact h.cached s hs

theorem saveForUser (username : Str) {r : Roster} (hr : P r.items) :
    AllRosters P (rosterSaveForUser a username r) := by
  obtain ⟨he, -⟩ | ⟨p, -, -, he⟩ := rosterSaveForUser_cases a username r
  · rw [he]
    exact h
  · rw [he]
    refine ⟨h.empty, h.cached, ?_⟩
    intro q c hc
    change (a.files.put p (.file (saveContent r))).content q = some c at hc
    by_cases hq : q = p
    · rw [hq, Tree.content_put_self] at hc
      cases hc
      rw [loadContent_saveContent]
      exact hr
    · rw [Tree.content_put_of_ne _ _ hq] at hc
      exact h.stored q c hc

theorem editSave (i : ℕ) (f : Roster → Roster) (hf : P (f (a.sess i).roster).items) :
    AllRosters P (rosterSave (Roster.modifyRoster a i f) i) :=
  (h.modifyRoster hf).saveForUser _ ((h.modifyRoster hf).own i)

theorem ensure (i : ℕ) : AllRosters P (ensureRoster a i) := by
  unfold ensureRoster
  split
  · exact h
  · refine ⟨h.empty, ?_, h.stored⟩
    intro s' hs'
    obtain ⟨s, hs, rfl⟩ := (Server.mem_modify a i _).mp hs'
    split
    · exact h.load _
    · exact h.cached s hs

end AllRosters

section
variable {P : List RosterItem → Prop} {srv : Server} (h : AllRosters P srv) (i : ℕ) (o : Oracle)
include h

theorem rosters_rosterHandleIq (hl : srv.Live i) (stanza : Node)
    (hset : P (rosterChange stanza (ownRoster srv i)).items) : AllRosters P (rosterHandleIq srv i o stanza) := by
  have ha := h.ensure i
  rw [← (Own.ensure hl).roster] at hset
  unfold rosterHandleIq
  dsimp only
  generalize ensureRoster srv i = a at ha hset
  split
  · exact ha.of_silent (.stanzaSend _ i _)
  split
  · next ht =>
    split
    · exact ha.of_silent (.stanzaSendError _ i _ _ _)
    · next item hq =>
      split
      · exact ha.of_silent (.stanzaSendError _ i _ _ _)
      · next jid hj =>
        split
        · next hr =>
          rw [rosterChange_remove ht hq hj hr] at hset
          have hs := ha.editSave i (fun r => rosterRemoveItem r jid) hset
          exact (hs.of_silent (.stanzaSend _ i _)).of_silent (silent_rosterPush _ i _ _)
        · next hr =>
          rw [rosterChange_update ht hq hj hr] at hset
          have hs := ha.editSave i (updateItem jid (item.getProp "name")) hset
          split
          · exact (hs.of_silent (.stanzaSend _ i _)).of_silent (silent_rosterPush _ i _ _)
          · exact hs.of_silent (.stanzaSend _ i _)
  · exact ha.of_silent (.stanzaSendError _ i _ _ _)

theorem rosters_messageDeliverOffline : AllRosters P (messageDeliverOffline srv i) := by
  have key : ∀ (dir : Str) (names : List Str) (a : Server), AllRosters P a →
      AllRosters P (names.foldl (deliverOne i dir) a) := by
    intro dir names
    induction names with
    | nil => exact fun a ha => ha
    | cons n ns ih =>
        intro a ha
        apply ih
        unfold deliverOne
        dsimp only
        split
        · exact (ha.of_silent (.stanzaSend a i _)).of_inert (inert_unlink _ _)
        · exact ha.of_inert (inert_unlink _ _)
  exact key _ _ srv h

theorem rosters_presenceHandleAvailable (stanza : Node) : AllRosters P (presenceHandleAvailable srv i o stanza) := by
  unfold presenceHandleAvailable
  dsimp only
  generalize stanza.setProp "from" (srv.sess i).fullJid.str = pres
  have hm : AllRosters P (srv.modify i fun s => { s with available := true, presenceStanza := some pres }) :=
    h.of_silent (.modify srv i fun _ => rfl)
  have he := (hm.ensure i).of_silent (silent_exchangePresence _ i o pres)
  split
  · have hi := he.of_silent (Silent.modify _ i (f := fun s => { s with initialPresenceSent := true }) fun _ => rfl)
    exact (rosters_messageDeliverOffline hi i).of_silent (Silent.foldl (silent_redeliverPending i) _ _)
  · exact he

theorem rosters_presenceBroadcastUnavailable : AllRosters P (presenceBroadcastUnavailable srv i o) := by
  obtain he | hs := presenceBroadcastUnavailable_silent srv i o
  · rw [he]
    exact h
  · exact (h.ensure i).of_silent hs

theorem rosters_presenceHandleSubscribe (hl : srv.Live i) (dest : Str)
    (hrequest : P (requestItem (jidParse (o.stack 0) dest).jid.bare.str (ownRoster srv i)).items) :
    AllRosters P (presenceHandleSubscribe srv i o dest) := by
  have ha := h.ensure i
  rw [← (Own.ensure hl).roster] at hrequest
  unfold presenceHandleSubscribe
  dsimp only
  generalize ensureRoster srv i = a at ha hrequest
  have hs := ha.editSave i (requestItem _) hrequest
  split
  · exact hs.of_silent (.crash _)
  · split
    · exact (hs.of_silent (silent_rosterPush _ i _ _)).of_silent (.stanzaSend _ _ _)
    · exact hs.of_silent (silent_rosterPush _ i _ _)

theorem rosters_grantTarget (hc : Closed P) (target : Option ℕ) (localpart bare : Str) :
    AllRosters P (grantTarget srv o target localpart bare) := by
  unfold grantTarget
  dsimp only
  split
  · next t _ =>
    have hs := h.editSave t (fun r => rosterEdit r bare (setAsk false ∘ grantTo)) (hc.grantTo _ bare (h.own t))
    split
    · exact hs.of_silent (silent_rosterPush _ _ _ _)
    · exact hs
  · exact h.saveForUser _ (hc.grantTo _ bare (h.load _))

theorem rosters_presenceHandleSubscribed (hc : Closed P) (dest : Str) : AllRosters P (presenceHandleSubscribed srv i o dest) := by
  have ha := h.ensure i
  unfold presenceHandleSubscribed
  dsimp only
  generalize ensureRoster srv i = a at ha
  have hs := ha.editSave i (approveItem (jidParse (o.stack 0) dest).jid.bare.str) (hc.approve _ _ (ha.own i))
  split
  · exact hs.of_silent (.crash _)
  · exact (rosters_grantTarget (hs.of_silent (silent_rosterPush _ i _ _)) o hc _ _ _).of_silent (silent_notifySubscribed _ i _ _ _)

theorem rosters_withdrawAt (id jid : Str) {f : RosterItem → RosterItem}
    (hf : ∀ (r : Roster) (bare : Str), P r.items → P (rosterEdit r bare f).items) : AllRosters P (withdrawAt srv i id jid f) := by
  unfold withdrawAt
  split
  · exact (h.editSave i (fun r => rosterEdit r jid f) (hf _ jid (h.own i))).of_silent (silent_rosterPush _ i _ _)
  · exact h

theorem rosters_withdraw (type : Str) {own theirs : RosterItem → RosterItem} (hown : ∀ (r : Roster) (bare : Str), P r.items → P (rosterEdit r bare own).items)
    (htheirs : ∀ (r : Roster) (bare : Str), P r.items → P (rosterEdit r bare theirs).items) (dest : Str) :
    AllRosters P (withdraw type own theirs srv i o dest) := by
  have ha := rosters_withdrawAt (h.ensure i) i (o.ident 0) (jidParse (o.stack 0) dest).jid.bare.str hown
  unfold withdraw withdrawTarget
  dsimp only
  generalize withdrawAt (ensureRoster srv i) i _ _ own = a at ha
  split
  · next t _ =>
    have ht := rosters_withdrawAt ha t (o.ident 1) (a.sess i).bareJid.str htheirs
    split
    · exact (ht.of_silent (.stanzaSend _ _ _)).of_silent (.stanzaSend _ _ _)
    · exact ht.of_silent (.stanzaSend _ _ _)
  · split
    · exact ha.saveForUser _ (htheirs _ _ (ha.load _))
    · exact ha

theorem rosters_handleMessage {stanza : Node} (hn : stanza.name = "message") : AllRosters P (handleMessage srv i o stanza) := by
  unfold handleMessage
  dsimp only
  split
  · exact h.of_silent (.stanzaSendError srv i _ _ _)
  split
  · exact h.of_silent (.stanzaSendError srv i _ _ _)
  split
  · exact h.of_silent (.stanzaSendError srv i _ _ _)
  split
  · exact h.of_silent (.stanzaSend srv _ _)
  split
  · exact h
  · apply h.of_inert
    apply inert_messageStoreOffline
    rw [← hn]
    cases stanza with
    | text s => rfl
    | element m u as cs =>
        unfold Node.setProp
        dsimp only
        split <;> rfl

theorem rosters_registerHandleIq (stanza : Node) : AllRosters P (registerHandleIq srv i o stanza) := by
  unfold registerHandleIq
  split
  · exact h.of_silent (.stanzaSend srv i _)
  split
  · unfold registerSet
    dsimp only
    split
    · split
      · exact h.of_silent (.stanzaSendError srv i _ _ _)
      · have hdelete : Inert (sendResultIq srv i (stanza.prop "id") true) (userDelete (sendResultIq srv i (stanza.prop "id") true)
            ((sendResultIq srv i (stanza.prop "id") true).sess i).jidLocal.str) := inert_userDelete _
        have hd := (h.of_silent (.stanzaSend srv i _)).of_inert hdelete
        exact hd.of_silent (.modify _ i fun _ => rfl)
    split
    · exact h.of_silent (.stanzaSendError srv i _ _ _)
    split
    · have hc := fun uname pw => h.of_inert (inert_userCreate o uname pw)
      unfold registerCreate
      dsimp only
      split
      · exact (hc _ _).of_silent (.stanzaSend _ i _)
      split
      · exact (hc _ _).of_silent (.stanzaSendError _ i _ _ _)
      split
      · exact (hc _ _).of_silent (.stanzaSendError _ i _ _ _)
      · exact (hc _ _).of_silent (.stanzaSendError _ i _ _ _)
    split
    · exact h.of_silent (.stanzaSendError srv i _ _ _)
    have hc := fun uname pw => h.of_inert (inert_userChangePassword uname pw)
    split
    · exact (hc _ _).of_silent (.stanzaSend _ i _)
    · exact (hc _ _).of_silent (.stanzaSendError _ i _ _ _)
  · exact h.of_silent (.stanzaSendError srv i _ _ _)

end

/-! ## Runs -/

section
variable {P : List RosterItem → Prop} (hc : Closed P) {srv : Server} (h : AllRosters P srv) {i : ℕ} (hl : srv.Live i)
  (o : Oracle) {stanza : Node}
include hc h hl

theorem rosters_handlePresence (hrequest : stanza.prop "type" = "subscribe" →
    P (requestItem (jidParse (o.stack 0) (stanza.prop "to")).jid.bare.str (ownRoster srv i)).items) :
    AllRosters P (handlePresence srv i o stanza) := by
  unfold handlePresence
  dsimp only
  split
  · exact rosters_presenceHandleAvailable h i o stanza
  split
  · exact (rosters_presenceBroadcastUnavailable h i o).of_silent (.modify _ i fun _ => rfl)
  split
  · next hsub => exact rosters_presenceHandleSubscribe h i o hl _ (hrequest hsub)
  split
  · exact rosters_presenceHandleSubscribed h i o hc _
  split
  · exact rosters_withdraw h i o _ hc.dropTo hc.dropFrom _
  split
  · exact rosters_withdraw h i o _ hc.dropFrom hc.dropTo _
  · exact h

omit hc in
theorem rosters_handleIq (hset : (srv.sess i).isActive = true → childNs stanza = rosterNs →
    P (rosterChange stanza (ownRoster srv i)).items) : AllRosters P (handleIq srv i o stanza) := by
  unfold handleIq
  dsimp only
  split
  · exact h.of_silent (silent_routeReply srv i o stanza)
  split
  · exact h.of_flow (sessionHandleBind_flow srv i o loose_sameRoster stanza)
  split
  · exact h.of_flow (sessionHandleSessionIq_flow srv i loose_sameRoster stanza)
  have hguard : ∀ a, ((srv.sess i).isActive = true → AllRosters P a) → AllRosters P (whenActive srv i stanza a) := by
    intro a ha
    unfold whenActive
    split
    · next hactive => exact ha hactive
    · exact h.of_silent (.stanzaSendError srv i _ _ _)
  split
  · next hroster => exact hguard _ fun hactive => rosters_rosterHandleIq h i o hl stanza (hset hactive hroster)
  split
  · exact hguard _ fun _ => h.of_silent (.stanzaSend srv i _)
  split
  · exact hguard _ fun _ => h.of_silent (.stanzaSend srv i _)
  split
  · exact rosters_registerHandleIq h i o stanza
  · exact h.of_silent (silent_routeUnknown srv i o stanza)

theorem rosters_stanzaRoute (hallowed : Allowed P srv i o stanza) : AllRosters P (stanzaRoute srv i o stanza) := by
  have herror := fun condition => h.of_flow (streamSendError_flow srv i o loose_sameRoster.toTame condition)
  unfold stanzaRoute
  split
  · next hgate =>
    have hunauth : (srv.sess i).authenticated = false := by simpa using hgate.2
    unfold routeBeforeAuth
    split
    · exact h.of_flow (authHandleSasl_flow srv i loose_sameRoster.toTame (fun _ _ _ => rfl) stanza hunauth)
    split
    · split
      · exact rosters_registerHandleIq h i o stanza
      · exact h.of_silent (.stanzaSendError srv i _ _ _)
    · exact herror _
  split
  · next hn => exact rosters_handleIq h hl o (hallowed.set hn)
  split
  · next hn =>
    split
    · exact rosters_handleMessage h i o hn
    · exact herror _
  split
  · next hn =>
    split
    · next hactive => exact rosters_handlePresence hc h hl o (hallowed.request hn hactive)
    · exact herror _
  · exact herror _

end

theorem rosters_step {P : List RosterItem → Prop} (hc : Closed P) (srv : Server) (e : Step) (h : AllRosters P srv)
    (hallowed : OnStanza (Allowed P) srv e) : AllRosters P (step srv e) := by
  revert hallowed
  refine step_cases (P := fun e srv' => OnStanza (Allowed P) srv e → AllRosters P srv') ?_ ?_ ?_ ?_ ?_ ?_ e
  · exact fun _ _ => h
  · intro _ _
    refine ⟨h.empty, ?_, ?_⟩
    · intro s hs
      rcases Server.mem_serverAccept hs with hs | rfl
      · exact h.cached s hs
      · exact h.empty
    · have hfiles : srv.serverAccept.files = srv.files := by
        unfold Server.serverAccept
        split <;> rfl
      rw [hfiles]
      exact h.stored
  · exact fun i o _ _ => h.of_flow (sessionTeardown_flow srv i o loose_sameRoster.toTame)
  · exact fun i _ _ => h.of_flow (.modify loose_sameRoster.toTame srv i fun _ _ _ => rfl)
  · intro i o e hp hallowed
    have hl := live_of_parsing hp
    rcases callback_cases srv i o loose_sameRoster.toTame hl e with hf | ⟨rfl, stanza, hd, he⟩
    · exact h.of_flow hf
    · rw [he]
      have hroute := rosters_stanzaRoute hc (h.of_silent (addDepth_silent srv i (-1))) ((Server.modify_live srv i i _).mpr hl) o
        (hallowed stanza hd)
      exact hroute.of_silent (.modify _ i fun _ => rfl)
  · exact fun i o _ _ => h.of_flow (endChunk_flow srv i o loose_sameRoster.toTame)

/-- A condition under which what is asked for is allowed where all rosters have the
property keeps the property along a run. -/
theorem rosters_run {P : List RosterItem → Prop} (hc : Closed P) {ok : Server → ℕ → Oracle → Node → Prop}
    (hok : ∀ srv i o stanza, AllRosters P srv → ok srv i o stanza → Allowed P srv i o stanza) (steps : List Step) (srv : Server)
    (h : AllRosters P srv) (hmeets : Meets (OnStanza ok) srv steps) : AllRosters P (run srv steps) := by
  have hkept := @run_invariant (OnStanza ok) (AllRosters P)
  refine hkept ?_ steps srv h hmeets
  intro a e ha he
  apply rosters_step hc a e ha
  cases e with
  | sax i o x =>
      cases x with
      | endElement => exact fun stanza hd => hok _ i o stanza (ha.of_silent (addDepth_silent a i (-1))) (he stanza hd)
      | _ => trivial
  | _ => trivial

/-- The content of a file is that of an entry. -/
theorem entry_of_content {t : FileTree.Tree Content} {p : Path} {c : Content} (h : t.content p = some c) :
    ∃ e ∈ t.entries, e.2 = .file c := by
  unfold Tree.content Tree.lookup at h
  cases he : t.entries.find? fun e => e.1 = p with
  | none =>
      rw [he] at h
      cases h
  | some e =>
      rw [he, Option.map_some] at h
      refine ⟨e, List.mem_of_find?_eq_some he, ?_⟩
      cases hfile : e.2 with
      | dir =>
          rw [hfile] at h
          cases h
      | file d =>
          rw [hfile] at h
          cases h
          rfl

/-- What a test finds in the files among the entries of a tree holds of the stored rosters. -/
theorem stored_of_entries {P : List RosterItem → Prop} {t : FileTree.Tree Content} {f : Entry Content → Bool}
    (hf : ∀ c, f (.file c) = true → P (loadContent (some c)).items) (h : ∀ e ∈ t.entries, f e.2 = true) (p : Path) (c : Content)
    (hc : t.content p = some c) : P (loadContent (some c)).items := by
  obtain ⟨e, he, hfile⟩ := entry_of_content hc
  have hentry := h e he
  rw [hfile] at hentry
  exact hf c hentry

end Xmppd.KeptRosters
