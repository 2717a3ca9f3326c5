import Xmppd.Offline
import Xmppd.RosterItems

/-!
# Cached rosters and the disk

A handler changes a cached roster and saves it, or changes the file of a user
whose cache is not loaded. Both keep every loaded cache equal to what a load
would read, as long as no two sessions share a roster file and no file is
changed while a session has it loaded. The state a handler builds up is followed
by one judgement: the caches are in step with the disk, and the disk holds the
given rosters.
-/
namespace Xmppd.Coherence
open CStrings FileTree LibXml Util ServerState User Roster Message Presence Frames RosterStore Offline RosterItems

/-- What is assumed of the accounts behind the sessions: every save goes through,
and no two sessions belong to one user. -/
structure Orderly (srv : Server) : Prop where
  saves : ∀ s ∈ srv.sessions, s.authenticated = true → Saves srv s.jidLocal.str
  single : ∀ s ∈ srv.sessions, ∀ t ∈ srv.sessions, s.authenticated = true → t.authenticated = true →
    rosterFile srv s.jidLocal.str = rosterFile srv t.jidLocal.str → s.id = t.id

instance decidableOrderly (srv : Server) : Decidable (Orderly srv) :=
  decidable_of_iff
    ((∀ s ∈ srv.sessions, s.authenticated = true → Saves srv s.jidLocal.str) ∧
      ∀ s ∈ srv.sessions, ∀ t ∈ srv.sessions, s.authenticated = true → t.authenticated = true →
        rosterFile srv s.jidLocal.str = rosterFile srv t.jidLocal.str → s.id = t.id)
    ⟨fun h => ⟨h.1, h.2⟩, fun h => ⟨h.saves, h.single⟩⟩

/-- Every loaded roster is what a load would read, and only authenticated
sessions have loaded one. -/
structure Synced (srv : Server) : Prop where
  closed : ∀ s ∈ srv.sessions, s.roster.loaded = true → s.authenticated = true
  coherent : ∀ s ∈ srv.sessions, s.roster.loaded = true →
    s.roster = rosterLoadForUser srv s.jidLocal.str

/-- The disk with one roster changed, under every name of its file. -/
def editAt (srv : Server) (username : Str) (f : Roster → Roster) (disk : Str → Roster) (u : Str) : Roster :=
  if rosterFile srv u = rosterFile srv username then f (disk u) else disk u

/-- What a handler of session `i` started in `srv` has built up: nothing but
outputs, presence, rosters and files differs, no roster but that of the session
has been loaded, the caches are in step, and the disk is as given. -/
structure Updated (srv : Server) (i : ℕ) (disk : Str → Roster) (srv' : Server) : Prop where
  steady : Steady srv srv'
  places : SamePlaces srv srv'
  loads : ∀ j, j ≠ i → (srv'.sess j).roster.loaded = (srv.sess j).roster.loaded
  self : (srv.sess i).roster.loaded = true → (srv'.sess i).roster.loaded = true
  synced : Synced srv'
  stored : ∀ u, rosterLoadForUser srv' u = disk u

theorem Updated.start {srv : Server} (h : Synced srv) (i : ℕ) :
    Updated srv i (rosterLoadForUser srv) srv :=
  ⟨.refl srv, .refl srv, fun _ _ => rfl, id, h, fun _ => rfl⟩

/-- The part of a record the caches depend on, carried over. -/
theorem record_of_holding {a b : Server} (h : Same holding a b) {s' : Session} (hs' : s' ∈ b.sessions) :
    ∃ s ∈ a.sessions, s'.roster = s.roster ∧ s'.jidLocal = s.jidLocal ∧
      s'.authenticated = s.authenticated := by
  obtain ⟨s, hm, he⟩ := h.mem hs'
  exact ⟨s, hm, holding.get Session.roster (fun _ => rfl) he,
    holding.get Session.jidLocal (fun _ => rfl) he, holding.get Session.authenticated (fun _ => rfl) he⟩

theorem Synced.silent {a b : Server} (h : Synced a) (hs : Silent a b) : Synced b := by
  have hr : ∀ u, rosterLoadForUser b u = rosterLoadForUser a u := by
    intro u
    rw [rosterLoadForUser_eq, rosterLoadForUser_eq, (SamePlaces.of_silent hs).rosterFile, hs.files]
  constructor
  · intro s' hs' hl
    obtain ⟨s, hm, h₁, -, h₃⟩ := record_of_holding hs.toSame hs'
    rw [h₃]
    exact h.closed s hm (h₁ ▸ hl)
  · intro s' hs' hl
    obtain ⟨s, hm, h₁, h₂, -⟩ := record_of_holding hs.toSame hs'
    rw [h₁, h₂, hr]
    exact h.coherent s hm (h₁ ▸ hl)

namespace Updated
variable {srv a b : Server} {i : ℕ} {disk : Str → Roster}

theorem silent (h : Updated srv i disk a) (hs : Silent a b) : Updated srv i disk b where
  steady := h.steady.trans hs.steady
  places := h.places.trans (.of_silent hs)
  loads j hj := (hs.get (fun s => s.roster.loaded) (fun _ => rfl) j).trans (h.loads j hj)
  self hl := (hs.get (fun s => s.roster.loaded) (fun _ => rfl) i).trans (h.self hl)
  synced := h.synced.silent hs
  stored u := by
    rw [rosterLoadForUser_eq, (SamePlaces.of_silent hs).rosterFile, hs.files]
    exact h.stored u

theorem rosterFile_eq (h : Updated srv i disk a) (u : Str) : rosterFile a u = rosterFile srv u :=
  h.places.rosterFile u

theorem jidLocal (h : Updated srv i disk a) (j : ℕ) : (a.sess j).jidLocal = (srv.sess j).jidLocal :=
  h.steady.get Session.jidLocal (fun _ => rfl) j

/-- A loaded cache is the given roster. -/
theorem cached (h : Updated srv i disk a) {j : ℕ} (hl : srv.Live j) (hr : (a.sess j).roster.loaded = true) :
    (a.sess j).roster = disk (srv.sess j).jidLocal.str := by
  have hm := (Server.sess_mem ((h.steady.live j).mpr hl)).1
  rw [h.synced.coherent _ hm hr, h.stored, h.jidLocal]

theorem loaded_disk (h : Updated srv i disk a) (u : Str) : (disk u).loaded = true := by
  rw [← h.stored u]
  rfl

theorem disk_congr (h : Updated srv i disk a) {u v : Str} (hf : rosterFile srv u = rosterFile srv v) :
    disk u = disk v := by
  rw [← h.stored u, ← h.stored v, rosterLoadForUser_eq, rosterLoadForUser_eq, h.rosterFile_eq,
    h.rosterFile_eq, hf]

/-- A loaded roster was loaded before, or is that of the session itself. -/
theorem origin (h : Updated srv i disk a) {s : Session} (hs : s ∈ a.sessions) (hl : s.roster.loaded = true) :
    ∃ s₀ ∈ srv.sessions, s₀.jidLocal = s.jidLocal ∧ (s₀.id = i ∨ s₀.roster.loaded = true) := by
  obtain ⟨s₀, hs₀, hv⟩ := h.steady.mem hs
  have hid := standing.get Session.id (fun _ => rfl) hv
  refine ⟨s₀, hs₀, (standing.get Session.jidLocal (fun _ => rfl) hv).symm, ?_⟩
  by_cases hi : s₀.id = i
  · exact Or.inl hi
  · right
    have hk := h.loads s₀.id hi
    rw [Server.sess_of_mem hs₀, ← hid, Server.sess_of_mem hs, hl] at hk
    exact hk.symm

/-- Loading a roster that is not loaded yet. -/
theorem ensure (h : Updated srv i disk a) (ha : (srv.sess i).authenticated = true) :
    Updated srv i disk (ensureRoster a i) := by
  unfold ensureRoster
  split
  · exact h
  · have hau : (a.sess i).authenticated = true := by
      rw [h.steady.get Session.authenticated (fun _ => rfl) i, ha]
    refine ⟨h.steady.trans (.modify a i fun _ => rfl), h.places.trans ⟨rfl, fun _ => rfl⟩, ?_, ?_,
      ⟨?_, ?_⟩, h.stored⟩
    · intro j hj
      rw [rosterLoad, Server.sess_modify_of_ne _ _ _ _ hj]
      exact h.loads j hj
    · intro hl
      exact absurd (h.self hl) ‹_›
    · intro s' hs' hl
      obtain ⟨s, hs, rfl⟩ := (Server.mem_modify a i _).mp hs'
      split_ifs at hl ⊢ with hi
      · rw [← hi, Server.sess_of_mem hs] at hau
        exact hau
      · exact h.synced.closed s hs hl
    · intro s' hs' hl
      obtain ⟨s, hs, rfl⟩ := (Server.mem_modify a i _).mp hs'
      split_ifs at hl ⊢ with hi
      · rfl
      · exact h.synced.coherent s hs hl

theorem ensure_loaded (hl : a.Live i) : ((ensureRoster a i).sess i).roster.loaded = true := by
  unfold ensureRoster
  split
  · assumption
  · unfold rosterLoad
    rw [Server.sess_modify_self hl]
    rfl

theorem loaded_editSave (a : Server) (t j : ℕ) {f : Roster → Roster} (hf : ∀ r, (f r).loaded = r.loaded) :
    ((rosterSave (modifyRoster a t f) t).sess j).roster.loaded = (a.sess j).roster.loaded := by
  rw [Server.sess, rosterSave, rosterSaveForUser_sessions]
  exact Server.sess_modify_congr (fun s => s.roster.loaded) a t j _ fun s => hf s.roster

/-- Changing the cache of a session and saving it. -/
theorem edit (ho : Orderly srv) (h : Updated srv i disk a) {t : ℕ} (hl : srv.Live t)
    (ha : (srv.sess t).authenticated = true) (hr : (a.sess t).roster.loaded = true)
    {f : Roster → Roster} (hf : ∀ r, (f r).loaded = r.loaded) :
    Updated srv i (editAt srv (srv.sess t).jidLocal.str f disk) (rosterSave (modifyRoster a t f) t) := by
  have hla := (h.steady.live t).mpr hl
  have hc := h.cached hl hr
  have hplaces : SamePlaces srv (modifyRoster a t f) := h.places.trans ⟨rfl, fun _ => rfl⟩
  have hsaves : Saves (modifyRoster a t f) (srv.sess t).jidLocal.str :=
    (hplaces.saves _).mpr (ho.saves _ (Server.sess_mem hl).1 ha)
  have heq : rosterSave (modifyRoster a t f) t =
      rosterSaveForUser (modifyRoster a t f) (srv.sess t).jidLocal.str (f (disk (srv.sess t).jidLocal.str)) := by
    unfold rosterSave
    rw [modifyRoster_jidLocal, modifyRoster_roster hla, hc, h.jidLocal]
  have hstored : ∀ u, rosterLoadForUser (rosterSave (modifyRoster a t f) t) u =
      editAt srv (srv.sess t).jidLocal.str f disk u := by
    intro u
    rw [heq, rosterLoadForUser_save _ _ _ hsaves, hplaces.rosterFile, hplaces.rosterFile]
    unfold editAt
    split_ifs with he
    · rw [h.disk_congr he]
      refine Roster.ext rfl ?_
      rw [hf, h.loaded_disk]
    · exact h.stored u
  have hsess : (rosterSave (modifyRoster a t f) t).sessions = (modifyRoster a t f).sessions :=
    rosterSaveForUser_sessions _ _ _
  have hkeep := fun j => loaded_editSave a t j hf
  refine ⟨h.steady.trans (steady_editSave a t f), ?_, fun j hj => (hkeep j).trans (h.loads j hj),
    fun hi => (hkeep i).trans (h.self hi), ⟨?_, ?_⟩, hstored⟩
  · rw [heq]
    exact hplaces.trans (samePlaces_rosterSaveForUser _ _ _)
  · intro s' hs' hld
    rw [hsess] at hs'
    obtain ⟨s, hs, rfl⟩ := (Server.mem_modify a t _).mp hs'
    split_ifs at hld ⊢ with hi
    · exact h.synced.closed s hs ((hf s.roster).symm.trans hld)
    · exact h.synced.closed s hs hld
  · intro s' hs' hld
    rw [hsess] at hs'
    rw [hstored]
    obtain ⟨s, hs, rfl⟩ := (Server.mem_modify a t _).mp hs'
    split_ifs at hld ⊢ with hi
    · have hst : a.sess t = s := by rw [← hi, Server.sess_of_mem hs]
      change f s.roster = editAt srv _ f disk s.jidLocal.str
      rw [← hst, h.jidLocal, hc, editAt, if_pos rfl]
    · have hne : rosterFile srv s.jidLocal.str ≠ rosterFile srv (srv.sess t).jidLocal.str := by
        intro he
        obtain ⟨s₀, hs₀, hv⟩ := h.steady.mem hs
        have hid := standing.get Session.id (fun _ => rfl) hv
        have hau := standing.get Session.authenticated (fun _ => rfl) hv
        have hjl := standing.get Session.jidLocal (fun _ => rfl) hv
        rw [hjl] at he
        have := ho.single s₀ hs₀ _ (Server.sess_mem hl).1 (hau ▸ h.synced.closed s hs hld) ha he
        rw [(Server.sess_mem hl).2, ← hid] at this
        exact hi this
      rw [editAt, if_neg hne, ← h.stored]
      exact h.synced.coherent s hs hld

/-- Changing a roster on disk that no session has loaded, or leaving it as it is. -/
theorem editDisk (h : Updated srv i disk a) {username : Str} (hs : Saves srv username)
    {f : Roster → Roster} (hf : ∀ r, (f r).loaded = r.loaded)
    (hc : ∀ s ∈ a.sessions, s.roster.loaded = true →
      rosterFile srv s.jidLocal.str = rosterFile srv username → f (disk username) = disk username) :
    Updated srv i (editAt srv username f disk)
      (rosterSaveForUser a username (f (rosterLoadForUser a username))) := by
  have hstored : ∀ u, rosterLoadForUser (rosterSaveForUser a username (f (rosterLoadForUser a username))) u =
      editAt srv username f disk u := by
    intro u
    rw [rosterLoadForUser_save _ _ _ ((h.places.saves _).mpr hs), h.rosterFile_eq, h.rosterFile_eq,
      h.stored]
    unfold editAt
    split_ifs with he
    · rw [h.disk_congr he]
      refine Roster.ext rfl ?_
      rw [hf, h.loaded_disk]
    · exact h.stored u
  have hsess := rosterSaveForUser_sessions a username (f (rosterLoadForUser a username))
  have hkeep : ∀ j, (rosterSaveForUser a username (f (rosterLoadForUser a username))).sess j = a.sess j := by
    intro j
    rw [Server.sess, hsess]
    rfl
  refine ⟨h.steady.trans (.of_filesOnly (filesOnly_rosterSaveForUser a _ _)),
    h.places.trans (samePlaces_rosterSaveForUser a _ _), ?_, ?_, ⟨?_, ?_⟩, hstored⟩
  · intro j hj
    rw [hkeep]
    exact h.loads j hj
  · rw [hkeep]
    exact h.self
  · intro s hm hl
    rw [hsess] at hm
    exact h.synced.closed s hm hl
  · intro s hm hl
    rw [hsess] at hm
    rw [hstored, h.synced.coherent s hm hl, h.stored]
    unfold editAt
    split_ifs with he
    · rw [h.disk_congr he, hc s hm hl he]
    · rfl

theorem save_fails (h : Updated srv i disk a) {username : Str} (hs : ¬Saves srv username) (r : Roster) :
    rosterSaveForUser a username r = a := by
  obtain ⟨he, -⟩ | ⟨p, hp, hw, -⟩ := rosterSaveForUser_cases a username r
  · exact he
  · exact absurd ((h.places.saves _).mp ⟨p, hp, hw⟩) hs

/-- Stored messages are delivered from a directory that holds no loaded roster. -/
theorem deliver (h : Updated srv i disk a)
    (hc : ∀ s ∈ a.sessions, s.roster.loaded = true → ∀ p d, rosterFile srv s.jidLocal.str = some p →
      offlinePath srv (srv.sess i).jidLocal.str = some d → p.dropLast ≠ d) :
    Updated srv i (rosterLoadForUser (messageDeliverOffline a i)) (messageDeliverOffline a i) ∧
      ∀ u p, rosterFile srv u = some p →
        (∀ d, offlinePath srv (srv.sess i).jidLocal.str = some d → p.dropLast ≠ d) →
          rosterLoadForUser (messageDeliverOffline a i) u = disk u := by
  have hspare : ∀ u p, rosterFile srv u = some p →
      (∀ d, offlinePath srv (srv.sess i).jidLocal.str = some d → p.dropLast ≠ d) →
        rosterLoadForUser (messageDeliverOffline a i) u = disk u := by
    intro u p hp hd
    have hs : Spares p a (messageDeliverOffline a i) := by
      refine spares_messageDeliverOffline ?_
      intro d hod
      refine hd d ?_
      rw [← hod]
      unfold offlinePath
      rw [h.jidLocal, h.places.locate, h.places.cfg]
    rw [← h.stored, rosterLoadForUser_eq, rosterLoadForUser_eq, hs.places.rosterFile, h.rosterFile_eq, hp]
    exact congrArg loadContent hs.content
  have hh := holding_messageDeliverOffline a i
  refine ⟨⟨h.steady.trans (steady_messageDeliverOffline a i),
    h.places.trans (samePlaces_messageDeliverOffline a i), ?_, ?_, ⟨?_, ?_⟩, fun _ => rfl⟩, hspare⟩
  · exact fun j hj => (hh.get (fun s => s.roster.loaded) (fun _ => rfl) j).trans (h.loads j hj)
  · exact fun hl => (hh.get (fun s => s.roster.loaded) (fun _ => rfl) i).trans (h.self hl)
  · intro s' hs' hl
    obtain ⟨s, hm, h₁, -, h₃⟩ := record_of_holding hh hs'
    rw [h₃]
    exact h.synced.closed s hm (h₁ ▸ hl)
  · intro s' hs' hl
    obtain ⟨s, hm, h₁, h₂, -⟩ := record_of_holding hh hs'
    rw [h₁] at hl
    rw [h₁, h₂, h.synced.coherent s hm hl, h.stored]
    cases hp : rosterFile srv s.jidLocal.str with
    | some p => exact (hspare _ p hp fun d hd => hc s hm hl p d hp hd).symm
    | none =>
        rw [← h.stored, rosterLoadForUser_eq, rosterLoadForUser_eq,
          (samePlaces_messageDeliverOffline a i).rosterFile, h.rosterFile_eq, hp]
        rfl

end Updated

/-! ## Roster requests -/

/-- The change a roster request makes to the own roster. -/
def rosterChange (stanza : Node) (r : Roster) : Roster :=
  if stanza.prop "type" = "set" then
    match (stanza.findChild "query").bind fun q => q.findChild "item" with
    | none => r
    | some item =>
      match item.getProp "jid" with
      | none => r
      | some jid =>
        if item.getProp "subscription" = some "remove" then rosterRemoveItem r jid
        else updateItem jid (item.getProp "name") r
  else r

theorem rosterChange_loaded (stanza : Node) (r : Roster) : (rosterChange stanza r).loaded = r.loaded := by
  unfold rosterChange
  split
  · split
    · rfl
    · split
      · rfl
      · split <;> simp
  · rfl

section
variable {stanza item : Node} {jid : Str} (ht : stanza.prop "type" = ("set" : Str))
  (hq : ((stanza.findChild "query").bind fun q => q.findChild "item") = some item) (hj : item.getProp "jid" = some jid)
include ht hq hj

theorem rosterChange_remove (hr : item.getProp "subscription" = some "remove") :
    rosterChange stanza = fun r => rosterRemoveItem r jid := by
  funext r
  simp only [rosterChange, ht, hq, hj, hr, if_true]

theorem rosterChange_update (hr : item.getProp "subscription" ≠ some "remove") :
    rosterChange stanza = updateItem jid (item.getProp "name") := by
  funext r
  simp only [rosterChange, ht, hq, hj, hr, if_true, if_false]

end

theorem editAt_id {srv : Server} {username : Str} {f : Roster → Roster} (hf : ∀ r, f r = r)
    (disk : Str → Roster) : editAt srv username f disk = disk := by
  funext u
  unfold editAt
  split_ifs
  · exact hf _
  · rfl

theorem find_editAt {srv : Server} {username u bare : Str} {f : Roster → Roster} {disk : Str → Roster}
    (hf : ∀ r, rosterFindItem (f r) bare = rosterFindItem r bare) :
    rosterFindItem (editAt srv username f disk u) bare = rosterFindItem (disk u) bare := by
  unfold editAt
  split_ifs
  · exact hf _
  · rfl

section
variable {srv : Server} {i : ℕ} (ho : Orderly srv) (hy : Synced srv) (hl : srv.Live i)
  (ha : (srv.sess i).authenticated = true) (o : Oracle)
include ho hy hl ha

theorem rosterHandleIq_updated (stanza : Node) :
    Updated srv i (editAt srv (srv.sess i).jidLocal.str (rosterChange stanza) (rosterLoadForUser srv))
      (rosterHandleIq srv i o stanza) := by
  have he := (Updated.start hy i).ensure ha
  have hed := fun f hf => he.edit ho hl ha (Updated.ensure_loaded hl) (f := f) hf
  have hsame : ∀ {srv'}, (∀ r, rosterChange stanza r = r) → Silent (ensureRoster srv i) srv' →
      Updated srv i (editAt srv (srv.sess i).jidLocal.str (rosterChange stanza) (rosterLoadForUser srv)) srv' := by
    intro srv' hid hs
    rw [editAt_id hid]
    exact he.silent hs
  unfold rosterHandleIq
  dsimp only
  split
  · rename_i ht
    refine hsame (fun r => ?_) (.stanzaSend _ i _)
    simp only [rosterChange, ht]
    rfl
  split
  · rename_i ht
    split
    · rename_i hq
      refine hsame (fun r => ?_) (.stanzaSendError _ i _ _ _)
      rw [rosterChange, if_pos ht, hq]
    · rename_i item hq
      split
      · rename_i hj
        refine hsame (fun r => ?_) (.stanzaSendError _ i _ _ _)
        simp only [rosterChange, ht, hq, hj, if_true]
      · rename_i jid hj
        split
        · rename_i hr
          rw [rosterChange_remove ht hq hj hr]
          exact (hed (fun r => rosterRemoveItem r jid) fun _ => rfl).silent ((Silent.stanzaSend _ i _).trans (silent_rosterPush _ i _ _))
        · rename_i hr
          rw [rosterChange_update ht hq hj hr]
          have hu := (hed _ (updateItem_loaded jid (item.getProp "name"))).silent
            (.stanzaSend _ i (resultIq stanza [] []))
          split
          · exact hu.silent (silent_rosterPush _ i _ _)
          · exact hu
  · rename_i ht
    refine hsame (fun r => ?_) (.stanzaSendError _ i _ _ _)
    rw [rosterChange, if_neg ht]

/-! ## Presence -/

/-- Initial presence finds no loaded roster in the sender's offline directory. -/
def OfflineApart (srv : Server) (i : ℕ) : Prop :=
  ∀ s ∈ srv.sessions, s.id = i ∨ s.roster.loaded = true → ∀ p d, rosterFile srv s.jidLocal.str = some p →
    offlinePath srv (srv.sess i).jidLocal.str = some d → p.dropLast ≠ d

instance decidableOfflineApart (srv : Server) (i : ℕ) : Decidable (OfflineApart srv i) :=
  decidable_of_iff
    (∀ s ∈ srv.sessions, s.id = i ∨ s.roster.loaded = true → ∀ p ∈ rosterFile srv s.jidLocal.str,
      ∀ d ∈ offlinePath srv (srv.sess i).jidLocal.str, p.dropLast ≠ d)
    ⟨fun h s hs hl p d hp hd => h s hs hl p hp d hd, fun h s hs hl p hp d hd => h s hs hl p d hp hd⟩

omit ho hl in
theorem presenceHandleAvailable_updated (stanza : Node)
    (hoff : (srv.sess i).available = false → OfflineApart srv i) :
    ∃ disk, Updated srv i disk (presenceHandleAvailable srv i o stanza) ∧
      ∀ u p, rosterFile srv u = some p →
        (∀ d, offlinePath srv (srv.sess i).jidLocal.str = some d → p.dropLast ≠ d) →
          disk u = rosterLoadForUser srv u := by
  unfold presenceHandleAvailable
  dsimp only
  generalize stanza.setProp "from" (srv.sess i).fullJid.str = pres
  have hu : Updated srv i (rosterLoadForUser srv) (exchangePresence (ensureRoster (srv.modify i fun s =>
      { s with available := true, presenceStanza := some pres }) i) i o pres) :=
    (((Updated.start hy i).silent (.modify srv i (by intro s; rfl))).ensure ha).silent
      (silent_exchangePresence _ i o pres)
  split
  · rename_i hin
    obtain ⟨hd, hsame⟩ := Updated.deliver (hu.silent (.modify _ i
      (f := fun s => { s with initialPresenceSent := true }) fun _ => rfl)) (by
        intro s hs hld p d hp hdir
        obtain ⟨s₀, hs₀, hj, hor⟩ := Updated.origin (hu.silent (.modify _ i
          (f := fun s => { s with initialPresenceSent := true }) fun _ => rfl)) hs hld
        exact hoff (by simpa using hin) s₀ hs₀ hor p d (hj ▸ hp) hdir)
    exact ⟨_, hd.silent (Silent.foldl (silent_redeliverPending i) _ _), hsame⟩
  · exact ⟨_, hu, fun _ _ _ _ => rfl⟩

omit ho hl in
theorem presenceBroadcastUnavailable_updated :
    Updated srv i (rosterLoadForUser srv) (presenceBroadcastUnavailable srv i o) := by
  obtain h | h := presenceBroadcastUnavailable_silent srv i o
  · rw [h]
    exact Updated.start hy i
  · exact ((Updated.start hy i).ensure ha).silent h

theorem presenceHandleSubscribe_updated (dest : Str) :
    Updated srv i (editAt srv (srv.sess i).jidLocal.str
      (requestItem (jidParse (o.stack 0) dest).jid.bare.str) (rosterLoadForUser srv))
      (presenceHandleSubscribe srv i o dest) := by
  have he := ((Updated.start hy i).ensure ha).edit ho hl ha (Updated.ensure_loaded hl)
    (f := requestItem (jidParse (o.stack 0) dest).jid.bare.str) (requestItem_loaded _)
  unfold presenceHandleSubscribe
  dsimp only
  split
  · exact he.silent (.crash _)
  · split
    · exact he.silent ((silent_rosterPush _ i _ _).trans (.stanzaSend _ _ _))
    · exact he.silent (silent_rosterPush _ i _ _)

end

/-! ## The target of a subscription stanza -/

/-- The roster changed for the target is the one its session has loaded, or the
change on disk meets no loaded roster. -/
def Reaches (srv : Server) (i : ℕ) (jid : Jid) (theirs : RosterItem → RosterItem) : Prop :=
  (∃ t, srv.sessionFindByJid jid.bare.str = some t ∧ (t = i ∨ (srv.sess t).roster.loaded = true)) ∨
    jid.bare ≠ (srv.sess i).bareJid ∧
      ∀ s ∈ srv.sessions, s.id = i ∨ s.roster.loaded = true →
        rosterFile srv s.jidLocal.str = rosterFile srv jid.localpart.str →
          ∀ item, rosterFindItem (rosterLoadForUser srv jid.localpart.str) (srv.sess i).bareJid.str =
            some item → theirs item = item

instance decidableReaches (srv : Server) (i : ℕ) (jid : Jid) (theirs : RosterItem → RosterItem) :
    Decidable (Reaches srv i jid theirs) :=
  inferInstanceAs (Decidable ((∃ t ∈ srv.sessionFindByJid jid.bare.str,
      t = i ∨ (srv.sess t).roster.loaded = true) ∨
    jid.bare ≠ (srv.sess i).bareJid ∧
      ∀ s ∈ srv.sessions, s.id = i ∨ s.roster.loaded = true →
        rosterFile srv s.jidLocal.str = rosterFile srv jid.localpart.str →
          ∀ item ∈ rosterFindItem (rosterLoadForUser srv jid.localpart.str) (srv.sess i).bareJid.str,
            theirs item = item))

/-- The change of the target's roster, in the session found for it or on disk,
where a save that fails changes nothing. -/
def TargetEdit (srv : Server) (jid : Jid) (f : Roster → Roster) (disk disk' : Str → Roster) : Prop :=
  (∃ t, srv.sessionFindByJid jid.bare.str = some t ∧ disk' = editAt srv (srv.sess t).jidLocal.str f disk) ∨
    Saves srv jid.localpart.str ∧ disk' = editAt srv jid.localpart.str f disk ∨
    ¬Saves srv jid.localpart.str ∧ disk' = disk

theorem loadedSession_eq_some {srv : Server} {target : Option ℕ} {t : ℕ}
    (h : loadedSession srv target = some t) : target = some t ∧ (srv.sess t).roster.loaded = true := by
  obtain ⟨ht, hl⟩ := Option.filter_eq_some_iff.mp h
  exact ⟨ht, by simpa using hl⟩

section
variable {srv a : Server} {i : ℕ} {disk : Str → Roster} {jid : Jid} {theirs : RosterItem → RosterItem}

/-- Where no loaded session is found, the change on disk meets no loaded roster. -/
theorem Updated.apart (h : Updated srv i disk a) (hself : (a.sess i).roster.loaded = true)
    (hc : Reaches srv i jid theirs) (hn : loadedSession a (a.sessionFindByJid jid.bare.str) = none)
    (hfind : jid.bare ≠ (srv.sess i).bareJid →
      rosterFindItem (disk jid.localpart.str) (srv.sess i).bareJid.str =
        rosterFindItem (rosterLoadForUser srv jid.localpart.str) (srv.sess i).bareJid.str) :
    ∀ s ∈ a.sessions, s.roster.loaded = true →
      rosterFile srv s.jidLocal.str = rosterFile srv jid.localpart.str →
        rosterEdit (disk jid.localpart.str) (srv.sess i).bareJid.str theirs = disk jid.localpart.str := by
  intro s hs hl hf
  rcases hc with ⟨t, ht, hor⟩ | ⟨hne, hc⟩
  · have hld : (a.sess t).roster.loaded = true := by
      by_cases hti : t = i
      · rw [hti]
        exact hself
      · rw [h.loads t hti]
        exact hor.resolve_left hti
    rw [h.steady.sessionFindByJid, ht, loadedSession] at hn
    simp [hld] at hn
  · obtain ⟨s₀, hs₀, hj, hor⟩ := h.origin hs hl
    refine rosterEdit_eq_self _ ?_
    rw [hfind hne]
    exact hc s₀ hs₀ hor (by rw [hj, hf])

theorem Updated.loadedTarget (ho : Orderly srv) (h : Updated srv i disk a) {t : ℕ}
    (ht : loadedSession a (a.sessionFindByJid jid.bare.str) = some t) {f : Roster → Roster}
    (hf : ∀ r, (f r).loaded = r.loaded) :
    srv.sessionFindByJid jid.bare.str = some t ∧ srv.Live t ∧
      Updated srv i (editAt srv (srv.sess t).jidLocal.str f disk) (rosterSave (modifyRoster a t f) t) := by
  obtain ⟨hfind, hld⟩ := loadedSession_eq_some ht
  rw [h.steady.sessionFindByJid] at hfind
  have hl := Server.sessionFindByJid_live hfind
  have hm := (Server.sess_mem ((h.steady.live t).mpr hl)).1
  have ha : (srv.sess t).authenticated = true := by
    rw [← h.steady.get Session.authenticated (fun _ => rfl) t]
    exact h.synced.closed _ hm hld
  exact ⟨hfind, hl, h.edit ho hl ha hld hf⟩

theorem grantTarget_updated (ho : Orderly srv) (h : Updated srv i disk a)
    (hself : (a.sess i).roster.loaded = true) (hc : Reaches srv i jid (setAsk false ∘ grantTo)) (o : Oracle)
    (hfind : jid.bare ≠ (srv.sess i).bareJid →
      rosterFindItem (disk jid.localpart.str) (srv.sess i).bareJid.str =
        rosterFindItem (rosterLoadForUser srv jid.localpart.str) (srv.sess i).bareJid.str) :
    ∃ disk', TargetEdit srv jid
        (fun r => rosterEdit r (srv.sess i).bareJid.str (setAsk false ∘ grantTo)) disk disk' ∧
      Updated srv i disk' (grantTarget a o (a.sessionFindByJid jid.bare.str) jid.localpart.str
        (srv.sess i).bareJid.str) := by
  unfold grantTarget
  dsimp only
  split
  · rename_i t ht
    obtain ⟨hf, -, hu⟩ := h.loadedTarget ho ht
      (f := fun r => rosterEdit r (srv.sess i).bareJid.str (setAsk false ∘ grantTo)) fun _ => rfl
    refine ⟨_, Or.inl ⟨t, hf, rfl⟩, ?_⟩
    split
    · exact hu.silent (silent_rosterPush _ _ _ _)
    · exact hu
  · rename_i hn
    by_cases hs : Saves srv jid.localpart.str
    · exact ⟨_, Or.inr (Or.inl ⟨hs, rfl⟩),
        h.editDisk hs (f := fun r => rosterEdit r (srv.sess i).bareJid.str (setAsk false ∘ grantTo))
          (fun _ => rfl) (h.apart hself hc hn hfind)⟩
    · refine ⟨disk, Or.inr (Or.inr ⟨hs, rfl⟩), ?_⟩
      rw [h.save_fails hs]
      exact h

theorem loaded_withdrawAt (a : Server) (t : ℕ) (id bare : Str) (f : RosterItem → RosterItem) :
    ((withdrawAt a t id bare f).sess t).roster.loaded = (a.sess t).roster.loaded := by
  have he := Updated.loaded_editSave a t t (f := fun r => rosterEdit r bare f) fun _ => rfl
  unfold withdrawAt
  split
  · rename_i item _
    have hp := silent_rosterPush (rosterSave (modifyRoster a t fun r => rosterEdit r bare f) t) t id (f item)
    exact (hp.get (fun s => s.roster.loaded) (fun _ => rfl) t).trans he
  · rfl

/-- A change of an existing item in a loaded roster; without one nothing is saved. -/
theorem withdrawAt_updated (h : Updated srv i disk a) {t : ℕ} (hl : srv.Live t)
    (hld : (a.sess t).roster.loaded = true) (id : Str) {bare : Str} {f : RosterItem → RosterItem}
    (hu : Updated srv i (editAt srv (srv.sess t).jidLocal.str (fun r => rosterEdit r bare f) disk)
      (rosterSave (modifyRoster a t fun r => rosterEdit r bare f) t)) :
    Updated srv i (editAt srv (srv.sess t).jidLocal.str (fun r => rosterEdit r bare f) disk)
      (withdrawAt a t id bare f) := by
  unfold withdrawAt
  split
  · exact hu.silent (silent_rosterPush _ _ _ _)
  · rename_i hn
    have hsame : editAt srv (srv.sess t).jidLocal.str (fun r => rosterEdit r bare f) disk = disk := by
      funext u
      unfold editAt
      split_ifs with hf
      · rw [h.cached hl hld, ← h.disk_congr hf] at hn
        exact rosterEdit_of_find_none _ hn
      · rfl
    rw [hsame]
    exact h

theorem withdrawTarget_updated (ho : Orderly srv) (h : Updated srv i disk a)
    (hself : (a.sess i).roster.loaded = true) (hc : Reaches srv i jid theirs) (type : Str) (o : Oracle)
    (hfind : jid.bare ≠ (srv.sess i).bareJid →
      rosterFindItem (disk jid.localpart.str) (srv.sess i).bareJid.str =
        rosterFindItem (rosterLoadForUser srv jid.localpart.str) (srv.sess i).bareJid.str) :
    ∃ disk', TargetEdit srv jid (fun r => rosterEdit r (srv.sess i).bareJid.str theirs) disk disk' ∧
      Updated srv i disk' (withdrawTarget type theirs a i o jid) := by
  have hbare : (a.sess i).bareJid = (srv.sess i).bareJid := h.steady.get Session.bareJid (fun _ => rfl) i
  unfold withdrawTarget
  rw [hbare]
  dsimp only
  split
  · rename_i t ht
    obtain ⟨hf, hl, hu⟩ := h.loadedTarget ho ht
      (f := fun r => rosterEdit r (srv.sess i).bareJid.str theirs) fun _ => rfl
    have hw := withdrawAt_updated h hl (loadedSession_eq_some ht).2 (o.ident 1) hu
    refine ⟨_, Or.inl ⟨t, hf, rfl⟩, ?_⟩
    split
    · exact hw.silent ((Silent.stanzaSend _ _ _).trans (.stanzaSend _ _ _))
    · exact hw.silent (.stanzaSend _ _ _)
  · rename_i hn
    have hsave : Saves srv jid.localpart.str → Updated srv i
        (editAt srv jid.localpart.str (fun r => rosterEdit r (srv.sess i).bareJid.str theirs) disk)
        (rosterSaveForUser a jid.localpart.str
          (rosterEdit (rosterLoadForUser a jid.localpart.str) (srv.sess i).bareJid.str theirs)) :=
      fun hs => h.editDisk hs (fun _ => rfl) (h.apart hself hc hn hfind)
    by_cases hs : Saves srv jid.localpart.str
    · refine ⟨_, Or.inr (Or.inl ⟨hs, rfl⟩), ?_⟩
      split
      · exact hsave hs
      · rename_i hnone
        have hsame : editAt srv jid.localpart.str
            (fun r => rosterEdit r (srv.sess i).bareJid.str theirs) disk = disk := by
          funext u
          unfold editAt
          split_ifs with hf
          · rw [h.stored, ← h.disk_congr hf] at hnone
            exact rosterEdit_of_find_none _ hnone
          · rfl
        rw [hsame]
        exact h
    · refine ⟨disk, Or.inr (Or.inr ⟨hs, rfl⟩), ?_⟩
      split
      · rw [h.save_fails hs]
        exact h
      · exact h

end

/-! ## Subscription stanzas -/

section
variable {srv : Server} {i : ℕ} (ho : Orderly srv) (hy : Synced srv) (hl : srv.Live i)
  (ha : (srv.sess i).authenticated = true) (o : Oracle) (dest : Str)
include ho hy hl ha

theorem presenceHandleSubscribed_updated
    (hc : Reaches srv i (jidParse (o.stack 0) dest).jid (setAsk false ∘ grantTo)) :
    ∃ disk, Updated srv i disk (presenceHandleSubscribed srv i o dest) ∧
      (TargetEdit srv (jidParse (o.stack 0) dest).jid
        (fun r => rosterEdit r (srv.sess i).bareJid.str (setAsk false ∘ grantTo))
        (editAt srv (srv.sess i).jidLocal.str
          (approveItem (jidParse (o.stack 0) dest).jid.bare.str) (rosterLoadForUser srv)) disk ∨
        rosterFindItem (approveItem (jidParse (o.stack 0) dest).jid.bare.str
          (rosterLoadForUser srv (srv.sess i).jidLocal.str)) (jidParse (o.stack 0) dest).jid.bare.str = none) := by
  unfold presenceHandleSubscribed
  generalize (jidParse (o.stack 0) dest).jid = jid at hc ⊢
  have he := ((Updated.start hy i).ensure ha).edit ho hl ha (Updated.ensure_loaded hl)
    (f := approveItem jid.bare.str) (approveItem_loaded _)
  have hld := (Updated.loaded_editSave (ensureRoster srv i) i i (approveItem_loaded jid.bare.str)).trans
    (Updated.ensure_loaded hl)
  dsimp only
  split
  · rename_i hn
    refine ⟨_, he.silent (.crash _), Or.inr ?_⟩
    rwa [he.cached hl hld, editAt, if_pos rfl] at hn
  · rename_i item _
    have hp := silent_rosterPush (rosterSave (modifyRoster (ensureRoster srv i) i (approveItem jid.bare.str)) i)
      i (o.ident 0) item
    obtain ⟨disk, ht, hu⟩ := grantTarget_updated ho (he.silent hp)
      ((hp.get (fun s => s.roster.loaded) (fun _ => rfl) i).trans hld) hc o (by
        intro hne
        refine find_editAt fun r => find_approveItem_of_ne r jid.bare ?_
        exact fun h => hne (Buf.ext h.symm))
    exact ⟨disk, hu.silent (silent_notifySubscribed _ i _ _ _), Or.inl ht⟩

theorem withdraw_updated (type : Str) {own theirs : RosterItem → RosterItem} (hk : KeepsJid own)
    (hc : Reaches srv i (jidParse (o.stack 0) dest).jid theirs) :
    ∃ disk, Updated srv i disk (withdraw type own theirs srv i o dest) ∧
      TargetEdit srv (jidParse (o.stack 0) dest).jid
        (fun r => rosterEdit r (srv.sess i).bareJid.str theirs)
        (editAt srv (srv.sess i).jidLocal.str
          (fun r => rosterEdit r (jidParse (o.stack 0) dest).jid.bare.str own) (rosterLoadForUser srv)) disk := by
  unfold withdraw
  generalize (jidParse (o.stack 0) dest).jid = jid at hc ⊢
  have hs := (Updated.start hy i).ensure ha
  have hld := Updated.ensure_loaded hl
  have hw := withdrawAt_updated hs hl hld (o.ident 0)
    (hs.edit ho hl ha hld (f := fun r => rosterEdit r jid.bare.str own) fun _ => rfl)
  have hld' := (loaded_withdrawAt (ensureRoster srv i) i (o.ident 0) jid.bare.str own).trans hld
  obtain ⟨disk, ht, hu⟩ := withdrawTarget_updated ho hw hld' hc type o (by
    intro hne
    refine find_editAt fun r => find_rosterEdit_of_ne r hk ?_
    exact fun h => hne (Buf.ext h.symm))
  exact ⟨disk, hu, ht⟩

end

end Xmppd.Coherence
