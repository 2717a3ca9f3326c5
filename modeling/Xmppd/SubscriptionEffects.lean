import Xmppd.MessageFate
import Xmppd.RosterPushes

/-!
# What a subscription stanza changes

A handler of a subscription stanza works on the roster of its session, saves it,
and goes on to the other side: to a session that was found for the address, or to
the file that the localpart of the address leads to. What it has done so far is
told by the own roster, the rosters that are read under all names, and that the
other sessions are as they were. Two names may lead to one file.
-/
namespace Xmppd.SubscriptionEffects
open CStrings FileTree LibXml Util ServerState User Roster Message Presence Stanza Frames RosterStore RosterItems Entries
open Confinement MessageFate RosterPushes

/-- The type of the stanza. -/
def typeOf : Kind → Str
  | .subscribe => "subscribe"
  | .subscribed => "subscribed"
  | .unsubscribe => "unsubscribe"
  | .unsubscribed => "unsubscribed"

theorem stanzaRoute_kind {srv : Server} {i : ℕ} {stanza : Node} {k : Kind} (hbound : (srv.sess i).isActive = true)
    (hname : stanza.name = "presence") (htype : stanza.prop "type" = typeOf k) (o : Oracle) :
    stanzaRoute srv i o stanza = handle k srv i o (stanza.prop "to") := by
  rw [stanzaRoute_presence hbound hname]
  unfold handlePresence
  rw [htype]
  cases k <;> rfl

/-! ## Saving under one name and then another -/

section
variable (srv : Server)

/-- What is read under a name after a save. -/
def afterSave (name : Str) (r : Roster) (disk : Str → Roster) (v : Str) : Roster :=
  if Saves srv name ∧ rosterFile srv v = rosterFile srv name then r else disk v

/-- A save of this roster under this name would change no file. -/
def Stored (name : Str) (r : Roster) : Prop := Saves srv name → rosterLoadForUser srv name = r

variable {srv} {u v name other : Str} {r r' : Roster}

theorem load_congr (h : rosterFile srv u = rosterFile srv v) : rosterLoadForUser srv u = rosterLoadForUser srv v := by
  rw [rosterLoadForUser_eq, rosterLoadForUser_eq, h]

theorem saves_congr (h : rosterFile srv u = rosterFile srv v) : Saves srv u ↔ Saves srv v := by
  unfold Saves
  rw [h]

theorem afterSave_self (hs : Saves srv name) (disk : Str → Roster) : afterSave srv name r disk name = r := if_pos ⟨hs, rfl⟩

theorem afterSave_of_not_saves (hs : ¬Saves srv name) (disk : Str → Roster) : afterSave srv name r disk = disk := by
  funext v
  exact if_neg fun h => hs h.1

theorem afterSave_of_ne (h : rosterFile srv v ≠ rosterFile srv name) (disk : Str → Roster) :
    afterSave srv name r disk v = disk v := if_neg fun hsame => h hsame.2

theorem afterSave_unchanged_iff : afterSave srv name r (rosterLoadForUser srv) = rosterLoadForUser srv ↔ Stored srv name r := by
  constructor
  · intro h hs
    rw [← h, afterSave_self hs]
  · intro h
    by_cases hs : Saves srv name
    · funext v
      by_cases hv : rosterFile srv v = rosterFile srv name
      · rw [afterSave, if_pos ⟨hs, hv⟩, load_congr hv, h hs]
      · exact afterSave_of_ne hv _
    · exact afterSave_of_not_saves hs _

/-- The second of two saves to a file hides the first. -/
theorem afterSave_hidden (hfile : rosterFile srv name = rosterFile srv other) (disk : Str → Roster) :
    afterSave srv other r' (afterSave srv name r disk) = afterSave srv other r' disk := by
  funext v
  unfold afterSave
  by_cases hv : Saves srv other ∧ rosterFile srv v = rosterFile srv other
  · rw [if_pos hv, if_pos hv]
  · have hname : ¬(Saves srv name ∧ rosterFile srv v = rosterFile srv name) :=
      fun h => hv ⟨(saves_congr hfile).mp h.1, h.2.trans hfile⟩
    rw [if_neg hv, if_neg hv, if_neg hname]

theorem afterSaves_unchanged_iff :
    afterSave srv other r' (afterSave srv name r (rosterLoadForUser srv)) = rosterLoadForUser srv ↔
      (rosterFile srv name ≠ rosterFile srv other → Stored srv name r) ∧ Stored srv other r' := by
  by_cases hfile : rosterFile srv name = rosterFile srv other
  · rw [afterSave_hidden hfile, afterSave_unchanged_iff]
    exact ⟨fun h => ⟨fun hne => absurd hfile hne, h⟩, fun h => h.2⟩
  · constructor
    · intro h
      have hname := congrFun h name
      have hother := congrFun h other
      rw [afterSave_of_ne hfile] at hname
      refine ⟨fun _ hs => ?_, fun hs => ?_⟩
      · rw [← hname, afterSave_self hs]
      · rw [← hother, afterSave_self hs]
    · intro h
      rw [afterSave_unchanged_iff.mpr (h.1 hfile), afterSave_unchanged_iff.mpr h.2]

end

/-! ## The stages of a handler -/

/-- What a handler of session `i` has done so far. -/
structure Stage (srv : Server) (i : ℕ) (own : Roster) (disk : Str → Roster) (a : Server) : Prop extends SamePlaces srv a where
  steady : Steady srv a
  own : (a.sess i).roster = own
  others : ∀ t, t ≠ i → (a.sess t).roster = (srv.sess t).roster
  disk : ∀ u, rosterLoadForUser a u = disk u
  quiet : ∀ t, t ≠ i → (a.sess t).out = (srv.sess t).out

namespace Stage
variable {srv a : Server} {i : ℕ} {own : Roster} {disk : Str → Roster}

theorem ensure (hl : srv.Live i) : Stage srv i (ownRoster srv i) (rosterLoadForUser srv) (ensureRoster srv i) := by
  have hown := Own.ensure hl
  refine ⟨hown.toSamePlaces, hown.steady, hown.roster, hown.others, ?_, ?_⟩
  · intro u
    unfold ensureRoster
    split
    · rfl
    · rfl
  · exact fun t _ => out_ensureRoster srv i t

/-- Nothing but the output of the session itself. -/
theorem silent {b : Server} (h : Stage srv i own disk a) (hs : Silent a b) (hq : ∀ t, t ≠ i → (b.sess t).out = (a.sess t).out) :
    Stage srv i own disk b := by
  have hroster : ∀ t, (b.sess t).roster = (a.sess t).roster := hs.get Session.roster fun _ => rfl
  refine ⟨h.toSamePlaces.trans (.of_silent hs), h.steady.trans hs.steady, ?_, ?_, ?_, ?_⟩
  · rw [hroster, h.own]
  · intro t ht
    rw [hroster, h.others t ht]
  · intro u
    rw [← h.disk u, rosterLoadForUser_eq, rosterLoadForUser_eq, (SamePlaces.of_silent hs).rosterFile, hs.files]
  · intro t ht
    rw [hq t ht, h.quiet t ht]

theorem send (h : Stage srv i own disk a) (n : Node) : Stage srv i own disk (a.stanzaSend i n) :=
  h.silent (.stanzaSend a i n) fun _ ht => congrArg Session.out (Server.sess_modify_of_ne _ _ _ _ ht)

theorem push (h : Stage srv i own disk a) (id : Str) (item : RosterItem) : Stage srv i own disk (rosterPush a i id item) :=
  h.send _

theorem crash (h : Stage srv i own disk a) : Stage srv i own disk a.crash := h.silent (.crash a) fun _ _ => rfl

theorem modify (hl : srv.Live i) (h : Stage srv i own disk a) (f : Roster → Roster) :
    Stage srv i (f own) disk (modifyRoster a i f) := by
  refine ⟨h.toSamePlaces.trans ⟨rfl, fun _ => rfl⟩, h.steady.trans (steady_modifyRoster a i f), ?_, ?_, h.disk, ?_⟩
  · rw [modifyRoster_roster ((h.steady.live i).mpr hl), h.own]
  · intro t ht
    rw [modifyRoster, Server.sess_modify_of_ne _ _ _ _ ht, h.others t ht]
  · intro t ht
    rw [modifyRoster, Server.sess_modify_of_ne _ _ _ _ ht, h.quiet t ht]

theorem saveForUser (h : Stage srv i own disk a) (name : Str) {r : Roster} (hr : r.loaded = true) :
    Stage srv i own (afterSave srv name r disk) (rosterSaveForUser a name r) := by
  have hsess : ∀ t, (rosterSaveForUser a name r).sess t = a.sess t := by
    intro t
    rw [Server.sess, rosterSaveForUser_sessions]
    rfl
  have hloaded : { r with loaded := true } = r := Roster.ext rfl hr.symm
  refine ⟨h.toSamePlaces.trans (samePlaces_rosterSaveForUser a name r),
    h.steady.trans (.of_filesOnly (filesOnly_rosterSaveForUser a name r)), ?_, ?_, ?_, ?_⟩
  · rw [hsess, h.own]
  · intro t ht
    rw [hsess, h.others t ht]
  · intro u
    by_cases hs : Saves srv name
    · rw [rosterLoadForUser_save a name r ((h.toSamePlaces.saves name).mpr hs), hloaded, h.disk, h.toSamePlaces.rosterFile,
        h.toSamePlaces.rosterFile]
      simp only [afterSave, hs, true_and]
    · rcases rosterSaveForUser_cases a name r with ⟨hsame, -⟩ | ⟨p, hp, hw, -⟩
      · rw [hsame, afterSave_of_not_saves hs, h.disk]
      · exact absurd ((h.toSamePlaces.saves name).mp ⟨p, hp, hw⟩) hs
  · intro t ht
    rw [hsess, h.quiet t ht]

/-- The own roster changed and saved. -/
theorem edit (hl : srv.Live i) (h : Stage srv i own disk a) {f : Roster → Roster} (hf : (f own).loaded = true) :
    Stage srv i (f own) (afterSave srv (srv.sess i).jidLocal.str (f own) disk) (rosterSave (modifyRoster a i f) i) := by
  have hmod := h.modify hl f
  have hname : ((modifyRoster a i f).sess i).jidLocal = (srv.sess i).jidLocal := hmod.steady.get Session.jidLocal (fun _ => rfl) i
  have hsave := hmod.saveForUser (srv.sess i).jidLocal.str hf
  unfold rosterSave
  rw [hname, hmod.own]
  exact hsave

theorem bareJid (h : Stage srv i own disk a) : (a.sess i).bareJid = (srv.sess i).bareJid :=
  h.steady.get Session.bareJid (fun _ => rfl) i

theorem live (h : Stage srv i own disk a) (t : ℕ) : a.Live t ↔ srv.Live t := h.steady.live t

theorem target (h : Stage srv i own disk a) (bare : Str) : a.sessionFindByJid bare = srv.sessionFindByJid bare :=
  h.steady.sessionFindByJid bare

theorem host (h : Stage srv i own disk a) (hr : own.loaded = true) (jid : Jid) :
    loadedSession a (srv.sessionFindByJid jid.bare.str) = host srv i jid := by
  rw [loadedSession, Confinement.host]
  congr 1
  funext t
  by_cases ht : t = i
  · rw [ht, h.own, hr]
    simp
  · rw [h.others t ht]
    simp [ht]

/-- An item of the own roster changed, saved and pushed, if it is there. -/
theorem withdrawAt_found (hl : srv.Live i) (h : Stage srv i own disk a) (hr : own.loaded = true) (id : Str) {bare : Str}
    {f : RosterItem → RosterItem} {item : RosterItem} (hfind : rosterFindItem own bare = some item) :
    Stage srv i (rosterEdit own bare f) (afterSave srv (srv.sess i).jidLocal.str (rosterEdit own bare f) disk)
      (withdrawAt a i id bare f) := by
  unfold withdrawAt
  rw [h.own, hfind]
  have hedit := h.edit hl (f := fun r => rosterEdit r bare f) hr
  exact hedit.push _ _

theorem withdrawAt_none (h : Stage srv i own disk a) {id bare : Str} {f : RosterItem → RosterItem}
    (hfind : rosterFindItem own bare = none) : withdrawAt a i id bare f = a := by
  unfold withdrawAt
  rw [h.own, hfind]

end Stage

/-! ## What is queued -/

/-- The record without the output and the roster. -/
def unheard : View where
  see s := { s with out := [], roster := Roster.empty }
  id _ := rfl

section
variable {a : Server} {t : ℕ}

theorem unheard_withdrawAt (id bare : Str) (f : RosterItem → RosterItem) : Same unheard a (withdrawAt a t id bare f) := by
  have hsave : ∀ b : Server, Same unheard b (rosterSave b t) := fun b => .of_filesOnly (filesOnly_rosterSaveForUser b _ _)
  unfold withdrawAt
  split
  · have hmod : Same unheard a (modifyRoster a t fun r => rosterEdit r bare f) := .modify a t fun _ => rfl
    exact (hmod.trans (hsave _)).trans (.modify _ t fun _ => rfl)
  · exact .refl a

/-- The push of an item that is withdrawn, if it is there. -/
def withdrawn (r : Roster) (id bare dest : Str) (f : RosterItem → RosterItem) : List Out :=
  ((rosterFindItem r bare).map fun item => .stanza (pushNode id dest (f item))).toList

theorem out_withdrawAt (ht : a.Live t) (id bare : Str) (f : RosterItem → RosterItem) :
    ((withdrawAt a t id bare f).sess t).out =
      (a.sess t).out ++ withdrawn (a.sess t).roster id bare (a.sess t).fullJid.str f := by
  unfold withdrawAt withdrawn
  cases hfind : rosterFindItem (a.sess t).roster bare with
  | none => exact (List.append_nil _).symm
  | some item =>
      have hsteady := steady_editSave a t fun r => rosterEdit r bare f
      dsimp only
      unfold rosterPush
      rw [out_stanzaSend ((hsteady.live t).mpr ht), out_editSave, hsteady.get Session.fullJid (fun _ => rfl) t]
      rfl

/-- What is queued for the session that is found on the other side. -/
theorem out_withdrawTarget {i u : ℕ} {o : Oracle} {jid : Jid} (ht : a.Live u)
    (hu : loadedSession a (a.sessionFindByJid jid.bare.str) = some u) (type : Str) (theirs : RosterItem → RosterItem) :
    ((withdrawTarget type theirs a i o jid).sess u).out =
      (a.sess u).out ++ (withdrawn (a.sess u).roster (o.ident 1) (a.sess i).bareJid.str (a.sess u).fullJid.str theirs ++
        .stanza (subNode type (a.sess i).bareJid.str jid.bare.str) ::
          if (a.sess i).available then [.stanza (unavailableNode (a.sess i).fullJid.str)] else []) := by
  unfold withdrawTarget
  rw [hu]
  dsimp only
  generalize subNode type (a.sess i).bareJid.str jid.bare.str = notice
  have hsame := unheard_withdrawAt (a := a) (t := u) (o.ident 1) (a.sess i).bareJid.str theirs
  have hlive := (hsame.live u).mpr ht
  have hsent : Same unheard (withdrawAt a u (o.ident 1) (a.sess i).bareJid.str theirs)
      ((withdrawAt a u (o.ident 1) (a.sess i).bareJid.str theirs).stanzaSend u notice) := .modify _ u fun _ => rfl
  have hall := hsame.trans hsent
  rw [hall.get Session.available (fun _ => rfl) i, hall.get Session.fullJid (fun _ => rfl) i]
  cases (a.sess i).available with
  | false =>
      rw [if_neg Bool.false_ne_true, if_neg Bool.false_ne_true, out_stanzaSend hlive, out_withdrawAt ht, List.append_assoc]
  | true =>
      rw [if_pos rfl, if_pos rfl, out_stanzaSend ((hsent.live u).mpr hlive), out_stanzaSend hlive, out_withdrawAt ht,
        List.append_assoc, List.append_assoc]
      rfl

end

end Xmppd.SubscriptionEffects
