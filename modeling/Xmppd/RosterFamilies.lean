import Xmppd.Accounts
import Xmppd.Misaddressed

/-!
# The rosters of all users

The roster that counts for a user is the one his session has loaded, and the one in
his file if there is none. A handler of a subscription stanza changes this family
of rosters at the sender and at the target and nowhere else, in whatever place the
rosters of the two are held, and also where the two are one.
-/
namespace Xmppd.RosterFamilies
open CStrings FileTree LibXml Util ServerState User Roster Message Presence Stanza Frames RosterStore RosterItems Accounts Entries
open Evolution Coherence Confinement Installation MessageFate RosterPushes SubscriptionEffects Misaddressed

/-- The name of an account whose roster file can be written. -/
structure IsUser (srv : Server) (u : Str) : Prop where
  plain : Tree.Plain u
  sign : '@' ∉ u
  short : u.length < 256
  saves : Saves srv u

def address (srv : Server) (u : Str) : Str := u ++ '@' :: srv.cfg.domain.str

/-- The roster that counts for a user. -/
def effective (srv : Server) (u : Str) : Roster :=
  match loadedSession srv (srv.sessionFindByJid (address srv u)) with
  | some t => (srv.sess t).roster
  | none => rosterLoadForUser srv u

/-- The rosters after a stanza of `u` to `v`. -/
def exchanged (srv : Server) (k : Kind) (u v : Str) (F : Str → Roster) : Str → Roster :=
  let G := Function.update F u (ownEdit k (address srv v) (F u))
  Function.update G v (rosterEdit (G v) (address srv u) (otherChange k))

theorem IsUser.distinct {srv : Server} {u v : Str} (hu : IsUser srv u) (hv : IsUser srv v)
    (h : rosterFile srv u = rosterFile srv v) : u = v := by
  obtain ⟨p, hp, -⟩ := hu.saves
  exact rosterFile_inj_plain hu.plain hu.short hv.plain hv.short hp (h.symm.trans hp)

/-- The session that is found for the address of a user is his. -/
theorem found_name {srv : Server} (hhome : AtHome srv) {u : Str} {t : ℕ} (h : srv.sessionFindByJid (address srv u) = some t) :
    (srv.sess t).jidLocal.str = u := by
  obtain ⟨s, hs, rfl, hne, hbare⟩ := Server.sessionFindByJid_some h
  rw [Server.sess_of_mem hs]
  rw [Session.bareJid, (hhome s hs).domain ((hhome s hs).known hne), jidBare_str] at hbare
  exact List.append_cancel_right hbare

/-! ## The rosters that are shown -/

section
variable {a b : Server} {u : Str} {t : ℕ}

theorem effective_of_loaded (h : a.sessionFindByJid (address a u) = some t) (hl : (a.sess t).roster.loaded = true) :
    effective a u = (a.sess t).roster := by
  unfold effective loadedSession
  rw [h, Option.filter_some, hl]
  rfl

theorem effective_of_unloaded (h : a.sessionFindByJid (address a u) = some t) (hl : (a.sess t).roster.loaded ≠ true) :
    effective a u = rosterLoadForUser a u := by
  unfold effective loadedSession
  rw [h, Option.filter_some, if_neg hl]

theorem effective_of_not_host (h : loadedSession a (a.sessionFindByJid (address a u)) = none) :
    effective a u = rosterLoadForUser a u := by
  unfold effective
  rw [h]

theorem effective_loaded (a : Server) (u : Str) : (effective a u).loaded = true := by
  unfold effective
  split
  · next t h => exact (loadedSession_eq_some h).2
  · rfl

/-- The roster of one user depends on the roster of his session and on his file. -/
theorem effective_congr (hcfg : b.cfg = a.cfg) (hfind : b.sessionFindByJid (address a u) = a.sessionFindByJid (address a u))
    (hdisk : rosterLoadForUser b u = rosterLoadForUser a u)
    (hroster : ∀ t, a.sessionFindByJid (address a u) = some t → (b.sess t).roster = (a.sess t).roster) :
    effective b u = effective a u := by
  have haddress : address b u = address a u := by
    unfold address
    rw [hcfg]
  cases hfound : a.sessionFindByJid (address a u) with
  | none =>
      rw [effective_of_not_host (by rw [haddress, hfind, hfound]; rfl), effective_of_not_host (by rw [hfound]; rfl), hdisk]
  | some t =>
      have hsame := hroster t hfound
      have hfound' : b.sessionFindByJid (address b u) = some t := by
        rw [haddress, hfind, hfound]
      by_cases hl : (a.sess t).roster.loaded = true
      · rw [effective_of_loaded hfound' (by rw [hsame, hl]), effective_of_loaded hfound hl, hsame]
      · rw [effective_of_unloaded hfound' (by rw [hsame]; exact hl), effective_of_unloaded hfound hl, hdisk]

end

/-- The sessions stand as they stood, and the rosters of the users are these. -/
structure Shows (srv : Server) (F : Str → Roster) (a : Server) : Prop extends SamePlaces srv a where
  steady : Steady srv a
  shown : ∀ u, IsUser srv u → effective a u = F u

namespace Shows
variable {srv a b : Server} {F : Str → Roster} {u : Str} {i t : ℕ}

theorem start (srv : Server) : Shows srv (effective srv) srv := ⟨.refl srv, .refl srv, fun _ _ => rfl⟩

theorem sameAddress (h : Shows srv F a) (u : Str) : address a u = address srv u := by
  unfold address
  rw [h.cfg]

theorem found (h : Shows srv F a) (u : Str) :
    a.sessionFindByJid (address a u) = srv.sessionFindByJid (address srv u) := by
  rw [h.sameAddress, h.steady.sessionFindByJid]

theorem loaded (h : Shows srv F a) (hu : IsUser srv u) : (F u).loaded = true := by
  rw [← h.shown u hu]
  exact effective_loaded a u

/-- Nothing but outputs. -/
theorem silent (h : Shows srv F a) (hs : Silent a b) : Shows srv F b := by
  have hroster : ∀ t, (b.sess t).roster = (a.sess t).roster := hs.get Session.roster fun _ => rfl
  refine ⟨h.toSamePlaces.trans (.of_silent hs), h.steady.trans hs.steady, ?_⟩
  intro u hu
  rw [← h.shown u hu]
  refine effective_congr hs.cfg (hs.steady.sessionFindByJid _) ?_ fun t _ => hroster t
  rw [rosterLoadForUser_eq, rosterLoadForUser_eq, (SamePlaces.of_silent hs).rosterFile, hs.files]

variable (hhome : AtHome srv)
include hhome

theorem name (h : Shows srv F a) (hi : srv.sessionFindByJid (address srv u) = some i) :
    (a.sess i).jidLocal.str = u := by
  rw [h.steady.get Session.jidLocal (fun _ => rfl) i]
  exact found_name hhome hi

/-- No session belongs to two users. -/
theorem distinct {v : Str} (hi : srv.sessionFindByJid (address srv u) = some i)
    (ht : srv.sessionFindByJid (address srv v) = some t) (hne : v ≠ u) : t ≠ i := by
  intro he
  rw [he] at ht
  exact hne ((found_name hhome ht).symm.trans (found_name hhome hi))

/-- What a change of one cache leaves as it is for the others. -/
theorem others {v : Str} (h : Shows srv F a) (hi : srv.sessionFindByJid (address srv u) = some i)
    (hv : IsUser srv v) (hne : v ≠ u) (hcfg : b.cfg = a.cfg) (hsteady : Steady a b)
    (hdisk : rosterLoadForUser b v = rosterLoadForUser a v) (hroster : ∀ t, t ≠ i → (b.sess t).roster = (a.sess t).roster) :
    effective b v = F v := by
  rw [← h.shown v hv]
  refine effective_congr hcfg (hsteady.sessionFindByJid _) hdisk ?_
  intro t ht
  rw [h.found] at ht
  exact hroster t (distinct hhome hi ht hne)

theorem ensure (h : Shows srv F a) (hi : srv.sessionFindByJid (address srv u) = some i) :
    Shows srv F (ensureRoster a i) ∧ ((ensureRoster a i).sess i).roster.loaded = true := by
  have hlive := (h.steady.live i).mpr (Server.sessionFindByJid_live hi)
  unfold ensureRoster
  split
  · next hl => exact ⟨h, hl⟩
  · next hl =>
    have hsteady : Steady a (rosterLoad a i) := .modify a i fun _ => rfl
    have hroster : ((rosterLoad a i).sess i).roster = rosterLoadForUser a u := by
      unfold rosterLoad
      rw [Server.sess_modify_self hlive]
      dsimp only
      rw [h.name hhome hi]
    have hloaded : ((rosterLoad a i).sess i).roster.loaded = true := by
      rw [hroster]
      rfl
    refine ⟨⟨h.toSamePlaces.trans ⟨rfl, fun _ => rfl⟩, h.steady.trans hsteady, ?_⟩, hloaded⟩
    intro v hv
    by_cases hne : v = u
    · have hfound : (rosterLoad a i).sessionFindByJid (address (rosterLoad a i) u) = some i :=
        (hsteady.sessionFindByJid _).trans ((h.found u).trans hi)
      rw [hne] at hv ⊢
      rw [effective_of_loaded hfound hloaded, hroster, ← h.shown u hv, effective_of_unloaded ((h.found u).trans hi) hl]
    · exact h.others hhome hi hv hne rfl hsteady rfl fun t ht => congrArg Session.roster (Server.sess_modify_of_ne _ _ _ _ ht)

/-- The roster of a session, changed and saved. -/
theorem edit (h : Shows srv F a) (hu : IsUser srv u) (hi : srv.sessionFindByJid (address srv u) = some i)
    (hl : (a.sess i).roster.loaded = true) {f : Roster → Roster} (hf : ∀ r, (f r).loaded = r.loaded) :
    Shows srv (Function.update F u (f (F u))) (rosterSave (modifyRoster a i f) i) ∧
      ((rosterSave (modifyRoster a i f) i).sess i).roster.loaded = true := by
  have hlive := (h.steady.live i).mpr (Server.sessionFindByJid_live hi)
  have hsteady := steady_editSave a i f
  have hroster := roster_edited hlive f
  have hloaded : ((rosterSave (modifyRoster a i f) i).sess i).roster.loaded = true := by
    rw [hroster, hf, hl]
  have hmod : SamePlaces a (modifyRoster a i f) := ⟨rfl, fun _ => rfl⟩
  have hplaces : SamePlaces a (rosterSave (modifyRoster a i f) i) := hmod.trans (samePlaces_rosterSaveForUser _ _ _)
  have hname : ((modifyRoster a i f).sess i).jidLocal.str = u := by
    rw [modifyRoster_jidLocal]
    exact h.name hhome hi
  refine ⟨⟨h.toSamePlaces.trans hplaces, h.steady.trans hsteady, ?_⟩, hloaded⟩
  intro v hv
  by_cases hne : v = u
  · have hfound : (rosterSave (modifyRoster a i f) i).sessionFindByJid
        (address (rosterSave (modifyRoster a i f) i) u) = some i := by
      unfold address
      rw [hplaces.cfg, hsteady.sessionFindByJid]
      exact (h.found u).trans hi
    rw [hne, effective_of_loaded hfound hloaded, hroster, Function.update_self, ← h.shown u hu,
      effective_of_loaded ((h.found u).trans hi) hl]
  · rw [Function.update_of_ne hne]
    refine h.others hhome hi hv hne hplaces.cfg hsteady ?_ ?_
    · have hfile : rosterFile (modifyRoster a i f) v ≠ rosterFile (modifyRoster a i f) u := by
        rw [(h.toSamePlaces.trans hmod).rosterFile, (h.toSamePlaces.trans hmod).rosterFile]
        exact fun he => hne (hv.distinct hu he)
      unfold rosterSave
      rw [hname, rosterLoadForUser_save _ _ _ (((h.toSamePlaces.trans hmod).saves u).mpr hu.saves), if_neg hfile]
      rfl
    · intro t ht
      rw [Server.sess, rosterSave, rosterSaveForUser_sessions]
      exact congrArg Session.roster (Server.sess_modify_of_ne _ _ _ _ ht)

omit hhome in
/-- The roster of a user whose session has not loaded it, written to his file. -/
theorem store (h : Shows srv F a) (hu : IsUser srv u)
    (hno : loadedSession a (srv.sessionFindByJid (address srv u)) = none) {r : Roster} (hr : r.loaded = true) :
    Shows srv (Function.update F u r) (rosterSaveForUser a u r) := by
  have hplaces := samePlaces_rosterSaveForUser a u r
  have hsteady : Steady a (rosterSaveForUser a u r) := .of_filesOnly (filesOnly_rosterSaveForUser a u r)
  have hsess : ∀ t, (rosterSaveForUser a u r).sess t = a.sess t := by
    intro t
    rw [Server.sess, rosterSaveForUser_sessions]
    rfl
  have hkept : { r with loaded := true } = r := Roster.ext rfl hr.symm
  refine ⟨h.toSamePlaces.trans hplaces, h.steady.trans hsteady, ?_⟩
  intro v hv
  by_cases hne : v = u
  · have hmissing : loadedSession (rosterSaveForUser a u r) ((rosterSaveForUser a u r).sessionFindByJid
        (address (rosterSaveForUser a u r) u)) = none := by
      unfold address loadedSession
      rw [hplaces.cfg, hsteady.sessionFindByJid]
      simp only [hsess]
      exact (congrArg (loadedSession a) (h.found u)).trans hno
    rw [hne, effective_of_not_host hmissing, rosterLoadForUser_save a u r ((h.toSamePlaces.saves u).mpr hu.saves), if_pos rfl,
      hkept, Function.update_self]
  · have hfile : rosterFile a v ≠ rosterFile a u := by
      rw [h.toSamePlaces.rosterFile, h.toSamePlaces.rosterFile]
      exact fun he => hne (hv.distinct hu he)
    rw [Function.update_of_ne hne, ← h.shown v hv]
    refine effective_congr hplaces.cfg (hsteady.sessionFindByJid _) ?_ fun t _ => congrArg Session.roster (hsess t)
    rw [rosterLoadForUser_save a u r ((h.toSamePlaces.saves u).mpr hu.saves), if_neg hfile]

end Shows

/-! ## The handlers -/

theorem exchanged_subscribe (srv : Server) (u v : Str) (F : Str → Roster) :
    exchanged srv .subscribe u v F = Function.update F u (ownEdit .subscribe (address srv v) (F u)) := by
  have hid : ∀ r : Roster, rosterEdit r (address srv u) (otherChange .subscribe) = r :=
    fun r => rosterEdit_eq_self r fun _ _ => rfl
  unfold exchanged
  dsimp only
  rw [hid, Function.update_eq_self]

section
variable {srv a : Server} {F : Str → Roster} {u v : Str} {i t : ℕ} (hhome : AtHome srv)
include hhome

/-- An item in the roster of a session changed, saved and pushed, if it is there. -/
theorem Shows.withdrawnAt (h : Shows srv F a) (hu : IsUser srv u) (hi : srv.sessionFindByJid (address srv u) = some i)
    (hl : (a.sess i).roster.loaded = true) (id bare : Str) (f : RosterItem → RosterItem) :
    Shows srv (Function.update F u (rosterEdit (F u) bare f)) (withdrawAt a i id bare f) := by
  have hroster : (a.sess i).roster = F u := by
    rw [← h.shown u hu, effective_of_loaded ((h.found u).trans hi) hl]
  unfold withdrawAt
  rw [hroster]
  cases hfind : rosterFindItem (F u) bare with
  | none =>
      rw [rosterEdit_of_find_none _ hfind, Function.update_eq_self]
      exact h
  | some item =>
      exact (h.edit hhome hu hi hl (f := fun r => rosterEdit r bare f) fun _ => rfl).1.silent (silent_rosterPush _ _ _ _)

variable {jid : Jid} (hv : IsUser srv v) (hbare : jid.bare.str = address srv v) (hlocal : jid.localpart.str = v)
include hv hbare hlocal

/-- The other side of a withdrawal. -/
theorem Shows.withdrawnTarget (h : Shows srv F a) (hi : srv.sessionFindByJid (address srv u) = some i) (type : Str)
    (theirs : RosterItem → RosterItem) (o : Oracle) :
    Shows srv (Function.update F v (rosterEdit (F v) (address srv u) theirs))
      (withdrawTarget type theirs a i o jid) := by
  have hsender : (a.sess i).bareJid.str = address srv u := by
    rw [h.steady.get Session.bareJid (fun _ => rfl) i]
    exact Server.bareJid_of_found hi
  unfold withdrawTarget
  rw [hsender, hbare, hlocal, h.steady.sessionFindByJid]
  dsimp only
  cases hhost : loadedSession a (srv.sessionFindByJid (address srv v)) with
  | some t =>
      obtain ⟨ht, hl⟩ := loadedSession_eq_some hhost
      have hat := h.withdrawnAt hhome hv ht hl (o.ident 1) (address srv u) theirs
      dsimp only
      split
      · exact hat.silent ((Silent.stanzaSend _ _ _).trans (.stanzaSend _ _ _))
      · exact hat.silent (.stanzaSend _ _ _)
  | none =>
      have hroster : rosterLoadForUser a v = F v := by
        rw [← h.shown v hv, effective_of_not_host ((congrArg (loadedSession a) (h.found v)).trans hhost)]
      dsimp only
      rw [hroster]
      cases hfind : rosterFindItem (F v) (address srv u) with
      | none =>
          rw [rosterEdit_of_find_none _ hfind, Function.update_eq_self]
          exact h
      | some item => exact h.store hv hhost (h.loaded hv)

/-- The other side of an approval. -/
theorem Shows.granted (h : Shows srv F a) (o : Oracle) :
    Shows srv (Function.update F v (rosterEdit (F v) (address srv u) (otherChange .subscribed)))
      (grantTarget a o (a.sessionFindByJid jid.bare.str) jid.localpart.str (address srv u)) := by
  unfold grantTarget
  rw [hbare, hlocal, h.steady.sessionFindByJid]
  dsimp only
  cases hhost : loadedSession a (srv.sessionFindByJid (address srv v)) with
  | some t =>
      obtain ⟨ht, hl⟩ := loadedSession_eq_some hhost
      have hedit : Shows srv (Function.update F v (rosterEdit (F v) (address srv u) (otherChange .subscribed)))
          (rosterSave (modifyRoster a t fun r => rosterEdit r (address srv u) (setAsk false ∘ grantTo)) t) :=
        (h.edit hhome hv ht hl (f := fun r => rosterEdit r (address srv u) (otherChange .subscribed)) fun _ => rfl).1
      dsimp only
      split
      · exact hedit.silent (silent_rosterPush _ _ _ _)
      · exact hedit
  | none =>
      have hroster : rosterLoadForUser a v = F v := by
        rw [← h.shown v hv, effective_of_not_host ((congrArg (loadedSession a) (h.found v)).trans hhost)]
      dsimp only
      rw [hroster]
      exact h.store hv hhost (h.loaded hv)

end

section
variable {srv a : Server} {F : Str → Roster} {u v dest : Str} {i : ℕ} {jid : Jid} {o : Oracle} (hhome : AtHome srv)
  (hu : IsUser srv u) (hv : IsUser srv v) (hi : srv.sessionFindByJid (address srv u) = some i)
  (hjid : (jidParse (o.stack 0) dest).jid = jid) (hbare : jid.bare.str = address srv v) (hlocal : jid.localpart.str = v)
  (h : Shows srv F a)
include hhome hu hv hi hjid hbare hlocal h

omit hv hlocal in
theorem shows_subscribe : Shows srv (exchanged srv .subscribe u v F) (presenceHandleSubscribe a i o dest) := by
  obtain ⟨hshown, hl⟩ := h.ensure hhome hi
  have hedit := (hshown.edit hhome hu hi hl (f := ownEdit .subscribe (address srv v)) (ownEdit_loaded _ _)).1
  have hown : requestItem (address srv v) = ownEdit .subscribe (address srv v) := rfl
  rw [exchanged_subscribe]
  unfold presenceHandleSubscribe
  dsimp only
  rw [hjid, hbare, hown]
  split
  · exact hedit.silent (.crash _)
  · split
    · exact hedit.silent ((silent_rosterPush _ _ _ _).trans (.stanzaSend _ _ _))
    · exact hedit.silent (silent_rosterPush _ _ _ _)

theorem shows_subscribed (hroom : (F u).items.length < maxRosterItems) :
    Shows srv (exchanged srv .subscribed u v F) (presenceHandleSubscribed a i o dest) := by
  obtain ⟨hshown, hl⟩ := h.ensure hhome hi
  have hedit := (hshown.edit hhome hu hi hl (f := ownEdit .subscribed (address srv v)) (ownEdit_loaded _ _)).1
  have hown : approveItem (address srv v) = ownEdit .subscribed (address srv v) := rfl
  have hsender : (a.sess i).bareJid.str = address srv u := by
    rw [h.steady.get Session.bareJid (fun _ => rfl) i]
    exact Server.bareJid_of_found hi
  have hroster : ((rosterSave (modifyRoster (ensureRoster a i) i (ownEdit .subscribed (address srv v))) i).sess i).roster =
      ownEdit .subscribed (address srv v) (F u) := by
    rw [roster_edited ((hshown.steady.live i).mpr (Server.sessionFindByJid_live hi)), ← hshown.shown u hu,
      effective_of_loaded ((hshown.found u).trans hi) hl]
  have hfound : (rosterFindItem (ownEdit .subscribed (address srv v) (F u)) (address srv v)).isSome = true := by
    rw [← hown, ← hbare]
    exact (find_approveItem_iff (F u) jid.bare).mpr (.inl hroom)
  unfold presenceHandleSubscribed
  rw [hjid, hsender]
  dsimp only
  rw [hbare, hown, hroster]
  cases hfind : rosterFindItem (ownEdit .subscribed (address srv v) (F u)) (address srv v) with
  | none =>
      rw [hfind] at hfound
      cases hfound
  | some item =>
      have hpushed := hedit.silent (silent_rosterPush _ i (o.ident 0) item)
      have hgrant := hpushed.granted hhome hv hbare hlocal (u := u) o
      rw [hbare] at hgrant
      exact hgrant.silent (silent_notifySubscribed _ i _ _ _)

theorem shows_withdraw {k : Kind} (hk : addition k = none) (type : Str) :
    Shows srv (exchanged srv k u v F) (withdraw type (ownChange k) (otherChange k) a i o dest) := by
  obtain ⟨hshown, hl⟩ := h.ensure hhome hi
  have hown : ownEdit k (address srv v) (F u) = rosterEdit (F u) (address srv v) (ownChange k) := by
    unfold ownEdit
    rw [hk]
    split
    · rfl
    · next hfind => exact (rosterEdit_of_find_none _ hfind).symm
  have hat := hshown.withdrawnAt hhome hu hi hl (o.ident 0) (address srv v) (ownChange k)
  rw [← hown] at hat
  unfold withdraw exchanged
  dsimp only
  rw [hjid, hbare]
  exact hat.withdrawnTarget hhome hv hbare hlocal hi type (otherChange k) o

theorem shows_handle (k : Kind) (hroom : (F u).items.length < maxRosterItems) :
    Shows srv (exchanged srv k u v F) (handle k a i o dest) := by
  cases k with
  | subscribe => exact shows_subscribe hhome hu hi hjid hbare h
  | subscribed => exact shows_subscribed hhome hu hv hi hjid hbare hlocal h hroom
  | unsubscribe => exact shows_withdraw hhome hu hv hi hjid hbare hlocal h (k := .unsubscribe) rfl _
  | unsubscribed => exact shows_withdraw hhome hu hv hi hjid hbare hlocal h (k := .unsubscribed) rfl _

end

end Xmppd.RosterFamilies
