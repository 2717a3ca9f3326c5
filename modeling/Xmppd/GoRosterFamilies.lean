import Xmppd.GoStanza
import Xmppd.GoWorld
import Xmppd.SubscriptionEffects
import Xmppd.Triples

/-!
# The rosters of all users in the Go server

The roster that counts for a user is the one that his session has loaded, and the
one in his file if there is none. A handler of a subscription stanza changes this
family of rosters at the sender and at the target. The roster of a target without
a session is written and from then on what is read back, whatever that is.
-/
namespace Xmppd.GoRosterFamilies
open CStrings GoXml Programs Program Triples GoSession GoPresence GoWorld
open RosterPushes (Kind)
open SubscriptionEffects (typeOf)

def address (domain u : Str) : Str := u ++ '@' :: domain

theorem address_injective {domain u v : Str} (h : address domain u = address domain v) : u = v := List.append_cancel_right h

/-- The session of a user, where its roster is loaded. -/
def loadedSession (w : World) (domain u : Str) : Option ℕ :=
  (w.registry (address domain u)).filter fun t => (w.rosters t).loaded

/-- The roster that counts for a user. -/
def effective (w : World) (domain u : Str) : Roster :=
  match loadedSession w domain u with
  | some t => w.rosters t
  | none => GoRosterFile.load (w.rosterFiles u)

/-- No session is registered under two addresses. -/
def Apart (registry : Str → Option ℕ) : Prop := ∀ j k t, registry j = some t → registry k = some t → j = k

/-- What a user's roster is once it has been written to his file and read back. -/
def reread (isPrint : Char → Bool) (r : Roster) : Roster := GoRosterFile.load (some (GoRosterFile.save isPrint r))

/-! ## The changes -/

/-- The change to the sender's roster. -/
def ownEdit (k : Kind) (jid : Str) (r : Roster) : Roster :=
  match k with
  | .subscribe =>
      match r.find jid with
      | none => r.addOrUpdate jid [] "none" true
      | some _ => r.update jid fun i => { i with askSubscribe := true }
  | .subscribed =>
      match r.find jid with
      | none => r.addOrUpdate jid [] "from" false
      | some _ => r.update jid (turn gainFrom false)
  | .unsubscribe => r.update jid (turn loseTo true)
  | .unsubscribed => r.update jid (turn loseFrom false)

/-- The change to an item of the target's roster. -/
def otherTurn : Kind → Item → Item
  | .subscribe => id
  | .subscribed => turn gainTo true
  | .unsubscribe => turn loseFrom false
  | .unsubscribed => turn loseTo true

/-- Where the target's roster is only a file it is written there. -/
def settle (isPrint : Char → Bool) (online : Bool) (k : Kind) (r : Roster) : Roster :=
  if online = true ∨ k = .subscribe then r else reread isPrint r

/-- The rosters after a stanza of `u` to `v`. -/
def exchanged (isPrint : Char → Bool) (registry : Str → Option ℕ) (domain : Str) (k : Kind) (u v : Str) (F : Str → Roster) :
    Str → Roster :=
  let G := Function.update F u (ownEdit k (address domain v) (F u))
  Function.update G v (settle isPrint (registry (address domain v)).isSome k ((G v).update (address domain u) (otherTurn k)))

section
variable {r : Roster} {jid : Str} {f : Item → Item}

@[simp] theorem update_loaded : (r.update jid f).loaded = r.loaded := rfl

@[simp] theorem addOrUpdate_loaded {name sub : Str} {ask : Bool} : (r.addOrUpdate jid name sub ask).loaded = r.loaded := by
  unfold Roster.addOrUpdate
  split
  · rfl
  · rfl

@[simp] theorem ownEdit_loaded (k : Kind) : (ownEdit k jid r).loaded = r.loaded := by
  cases k with
  | subscribe =>
      unfold ownEdit
      dsimp only
      split
      · exact addOrUpdate_loaded
      · rfl
  | subscribed =>
      unfold ownEdit
      dsimp only
      split
      · exact addOrUpdate_loaded
      · rfl
  | unsubscribe => rfl
  | unsubscribed => rfl

/-- An update that finds nothing, or keeps what it finds, changes nothing. -/
theorem update_id : r.update jid id = r := by
  have hid : ∀ l, Roster.update.go jid id l = l := by
    intro l
    induction l with
    | nil => rfl
    | cons i is ih =>
        rw [Roster.update.go, ih]
        split
        · rfl
        · rfl
  unfold Roster.update
  rw [hid]

theorem update_of_find_none (h : r.find jid = none) : r.update jid f = r := by
  have hgo : ∀ l : List Item, l.find? (fun i => i.jid = jid) = none → Roster.update.go jid f l = l := by
    intro l
    induction l with
    | nil => exact fun _ => rfl
    | cons i is ih =>
        intro hnone
        by_cases hi : i.jid = jid
        · rw [List.find?_cons_of_pos (by simpa using hi)] at hnone
          cases hnone
        · rw [List.find?_cons_of_neg (by simpa using hi)] at hnone
          rw [Roster.update.go, if_neg hi, ih hnone]
  unfold Roster.update
  rw [hgo r.items h]

end

theorem load_loaded (data : Option Str) : (GoRosterFile.load data).loaded = true := by
  unfold GoRosterFile.load
  split
  · rfl
  · rfl

/-! ## The rosters that are shown -/

section
variable {w : World} {domain u : Str} {t : ℕ}

theorem effective_of_loaded (h : w.registry (address domain u) = some t) (hl : (w.rosters t).loaded = true) :
    effective w domain u = w.rosters t := by
  unfold effective loadedSession
  rw [h, Option.filter_some, hl]
  rfl

theorem effective_of_unloaded (h : w.registry (address domain u) = some t) (hl : (w.rosters t).loaded ≠ true) :
    effective w domain u = GoRosterFile.load (w.rosterFiles u) := by
  unfold effective loadedSession
  rw [h, Option.filter_some, if_neg hl]

theorem effective_of_offline (h : w.registry (address domain u) = none) :
    effective w domain u = GoRosterFile.load (w.rosterFiles u) := by
  unfold effective loadedSession
  rw [h]
  rfl

theorem effective_loaded (w : World) (domain u : Str) : (effective w domain u).loaded = true := by
  unfold effective
  split
  · next t h => exact (Option.filter_eq_some_iff.mp h).2
  · exact load_loaded _

/-- The roster of one user depends on the roster of his session and on his file. -/
theorem effective_congr {w' : World} (hreg : w'.registry = w.registry) (hfile : w'.rosterFiles u = w.rosterFiles u)
    (hroster : ∀ t, w.registry (address domain u) = some t → w'.rosters t = w.rosters t) :
    effective w' domain u = effective w domain u := by
  unfold effective loadedSession
  rw [hreg, hfile]
  cases hfind : w.registry (address domain u) with
  | none => rfl
  | some t =>
      rw [Option.filter_some, Option.filter_some, hroster t hfind]
      split
      · next h =>
        split at h
        · rw [← Option.some.inj h]
          exact hroster t hfind
        · cases h
      · rfl

end

/-- The registry is this one, and the rosters of the users are these. -/
structure Shows (registry : Str → Option ℕ) (domain : Str) (F : Str → Roster) (w : World) : Prop where
  registry : w.registry = registry
  shown : ∀ u, effective w domain u = F u

/-- The session has this roster in its cache besides. -/
structure Has (registry : Str → Option ℕ) (domain : Str) (F : Str → Roster) (t : ℕ) (r : Roster) (w : World) : Prop
    extends Shows registry domain F w where
  cache : w.rosters t = r

section
variable {registry : Str → Option ℕ} {domain : Str} {F : Str → Roster} {w w' : World} {u : Str} {t : ℕ} {r : Roster}

theorem Shows.loaded (h : Shows registry domain F w) (u : Str) : (F u).loaded = true := by
  rw [← h.shown u]
  exact effective_loaded w domain u

/-- A roster is put in the cache of a user's session. -/
theorem Shows.cached (hapart : Apart registry) (hu : registry (address domain u) = some t) (h : Shows registry domain F w)
    (hr : r.loaded = true) (hreg : w'.registry = w.registry) (hfiles : w'.rosterFiles = w.rosterFiles)
    (hrosters : w'.rosters = Function.update w.rosters t r) :
    Has registry domain (Function.update F u r) t r w' := by
  have hcache : w'.rosters t = r := by
    rw [hrosters]
    exact Function.update_self _ _ _
  refine ⟨⟨hreg.trans h.registry, ?_⟩, hcache⟩
  intro v
  by_cases hv : v = u
  · have hfound : w'.registry (address domain v) = some t := by
      rw [hreg, h.registry, hv, hu]
    rw [effective_of_loaded hfound (by rw [hcache, hr]), hcache, hv, Function.update_self]
  · rw [Function.update_of_ne hv, ← h.shown v]
    refine effective_congr hreg (congrFun hfiles v) ?_
    intro t' ht'
    rw [h.registry] at ht'
    have hne : t' ≠ t := by
      intro he
      rw [he] at ht'
      exact hv (address_injective (hapart _ _ _ ht' hu))
    rw [hrosters]
    exact Function.update_of_ne hne _ _

/-- The file of a user whose session has loaded his roster does not count. -/
theorem Has.saved (hu : registry (address domain u) = some t) (h : Has registry domain F t r w) (hr : r.loaded = true)
    {content : Option Str} (hreg : w'.registry = w.registry) (hrosters : w'.rosters = w.rosters)
    (hfiles : w'.rosterFiles = Function.update w.rosterFiles u content) : Has registry domain F t r w' := by
  refine ⟨⟨hreg.trans h.registry, ?_⟩, (congrFun hrosters t).trans h.cache⟩
  intro v
  rw [← h.shown v]
  by_cases hv : v = u
  · have hfound : w.registry (address domain v) = some t := by
      rw [h.registry, hv, hu]
    have hl : (w.rosters t).loaded = true := by
      rw [h.cache, hr]
    rw [effective_of_loaded hfound hl, effective_of_loaded (by rw [hreg, hfound]) (by rw [hrosters, hl]), hrosters]
  · refine effective_congr hreg ?_ fun t' _ => congrFun hrosters t'
    rw [hfiles]
    exact Function.update_of_ne hv _ _

/-- The file of a user without a session does. -/
theorem Shows.stored {isPrint : Char → Bool} (hu : registry (address domain u) = none) (h : Shows registry domain F w)
    (hreg : w'.registry = w.registry) (hrosters : w'.rosters = w.rosters)
    (hfiles : w'.rosterFiles = Function.update w.rosterFiles u (some (GoRosterFile.save isPrint r))) :
    Shows registry domain (Function.update F u (reread isPrint r)) w' := by
  refine ⟨hreg.trans h.registry, ?_⟩
  intro v
  by_cases hv : v = u
  · rw [hv, effective_of_offline (by rw [hreg, h.registry, hu]), hfiles, Function.update_self, Function.update_self]
    rfl
  · rw [Function.update_of_ne hv, ← h.shown v]
    refine effective_congr hreg ?_ fun t' _ => congrFun hrosters t'
    rw [hfiles]
    exact Function.update_of_ne hv _ _

end

/-! ## The calls -/

/-- A call that changes no roster. -/
def Quiet : Call → Prop
  | .register _ => False
  | .unregister => False
  | .setRoster _ _ => False
  | .save _ _ => False
  | .create _ _ => False
  | .delete _ => False
  | _ => True

section
variable {isPrint : Char → Bool} {outside : ℕ → (c : Call) → Result c} {self : ℕ}

theorem quiet_kept {c : Call} (hc : Quiet c) (w : World) :
    (answer isPrint outside self c w).2.registry = w.registry ∧ (answer isPrint outside self c w).2.rosters = w.rosters ∧
      (answer isPrint outside self c w).2.rosterFiles = w.rosterFiles := by
  cases c
  all_goals first
    | exact ⟨rfl, rfl, rfl⟩
    | exact hc.elim

variable {registry : Str → Option ℕ} {domain : Str} {F : Str → Roster} {u : Str} {t : ℕ} {r : Roster}

theorem Shows.quiet {w : World} {c : Call} (hc : Quiet c) (h : Shows registry domain F w) :
    Shows registry domain F (answer isPrint outside self c w).2 := by
  obtain ⟨hreg, hrosters, hfiles⟩ := @quiet_kept isPrint outside self c hc w
  refine ⟨hreg.trans h.registry, ?_⟩
  intro v
  rw [← h.shown v]
  exact effective_congr hreg (congrFun hfiles v) fun t _ => congrFun hrosters t

theorem Has.quiet {w : World} {c : Call} (hc : Quiet c) (h : Has registry domain F t r w) :
    Has registry domain F t r (answer isPrint outside self c w).2 :=
  ⟨h.toShows.quiet hc, (congrFun (quiet_kept hc w).2.1 t).trans h.cache⟩

/-- Programs that make only such calls. -/
theorem triple_quiet {A : Type} {p : Handler A} {V : A → Prop} (h : Ensures Quiet p V) :
    Triple (answer isPrint outside self) (Shows registry domain F) p fun a w => V a ∧ Shows registry domain F w :=
  triple_kept h fun _ _ hc hw => hw.quiet hc

theorem triple_quiet_has {A : Type} {p : Handler A} {V : A → Prop} (h : Ensures Quiet p V) :
    Triple (answer isPrint outside self) (Has registry domain F t r) p fun a w => V a ∧ Has registry domain F t r w :=
  triple_kept h fun _ _ hc hw => hw.quiet hc

/-- The roster of a user is in the cache once it has been asked for. -/
theorem triple_ensureLoaded (hapart : Apart registry) (hu : registry (address domain u) = some t) :
    Triple (answer isPrint outside self) (Shows registry domain F) (ensureLoaded t u) fun a w =>
      a = F u ∧ Has registry domain F t (F u) w := by
  intro w h
  have hfound : w.registry (address domain u) = some t := by
    rw [h.registry, hu]
  have hshown := h.shown u
  unfold ensureLoaded
  rw [exec_bind]
  change (fun x : Roster × World × List Call => x.1 = F u ∧ Has registry domain F t (F u) x.2.1)
    (exec (answer isPrint outside self) (if (w.rosters t).loaded then _ else _) (answer isPrint outside self (.roster t) w).2)
  by_cases hl : (w.rosters t).loaded = true
  · rw [effective_of_loaded hfound hl] at hshown
    rw [if_pos hl]
    exact ⟨hshown, h.quiet trivial, hshown⟩
  · rw [effective_of_unloaded hfound hl] at hshown
    have hsame : Function.update F u (F u) = F := Function.update_eq_self u F
    have hasked : Shows registry domain F (answer isPrint outside self (.roster t) w).2 := h.quiet trivial
    have hset : Has registry domain (Function.update F u (F u)) t (F u) (answer isPrint outside self (.setRoster t (F u))
        (answer isPrint outside self (.load u) (answer isPrint outside self (.roster t) w).2).2).2 :=
      hasked.cached hapart hu (h.loaded u) rfl rfl rfl
    rw [hsame] at hset
    rw [if_neg hl]
    rw [← hshown] at hset ⊢
    exact ⟨rfl, hset⟩

theorem triple_setRoster (hapart : Apart registry) (hu : registry (address domain u) = some t) {r' : Roster}
    (hr : r'.loaded = true) : Triple (answer isPrint outside self) (Has registry domain F t r) (setRoster t r') fun _ =>
      Has registry domain (Function.update F u r') t r' :=
  fun _ h => h.toShows.cached hapart hu hr rfl rfl rfl

theorem triple_save (hu : registry (address domain u) = some t) (hr : r.loaded = true) (r' : Roster) :
    Triple (answer isPrint outside self) (Has registry domain F t r) (save u r') fun _ => Has registry domain F t r :=
  fun _ h => h.saved hu hr rfl rfl rfl

theorem triple_findByBareJID (jid : Str) : Triple (answer isPrint outside self) (Shows registry domain F) (findByBareJID jid)
    fun a w => a = registry jid ∧ Shows registry domain F w :=
  fun _ h => ⟨congrFun h.registry jid, h.quiet (c := .find jid) trivial⟩

theorem triple_modifyDiskRoster (hu : registry (address domain u) = none) (f : Roster → Roster) :
    Triple (answer isPrint outside self) (Shows registry domain F) (modifyDiskRoster u f) fun _ =>
      Shows registry domain (Function.update F u (reread isPrint (f (F u)))) := by
  intro w h
  have hread : GoRosterFile.load (w.rosterFiles u) = F u := by
    rw [← h.shown u, effective_of_offline (by rw [h.registry, hu])]
  have hasked : Shows registry domain F (answer isPrint outside self (.load u) w).2 := h.quiet trivial
  have hstored : Shows registry domain (Function.update F u (reread isPrint (f (GoRosterFile.load (w.rosterFiles u)))))
      (answer isPrint outside self (.save u (f (GoRosterFile.load (w.rosterFiles u))))
        (answer isPrint outside self (.load u) w).2).2 := hasked.stored hu rfl rfl rfl
  rw [← hread]
  exact hstored

end

/-! ## The handlers -/

section
variable {isPrint : Char → Bool} {outside : ℕ → (c : Call) → Result c} {self : ℕ} {registry : Str → Option ℕ}
  {domain : Str} {F : Str → Roster} {s : Session} {u v dest : Str}

theorem quiet_push {t : ℕ} {fullJID : Str} {i : Item} : Ensures Quiet (push t fullJID i) fun _ => True :=
  (ensures_push (fun _ => trivial) trivial).mpr trivial

theorem quiet_sendText {t : ℕ} {x : Str} : Ensures Quiet (sendText t x) fun _ => True := ensures_sendText.mpr ⟨trivial, trivial⟩

theorem exchanged_subscribe : exchanged isPrint registry domain .subscribe u v F =
    Function.update F u (ownEdit .subscribe (address domain v) (F u)) := by
  unfold exchanged settle otherTurn
  dsimp only
  rw [if_pos (Or.inr rfl), update_id, Function.update_eq_self]

theorem exchanged_online {k : Kind} {t : ℕ} (hv : registry (address domain v) = some t) :
    exchanged isPrint registry domain k u v F =
      let G := Function.update F u (ownEdit k (address domain v) (F u))
      Function.update G v ((G v).update (address domain u) (otherTurn k)) := by
  unfold exchanged settle
  dsimp only
  rw [hv, Option.isSome_some, if_pos (Or.inl rfl)]

theorem exchanged_offline {k : Kind} (hk : k ≠ .subscribe) (hv : registry (address domain v) = none) :
    exchanged isPrint registry domain k u v F =
      let G := Function.update F u (ownEdit k (address domain v) (F u))
      Function.update G v (reread isPrint ((G v).update (address domain u) (otherTurn k))) := by
  unfold exchanged settle
  dsimp only
  rw [hv, Option.isSome_none, if_neg (by simp [hk])]

/-- What `handleSubscribed` does once the own side is done. -/
def grantOther (s : Session) (targetBare : Str) : Handler Unit := do
  let session ← findByBareJID targetBare
  match session with
  | some t => approveOnline s targetBare t
  | none => modifyDiskRoster (localPart targetBare) fun r => r.update s.bareJID (turn gainTo true)

theorem handleSubscribed_eq : handleSubscribed self s dest = (do
    let r ← ensureLoaded self s.jidLocal
    setRoster self (ownEdit .subscribed (bareJID dest) r)
    save s.jidLocal (ownEdit .subscribed (bareJID dest) r)
    match (ownEdit .subscribed (bareJID dest) r).find (bareJID dest) with
    | some item => do
        push self s.fullJID item
        grantOther s (bareJID dest)
    | none => grantOther s (bareJID dest)) := rfl

/-- The session is that of the user, and the address leads to the other one. -/
structure Between (registry : Str → Option ℕ) (domain : Str) (i : ℕ) (s : Session) (u v dest : Str) : Prop where
  apart : Apart registry
  found : registry (address domain u) = some i
  name : s.jidLocal = u
  bare : s.bareJID = address domain u
  leads : bareJID dest = address domain v
  other : localPart (address domain v) = v

theorem triple_lockedRoster {t : ℕ} (hapart : Apart registry) (hv : registry (address domain v) = some t) :
    Triple (answer isPrint outside self) (Shows registry domain F) (lockedRoster t v) fun a w =>
      a = F v ∧ Has registry domain F t (F v) w := by
  have hlock : Ensures Quiet (lock t) fun _ => True := ensures_lock.mpr ⟨trivial, trivial⟩
  exact triple_bind (triple_quiet hlock) fun _ => (triple_ensureLoaded hapart hv).mono (fun _ h => h.2) fun _ _ => id

section
variable {t : ℕ} (hapart : Apart registry) (hv : registry (address domain v) = some t) (hlocal : localPart (address domain v) = v)
  (hF : ∀ x, (F x).loaded = true)
include hapart hv hlocal hF

/-- The other side of an approval, in the session of the target. -/
theorem triple_approveOnline :
    Triple (answer isPrint outside self) (Shows registry domain F) (approveOnline s (address domain v) t) fun _ =>
      Shows registry domain (Function.update F v ((F v).update s.bareJID (turn gainTo true))) := by
  unfold approveOnline
  rw [hlocal]
  dsimp only
  refine triple_bind (triple_lockedRoster hapart hv) fun a => triple_fact fun ha => ?_
  rw [ha]
  have hedit : ((F v).update s.bareJID (turn gainTo true)).loaded = true := hF v
  refine triple_bind (triple_setRoster hapart hv hedit) fun _ => ?_
  refine triple_bind (triple_save hv hedit _) fun _ => ?_
  refine (triple_quiet_has (V := fun _ => True) ?_).post fun _ _ h => h.2.toShows
  have hnotice : Ensures Quiet (sendText t (notice "subscribed" s.bareJID (address domain v))) fun _ => True := quiet_sendText
  have hrest : ∀ n : Handler Unit, Ensures Quiet n (fun _ => True) → Ensures Quiet (unlock t >>= fun _ => n) fun _ => True :=
    fun n hn => ensures_bind.mpr (ensures_unlock.mpr ⟨trivial, hn⟩)
  have hpresence : ∀ p : Data, Ensures Quiet (send t p >>= fun _ =>
      sendText t (notice "subscribed" s.bareJID (address domain v))) fun _ => True :=
    fun p => ensures_bind.mpr (ensures_send.mpr ⟨trivial, hnotice⟩)
  split
  · rw [ensures_bind, ensures_peek]
    refine ⟨trivial, fun other => ensures_seq quiet_push fun _ => hrest _ ?_⟩
    split
    · exact hpresence _
    · exact hnotice
  · refine hrest _ ?_
    split
    · exact hpresence _
    · exact hnotice

/-- The other side of a cancellation, in the session of the target. -/
theorem triple_cancelOnline (type : Str) (change : Item → Item) :
    Triple (answer isPrint outside self) (Shows registry domain F) (cancelOnline s (address domain v) t type change) fun _ =>
      Shows registry domain (Function.update F v ((F v).update s.bareJID change)) := by
  have hrest : Ensures Quiet (unlock t >>= fun _ => sendText t (notice type s.bareJID (address domain v)) >>= fun _ =>
      if s.available then sendText t (unavailableFrom s.fullJID) else pure ()) fun _ => True := by
    rw [ensures_bind, ensures_unlock]
    refine ⟨trivial, ensures_seq quiet_sendText fun _ => ?_⟩
    split
    · exact quiet_sendText
    · trivial
  unfold cancelOnline
  rw [hlocal]
  dsimp only
  refine triple_bind (triple_lockedRoster hapart hv) fun a => triple_fact fun ha => ?_
  rw [ha]
  cases hfind : (F v).find s.bareJID with
  | none =>
      rw [update_of_find_none hfind, Function.update_eq_self]
      exact (triple_quiet_has (V := fun _ => True) hrest).post fun _ _ h => h.2.toShows
  | some item =>
      have hedit : ((F v).update s.bareJID change).loaded = true := hF v
      dsimp only
      refine triple_bind (triple_setRoster hapart hv hedit) fun _ => ?_
      refine triple_bind (triple_save hv hedit _) fun _ => ?_
      refine (triple_quiet_has (V := fun _ => True) ?_).post fun _ _ h => h.2.toShows
      split
      · rw [ensures_bind, ensures_peek]
        exact ⟨trivial, fun other => ensures_seq quiet_push fun _ => hrest⟩
      · exact hrest

end

variable (hb : Between registry domain self s u v dest) (hF : ∀ x, (F x).loaded = true)
include hb hF

theorem triple_handleSubscribe : Triple (answer isPrint outside self) (Shows registry domain F) (handleSubscribe self s dest)
    fun _ => Shows registry domain (exchanged isPrint registry domain .subscribe u v F) := by
  unfold handleSubscribe
  rw [exchanged_subscribe, hb.leads, hb.name]
  refine triple_bind (triple_ensureLoaded hb.apart hb.found) fun a => triple_fact fun ha => ?_
  rw [ha]
  have hedit : (ownEdit .subscribe (address domain v) (F u)).loaded = true := by
    rw [ownEdit_loaded, hF]
  refine triple_bind (triple_setRoster hb.apart hb.found hedit) fun _ => ?_
  refine triple_bind (triple_save hb.found hedit _) fun _ => ?_
  refine (triple_quiet_has (V := fun _ => True) ?_).post fun _ _ h => h.2.toShows
  have hrest : Ensures Quiet (findByBareJID (address domain v) >>= fun session =>
      match session with
      | some t => sendText t (notice "subscribe" s.bareJID (address domain v))
      | none => pure ()) fun _ => True := by
    rw [ensures_bind, ensures_findByBareJID]
    refine ⟨trivial, ?_⟩
    intro session
    cases session with
    | none => trivial
    | some t => exact quiet_sendText
  dsimp only
  split
  · exact ensures_seq quiet_push fun _ => hrest
  · exact hrest

theorem triple_handleSubscribed : Triple (answer isPrint outside self) (Shows registry domain F) (handleSubscribed self s dest)
    fun _ => Shows registry domain (exchanged isPrint registry domain .subscribed u v F) := by
  have hedit : (ownEdit .subscribed (address domain v) (F u)).loaded = true := by
    rw [ownEdit_loaded, hF]
  have hG : ∀ x, (Function.update F u (ownEdit .subscribed (address domain v) (F u)) x).loaded = true := by
    intro x
    by_cases hx : x = u
    · rw [hx, Function.update_self, hedit]
    · rw [Function.update_of_ne hx, hF]
  have hother : Triple (answer isPrint outside self)
      (Has registry domain (Function.update F u (ownEdit .subscribed (address domain v) (F u))) self
        (ownEdit .subscribed (address domain v) (F u)))
      (grantOther s (address domain v)) fun _ => Shows registry domain (exchanged isPrint registry domain .subscribed u v F) := by
    refine triple_bind ((triple_findByBareJID _).mono (fun _ h => h.toShows) fun _ _ => id) fun a => triple_fact fun ha => ?_
    rw [ha]
    cases hv : registry (address domain v) with
    | some t =>
        rw [exchanged_online hv, ← hb.bare]
        exact triple_approveOnline hb.apart hv hb.other hG
    | none =>
        rw [exchanged_offline (by decide) hv, ← hb.bare]
        dsimp only
        rw [hb.other]
        exact triple_modifyDiskRoster hv _
  rw [handleSubscribed_eq, hb.leads, hb.name]
  refine triple_bind (triple_ensureLoaded hb.apart hb.found) fun a => triple_fact fun ha => ?_
  rw [ha]
  refine triple_bind (triple_setRoster hb.apart hb.found hedit) fun _ => ?_
  refine triple_bind (triple_save hb.found hedit _) fun _ => ?_
  split
  · exact triple_bind ((triple_quiet_has quiet_push).post fun _ _ h => h.2) fun _ => hother
  · exact hother

theorem triple_cancelOwn (change : Item → Item) :
    Triple (answer isPrint outside self) (Shows registry domain F) (cancelOwn self s (address domain v) change) fun _ =>
      Shows registry domain (Function.update F u ((F u).update (address domain v) change)) := by
  unfold cancelOwn
  rw [hb.name]
  refine triple_bind (triple_ensureLoaded hb.apart hb.found) fun a => triple_fact fun ha => ?_
  rw [ha]
  cases hfind : (F u).find (address domain v) with
  | none =>
      rw [update_of_find_none hfind, Function.update_eq_self]
      exact triple_pure fun _ h => h.toShows
  | some item =>
      have hedit : ((F u).update (address domain v) change).loaded = true := hF u
      dsimp only
      refine triple_bind (triple_setRoster hb.apart hb.found hedit) fun _ => ?_
      refine triple_bind (triple_save hb.found hedit _) fun _ => ?_
      refine (triple_quiet_has (V := fun _ => True) ?_).post fun _ _ h => h.2.toShows
      split
      · exact quiet_push
      · trivial

theorem triple_cancel {k : Kind} (hk : k ≠ .subscribe) (type : Str) {own : Item → Item}
    (hown : ∀ r, ownEdit k (address domain v) r = r.update (address domain v) own) :
    Triple (answer isPrint outside self) (Shows registry domain F) (cancel self s dest type own (otherTurn k)) fun _ =>
      Shows registry domain (exchanged isPrint registry domain k u v F) := by
  have hG : ∀ x, (Function.update F u ((F u).update (address domain v) own) x).loaded = true := by
    intro x
    by_cases hx : x = u
    · rw [hx, Function.update_self, update_loaded, hF]
    · rw [Function.update_of_ne hx, hF]
  unfold cancel
  rw [hb.leads]
  dsimp only
  refine triple_bind (triple_cancelOwn hb hF own) fun _ => ?_
  refine triple_bind (triple_findByBareJID _) fun a => triple_fact fun ha => ?_
  rw [ha]
  cases hv : registry (address domain v) with
  | some t =>
      rw [exchanged_online hv, hown, ← hb.bare]
      exact triple_cancelOnline hb.apart hv hb.other hG type _
  | none =>
      rw [exchanged_offline hk hv, hown, hb.other, ← hb.bare]
      exact triple_modifyDiskRoster hv _

/-- A subscription stanza of a bound session changes the rosters so. -/
theorem triple_route {node : XmlNode} (k : Kind) (hactive : s.isActive = true) (hname : node.name = ("presence" : Str))
    (htype : node.attr "type" = typeOf k) (hto : node.attr "to" = dest) (host : Str) :
    Triple (answer isPrint outside self) (Shows registry domain F) (GoStanza.route host self s node) fun _ =>
      Shows registry domain (exchanged isPrint registry domain k u v F) := by
  have hroute : GoStanza.route host self s node = GoPresence.handle self s node := by
    have hstate : ¬(s.state = .streamOpened ∧ (!s.authenticated) = true) := by
      intro h
      unfold Session.isActive at hactive
      rw [h.1] at hactive
      cases hactive
    unfold GoStanza.route
    rw [if_neg hstate, if_neg (by rw [hname]; decide), if_neg (by rw [hname]; decide), if_pos hname, if_pos hactive]
  have hdone : ∀ p : Handler Unit, Triple (answer isPrint outside self) (Shows registry domain F) p (fun _ =>
      Shows registry domain (exchanged isPrint registry domain k u v F)) → Triple (answer isPrint outside self)
      (Shows registry domain F) (p >>= fun _ => pure (s, RouteResult.ok)) fun _ =>
      Shows registry domain (exchanged isPrint registry domain k u v F) :=
    fun p hp => triple_bind hp fun _ => triple_pure fun _ => id
  rw [hroute]
  unfold GoPresence.handle
  dsimp only
  rw [htype, hto]
  cases k with
  | subscribe => exact hdone _ (triple_handleSubscribe hb hF)
  | subscribed => exact hdone _ (triple_handleSubscribed hb hF)
  | unsubscribe => exact hdone _ (triple_cancel hb hF (k := .unsubscribe) (by decide) _ fun _ => rfl)
  | unsubscribed => exact hdone _ (triple_cancel hb hF (k := .unsubscribed) (by decide) _ fun _ => rfl)

end

end Xmppd.GoRosterFamilies
