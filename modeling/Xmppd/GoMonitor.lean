import Mathlib.Data.List.Induction
import Xmppd.GoReachable
import Xmppd.Monitors

/-!
# What a goroutine may ask for

The calls of each goroutine are followed by a monitor, which knows the user whose password
the goroutine has shown and the roster lock it has. A goroutine checks no password after one
that was right, makes accounts before it, and changes, deletes, reads stored messages of and
enters the registry for that user only. It has one roster lock at a time. The roster of
another session it writes under its lock, and all it does there is to load it, or to change
the item for the own address in the roster as it is. This holds of the calls of every
goroutine in every run.

The monitor is not in the source.
-/
namespace Xmppd.GoMonitor
open CStrings GoXml Programs Program GoSession GoPresence GoStanza GoWorld GoReachable Monitors

/-- The user whose password was right, whether the goroutine has left the registry, the lock
that is held, and under it the roster as it was last read or written and what was last loaded. -/
structure Standing where
  user : Str := []
  proven : Bool := false
  gone : Bool := false
  held : Option ℕ := none
  seen : Option Roster := none
  fresh : Option Roster := none

def addressOf (domain user : Str) : Str := ({ jidLocal := user, jidDomain := domain } : Session).bareJID

/-- The changes of an item in the roster of another user. -/
def remoteEdits : List (Item → Item) := [turn gainTo true, turn loseFrom false, turn loseTo true]

/-- A roster that is loaded, or changed in the item for an address. -/
def Edits (jid : Str) (old new : Roster) (fresh : Option Roster) : Prop :=
  (old.loaded = false ∧ fresh = some new) ∨ ∃ change ∈ remoteEdits, new = old.update jid change

def monitor (domain : Str) (i : ℕ) : Monitor Call Result Standing where
  allows h
    | .register j => h.proven = true ∧ h.gone = false ∧ j = addressOf domain h.user
    | .lock _ => h.held = none
    | .unlock t => h.held = some t
    | .setRoster t r => t = i ∨ h.held = some t ∧ ∃ old, h.seen = some old ∧ Edits (addressOf domain h.user) old r h.fresh
    | .checkPassword _ _ => h.proven = false ∧ h.held = none
    | .create _ _ => h.proven = false
    | .changePassword u _ => h.proven = true ∧ u = h.user
    | .delete u => h.proven = true ∧ u = h.user
    | .readFile u _ => u = h.user
    | .remove u _ => u = h.user
    | _ => True
  after h c r :=
    match h.held, c, r with
    | none, .lock t, _ => { h with held := some t, seen := none, fresh := none }
    | none, .checkPassword u _, true => { h with user := u, proven := true }
    | none, .unregister, _ => { h with gone := true }
    | none, _, _ => h
    | some _, .unregister, _ => { h with gone := true }
    | some _, .unlock _, _ => { h with held := none, seen := none, fresh := none }
    | some t, .roster u, r => if u = t then { h with seen := some r } else h
    | some _, .load _, r => { h with fresh := some r }
    | some t, .setRoster u r, _ => if u = t then { h with seen := some r, fresh := none } else h
    | some _, _, _ => h

/-- Between two elements no lock is held, and the fields say whose password was right. -/
def shown (s : Session) : Standing := { user := s.jidLocal, proven := s.authenticated }

/-- A session of this server that is in the state after authentication only if it is authenticated. -/
def Regular (domain : Str) (s : Session) : Prop := s.jidDomain = domain ∧ (s.state = .authenticated → s.authenticated = true)

/-- What must hold of the monitor and the session after an element. -/
def Settled (domain : Str) (h : Standing) (x : Session × RouteResult) : Prop := h = shown x.1 ∧ Regular domain x.1

/-- Calls that are allowed when no lock is held and that leave the monitor as it is. -/
def Free (i : ℕ) (s : Session) : Call → Prop
  | .register j => s.authenticated = true ∧ j = s.bareJID
  | .unregister => False
  | .lock _ => False
  | .unlock _ => False
  | .setRoster t _ => t = i
  | .checkPassword _ _ => False
  | .create _ _ => s.authenticated = false
  | .changePassword u _ => s.authenticated = true ∧ u = s.jidLocal
  | .delete u => s.authenticated = true ∧ u = s.jidLocal
  | .readFile u _ => u = s.jidLocal
  | .remove u _ => u = s.jidLocal
  | _ => True

/-- What presence and the binding of a resource leave of a session as it is. -/
def Kept (s s' : Session) : Prop :=
  s'.jidLocal = s.jidLocal ∧ s'.jidDomain = s.jidDomain ∧ s'.authenticated = s.authenticated ∧
    (s'.state = .authenticated → s.state = .authenticated)

section
variable {domain : Str} {i : ℕ} {s : Session} {n : XmlNode}

theorem Kept.refl (s : Session) : Kept s s := ⟨rfl, rfl, rfl, id⟩

theorem Kept.of_standing {s' : Session} (h : GoPresence.standing s' = GoPresence.standing s) : Kept s s' := by
  simp only [GoPresence.standing, Prod.mk.injEq] at h
  exact ⟨h.1, h.2.1, h.2.2.2.2, fun hs' => h.2.2.2.1 ▸ hs'⟩

theorem Kept.settled {x : Session × RouteResult} (h : Kept s x.1) (hd : Regular domain s) :
    Settled domain (shown s) x := by
  obtain ⟨hlocal, hdomain, hauth, hstate⟩ := h
  refine ⟨?_, hdomain.trans hd.1, fun hx => hauth.trans (hd.2 (hstate hx))⟩
  rw [shown, shown, hlocal, hauth]

theorem free_allowed (hd : Regular domain s) {c : Call} (h : Free i s c) :
    (monitor domain i).allows (shown s) c ∧ ∀ r, (monitor domain i).after (shown s) c r = shown s := by
  cases c with
  | register j =>
      refine ⟨⟨h.1, rfl, ?_⟩, fun _ => rfl⟩
      rw [show j = s.bareJID from h.2, ← hd.1]
      rfl
  | unregister => exact h.elim
  | setRoster t r => exact ⟨Or.inl h, fun _ => rfl⟩
  | lock t => exact h.elim
  | unlock t => exact h.elim
  | checkPassword u x => exact h.elim
  | create u x => exact ⟨h, fun _ => rfl⟩
  | changePassword u x => exact ⟨h, fun _ => rfl⟩
  | delete u => exact ⟨h, fun _ => rfl⟩
  | readFile u name => exact ⟨h, fun _ => rfl⟩
  | remove u name => exact ⟨h, fun _ => rfl⟩
  | _ => exact ⟨trivial, fun _ => rfl⟩

/-- A handler whose calls are free. -/
theorem obeys_of_free {A : Type} {Q : A → Prop} {p : Handler A} (hd : Regular domain s) (h : Ensures (Free i s) p Q) :
    (monitor domain i).Obeys (shown s) p fun h a => h = shown s ∧ Q a :=
  Monitor.obeys_of_ensures (fun _ => free_allowed hd) h

/-- An element whose handling makes free calls and keeps the session. -/
theorem settled_of_free {p : Handler (Session × RouteResult)} (hd : Regular domain s)
    (h : Ensures (Free i s) p fun x => Kept s x.1) : (monitor domain i).Obeys (shown s) p (Settled domain) := by
  apply (obeys_of_free hd h).mono
  rintro _ x ⟨rfl, hx⟩
  exact hx.settled hd

/-! ## Parts of handlers -/

section
variable {A : Type} {Q : A → Prop}

theorem call_free {c : Call} {f : Result c → Handler A} (hc : Free i s c) (hf : ∀ r, Ensures (Free i s) (f r) Q) :
    Ensures (Free i s) (perform c >>= f) Q :=
  ensures_seq (p := perform c) ⟨hc, fun _ => trivial⟩ hf

theorem free_text {t : ℕ} (x : Str) : Free i s (.send t (.text x)) := trivial

theorem sendText_free {t : ℕ} {x : Str} {f : Unit → Handler A} (hf : Ensures (Free i s) (f ()) Q) :
    Ensures (Free i s) (sendText t x >>= f) Q :=
  call_free (c := .send t (.text x)) trivial fun _ => hf

theorem refuse_free {errType condition : Str} {f : Unit → Handler A} (hf : Ensures (Free i s) (f ()) Q) :
    Ensures (Free i s) (sendStanzaError i s n errType condition >>= f) Q := sendText_free hf

theorem store_free {user : Str} {r : Roster} {rest : Handler A} (h : Ensures (Free i s) rest Q) :
    Ensures (Free i s) (setRoster i r >>= fun _ => save user r >>= fun _ => rest) Q :=
  call_free (c := .setRoster i r) rfl fun _ => call_free (c := .save user r) trivial fun _ => h

end

theorem ensureLoaded_free {user : Str} : Ensures (Free i s) (ensureLoaded i user) fun _ => True :=
  ensures_ensureLoaded trivial trivial (fun _ => rfl) fun _ => trivial

theorem push_free {t : ℕ} {fullJID : Str} {item : Item} : Ensures (Free i s) (push t fullJID item) fun _ => True :=
  (ensures_push free_text trivial).mpr trivial

theorem pushFound_free {t : ℕ} {fullJID : Str} {found : Option Item} :
    Ensures (Free i s) (match found with
      | some item => push t fullJID item
      | none => pure ()) fun _ => True := by
  cases found with
  | none => trivial
  | some item => exact push_free

theorem modifyDiskRoster_free {user : Str} {f : Roster → Roster} :
    Ensures (Free i s) (modifyDiskRoster user f) fun _ => True :=
  call_free (c := .load user) trivial fun _ => ⟨trivial, fun _ => trivial⟩

theorem cancelOwn_free {targetBare : Str} {change : Item → Item} :
    Ensures (Free i s) (cancelOwn i s targetBare change) fun _ => True := by
  unfold cancelOwn
  apply ensures_seq ensureLoaded_free
  intro r
  split
  · trivial
  · exact store_free pushFound_free

theorem find_free {bare : Str} {g : Option ℕ → Handler A} {Q : A → Prop} (hnone : Ensures (Free i s) (g none) Q)
    (hsome : ∀ t, Ensures (Free i s) (g (some t)) Q) : Ensures (Free i s) (findByBareJID bare >>= g) Q := by
  refine call_free (c := .find bare) trivial ?_
  intro session
  cases session with
  | none => exact hnone
  | some t => exact hsome t

theorem handleSubscribe_free {dest : Str} : Ensures (Free i s) (handleSubscribe i s dest) fun _ => True := by
  have hnotice : ∀ t, Ensures (Free i s) (sendText t (notice "subscribe" s.bareJID (bareJID dest))) fun _ => True :=
    fun t => ensures_sendText.mpr ⟨trivial, trivial⟩
  unfold handleSubscribe
  apply ensures_seq ensureLoaded_free
  intro r
  apply store_free
  dsimp only
  split
  · exact ensures_seq push_free fun _ => find_free trivial hnotice
  · exact find_free trivial hnotice

/-! ## Under the lock of another roster -/

/-- The monitor while the lock of a roster is held, which was last seen as it is given. -/
def locked (s : Session) (t : ℕ) (r : Roster) : Standing := { shown s with held := some t, seen := some r }

/-- Calls that are allowed under the lock and leave the monitor as it is. -/
def Inside : Call → Prop
  | .save _ _ => True
  | .peek _ => True
  | .pushID => True
  | .send _ _ => True
  | _ => False

theorem inside_allowed {t : ℕ} {r : Roster} {c : Call} (h : Inside c) :
    (monitor domain i).allows (locked s t r) c ∧ ∀ x, (monitor domain i).after (locked s t r) c x = locked s t r := by
  cases c with
  | save u x => exact ⟨trivial, fun _ => rfl⟩
  | peek u => exact ⟨trivial, fun _ => rfl⟩
  | pushID => exact ⟨trivial, fun _ => rfl⟩
  | send u d => exact ⟨trivial, fun _ => rfl⟩
  | _ => exact h.elim

section
variable {A B : Type} {Q : Standing → A → Prop} {t : ℕ}

/-- What is done under the lock, once the roster is known. -/
theorem obeys_locked {user : Str} {f : Roster → Handler A}
    (hf : ∀ r, (monitor domain i).Obeys (locked s t r) (f r) Q) :
    (monitor domain i).Obeys (shown s) (lockedRoster t user >>= f) Q := by
  refine ⟨rfl, fun _ => ⟨trivial, fun r => ?_⟩⟩
  have hseen : (monitor domain i).after { shown s with held := some t } (.roster t) r = locked s t r := if_pos rfl
  change (monitor domain i).Obeys ((monitor domain i).after { shown s with held := some t } (.roster t) r)
    ((if r.loaded then pure r else do
      let r ← load user
      setRoster t r
      pure r) >>= f) Q
  rw [hseen]
  split
  · exact hf r
  · next hloaded =>
    refine ⟨trivial, fun x => ⟨Or.inr ⟨rfl, r, rfl, Or.inl ⟨by simpa using hloaded, rfl⟩⟩, fun _ => ?_⟩⟩
    have hset : (monitor domain i).after { locked s t r with fresh := some x } (.setRoster t x) () = locked s t x := if_pos rfl
    change (monitor domain i).Obeys ((monitor domain i).after { locked s t r with fresh := some x } (.setRoster t x) ()) (f x) Q
    rw [hset]
    exact hf x

/-- The change of the item for the own address under the lock. -/
theorem obeys_edit (hd : Regular domain s) {r : Roster} {user : Str} {change : Item → Item} {rest : Handler A}
    (hchange : change ∈ remoteEdits)
    (hrest : (monitor domain i).Obeys (locked s t (r.update s.bareJID change)) rest Q) :
    (monitor domain i).Obeys (locked s t r)
      (setRoster t (r.update s.bareJID change) >>= fun _ => save user (r.update s.bareJID change) >>= fun _ => rest) Q := by
  have haddress : s.bareJID = addressOf domain s.jidLocal := by
    rw [← hd.1]
    rfl
  have hset : (monitor domain i).after (locked s t r) (.setRoster t (r.update s.bareJID change)) () =
      locked s t (r.update s.bareJID change) := if_pos rfl
  refine ⟨Or.inr ⟨rfl, r, rfl, Or.inr ⟨change, hchange, by rw [haddress]; rfl⟩⟩, fun _ => ?_⟩
  change (monitor domain i).Obeys ((monitor domain i).after (locked s t r) (.setRoster t (r.update s.bareJID change)) ())
    (save user (r.update s.bareJID change) >>= fun _ => rest) Q
  rw [hset]
  exact ⟨trivial, fun _ => hrest⟩

theorem obeys_inside {r : Roster} {p : Handler B} {f : B → Handler A} (hp : Ensures Inside p fun _ => True)
    (hf : ∀ a, (monitor domain i).Obeys (locked s t r) (f a) Q) : (monitor domain i).Obeys (locked s t r) (p >>= f) Q := by
  rw [Monitor.obeys_bind]
  apply (Monitor.obeys_of_ensures (fun _ => inside_allowed) hp).mono
  rintro _ a ⟨rfl, -⟩
  exact hf a

theorem push_inside {u : ℕ} {fullJID : Str} {item : Item} : Ensures Inside (push u fullJID item) fun _ => True :=
  (ensures_push (fun _ => trivial) trivial).mpr trivial

/-- The change of an own roster, and what is done where it is stored. -/
theorem obeys_store {user : Str} {r : Roster} {rest : Handler A} (hrest : (monitor domain i).Obeys (shown s) rest Q) :
    (monitor domain i).Obeys (shown s) (setRoster i r >>= fun _ => save user r >>= fun _ => rest) Q :=
  ⟨Or.inl rfl, fun _ => ⟨trivial, fun _ => hrest⟩⟩

end

/-- What is done without a lock after it was given back. -/
theorem obeys_after_unlock (hd : Regular domain s) {t : ℕ} {r : Roster} {rest : Handler Unit}
    (hrest : Ensures (Free i s) rest fun _ => True) :
    (monitor domain i).Obeys (locked s t r) (unlock t >>= fun _ => rest) fun h _ => h = shown s :=
  ⟨rfl, fun _ => (obeys_of_free hd hrest).mono fun _ _ h => h.1⟩

theorem approveOnline_obeys (hd : Regular domain s) {targetBare : Str} {t : ℕ} :
    (monitor domain i).Obeys (shown s) (approveOnline s targetBare t) fun h _ => h = shown s := by
  have hnotice : Ensures (Free i s) (sendText t (notice "subscribed" s.bareJID targetBare)) fun _ => True :=
    ensures_sendText.mpr ⟨trivial, trivial⟩
  have hpresence : ∀ pres, Ensures (Free i s)
      (send t (.node pres) >>= fun _ => sendText t (notice "subscribed" s.bareJID targetBare)) fun _ => True :=
    fun pres => call_free (c := .send t (.node pres)) trivial fun _ => hnotice
  unfold approveOnline
  apply obeys_locked
  intro r
  apply obeys_edit hd (by simp [remoteEdits])
  dsimp only
  split
  · refine obeys_inside (p := peek t) ⟨trivial, fun _ => trivial⟩ fun other => ?_
    refine obeys_inside push_inside fun _ => obeys_after_unlock hd ?_
    split
    · exact hpresence _
    · exact hnotice
  · apply obeys_after_unlock hd
    split
    · exact hpresence _
    · exact hnotice

theorem cancelOnline_obeys (hd : Regular domain s) {targetBare type : Str} {t : ℕ} {change : Item → Item}
    (hchange : change ∈ remoteEdits) :
    (monitor domain i).Obeys (shown s) (cancelOnline s targetBare t type change) fun h _ => h = shown s := by
  have hrest : ∀ r, (monitor domain i).Obeys (locked s t r) (do
      unlock t
      sendText t (notice type s.bareJID targetBare)
      if s.available then sendText t (unavailableFrom s.fullJID) else pure ()) fun h _ => h = shown s := by
    intro r
    apply obeys_after_unlock hd
    apply sendText_free
    split
    · exact ensures_sendText.mpr ⟨trivial, trivial⟩
    · trivial
  unfold cancelOnline
  apply obeys_locked
  intro r
  dsimp only
  split
  · exact hrest r
  · apply obeys_edit hd hchange
    split
    · refine obeys_inside (p := peek t) ⟨trivial, fun _ => trivial⟩ fun other => ?_
      exact obeys_inside push_inside fun _ => hrest _
    · exact hrest _

/-- What is done with the session found for an address. -/
theorem lookup_obeys (hd : Regular domain s) {bare user : Str} {f : Roster → Roster} {g : ℕ → Handler Unit}
    (hg : ∀ t, (monitor domain i).Obeys (shown s) (g t) fun h _ => h = shown s) :
    (monitor domain i).Obeys (shown s) (do
      let session ← findByBareJID bare
      match session with
      | some t => g t
      | none => modifyDiskRoster user f) fun h _ => h = shown s := by
  refine ⟨trivial, ?_⟩
  intro session
  cases session with
  | none => exact (obeys_of_free hd modifyDiskRoster_free).mono fun _ _ h => h.1
  | some t => exact hg t

theorem handleSubscribed_obeys (hd : Regular domain s) {dest : Str} :
    (monitor domain i).Obeys (shown s) (handleSubscribed i s dest) fun h _ => h = shown s := by
  unfold handleSubscribed
  rw [Monitor.obeys_bind]
  apply (obeys_of_free hd ensureLoaded_free).mono
  rintro _ r ⟨rfl, -⟩
  apply obeys_store
  dsimp only
  split
  · rw [Monitor.obeys_bind]
    apply (obeys_of_free hd push_free).mono
    rintro _ _ ⟨rfl, -⟩
    exact lookup_obeys hd fun t => approveOnline_obeys hd
  · exact lookup_obeys hd fun t => approveOnline_obeys hd

theorem cancel_obeys (hd : Regular domain s) {dest type : Str} {own other : Item → Item} (hother : other ∈ remoteEdits) :
    (monitor domain i).Obeys (shown s) (cancel i s dest type own other) fun h _ => h = shown s := by
  unfold cancel
  rw [Monitor.obeys_bind]
  apply (obeys_of_free hd cancelOwn_free).mono
  rintro _ _ ⟨rfl, -⟩
  exact lookup_obeys hd fun t => cancelOnline_obeys hd hother

/-! ## Presence and messages -/

theorem broadcastUnavailable_free : Ensures (Free i s) (broadcastUnavailable i s) (Kept s) :=
  ensures_broadcastUnavailable trivial trivial (fun _ => rfl) (fun _ => trivial) (fun _ => trivial) fun _ =>
    Kept.of_standing

theorem handleAvailable_free : Ensures (Free i s) (handleAvailable i s n) (Kept s) :=
  ensures_handleAvailable (fun _ => trivial) trivial (fun _ => rfl) (fun _ => trivial) (fun _ => trivial)
    (fun _ => trivial) (fun _ => trivial) trivial trivial (fun _ => rfl) (fun _ => rfl) fun _ => Kept.of_standing

/-- A handler of presence that returns the session it was given. -/
theorem unchanged_obeys {p : Handler Unit} (hd : Regular domain s)
    (h : (monitor domain i).Obeys (shown s) p fun h _ => h = shown s) :
    (monitor domain i).Obeys (shown s) (p >>= fun _ => pure (s, RouteResult.ok)) (Settled domain) := by
  rw [Monitor.obeys_bind]
  apply h.mono
  rintro _ _ rfl
  exact (Kept.refl s).settled hd

theorem presence_obeys (hd : Regular domain s) :
    (monitor domain i).Obeys (shown s) (GoPresence.handle i s n) (Settled domain) := by
  unfold GoPresence.handle
  dsimp only
  split
  · apply settled_of_free hd
    exact ensures_bind.mpr handleAvailable_free
  split
  · apply settled_of_free hd
    exact ensures_bind.mpr broadcastUnavailable_free
  split
  · exact unchanged_obeys hd ((obeys_of_free hd handleSubscribe_free).mono fun _ _ h => h.1)
  split
  · exact unchanged_obeys hd (handleSubscribed_obeys hd)
  split
  · exact unchanged_obeys hd (cancel_obeys hd (by simp [remoteEdits]))
  split
  · exact unchanged_obeys hd (cancel_obeys hd (by simp [remoteEdits]))
  · exact (Kept.refl s).settled hd

theorem storeOffline_free {user : Str} : Ensures (Free i s) (GoMessage.storeOffline domain user n) fun _ => True := by
  refine call_free (c := .mkdirAll user) trivial fun _ => call_free (c := .readDir user) trivial fun entries => ?_
  exact call_free (c := .now) trivial fun stamp => ⟨trivial, fun _ => trivial⟩

theorem message_free : Ensures (Free i s) (GoMessage.handle i domain s n) fun _ => True := by
  unfold GoMessage.handle
  dsimp only
  split
  · exact refuse_free trivial
  split
  · exact refuse_free trivial
  refine call_free (c := .userExists _) trivial ?_
  intro found
  split
  · exact refuse_free trivial
  refine call_free (c := .find _) trivial ?_
  intro session
  cases session with
  | some t => exact call_free (c := .send t _) trivial fun _ => trivial
  | none =>
      dsimp only
      split_ifs
      · exact ensures_seq storeOffline_free fun _ => trivial
      · trivial
      · exact ensures_seq storeOffline_free fun _ => trivial
      · trivial

/-! ## Queries -/

theorem registerSet_free {id : Str} : Ensures (Free i s) (registerSet i s n id) fun _ => True := by
  unfold registerSet
  split
  · exact refuse_free trivial
  split
  · split
    · exact refuse_free trivial
    · next hauth =>
      apply sendText_free
      exact call_free (c := .delete s.jidLocal) ⟨by simpa using hauth, rfl⟩ fun _ => trivial
  split
  · exact refuse_free trivial
  split
  · next hauth =>
    refine call_free (c := .create _ _) (by simpa [Free] using hauth) ?_
    intro created
    cases created with
    | ok => exact sendText_free trivial
    | conflict => exact refuse_free trivial
    | invalidUsername => exact refuse_free trivial
    | failed => exact refuse_free trivial
  next hauth =>
  split
  · exact refuse_free trivial
  · next huser =>
    refine call_free (c := .changePassword _ _) ⟨by simpa using hauth, not_not.mp huser⟩ ?_
    intro ok
    split
    · exact sendText_free trivial
    · exact refuse_free trivial

theorem registerHandleIQ_free : Ensures (Free i s) (registerHandleIQ i s n) fun _ => True := by
  unfold registerHandleIQ
  split
  · exact sendText_free trivial
  split
  · exact registerSet_free
  · exact refuse_free trivial

theorem handleRosterIQ_free : Ensures (Free i s) (handleRosterIQ i s n) fun _ => True := by
  unfold handleRosterIQ
  apply ensures_seq ensureLoaded_free
  intro r
  split
  · exact sendText_free trivial
  split
  · split
    · exact refuse_free trivial
    · dsimp only
      split
      · exact refuse_free trivial
      split
      · exact store_free (sendText_free (ensures_seq push_free fun _ => trivial))
      · apply store_free
        apply sendText_free
        split
        · exact ensures_seq push_free fun _ => trivial
        · trivial
  · exact refuse_free trivial

theorem forward_free : Ensures (Free i s) (forward s n) fun _ => True := by
  refine call_free (c := .find _) trivial ?_
  intro session
  cases session with
  | none => trivial
  | some t => exact call_free (c := .send t _) trivial fun _ => trivial

theorem whenActive_free {h : Handler RouteResult} (hh : Ensures (Free i s) h fun _ => True) :
    Ensures (Free i s) (whenActive i s n h) fun x => Kept s x.1 :=
  ensures_whenActive free_text (fun _ => hh.mono (fun _ => id) fun _ _ => Kept.refl s) (Kept.refl s)

/-- The binding of a resource registers under the own address. -/
theorem bindResource_free (ha : s.authenticated = true) {resource id : Str} :
    Ensures (Free i s) (do
      let s ← bindResource i { s with jidResource := resource, state := .bound } id
      pure (s, RouteResult.ok)) fun x => Kept s x.1 := by
  have hkept : Kept s { s with jidResource := resource, state := .bound } := ⟨rfl, rfl, rfl, fun hs => nomatch hs⟩
  refine call_free (c := .register _) ⟨ha, rfl⟩ ?_
  intro old
  cases old with
  | none => exact ⟨trivial, fun _ => hkept⟩
  | some t => exact ⟨trivial, fun _ => ⟨trivial, fun _ => ⟨trivial, fun _ => hkept⟩⟩⟩

theorem handleBind_free (hd : Regular domain s) (hgate : ¬(s.state = .streamOpened ∧ s.authenticated = false)) :
    Ensures (Free i s) (handleBind i s n) fun x => Kept s x.1 := by
  unfold handleBind
  split
  · exact refuse_free (Kept.refl s)
  next hstate =>
  have ha : s.authenticated = true := by
    by_cases hs : s.state = .authenticated
    · exact hd.2 hs
    · have ho : s.state = .streamOpened := by
        by_contra ho
        exact hstate ⟨hs, ho⟩
      simpa [ho] using hgate
  split
  · exact call_free (c := .generateID 8) trivial fun resource => bindResource_free ha
  · exact bindResource_free ha

theorem handleIQ_free (hd : Regular domain s) (hgate : ¬(s.state = .streamOpened ∧ s.authenticated = false)) :
    Ensures (Free i s) (handleIQ domain i s n) fun x => Kept s x.1 := by
  unfold handleIQ
  dsimp only
  split
  · split
    · exact Kept.refl s
    · exact ensures_seq forward_free fun _ => Kept.refl s
  split
  · exact handleBind_free hd hgate
  split
  · exact (ensures_handleSessionIQ free_text).mpr ⟨rfl, rfl, rfl, fun hs => nomatch hs⟩
  split
  · exact whenActive_free handleRosterIQ_free
  split
  · exact ensures_seq registerHandleIQ_free fun _ => Kept.refl s
  split
  · exact whenActive_free ((ensures_discoReply free_text).mpr trivial)
  split
  · exact whenActive_free ((ensures_discoReply free_text).mpr trivial)
  split
  · apply ensures_seq forward_free
    intro sent
    split
    · exact Kept.refl s
    · exact refuse_free (Kept.refl s)
  · exact refuse_free (Kept.refl s)

/-! ## Elements -/

/-- A password is checked before any was right. -/
theorem handleSASL_obeys (hd : Regular domain s) (hs : s.authenticated = false) :
    (monitor domain i).Obeys (shown s) (handleSASL i s n) (Settled domain) := by
  unfold handleSASL
  split
  · exact settled_of_free hd (sendText_free (Kept.refl s))
  split
  · exact settled_of_free hd (sendText_free (Kept.refl s))
  · refine ⟨⟨hs, rfl⟩, ?_⟩
    intro ok
    cases ok with
    | true => exact ⟨trivial, fun _ => ⟨rfl, hd.1, fun _ => rfl⟩⟩
    | false => exact ⟨trivial, fun _ => (Kept.refl s).settled hd⟩

theorem routeBeforeAuth_obeys (hd : Regular domain s) (hs : s.authenticated = false) :
    (monitor domain i).Obeys (shown s) (routeBeforeAuth i s n) (Settled domain) := by
  unfold routeBeforeAuth
  split
  · exact handleSASL_obeys hd hs
  apply settled_of_free hd
  split
  · split
    · exact ensures_seq registerHandleIQ_free fun _ => Kept.refl s
    · exact refuse_free (Kept.refl s)
  · exact sendText_free (Kept.refl s)

theorem dispatch_obeys (hd : Regular domain s) :
    (monitor domain i).Obeys (shown s) (dispatch domain i s n) (Settled domain) := by
  unfold dispatch
  split
  · exact settled_of_free hd (ensures_handleOpen free_text trivial (Kept.refl s) ⟨rfl, rfl, rfl, fun hs => nomatch hs⟩)
  unfold route
  split
  · next hgate => exact routeBeforeAuth_obeys hd (by simpa using hgate.2)
  next hgate =>
  split
  · exact settled_of_free hd (handleIQ_free hd (by simpa using hgate))
  split
  · apply settled_of_free hd
    split
    · exact ensures_seq message_free fun _ => Kept.refl s
    · exact sendText_free (Kept.refl s)
  split
  · split
    · exact presence_obeys hd
    · exact settled_of_free hd (sendText_free (Kept.refl s))
  · exact settled_of_free hd (sendText_free (Kept.refl s))

/-- Calls that are allowed after the goroutine has left the registry. -/
def Parting (i : ℕ) : Call → Prop
  | .roster _ => True
  | .load _ => True
  | .setRoster t _ => t = i
  | .find _ => True
  | .send _ _ => True
  | .close _ => True
  | _ => False

theorem parting_allowed {c : Call} (h : Parting i c) :
    (monitor domain i).allows { shown s with gone := true } c ∧
      ∀ x, (monitor domain i).after { shown s with gone := true } c x = { shown s with gone := true } := by
  cases c with
  | roster t => exact ⟨trivial, fun _ => rfl⟩
  | load user => exact ⟨trivial, fun _ => rfl⟩
  | setRoster t r => exact ⟨Or.inl h, fun _ => rfl⟩
  | find jid => exact ⟨trivial, fun _ => rfl⟩
  | send t d => exact ⟨trivial, fun _ => rfl⟩
  | close t => exact ⟨trivial, fun _ => rfl⟩
  | _ => exact h.elim

theorem leave_obeys : (monitor domain i).Obeys (shown s) (leave i s) fun h _ => h.held = none := by
  refine ⟨trivial, fun _ => ?_⟩
  have hrest : Ensures (Parting i) (broadcastUnavailable i s >>= fun _ => close i) fun _ => True := by
    rw [ensures_bind]
    apply ensures_broadcastUnavailable trivial trivial (fun _ => rfl) (fun _ => trivial) fun _ => trivial
    exact fun _ _ => ⟨trivial, fun _ => trivial⟩
  apply (Monitor.obeys_of_ensures (fun _ => parting_allowed) hrest).mono
  rintro _ _ ⟨rfl, -⟩
  rfl

end

/-! ## What the monitor knows -/

section
variable {domain : Str} {i : ℕ}

theorem after_roster {h : Standing} {u v : ℕ} (hh : h.held = some u) {x : Roster} :
    (monitor domain i).after h (.roster v) x = if v = u then { h with seen := some x } else h := by
  obtain ⟨user, proven, gone, held, seen, fresh⟩ := h
  cases hh
  rfl

theorem after_setRoster {h : Standing} {u v : ℕ} (hh : h.held = some u) {x : Roster} :
    (monitor domain i).after h (.setRoster v x) () = if v = u then { h with seen := some x, fresh := none } else h := by
  obtain ⟨user, proven, gone, held, seen, fresh⟩ := h
  cases hh
  rfl

/-- What is known of the user and of the registry changes by a right password and by leaving. -/
theorem after_known (domain : Str) (i : ℕ) (h : Standing) (c : Call) (x : Result c) :
    (((monitor domain i).after h c x).proven = h.proven ∧ ((monitor domain i).after h c x).user = h.user ∨
      ∃ password, (⟨c, x⟩ : (c : Call) × Result c) =
        ⟨.checkPassword ((monitor domain i).after h c x).user password, true⟩) ∧
    (c ≠ .unregister → ((monitor domain i).after h c x).gone = h.gone) := by
  cases hh : h.held with
  | none =>
      obtain ⟨user, proven, gone, held, seen, fresh⟩ := h
      cases hh
      cases c with
      | checkPassword u password =>
          cases x with
          | true => exact ⟨Or.inr ⟨password, rfl⟩, fun _ => rfl⟩
          | false => exact ⟨Or.inl ⟨rfl, rfl⟩, fun _ => rfl⟩
      | unregister => exact ⟨Or.inl ⟨rfl, rfl⟩, fun hc => absurd rfl hc⟩
      | _ => exact ⟨Or.inl ⟨rfl, rfl⟩, fun _ => rfl⟩
  | some u =>
      cases c with
      | roster v =>
          rw [after_roster hh]
          split <;> exact ⟨Or.inl ⟨rfl, rfl⟩, fun _ => rfl⟩
      | setRoster v y =>
          change (((monitor domain i).after h (.setRoster v y) ()).proven = h.proven ∧ _ ∨ _) ∧
            (_ → ((monitor domain i).after h (.setRoster v y) ()).gone = h.gone)
          rw [after_setRoster hh]
          split <;> exact ⟨Or.inl ⟨rfl, rfl⟩, fun _ => rfl⟩
      | unregister =>
          obtain ⟨user, proven, gone, held, seen, fresh⟩ := h
          cases hh
          exact ⟨Or.inl ⟨rfl, rfl⟩, fun hc => absurd rfl hc⟩
      | _ =>
          obtain ⟨user, proven, gone, held, seen, fresh⟩ := h
          cases hh
          exact ⟨Or.inl ⟨rfl, rfl⟩, fun _ => rfl⟩

theorem after_unregister (h : Standing) : ((monitor domain i).after h .unregister ()).gone = true := by
  obtain ⟨user, proven, gone, held, seen, fresh⟩ := h
  cases held <;> rfl

/-- The user of a goroutine is one whose password it has shown. -/
theorem final_shown (domain : Str) (i : ℕ) (xs : List ((c : Call) × Result c)) :
    (((monitor domain i).final {} xs).proven = false ∧ ((monitor domain i).final {} xs).user = []) ∨
      ∃ password, ⟨.checkPassword ((monitor domain i).final {} xs).user password, true⟩ ∈ xs := by
  induction xs using List.reverseRecOn with
  | nil => exact Or.inl ⟨rfl, rfl⟩
  | append_singleton xs x ih =>
      obtain ⟨c, r⟩ := x
      rw [Monitor.final_append]
      rcases (after_known domain i ((monitor domain i).final {} xs) c r).1 with ⟨hproven, huser⟩ | ⟨password, he⟩
      · rw [hproven, huser]
        exact ih.imp_right fun ⟨password, hmem⟩ => ⟨password, List.mem_append_left _ hmem⟩
      · right
        refine ⟨password, ?_⟩
        rw [← he]
        exact List.mem_append_right _ (List.mem_singleton_self _)

/-- A goroutine that has left the registry is known to have. -/
theorem final_gone {xs : List ((c : Call) × Result c)} (h : ⟨.unregister, ()⟩ ∈ xs) :
    ((monitor domain i).final {} xs).gone = true := by
  induction xs using List.reverseRecOn with
  | nil => cases h
  | append_singleton xs x ih =>
      obtain ⟨c, r⟩ := x
      rw [Monitor.final_append]
      by_cases hc : c = .unregister
      · subst hc
        exact after_unregister _
      · rw [(after_known domain i _ c r).2 hc]
        apply ih
        rcases List.mem_append.mp h with h | h
        · exact h
        · cases List.mem_singleton.mp h
          exact absurd rfl hc

end

/-! ## Runs -/

/-- The call a goroutine is about to make. -/
def pending : Thread → Option Call
  | .handling _ (.call c _) => some c
  | .leaving (.call c _) => some c
  | _ => none

/-- The call of a goroutine at an event. -/
def requested (t : Thread) : Event → Option Call
  | .call => pending t
  | _ => none

section
variable (isPrint : Char → Bool) (outside : ℕ → (c : Call) → Result c) (domain : Str)

/-- The call a goroutine makes at an event, with its answer. -/
def made (m : Machine) (i : ℕ) (e : Event) : List ((c : Call) × Result c) :=
  match e, m.threads i with
  | .call, .handling _ (.call c _) => [⟨c, (answer isPrint outside i c m.world).1⟩]
  | .call, .leaving (.call c _) => [⟨c, (answer isPrint outside i c m.world).1⟩]
  | _, _ => []

/-- The calls of one goroutine in a run. -/
def calls (i : ℕ) : Machine → List (ℕ × Event) → List ((c : Call) × Result c)
  | _, [] => []
  | m, x :: xs =>
      (if x.1 = i then made isPrint outside m i x.2 else []) ++ calls i (step isPrint outside domain m x.1 x.2) xs

end

/-- What is left for a goroutine to do is allowed. -/
def Watched (domain : Str) (i : ℕ) (h : Standing) : Thread → Prop
  | .reading s => h = shown s ∧ Regular domain s
  | .handling _ p => (monitor domain i).Obeys h p (Settled domain)
  | .leaving p => (monitor domain i).Obeys h p fun h _ => h.held = none

section
variable {isPrint : Char → Bool} {outside : ℕ → (c : Call) → Result c} {domain : Str} {m : Machine} {i : ℕ} {h : Standing}

theorem step_threads_other {k : ℕ} (e : Event) (hk : i ≠ k) :
    (step isPrint outside domain m k e).threads i = m.threads i := by
  unfold step
  split
  · exact Function.update_of_ne hk _ _
  · exact Function.update_of_ne hk _ _
  · exact Function.update_of_ne hk _ _
  · exact Function.update_of_ne hk _ _
  · exact Function.update_of_ne hk _ _
  · rfl

theorem watched_new (i : ℕ) (domain : Str) : Watched domain i {} (.reading { jidDomain := domain }) :=
  ⟨rfl, rfl, fun hs => nomatch hs⟩

theorem watched_afterElement {x : Session × RouteResult} (hx : Settled domain h x) : Watched domain i h (afterElement i x) := by
  unfold afterElement
  split
  · rw [hx.1]
    exact leave_obeys
  · exact hx

theorem goto_self {t : Thread} : (m.goto i t).threads i = t := Function.update_self _ _ _

theorem perform_self {c : Call} {t : Result c → Thread} :
    (m.perform isPrint outside i c t).threads i = t (answer isPrint outside i c m.world).1 := Function.update_self _ _ _

/-- A goroutine makes a call where its program is at one. -/
theorem made_of_call {c : Call} {next : Result c → Handler (Session × RouteResult)} {s : Session}
    (ht : m.threads i = .handling s (.call c next)) :
    made isPrint outside m i .call = [⟨c, (answer isPrint outside i c m.world).1⟩] := by
  unfold made
  simp only [ht]

theorem made_of_leaving {c : Call} {next : Result c → Handler Unit} (ht : m.threads i = .leaving (.call c next)) :
    made isPrint outside m i .call = [⟨c, (answer isPrint outside i c m.world).1⟩] := by
  unfold made
  simp only [ht]

/-- One event of the goroutine: the call it makes is allowed. -/
theorem step_watched (isPrint : Char → Bool) (outside : ℕ → (c : Call) → Result c) (hw : Watched domain i h (m.threads i))
    (e : Event) :
    (monitor domain i).Accepts h (made isPrint outside m i e) ∧
      Watched domain i ((monitor domain i).final h (made isPrint outside m i e))
        ((step isPrint outside domain m i e).threads i) := by
  unfold step
  split
  · next n s ht =>
    rw [ht] at hw
    refine ⟨trivial, ?_⟩
    rw [goto_self, hw.1]
    exact dispatch_obeys hw.2
  · next s ht =>
    rw [ht] at hw
    refine ⟨trivial, ?_⟩
    rw [goto_self, hw.1]
    exact leave_obeys
  · next s c next ht =>
    rw [ht] at hw
    rw [made_of_call ht]
    refine ⟨⟨hw.1, trivial⟩, ?_⟩
    rw [perform_self]
    exact hw.2 _
  · next s x ht =>
    rw [ht] at hw
    unfold made
    simp only [ht]
    refine ⟨trivial, ?_⟩
    rw [goto_self]
    exact watched_afterElement hw
  · next c next ht =>
    rw [ht] at hw
    rw [made_of_leaving ht]
    refine ⟨⟨hw.1, trivial⟩, ?_⟩
    rw [perform_self]
    exact hw.2 _
  · next e _ _ _ _ hcall _ hleave =>
    have hmade : made isPrint outside m i e = [] := by
      unfold made
      split
      · exact (hcall _ _ _ rfl ‹_›).elim
      · exact (hleave _ _ rfl ‹_›).elim
      · rfl
    rw [hmade]
    exact ⟨trivial, hw⟩

/-- An event makes the call that was requested. -/
theorem made_eq {m : Machine} {i : ℕ} {e : Event} :
    made isPrint outside m i e =
      (requested (m.threads i) e).toList.map fun c => ⟨c, (answer isPrint outside i c m.world).1⟩ := by
  unfold made requested pending
  cases e with
  | read n => rfl
  | fail => rfl
  | call =>
      cases m.threads i with
      | reading s => rfl
      | handling s p => cases p <;> rfl
      | leaving p => cases p <;> rfl

theorem step_world {m : Machine} {e : Event} :
    (GoReachable.step isPrint outside domain m i e).world =
      match requested (m.threads i) e with
      | some c => (answer isPrint outside i c m.world).2
      | none => m.world := by
  unfold GoReachable.step requested pending
  cases e with
  | read n => cases m.threads i <;> rfl
  | fail => cases m.threads i <;> rfl
  | call =>
      cases m.threads i with
      | reading s => rfl
      | handling s p => cases p <;> rfl
      | leaving p => cases p <;> rfl

theorem calls_append (i : ℕ) (xs ys : List (ℕ × Event)) : ∀ m, calls isPrint outside domain i m (xs ++ ys) =
    calls isPrint outside domain i m xs ++ calls isPrint outside domain i (GoReachable.run isPrint outside domain m xs) ys := by
  induction xs with
  | nil => exact fun _ => rfl
  | cons x xs ih =>
      intro m
      rw [List.cons_append, calls, calls, ih, List.append_assoc]
      rfl

theorem run_watched (events : List (ℕ × Event)) : ∀ (m : Machine) (h : Standing), Watched domain i h (m.threads i) →
    (monitor domain i).Accepts h (calls isPrint outside domain i m events) := by
  induction events with
  | nil => exact fun _ _ _ => trivial
  | cons x xs ih =>
      intro m h hw
      rw [calls, Monitor.accepts_append]
      split
      · next hx =>
        rw [hx]
        obtain ⟨hmade, hnext⟩ := step_watched isPrint outside hw x.2
        exact ⟨hmade, ih _ _ hnext⟩
      · next hx =>
        refine ⟨trivial, ih _ _ ?_⟩
        rw [step_threads_other x.2 (Ne.symm hx)]
        exact hw

end

end Xmppd.GoMonitor
