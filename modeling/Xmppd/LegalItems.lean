import Xmppd.Entries
import Xmppd.KeptRosters

/-!
# Legal subscription states

An item is in one of six states: a request may be pending only where there is no
subscription to the contact yet. The handlers change the word and the mark of the
request one after the other. All of them lead from legal states to legal states
but one: a request is marked whatever the word is.
-/
namespace Xmppd.LegalItems
open CStrings FileTree LibXml Util ServerState User Roster Message Presence Streams Auth Stanza EventLoop
open RosterStore RosterItems Entries Coherence Confinement KeptRosters Installation

/-- The subscription, and whether a request is pending. -/
def legalStates : List (Str × Bool) :=
  [("none", false), ("none", true), ("to", false), ("from", false), ("from", true), ("both", false)]

def Legal (item : RosterItem) : Prop := (item.subscription.str, item.askSubscribe) ∈ legalStates

def AllLegal (items : List RosterItem) : Prop := ∀ item ∈ items, Legal item

/-- The items of every cached roster and of every roster file. -/
structure LegalRosters (srv : Server) : Prop where
  cached : ∀ s ∈ srv.sessions, AllLegal s.roster.items
  stored : ∀ p c, srv.files.content p = some c → AllLegal (loadContent (some c)).items

/-! ## Changes of one item -/

/-- A change of the word, with a change of the mark, is known by what it does to the six states. -/
theorem legal_moveSub {a a' b b' : Str} {m : Bool → Bool}
    (hm : ∀ x ∈ legalStates, (if x.1 = a then a'.take 15 else if x.1 = b then b'.take 15 else x.1, m x.2) ∈ legalStates)
    {item : RosterItem} (h : Legal item) : ((moveSub a a' b b' item).subscription.str, m item.askSubscribe) ∈ legalStates := by
  rw [moveSub_str]
  exact hm _ h

section
variable {item : RosterItem} (h : Legal item)
include h

theorem legal_grantFrom : Legal (grantFrom item) := by
  unfold Legal grantFrom
  rw [moveSub_ask]
  exact legal_moveSub (m := id) (by decide) h

theorem legal_dropFrom : Legal (dropFrom item) := by
  unfold Legal dropFrom
  rw [moveSub_ask]
  exact legal_moveSub (m := id) (by decide) h

theorem legal_grantTo : Legal ((setAsk false ∘ grantTo) item) := legal_moveSub (m := fun _ => false) (by decide) h

theorem legal_dropTo : Legal ((setAsk false ∘ dropTo) item) := legal_moveSub (m := fun _ => false) (by decide) h

/-- The mark is set where there is no subscription to the contact. -/
theorem legal_setAsk (hto : subHasTo item.subscription.str = false) :
    Legal (setAsk true item) := by
  have hstates : ∀ x ∈ legalStates, subHasTo x.1 = false → (x.1, true) ∈ legalStates := by decide
  exact hstates _ h hto

end

/-! ## Changes of a roster -/

section
variable {r : Roster} {jid : Str} {f : RosterItem → RosterItem}

/-- The item that is changed is the one that is found. -/
theorem mem_rosterEdit {x : RosterItem} (h : x ∈ (rosterEdit r jid f).items) :
    x ∈ r.items ∨ ∃ y, rosterFindItem r jid = some y ∧ x = f y := by
  unfold rosterFindItem
  unfold rosterEdit at h
  dsimp only at h
  generalize r.items = items at h ⊢
  induction items with
  | nil => cases h
  | cons i is ih =>
      unfold editItem at h
      split at h
      · next hi =>
        rcases List.mem_cons.mp h with rfl | h
        · exact Or.inr ⟨i, by simp [hi], rfl⟩
        · exact Or.inl (List.mem_cons_of_mem _ h)
      · next hi =>
        rcases List.mem_cons.mp h with rfl | h
        · exact Or.inl List.mem_cons_self
        · rcases ih h with h | ⟨y, hy, hx⟩
          · exact Or.inl (List.mem_cons_of_mem _ h)
          · exact Or.inr ⟨y, by simpa [hi] using hy, hx⟩

theorem allLegal_rosterEdit (h : AllLegal r.items) (hf : ∀ y, rosterFindItem r jid = some y → Legal (f y)) :
    AllLegal (rosterEdit r jid f).items := by
  intro x hx
  rcases mem_rosterEdit hx with hx | ⟨y, hy, rfl⟩
  · exact h x hx
  · exact hf y hy

/-- A change that is legal for every legal item. -/
theorem allLegal_edit (h : AllLegal r.items) (hf : ∀ y, Legal y → Legal (f y)) : AllLegal (rosterEdit r jid f).items :=
  allLegal_rosterEdit h fun y hy => hf y (h y (List.mem_of_find?_eq_some hy))

theorem allLegal_add {name subscription : Option Str} {ask : Bool} (h : AllLegal r.items)
    (hn : rosterFindItem r jid = none) (hnew : Legal (newItem jid name subscription ask)) :
    AllLegal (rosterAddItem r jid name subscription ask).items := by
  by_cases hb : r.items.length < maxRosterItems
  · rw [rosterAddItem_items hn hb]
    exact List.forall_mem_append.mpr ⟨h, List.forall_mem_singleton.mpr hnew⟩
  · rw [rosterAddItem_full hn hb]
    exact h

theorem allLegal_requestItem (h : AllLegal r.items)
    (hto : ∀ y, rosterFindItem r jid = some y → subHasTo y.subscription.str = false) : AllLegal (requestItem jid r).items := by
  unfold requestItem
  split
  · exact allLegal_rosterEdit h fun y hy => legal_setAsk (h y (List.mem_of_find?_eq_some hy)) (hto y hy)
  · next hn => exact allLegal_add h hn (by decide : (("none" : Str).take 15, true) ∈ legalStates)

theorem allLegal_approveItem (h : AllLegal r.items) : AllLegal (approveItem jid r).items := by
  unfold approveItem
  split
  · exact allLegal_edit h fun y hy => legal_grantFrom hy
  · next hn => exact allLegal_add h hn (by decide : (("from" : Str).take 15, false) ∈ legalStates)

theorem allLegal_updateItem (h : AllLegal r.items) (name : Option Str) : AllLegal (updateItem jid name r).items := by
  unfold updateItem
  split
  · next e he =>
    unfold rosterAddItem
    rw [he]
    apply allLegal_rosterEdit h
    intro y hy
    have hkept : (snprintf 16 e.subscription.str) = e.subscription := snprintf_buf _
    unfold Legal
    dsimp only [Option.map_some, Option.getD_some]
    rw [hkept]
    exact h e (List.mem_of_find?_eq_some he)
  · next hn => exact allLegal_add h hn (by decide : (("none" : Str).take 15, false) ∈ legalStates)

theorem allLegal_rosterRemoveItem (h : AllLegal r.items) : AllLegal (rosterRemoveItem r jid).items :=
  fun x hx => h x (List.mem_of_mem_eraseP hx)

end

/-! ## Runs -/

theorem closed_allLegal : Closed AllLegal where
  approve _ _ h := allLegal_approveItem h
  grantTo _ _ h := allLegal_edit h fun _ hy => legal_grantTo hy
  dropTo _ _ h := allLegal_edit h fun _ hy => legal_dropTo hy
  dropFrom _ _ h := allLegal_edit h fun _ hy => legal_dropFrom hy

theorem allLegal_rosterChange {r : Roster} (h : AllLegal r.items) (stanza : Node) : AllLegal (rosterChange stanza r).items := by
  unfold rosterChange
  split
  · split
    · exact h
    · split
      · exact h
      · split
        · exact allLegal_rosterRemoveItem h
        · exact allLegal_updateItem h _
  · exact h

/-- A stanza that is no request for a subscription the sender has. -/
def AsksUnheld (srv : Server) (i : ℕ) (o : Oracle) (stanza : Node) : Prop :=
  stanza.name = "presence" → (srv.sess i).isActive = true → stanza.prop "type" = "subscribe" →
    ∀ item ∈ rosterFindItem (ownRoster srv i) (jidParse (o.stack 0) (stanza.prop "to")).jid.bare.str,
      subHasTo item.subscription.str = false

instance decidableAsksUnheld (srv : Server) (i : ℕ) (o : Oracle) (stanza : Node) : Decidable (AsksUnheld srv i o stanza) :=
  inferInstanceAs (Decidable (_ → _ → _ → ∀ item ∈ (_ : Option RosterItem), _))

/-- Among legal rosters such a stanza makes legal changes. -/
theorem allowed_of_asks {srv : Server} {i : ℕ} {o : Oracle} {stanza : Node} (h : AllRosters AllLegal srv)
    (hasks : AsksUnheld srv i o stanza) : Allowed AllLegal srv i o stanza where
  request hname hactive htype := allLegal_requestItem (h.ownRoster i) (hasks hname hactive htype)
  set _ _ _ := allLegal_rosterChange (h.ownRoster i) stanza

instance decidableLegal (item : RosterItem) : Decidable (Legal item) := inferInstanceAs (Decidable (_ ∈ legalStates))

instance decidableAllLegal (items : List RosterItem) : Decidable (AllLegal items) :=
  inferInstanceAs (Decidable (∀ item ∈ items, Legal item))

/-- The rosters among the entries of a tree. -/
def legalEntry : Entry Content → Bool
  | .dir => true
  | .file c => decide (AllLegal (loadContent (some c)).items)

def subscriptionStanza (i : ℕ) (type dest : Str) : List Step :=
  chunk i (emptyStanza "presence" [attr "type" type, attr "to" dest])

/-- Alice asks bob for a subscription, and bob grants it. -/
def granted : List Step :=
  [.accept, .accept] ++ login 0 alicePlain ++ login 1 bobPlain ++ subscriptionStanza 0 "subscribe" "bob@localhost" ++
    subscriptionStanza 1 "subscribed" "alice@localhost"

end Xmppd.LegalItems
