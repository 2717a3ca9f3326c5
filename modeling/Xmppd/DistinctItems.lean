import Xmppd.Entries
import Xmppd.KeptRosters
import Xmppd.RosterSets

/-!
# What a roster represents

The items of a roster are to be found by their addresses, so no two of them may
have the same one. An item is added where the search finds none, and is stored
with its address cut to the array. The addresses of subscription stanzas are in
arrays of that size themselves; the address of a roster set is not, and may be
searched for in full and stored cut, next to an item that has the cut address.
-/
namespace Xmppd.DistinctItems
open CStrings FileTree LibXml Util ServerState User Roster Message Presence Stanza EventLoop
open RosterItems Entries Coherence Confinement KeyedLists KeptRosters RosterSets Installation

/-- Within bounds, with distinct addresses by which the items are found, and with one
of the four subscriptions each. -/
structure Represents (r : Roster) : Prop where
  count : r.items.length ≤ maxRosterItems
  distinct : (r.items.map address).Nodup
  regular : ∀ item ∈ r.items, Regular item
  found : ∀ item ∈ r.items, rosterFindItem r item.jid.str = some item

/-- What the handlers keep of it. -/
structure WellKept (items : List RosterItem) : Prop where
  distinct : (items.map address).Nodup
  regular : ∀ item ∈ items, Regular item

theorem wellKept_nil : WellKept [] := ⟨List.nodup_nil, List.forall_mem_nil _⟩

theorem WellKept.represents {r : Roster} (h : WellKept r.items) : Represents r :=
  ⟨r.bound, h.distinct, h.regular, fun _ hi => find_of_mem address r.items h.distinct hi⟩

/-! ## Changes -/

section
variable {r : Roster} (h : WellKept r.items)
include h

theorem wellKept_edit {f : RosterItem → RosterItem} (hjid : KeepsJid f) (hf : ∀ item, Regular item → Regular (f item))
    (bare : Str) : WellKept (rosterEdit r bare f).items := by
  constructor
  · have hkey : ∀ item, address (f item) = address item := fun item => congrArg Buf.str (hjid item)
    have hitems : (rosterEdit r bare f).items = alter address bare f r.items := editItem_eq f r.items
    rw [hitems, map_alter address r.items hkey]
    exact h.distinct
  · intro item hi
    rcases mem_editItem hi with hi | ⟨y, hy, -, rfl⟩
    · exact h.regular item hi
    · exact hf y (h.regular y hy)

theorem wellKept_moves {f : RosterItem → RosterItem} {g : Grants.Link → Grants.Link} (hf : Moves f g) (bare : Str) :
    WellKept (rosterEdit r bare f).items := wellKept_edit h hf.jid hf.regular bare

/-- An item is added beside others with other addresses. -/
theorem wellKept_add {jid : Str} {name subscription : Option Str} {ask : Bool} (hn : rosterFindItem r jid = none)
    (hnew : Regular (newItem jid name subscription ask))
    (hcut : r.items.length < maxRosterItems → rosterFindItem r (jid.take 511) = none) :
    WellKept (rosterAddItem r jid name subscription ask).items := by
  by_cases hb : r.items.length < maxRosterItems
  · rw [rosterAddItem_items hn hb]
    refine ⟨nodup_append address r.items h.distinct (hcut hb), ?_⟩
    exact List.forall_mem_append.mpr ⟨h.regular, List.forall_mem_singleton.mpr hnew⟩
  · rw [rosterAddItem_full hn hb]
    exact h

/-- What fits its array is not cut. -/
theorem wellKept_addFitting {jid : Str} {name subscription : Option Str} {ask : Bool} (hn : rosterFindItem r jid = none)
    (hnew : Regular (newItem jid name subscription ask)) (hfits : jid.length < 512) :
    WellKept (rosterAddItem r jid name subscription ask).items := by
  refine wellKept_add h hn hnew fun _ => ?_
  rw [List.take_of_length_le (by omega)]
  exact hn

theorem wellKept_requestItem (bare : Buf 512) : WellKept (requestItem bare.str r).items := by
  unfold requestItem
  split
  · exact wellKept_moves h (moves_setAsk true) bare.str
  · next hn => exact wellKept_addFitting h hn (Or.inl rfl) bare.fits

theorem wellKept_approveItem (bare : Buf 512) : WellKept (approveItem bare.str r).items := by
  unfold approveItem
  split
  · exact wellKept_moves h moves_grantFrom bare.str
  · next hn => exact wellKept_addFitting h hn (Or.inr (Or.inr (Or.inl rfl))) bare.fits

theorem wellKept_rosterRemoveItem (jid : Str) : WellKept (rosterRemoveItem r jid).items :=
  ⟨h.distinct.sublist (List.eraseP_sublist.map address), fun item hi => h.regular item (List.mem_of_mem_eraseP hi)⟩

theorem wellKept_updateItem {jid : Str} (name : Option Str)
    (hcut : 512 ≤ jid.length → r.items.length < maxRosterItems → rosterFindItem r (jid.take 511) = none) :
    WellKept (updateItem jid name r).items := by
  unfold updateItem
  split
  · next e he =>
    have hregular := h.regular e (List.mem_of_find?_eq_some he)
    have hkept : snprintf 16 e.subscription.str = e.subscription := snprintf_buf _
    unfold rosterAddItem
    rw [he]
    refine wellKept_edit h ?_ ?_ jid
    · exact fun _ => rfl
    · intro item _
      unfold Regular
      dsimp only [Option.map_some, Option.getD_some]
      rw [hkept]
      exact hregular
  · next hn =>
    by_cases hlong : 512 ≤ jid.length
    · exact wellKept_add h hn (Or.inl rfl) (hcut hlong)
    · exact wellKept_addFitting h hn (Or.inl rfl) (by omega)

end

theorem closed_wellKept : Closed WellKept where
  approve _ bare h := wellKept_approveItem h bare
  grantTo _ bare h := wellKept_moves h (moves_grantTo.ask false) bare
  dropTo _ bare h := wellKept_moves h (moves_dropTo.ask false) bare
  dropFrom _ bare h := wellKept_moves h moves_dropFrom bare

/-! ## Runs -/

/-- A stanza that is no roster set by which an address is cut to one that is there. -/
def CutFresh (srv : Server) (i : ℕ) (_ : Oracle) (stanza : Node) : Prop :=
  stanza.name = "iq" → (srv.sess i).isActive = true → childNs stanza = rosterNs → stanza.prop "type" = "set" →
    ∀ item ∈ setItem stanza, item.getProp "subscription" ≠ some "remove" → ∀ jid ∈ item.getProp "jid", 512 ≤ jid.length →
      (ownRoster srv i).items.length < maxRosterItems → rosterFindItem (ownRoster srv i) (jid.take 511) = none

instance decidableCutFresh (srv : Server) (i : ℕ) (o : Oracle) (stanza : Node) : Decidable (CutFresh srv i o stanza) :=
  inferInstanceAs (Decidable (_ → _ → _ → _ → ∀ item ∈ (_ : Option Node), _ → ∀ jid ∈ (_ : Option Str), _ → _ → _))

theorem wellKept_rosterChange {srv : Server} {i : ℕ} {o : Oracle} {stanza : Node} (h : WellKept (ownRoster srv i).items)
    (hname : stanza.name = "iq") (hactive : (srv.sess i).isActive = true) (hroster : childNs stanza = rosterNs)
    (hcut : CutFresh srv i o stanza) : WellKept (rosterChange stanza (ownRoster srv i)).items := by
  unfold rosterChange
  split
  · next htype =>
    split
    · exact h
    · next item hitem =>
      split
      · exact h
      · next jid hjid =>
        split
        · exact wellKept_rosterRemoveItem h jid
        · next hstays =>
          exact wellKept_updateItem h _ (hcut hname hactive hroster htype item hitem hstays jid hjid)
  · exact h

theorem allowed_of_cutFresh {srv : Server} {i : ℕ} {o : Oracle} {stanza : Node} (h : AllRosters WellKept srv)
    (hcut : CutFresh srv i o stanza) : Allowed WellKept srv i o stanza where
  request _ _ _ := wellKept_requestItem (h.ownRoster i) _
  set hname hactive hroster := wellKept_rosterChange (h.ownRoster i) hname hactive hroster hcut

instance decidableRegular (item : RosterItem) : Decidable (Regular item) := inferInstanceAs (Decidable (_ ∨ _ ∨ _ ∨ _))

instance decidableWellKept (items : List RosterItem) : Decidable (WellKept items) :=
  decidable_of_iff ((items.map address).Nodup ∧ ∀ item ∈ items, Regular item) ⟨fun h => ⟨h.1, h.2⟩, fun h => ⟨h.1, h.2⟩⟩

/-- The rosters among the entries of a tree. -/
def keptEntry : Entry Content → Bool
  | .dir => true
  | .file c => decide (WellKept (loadContent (some c)).items)

/-- The request of alice that adds a contact. -/
def addContact (jid : Str) : List Step := chunk 0 (rosterSet [attr "jid" jid])

/-- Alice adds bob and asks for his presence. -/
def befriended : List Step :=
  .accept :: login 0 alicePlain ++ addContact "bob@localhost" ++
    chunk 0 (emptyStanza "presence" [attr "type" "subscribe", attr "to" "bob@localhost"])

/-- An address of 600 bytes. -/
def longAddress : Str := List.replicate 600 'a'

/-- Alice adds a contact with such an address, twice. -/
def addedTwice : List Step := .accept :: login 0 alicePlain ++ addContact longAddress ++ addContact longAddress

end Xmppd.DistinctItems
