import Xmppd.GoStanza
import Xmppd.GoWorld
import Xmppd.KeyedLists

/-!
# Acknowledged roster sets of the Go server

The handler of a roster set is run on the shared state. The roster is a list of
any length and its strings are not cut. The one thing that is lost is a name that
is given and empty, since an attribute that is absent reads as the empty string.
-/
namespace Xmppd.GoRosterSets
open CStrings GoXml Programs Program GoSession GoStanza GoWorld KeyedLists

/-- The value of an attribute that the element carries. -/
def carried (n : XmlNode) (name : Str) : Option Str := (n.attrs.find? fun a => a.name = name).map XmlAttr.value

/-- An item with the given name, if there is one, which otherwise is the item that
was there, or one without a subscription. -/
structure Merged (name : Option Str) (before : Option Item) (item : Item) : Prop where
  named : ∀ n, name = some n → item.name = n
  unnamed : name = none → ∀ e, before = some e → item.name = e.name
  kept : ∀ e, before = some e → item.subscription = e.subscription ∧ item.askSubscribe = e.askSubscribe
  fresh : before = none → item.subscription = ("none" : Str) ∧ item.askSubscribe = false

/-- The change that the item of a set asks for is made, and no two items share a JID. -/
def Done (item : XmlNode) (r r' : Roster) : Prop :=
  (if item.attr "subscription" = ("remove" : Str) then Lacks Item.jid (item.attr "jid") r.items r'.items
    else Holds Item.jid (item.attr "jid") (Merged (carried item "name") (r.find (item.attr "jid"))) r.items r'.items) ∧
  (r'.items.map Item.jid).Nodup

/-- The roster that the session works on. -/
def cached (w : World) (self : ℕ) (s : Session) : Roster :=
  if (w.rosters self).loaded then w.rosters self else GoRosterFile.load (w.rosterFiles s.jidLocal)

/-! ## The list -/

section
variable {r : Roster} {jid name : Str}

theorem update_items (f : Item → Item) : (r.update jid f).items = alter Item.jid jid f r.items := by
  unfold Roster.update
  dsimp only
  induction r.items with
  | nil => rfl
  | cons i is ih =>
      unfold Roster.update.go alter
      rw [ih]

/-- What an update makes of the item found. -/
def renamed (name : Str) (e item : Item) : Item :=
  { item with
    name := if name = [] then item.name else name
    subscription := if e.subscription = [] then item.subscription else e.subscription
    askSubscribe := e.askSubscribe }

theorem jid_renamed (e item : Item) : (renamed name e item).jid = item.jid := rfl

theorem setRosterItem_found {e : Item} (h : r.find jid = some e) :
    (setRosterItem r jid name).items = alter Item.jid jid (renamed name e) r.items := by
  unfold setRosterItem Roster.addOrUpdate
  rw [h]
  exact update_items _

theorem setRosterItem_new (h : r.find jid = none) :
    (setRosterItem r jid name).items = r.items ++ [⟨jid, name, "none", false⟩] := by
  unfold setRosterItem Roster.addOrUpdate
  rw [h]
  rfl

end

/-- An attribute that is absent reads as the empty string. -/
theorem attr_carried (n : XmlNode) (name : Str) : n.attr name = (carried n name).getD [] := rfl

theorem merged_renamed (given : Option Str) (e : Item) :
    Merged given (some e) (renamed (given.getD []) e e) ↔ (given = some [] → e.name = []) := by
  constructor
  · intro h hgiven
    have hname := h.named [] hgiven
    rw [hgiven] at hname
    exact hname
  · intro h
    refine ⟨?_, ?_, ?_, fun hnone => by cases hnone⟩
    · intro n hn
      rw [hn, renamed, Option.getD_some]
      by_cases hempty : n = []
      · rw [if_pos hempty, hempty]
        exact h (by rw [hn, hempty])
      · rw [if_neg hempty]
    · intro hn e' he
      rw [hn, ← Option.some.inj he]
      rfl
    · intro e' he
      rw [← Option.some.inj he, renamed]
      refine ⟨?_, rfl⟩
      by_cases hempty : e.subscription = []
      · rw [if_pos hempty]
      · rw [if_neg hempty]

theorem merged_new (given : Option Str) (jid : Str) : Merged given none ⟨jid, given.getD [], "none", false⟩ := by
  refine ⟨?_, ?_, ?_, fun _ => ⟨rfl, rfl⟩⟩
  · intro n hn
    rw [hn]
    rfl
  · intro _ e he
    cases he
  · intro e he
    cases he

section
variable {item : XmlNode} {r : Roster} (hdistinct : (r.items.map Item.jid).Nodup)
include hdistinct

theorem done_remove (hremove : item.attr "subscription" = ("remove" : Str)) : Done item r (r.remove (item.attr "jid")) := by
  refine ⟨?_, hdistinct.sublist (List.eraseP_sublist.map Item.jid)⟩
  rw [if_pos hremove]
  exact (lacks_eraseP Item.jid r.items).mpr (length_under Item.jid r.items hdistinct)

/-- A set that finds no item, or names the one it finds, is done. -/
theorem done_update_iff (hremove : item.attr "subscription" ≠ ("remove" : Str)) :
    Done item r (setRosterItem r (item.attr "jid") (item.attr "name")) ↔
      (carried item "name" = some [] → ∀ e, r.find (item.attr "jid") = some e → e.name = []) := by
  unfold Done
  rw [if_neg hremove]
  cases hfind : r.find (item.attr "jid") with
  | some e =>
      rw [setRosterItem_found hfind, holds_alter Item.jid r.items (jid_renamed e) hfind,
        and_iff_right (length_under Item.jid r.items hdistinct), map_alter Item.jid r.items (jid_renamed e),
        and_iff_left hdistinct, attr_carried item "name", merged_renamed]
      simp
  | none =>
      rw [setRosterItem_new hfind, holds_append Item.jid r.items hfind rfl]
      refine iff_of_true ⟨merged_new _ _, nodup_append Item.jid r.items hdistinct hfind⟩ ?_
      intro _ e he
      cases he

end

/-! ## The handler -/

section
variable (isPrint : Char → Bool) (outside : ℕ → (c : Call) → Result c) (self : ℕ) (s : Session) (w : World) {node : XmlNode}

/-- The handler, run to its end: the calls it makes and the state it leaves. -/
def handled (node : XmlNode) : RouteResult × World × List Call :=
  (handleRosterIQ self s node).exec (answer isPrint outside self) w

/-- The roster is loaded first. -/
theorem exec_ensureLoaded :
    ((ensureLoaded self s.jidLocal).exec (answer isPrint outside self) w).1 = cached w self s := by
  unfold ensureLoaded cached
  rw [exec_bind]
  change (exec _ (if (w.rosters self).loaded then _ else _) _).1 = _
  split
  · rfl
  · rfl

variable (hset : node.attr "type" = ("set" : Str)) {item : XmlNode} (hitem : setItem node = some item) (hjid : item.attr "jid" ≠ [])
include hset hitem hjid

/-- A set with an item and a JID is answered with a result, and leaves the changed roster. -/
theorem handled_set :
    Call.send self (.text (emptyResult (node.attr "id"))) ∈ (handled isPrint outside self s w node).2.2 ∧
      (handled isPrint outside self s w node).2.1.rosters self =
        if item.attr "subscription" = ("remove" : Str) then (cached w self s).remove (item.attr "jid")
        else setRosterItem (cached w self s) (item.attr "jid") (item.attr "name") := by
  have hget : ¬node.attr "type" = ("get" : Str) := by
    rw [hset]
    decide
  unfold handled handleRosterIQ
  rw [exec_bind, exec_ensureLoaded]
  generalize ((ensureLoaded self s.jidLocal).exec (answer isPrint outside self) w) = x
  dsimp only
  rw [if_neg hget, if_pos hset, hitem]
  dsimp only
  rw [if_neg hjid]
  split
  · refine ⟨List.mem_append_right _ ?_, ?_⟩
    · exact List.mem_cons_of_mem _ (List.mem_cons_of_mem _ List.mem_cons_self)
    · exact Function.update_self self _ _
  · split
    · refine ⟨List.mem_append_right _ ?_, ?_⟩
      · exact List.mem_cons_of_mem _ (List.mem_cons_of_mem _ List.mem_cons_self)
      · exact Function.update_self self _ _
    · refine ⟨List.mem_append_right _ ?_, ?_⟩
      · exact List.mem_cons_of_mem _ (List.mem_cons_of_mem _ List.mem_cons_self)
      · exact Function.update_self self _ _

end

/-- What a roster set acknowledges is done exactly if it does not give an empty name to
an item that has one. -/
theorem answered_done_iff (isPrint : Char → Bool) (outside : ℕ → (c : Call) → Result c) (self : ℕ) (s : Session) (w : World)
    {node item : XmlNode} (hset : node.attr "type" = ("set" : Str)) (hitem : setItem node = some item)
    (hjid : item.attr "jid" ≠ []) (hdistinct : ((cached w self s).items.map Item.jid).Nodup) :
    (Call.send self (.text (emptyResult (node.attr "id"))) ∈ (handled isPrint outside self s w node).2.2 →
        Done item (cached w self s) ((handled isPrint outside self s w node).2.1.rosters self)) ↔
      (item.attr "subscription" ≠ ("remove" : Str) → carried item "name" = some [] →
        ∀ e, (cached w self s).find (item.attr "jid") = some e → e.name = []) := by
  obtain ⟨hsent, hroster⟩ := handled_set isPrint outside self s w hset hitem hjid
  rw [forall_prop_of_true hsent, hroster]
  by_cases hremove : item.attr "subscription" = ("remove" : Str)
  · rw [if_pos hremove]
    exact iff_of_true (done_remove hdistinct hremove) fun hno => absurd hremove hno
  · rw [if_neg hremove, forall_prop_of_true hremove]
    exact done_update_iff hdistinct hremove

/-! ## An empty name -/

def alice : Session := { jidLocal := "alice", jidDomain := "x", jidResource := "r", state := .sessionActive, authenticated := true }

/-- Alice has one contact. -/
def withBob : World where
  registry := fun _ => none
  jid := fun _ => []
  rosters := fun _ => { items := [⟨"bob@x", "Bob", "both", false⟩], loaded := true }
  rosterFiles := fun _ => none
  offline := fun _ => none
  closed := fun _ => false
  log := []
  reading := fun _ => none
  replaced := fun _ => false
  clock := 0

def bobItem (name : Str) : XmlNode := .mk "item" nsRoster [⟨"jid", [], "bob@x"⟩, ⟨"name", [], name⟩] [] []

/-- The request that names bob. -/
def nameBob (name : Str) : XmlNode :=
  .mk "iq" [] [⟨"type", [], "set"⟩, ⟨"id", [], "r1"⟩] [.mk "query" nsRoster [] [bobItem name] []] []

theorem bob_renamed :
    Call.send 0 (.text (emptyResult "r1")) ∈
        (handled GoRosterFile.printable plainOutside 0 alice withBob (nameBob "Robert")).2.2 ∧
      Done (bobItem "Robert") (cached withBob 0 alice)
        ((handled GoRosterFile.printable plainOutside 0 alice withBob (nameBob "Robert")).2.1.rosters 0) := by
  have hset : (nameBob "Robert").attr "type" = ("set" : Str) := by decide
  have hjid : (bobItem "Robert").attr "jid" ≠ [] := by decide
  have hsent := (handled_set GoRosterFile.printable plainOutside 0 alice withBob hset rfl hjid).1
  refine ⟨hsent, (answered_done_iff GoRosterFile.printable plainOutside 0 alice withBob hset rfl hjid (by decide)).mpr ?_ hsent⟩
  intro _ hname
  revert hname
  decide

/-- Bob keeps his name when he is given an empty one. -/
theorem empty_name_dropped :
    ¬∀ (isPrint : Char → Bool) (outside : ℕ → (c : Call) → Result c) (self : ℕ) (s : Session) (w : World) (node item : XmlNode),
      node.attr "type" = ("set" : Str) → setItem node = some item → item.attr "jid" ≠ [] →
      ((cached w self s).items.map Item.jid).Nodup →
      Call.send self (.text (emptyResult (node.attr "id"))) ∈ (handled isPrint outside self s w node).2.2 →
      Done item (cached w self s) ((handled isPrint outside self s w node).2.1.rosters self) := by
  intro h
  have hset : (nameBob []).attr "type" = ("set" : Str) := by decide
  have hjid : (bobItem []).attr "jid" ≠ [] := by decide
  have hdone := h GoRosterFile.printable plainOutside 0 alice withBob (nameBob []) (bobItem []) hset rfl hjid (by decide)
  have hname := (answered_done_iff GoRosterFile.printable plainOutside 0 alice withBob hset rfl hjid (by decide)).mp hdone
    (by decide) (by decide) ⟨"bob@x", "Bob", "both", false⟩ (by decide)
  revert hname
  decide

end Xmppd.GoRosterSets
