import Xmppd.KeyedLists
import Xmppd.MessageFate
import Xmppd.RosterPushes

/-!
# Acknowledged roster sets

A roster set with an item that has an address is answered with a result, whatever
has become of the item. What the handler does to the roster is a change in a list
searched by the address: the item found is changed, or taken out, or a new one is
appended if there is room. The arrays cut what they are given, the search does not.
-/
namespace Xmppd.RosterSets
open CStrings FileTree LibXml Util ServerState User Roster Message Presence Frames RosterStore RosterItems KeyedLists
open Confinement Installation MessageFate RosterPushes

/-- The address that an item is found by. -/
def address (item : RosterItem) : Str := item.jid.str

/-- The item that a roster set names. -/
def setItem (stanza : Node) : Option Node := (stanza.findChild "query").bind fun q => q.findChild "item"

/-- The reply that is queued is a result. -/
def Acknowledged (i : ℕ) (a b : Server) : Prop :=
  ∃ reply rest, (b.sess i).out = (a.sess i).out ++ .stanza reply :: rest ∧ reply.name = ("iq" : Str) ∧ reply.prop "type" = ("result" : Str)

/-- An item with the given name, if there is one, which otherwise is the item that
was there, or one without a subscription. -/
structure Merged (name : Option Str) (before : Option RosterItem) (item : RosterItem) : Prop where
  named : ∀ n, name = some n → item.name.str = n
  unnamed : name = none → ∀ e, before = some e → item.name = e.name
  kept : ∀ e, before = some e → item.subscription = e.subscription ∧ item.askSubscribe = e.askSubscribe
  fresh : before = none → item.subscription.str = ("none" : Str) ∧ item.askSubscribe = false

/-- The change is made, and a push of the item follows the reply. -/
def Done (item : Node) (jid : Str) (i : ℕ) (a b : Server) : Prop :=
  ∃ reply id pushed,
    (b.sess i).out = (a.sess i).out ++ [.stanza reply, .stanza (pushNode id (a.sess i).fullJid.str pushed)] ∧
      pushed.jid.str = jid ∧
      if item.getProp "subscription" = some "remove" then
        pushed.subscription.str = ("remove" : Str) ∧ Lacks address jid (ownRoster a i).items (b.sess i).roster.items
      else
        pushed ∈ (b.sess i).roster.items ∧
          Holds address jid (Merged (item.getProp "name") (rosterFindItem (ownRoster a i) jid))
            (ownRoster a i).items (b.sess i).roster.items

/-- What is acknowledged is done. -/
def Honest (stanza : Node) (i : ℕ) (a b : Server) : Prop :=
  Acknowledged i a b →
    ∃ item jid, setItem stanza = some item ∧ item.getProp "jid" = some jid ∧ Done item jid i a b

/-- The address fits its array and occurs at most once; for an item that stays, the
name fits its array and there is the item or room for it. -/
structure Fits (item : Node) (jid : Str) (r : Roster) : Prop where
  fits : jid.length < 512
  once : (under address jid r.items).length ≤ 1
  name : item.getProp "subscription" ≠ some "remove" → ∀ n, item.getProp "name" = some n → n.length < 256
  room : item.getProp "subscription" ≠ some "remove" → rosterFindItem r jid = none → r.items.length < maxRosterItems

/-! ## The list -/

section
variable {r : Roster} {jid : Str} {name : Option Str}

theorem snprintf_whole {n : ℕ} [NeZero n] {s : Str} : (snprintf n s).str = s ↔ s.length < n := by
  constructor
  · intro h
    rw [← h]
    exact (snprintf n s).fits
  · exact snprintf_fits

theorem editItem_eq (f : RosterItem → RosterItem) (items : List RosterItem) : editItem jid f items = alter address jid f items := by
  induction items with
  | nil => rfl
  | cons i is ih =>
      unfold editItem alter
      rw [ih]
      rfl

theorem lacks_remove : Lacks address jid r.items (rosterRemoveItem r jid).items ↔ (under address jid r.items).length ≤ 1 :=
  lacks_eraseP address r.items

/-- What an update makes of the item found. -/
def renamed (name : Option Str) (e item : RosterItem) : RosterItem :=
  { item with
    name := (name.map (snprintf 256)).getD item.name
    subscription := snprintf 16 e.subscription.str
    askSubscribe := e.askSubscribe }

theorem address_renamed (e item : RosterItem) : address (renamed name e item) = address item := rfl

theorem updateItem_found {e : RosterItem} (h : rosterFindItem r jid = some e) :
    (updateItem jid name r).items = alter address jid (renamed name e) r.items := by
  unfold updateItem rosterAddItem
  rw [h]
  exact editItem_eq _ _

theorem updateItem_new (h : rosterFindItem r jid = none) (hb : r.items.length < maxRosterItems) :
    (updateItem jid name r).items = r.items ++ [newItem jid name (some "none") false] := by
  unfold updateItem
  rw [h]
  exact rosterAddItem_items h hb

theorem updateItem_full (h : rosterFindItem r jid = none) (hb : ¬r.items.length < maxRosterItems) :
    updateItem jid name r = r := by
  unfold updateItem
  rw [h]
  exact rosterAddItem_full h hb

theorem merged_renamed (e : RosterItem) : Merged name (some e) (renamed name e e) ↔ ∀ n, name = some n → n.length < 256 := by
  constructor
  · intro h n hn
    have hname := h.named n hn
    rw [renamed, hn] at hname
    exact snprintf_whole.mp hname
  · intro h
    refine ⟨?_, ?_, ?_, ?_⟩
    · intro n hn
      rw [renamed, hn]
      exact snprintf_whole.mpr (h n hn)
    · intro hn e' he
      rw [renamed, hn, ← Option.some.inj he]
      rfl
    · intro e' he
      rw [← Option.some.inj he]
      exact ⟨snprintf_buf _, rfl⟩
    · intro h
      cases h

theorem merged_new : Merged name none (newItem jid name (some "none") false) ↔ ∀ n, name = some n → n.length < 256 := by
  constructor
  · intro h n hn
    have hname := h.named n hn
    rw [newItem, hn] at hname
    exact snprintf_whole.mp hname
  · intro h
    refine ⟨?_, ?_, ?_, ?_⟩
    · intro n hn
      rw [newItem, hn]
      exact snprintf_whole.mpr (h n hn)
    · intro _ e he
      cases he
    · intro e he
      cases he
    · exact fun _ => ⟨rfl, rfl⟩

theorem find_address {e : RosterItem} (h : rosterFindItem r jid = some e) : e.jid.str = jid := by
  unfold rosterFindItem at h
  simpa using List.find?_some h

/-- No stored address is too long for its array. -/
theorem find_long (h : ¬jid.length < 512) : rosterFindItem r jid = none := by
  unfold rosterFindItem
  rw [List.find?_eq_none]
  intro x _ hx
  refine h ?_
  rw [← of_decide_eq_true hx]
  exact x.jid.fits

/-- The item is merged in exactly if address and name fit, the address was there at
most once and there was room. -/
theorem holds_update :
    Holds address jid (Merged name (rosterFindItem r jid)) r.items (updateItem jid name r).items ↔
      jid.length < 512 ∧ (under address jid r.items).length ≤ 1 ∧ (∀ n, name = some n → n.length < 256) ∧
        (rosterFindItem r jid = none → r.items.length < maxRosterItems) := by
  cases hfind : rosterFindItem r jid with
  | some e =>
      have hjid : jid.length < 512 := by
        by_contra hlong
        rw [find_long hlong] at hfind
        cases hfind
      rw [updateItem_found hfind, holds_alter address r.items (address_renamed e) hfind, merged_renamed, and_iff_right hjid]
      simp
  | none =>
      have honce : (under address jid r.items).length ≤ 1 := by
        rw [(under_eq_nil address r.items).mpr hfind]
        exact Nat.zero_le 1
      rw [and_iff_right honce, forall_prop_of_true (Eq.refl (none : Option RosterItem))]
      by_cases hb : r.items.length < maxRosterItems
      · rw [updateItem_new hfind hb, and_iff_left hb]
        by_cases hjid : jid.length < 512
        · have hnew : address (newItem jid name (some "none") false) = jid := snprintf_whole.mpr hjid
          rw [holds_append address r.items hfind hnew, merged_new, and_iff_right hjid]
        · refine iff_of_false ?_ fun h => hjid h.1
          have hadded : (updateItem jid name r).items = r.items ++ [newItem jid name (some "none") false] := updateItem_new hfind hb
          rw [← hadded]
          exact not_holds address _ (find_long hjid)
      · rw [updateItem_full hfind hb]
        exact iff_of_false (not_holds address _ hfind) fun h => hb h.2.2

end

/-! ## The handler -/

/-- The end of an update. -/
def pushFound (srv : Server) (i : ℕ) (id jid : Str) : Server :=
  match rosterFindItem (srv.sess i).roster jid with
  | some e => rosterPush srv i id e
  | none => srv

section
variable {srv : Server} {i : ℕ} (hl : srv.Live i) (o : Oracle) {stanza : Node}
include hl

theorem live_edited (f : Roster → Roster) : (rosterSave (modifyRoster (ensureRoster srv i) i f) i).Live i :=
  (((steady_ensureRoster srv i).trans (steady_editSave _ i f)).live i).mpr hl

theorem out_replied (f : Roster → Roster) (reply : Node) :
    (((rosterSave (modifyRoster (ensureRoster srv i) i f) i).stanzaSend i reply).sess i).out =
      (srv.sess i).out ++ [.stanza reply] := by
  rw [out_stanzaSend (live_edited hl f), out_editSave, out_ensureRoster]

theorem out_pushed (f : Roster → Roster) (reply : Node) (id : Str) (item : RosterItem) :
    ((rosterPush ((rosterSave (modifyRoster (ensureRoster srv i) i f) i).stanzaSend i reply) i id item).sess i).out =
      (srv.sess i).out ++ [.stanza reply, .stanza (pushNode id (srv.sess i).fullJid.str item)] := by
  have hsteady := ((steady_ensureRoster srv i).trans (steady_editSave _ i f)).trans (.stanzaSend _ i reply)
  have hfull := hsteady.get Session.fullJid (fun _ => rfl) i
  unfold rosterPush
  rw [out_stanzaSend ((hsteady.live i).mpr hl), out_replied hl, hfull, List.append_assoc]
  rfl

theorem roster_replied (f : Roster → Roster) (reply : Node) :
    (((rosterSave (modifyRoster (ensureRoster srv i) i f) i).stanzaSend i reply).sess i).roster = f (ownRoster srv i) := by
  rw [(Silent.stanzaSend _ i reply).get Session.roster (fun _ => rfl) i, roster_ensured hl]

theorem roster_pushed (f : Roster → Roster) (reply : Node) (id : Str) (item : RosterItem) :
    ((rosterPush ((rosterSave (modifyRoster (ensureRoster srv i) i f) i).stanzaSend i reply) i id item).sess i).roster =
      f (ownRoster srv i) := by
  rw [(silent_rosterPush _ i id item).get Session.roster (fun _ => rfl) i, roster_replied hl]

omit hl in
theorem pushNode_inj {id id' dest dest' : Str} {x y : RosterItem} (h : pushNode id dest x = pushNode id' dest' y) : x = y := by
  have hquery := (List.cons.inj (Node.element.inj h).2.2.2).1
  have hitem : nodeOfItem rosterNs x = nodeOfItem rosterNs y := (List.cons.inj (Node.element.inj hquery).2.2.2).1
  rw [← itemOfNode_nodeOfItem rosterNs x, hitem, itemOfNode_nodeOfItem]

omit hl in
/-- An error is no result. -/
theorem not_acknowledged {a : Server} {type condition : Str} (h : (a.sess i).out = (srv.sess i).out) (ha : a.Live i) :
    ¬Acknowledged i srv (a.stanzaSendError i stanza type condition) := by
  intro hack
  obtain ⟨reply, rest, hout, -, htype⟩ := hack
  rw [Server.stanzaSendError, out_stanzaSend ha, h] at hout
  have hreply := (List.cons.inj (List.append_cancel_left hout)).1
  rw [← Out.stanza.inj hreply, Node.prop, elem, List.append_assoc, List.singleton_append, getProp_cons_self] at htype
  revert htype
  decide

omit hl in
theorem acknowledged {b : Server} {rest : List Out}
    (h : (b.sess i).out = (srv.sess i).out ++ .stanza (resultIq stanza [] []) :: rest) : Acknowledged i srv b := by
  refine ⟨_, _, h, rfl, ?_⟩
  rw [Node.prop, resultIq, elem, List.append_assoc, List.singleton_append, getProp_cons_self]
  rfl

variable (hset : stanza.prop "type" = ("set" : Str))
include hset

/-- A set without an item or without an address is refused. -/
theorem refused (h : ∀ item jid, setItem stanza = some item → item.getProp "jid" = some jid → False) :
    ¬Acknowledged i srv (rosterHandleIq srv i o stanza) := by
  have hget : ¬stanza.prop "type" = ("get" : Str) := by
    rw [hset]
    decide
  have hlive := ((steady_ensureRoster srv i).live i).mpr hl
  unfold rosterHandleIq
  dsimp only
  rw [if_neg hget, if_pos hset]
  split
  · exact not_acknowledged (out_ensureRoster srv i i) hlive
  · next item hitem =>
    split
    · exact not_acknowledged (out_ensureRoster srv i i) hlive
    · next jid hjid => exact (h item jid hitem hjid).elim

variable {item : Node} {jid : Str} (hitem : setItem stanza = some item) (hjid : item.getProp "jid" = some jid)
include hitem hjid

omit hl in
theorem handled_remove (hremove : item.getProp "subscription" = some "remove") :
    rosterHandleIq srv i o stanza =
      rosterPush ((rosterSave (modifyRoster (ensureRoster srv i) i fun r => rosterRemoveItem r jid) i).stanzaSend i
        (resultIq stanza [] [])) i (o.ident 0) ⟨snprintf 512 jid, Buf.empty, snprintf 16 "remove", false⟩ := by
  have hget : ¬stanza.prop "type" = ("get" : Str) := by
    rw [hset]
    decide
  unfold setItem at hitem
  unfold rosterHandleIq
  dsimp only
  rw [if_neg hget, if_pos hset, hitem]
  dsimp only
  rw [hjid]
  exact if_pos hremove

omit hl in
theorem handled_update (hremove : item.getProp "subscription" ≠ some "remove") :
    rosterHandleIq srv i o stanza =
      pushFound ((rosterSave (modifyRoster (ensureRoster srv i) i (updateItem jid (item.getProp "name"))) i).stanzaSend i
        (resultIq stanza [] [])) i (o.ident 0) jid := by
  have hget : ¬stanza.prop "type" = ("get" : Str) := by
    rw [hset]
    decide
  unfold setItem at hitem
  unfold rosterHandleIq
  dsimp only
  rw [if_neg hget, if_pos hset, hitem]
  dsimp only
  rw [hjid]
  exact if_neg hremove

theorem acknowledged_set : Acknowledged i srv (rosterHandleIq srv i o stanza) := by
  by_cases hremove : item.getProp "subscription" = some "remove"
  · rw [handled_remove o hset hitem hjid hremove]
    exact acknowledged (out_pushed hl _ _ _ _)
  · rw [handled_update o hset hitem hjid hremove]
    unfold pushFound
    split
    · exact acknowledged (out_pushed hl _ _ _ _)
    · exact acknowledged (out_replied hl _ _)

theorem done_remove_iff (hremove : item.getProp "subscription" = some "remove") :
    Done item jid i srv (rosterHandleIq srv i o stanza) ↔ Fits item jid (ownRoster srv i) := by
  have hfits : Fits item jid (ownRoster srv i) ↔
      jid.length < 512 ∧ (under address jid (ownRoster srv i).items).length ≤ 1 :=
    ⟨fun h => ⟨h.fits, h.once⟩, fun h => ⟨h.1, h.2, fun hno => absurd hremove hno, fun hno => absurd hremove hno⟩⟩
  unfold Done
  rw [handled_remove o hset hitem hjid hremove, out_pushed hl, roster_pushed hl, hfits, ← lacks_remove]
  constructor
  · intro h
    obtain ⟨reply, id, pushed, hout, haddress, hdone⟩ := h
    rw [if_pos hremove] at hdone
    have hlast := (List.cons.inj (List.cons.inj (List.append_cancel_left hout)).2).1
    have hpushed := pushNode_inj (Out.stanza.inj hlast)
    rw [← hpushed] at haddress
    exact ⟨snprintf_whole.mp haddress, hdone.2⟩
  · intro h
    refine ⟨_, _, _, rfl, snprintf_whole.mpr h.1, ?_⟩
    rw [if_pos hremove]
    exact ⟨rfl, h.2⟩

theorem done_update_iff (hremove : item.getProp "subscription" ≠ some "remove") :
    Done item jid i srv (rosterHandleIq srv i o stanza) ↔ Fits item jid (ownRoster srv i) := by
  have hfits : Fits item jid (ownRoster srv i) ↔
      jid.length < 512 ∧ (under address jid (ownRoster srv i).items).length ≤ 1 ∧
        (∀ n, item.getProp "name" = some n → n.length < 256) ∧
        (rosterFindItem (ownRoster srv i) jid = none → (ownRoster srv i).items.length < maxRosterItems) :=
    ⟨fun h => ⟨h.fits, h.once, h.name hremove, h.room hremove⟩,
      fun h => ⟨h.1, h.2.1, fun _ => h.2.2.1, fun _ => h.2.2.2⟩⟩
  unfold Done
  rw [handled_update o hset hitem hjid hremove, hfits, ← holds_update]
  unfold pushFound
  rw [roster_replied hl]
  cases hfind : rosterFindItem (updateItem jid (item.getProp "name") (ownRoster srv i)) jid with
  | none =>
      dsimp only
      rw [out_replied hl]
      refine iff_of_false ?_ (not_holds address _ hfind)
      intro h
      obtain ⟨reply, id, pushed, hout, -⟩ := h
      cases (List.cons.inj (List.append_cancel_left hout)).2
  | some e =>
      dsimp only
      rw [out_pushed hl, roster_pushed hl]
      constructor
      · intro h
        obtain ⟨reply, id, pushed, hout, haddress, hdone⟩ := h
        rw [if_neg hremove] at hdone
        exact hdone.2
      · intro h
        refine ⟨_, _, _, rfl, find_address hfind, ?_⟩
        rw [if_neg hremove]
        exact ⟨List.mem_of_find?_eq_some hfind, h⟩

theorem done_iff : Done item jid i srv (rosterHandleIq srv i o stanza) ↔ Fits item jid (ownRoster srv i) := by
  by_cases hremove : item.getProp "subscription" = some "remove"
  · exact done_remove_iff hl o hset hitem hjid hremove
  · exact done_update_iff hl o hset hitem hjid hremove

end

/-- The request that adds a contact with this name. -/
def contactSet (jid name : Str) : Node :=
  elem "iq" [attr "type" "set", attr "id" "r1"]
    [.element "query" rosterNs [] [.element "item" rosterNs [attr "jid" jid, attr "name" name] []]]

end Xmppd.RosterSets
