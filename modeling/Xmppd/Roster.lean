import Xmppd.User

/-!
# Rosters

A roster is read from and written to `roster.xml` as a whole. Reading keeps the
first `MAX_ROSTER_ITEMS` items and cuts every attribute to its array. The
update branch of a roster set passes an item's own subscription array back to
`roster_add_item`, which prints the string onto itself and so keeps it.
-/
namespace Xmppd.Roster
open CStrings FileTree LibXml Util ServerState User

/-- One `<item>` of the file. -/
def itemOfNode (n : Node) : RosterItem where
  jid := snprintf 512 (n.prop "jid")
  name := snprintf 256 (n.prop "name")
  subscription := snprintf 16 ((n.getProp "subscription").getD "none")
  askSubscribe := n.getProp "ask" = some "subscribe"

/-- The element for an item, in the namespace of its parent. -/
def nodeOfItem (ns : Str) (i : RosterItem) : Node :=
  .element "item" ns ([attr "jid" i.jid.str] ++
    (if i.name.str = [] then [] else [attr "name" i.name.str]) ++
    [attr "subscription" i.subscription.str] ++
    (if i.askSubscribe then [attr "ask" "subscribe"] else [])) []

def rosterNs : Str := "jabber:iq:roster"

/-- `roster_load_from_path`: a missing, unreadable or foreign file is an empty roster. -/
def loadContent (c : Option Content) : Roster where
  items := match c with
    | some (.xml root) =>
        if root.name = "roster" then
          ((root.children.filter fun (n : Node) => n.isElement ∧ n.name = "item").take maxRosterItems).map itemOfNode
        else []
    | _ => []
  bound := by
    split
    · split_ifs
      · simp only [List.length_map, List.length_take]
        exact Nat.min_le_left _ _
      · simp
    · simp
  loaded := true

/-- The document `roster_save_to_path` writes. -/
def saveContent (r : Roster) : Content := .xml (elem "roster" [] (r.items.map (nodeOfItem [])))

/-- `roster_load_for_user`. -/
def rosterLoadForUser (srv : Server) (username : Str) : Roster :=
  loadContent (readFile srv (userPath srv.cfg username "roster.xml"))

/-- `roster_save_for_user`; a failed save is only logged. -/
def rosterSaveForUser (srv : Server) (username : Str) (r : Roster) : Server :=
  (writeFile srv (userPath srv.cfg username "roster.xml") (saveContent r)).getD srv

/-- `roster_load`. -/
def rosterLoad (srv : Server) (i : ℕ) : Server :=
  srv.modify i fun s => { s with roster := rosterLoadForUser srv s.jidLocal.str }

/-- The guarded call every handler starts with. -/
def ensureRoster (srv : Server) (i : ℕ) : Server :=
  if (srv.sess i).roster.loaded then srv else rosterLoad srv i

/-- `roster_save`. -/
def rosterSave (srv : Server) (i : ℕ) : Server :=
  rosterSaveForUser srv (srv.sess i).jidLocal.str (srv.sess i).roster

/-- `roster_find_item`. -/
def rosterFindItem (r : Roster) (jid : Str) : Option RosterItem :=
  r.items.find? fun i => i.jid.str = jid

/-- Writing through the pointer that `roster_find_item` returns. -/
def editItem (jid : Str) (f : RosterItem → RosterItem) : List RosterItem → List RosterItem
  | [] => []
  | i :: is => if i.jid.str = jid then f i :: is else i :: editItem jid f is

@[simp] theorem editItem_length (jid : Str) (f : RosterItem → RosterItem) (is : List RosterItem) :
    (editItem jid f is).length = is.length := by
  induction is with
  | nil => rfl
  | cons i is ih =>
      unfold editItem
      split_ifs <;> simp [ih]

def rosterEdit (r : Roster) (jid : Str) (f : RosterItem → RosterItem) : Roster :=
  { r with items := editItem jid f r.items, bound := by rw [editItem_length]; exact r.bound }

/-- `roster_add_item`; a full roster stays as it is. -/
def rosterAddItem (r : Roster) (jid : Str) (name subscription : Option Str) (ask : Bool) : Roster :=
  match rosterFindItem r jid with
  | some _ => rosterEdit r jid fun i =>
      { i with
        name := (name.map (snprintf 256)).getD i.name
        subscription := (subscription.map (snprintf 16)).getD i.subscription
        askSubscribe := ask }
  | none =>
      if h : r.items.length < maxRosterItems then
        { r with
          items := r.items ++ [⟨snprintf 512 jid, (name.map (snprintf 256)).getD Buf.empty,
            snprintf 16 (subscription.getD "none"), ask⟩]
          bound := by simpa using Nat.succ_le_of_lt h }
      else r

/-- `roster_remove_item`. -/
def rosterRemoveItem (r : Roster) (jid : Str) : Roster :=
  { r with
    items := r.items.eraseP fun i => i.jid.str = jid
    bound := Nat.le_trans List.length_eraseP_le r.bound }

section
variable (r : Roster) (jid : Str)

@[simp] theorem rosterEdit_loaded (f : RosterItem → RosterItem) : (rosterEdit r jid f).loaded = r.loaded := rfl

@[simp] theorem rosterRemoveItem_loaded : (rosterRemoveItem r jid).loaded = r.loaded := rfl

@[simp] theorem rosterAddItem_loaded (name subscription : Option Str) (ask : Bool) :
    (rosterAddItem r jid name subscription ask).loaded = r.loaded := by
  unfold rosterAddItem
  split
  · rfl
  · split_ifs <;> rfl

end

def modifyRoster (srv : Server) (i : ℕ) (f : Roster → Roster) : Server :=
  srv.modify i fun s => { s with roster := f s.roster }

/-- The tree built by `roster_push`. -/
def pushNode (id dest : Str) (item : RosterItem) : Node :=
  elem "iq" [attr "type" "set", attr "id" id, attr "to" dest]
    [.element "query" rosterNs [] [nodeOfItem rosterNs item]]

/-- `roster_push`. -/
def rosterPush (srv : Server) (i : ℕ) (id : Str) (item : RosterItem) : Server :=
  srv.stanzaSend i (pushNode id (srv.sess i).fullJid.str item)

/-- The empty result that acknowledges a roster set. -/
def resultIq (stanza : Node) (children : List Node) (extra : List Attr) : Node :=
  elem "iq" ([attr "type" "result"] ++ optAttr "id" (stanza.getProp "id") ++ extra) children

/-- The item change of a roster set that is no removal. -/
def updateItem (jid : Str) (name : Option Str) (r : Roster) : Roster :=
  match rosterFindItem r jid with
  | some e => rosterAddItem r jid name (some e.subscription.str) e.askSubscribe
  | none => rosterAddItem r jid name (some "none") false

@[simp] theorem updateItem_loaded (jid : Str) (name : Option Str) (r : Roster) :
    (updateItem jid name r).loaded = r.loaded := by
  unfold updateItem
  split <;> simp

/-- `roster_handle_iq`. After an update of an existing item the source copies the
name a second time, which changes nothing. -/
def rosterHandleIq (srv : Server) (i : ℕ) (o : Oracle) (stanza : Node) : Server :=
  let srv := ensureRoster srv i
  if stanza.prop "type" = "get" then
    srv.stanzaSend i (resultIq stanza
      [.element "query" rosterNs [] ((srv.sess i).roster.items.map (nodeOfItem rosterNs))]
      [attr "to" (srv.sess i).fullJid.str])
  else if stanza.prop "type" = "set" then
    match (stanza.findChild "query").bind fun q => q.findChild "item" with
    | none => srv.stanzaSendError i stanza "modify" "bad-request"
    | some item =>
      match item.getProp "jid" with
      | none => srv.stanzaSendError i stanza "modify" "bad-request"
      | some jid =>
        if item.getProp "subscription" = some "remove" then
          let srv := modifyRoster srv i fun r => rosterRemoveItem r jid
          let srv := rosterSave srv i
          let srv := srv.stanzaSend i (resultIq stanza [] [])
          rosterPush srv i (o.ident 0) ⟨snprintf 512 jid, Buf.empty, snprintf 16 "remove", false⟩
        else
          let srv := modifyRoster srv i (updateItem jid (item.getProp "name"))
          let srv := rosterSave srv i
          let srv := srv.stanzaSend i (resultIq stanza [] [])
          match rosterFindItem (srv.sess i).roster jid with
          | some e => rosterPush srv i (o.ident 0) e
          | none => srv
  else srv.stanzaSendError i stanza "cancel" "feature-not-implemented"

end Xmppd.Roster
