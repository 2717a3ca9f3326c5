import Xmppd.Installation
import Xmppd.Outputs

/-!
# Answers to requests

A request is answered by one result or error with its identifier, or it is in no
namespace the server knows and is passed on to the session its address leads to.
The handlers build their answers themselves. What else they write to the session
is the push of a roster item and, when a bind ends another session, that
session's unavailable presence, and neither is an answer.
-/
namespace Xmppd.IqAnswers
open CStrings FileTree LibXml Util ServerState User Roster Presence Streams Auth Stanza Frames Evolution Outputs EventLoop
open Installation

/-- A piece of output that answers a request. -/
def isAnswer : Out → Bool
  | .raw _ => false
  | .stanza n => n.name = "iq" ∧ (n.prop "type" = "result" ∨ n.prop "type" = "error")

/-- The answers among what has been added to the output of session `i`. -/
structure Adds (i : ℕ) (l : List Out) (a b : Server) : Prop where
  live : b.Live i
  out : ∃ added, (b.sess i).out = (a.sess i).out ++ added ∧ added.filter isAnswer = l

/-- One answer, and the identifier it has. An absent one counts as empty. -/
def Answered (i : ℕ) (id : Str) (a b : Server) : Prop := ∃ n : Node, n.prop "id" = id ∧ Adds i [.stanza n] a b

/-- The namespaces of the requests that the server handles itself. -/
def known : List Str := [bindNs, sessionNs, rosterNs, discoInfoNs, discoItemsNs, registerNs]

/-- A bound session's request to somebody else in none of these namespaces. -/
def Foreign (srv : Server) (i : ℕ) (stanza : Node) : Prop :=
  childNs stanza ∉ known ∧ isServerJid srv.cfg (stanza.prop "to") = false ∧ (srv.sess i).isActive = true

/-- Nothing has been written except the stanza itself, to the session its address
leads to, and that is no answer. -/
def PassedOn (srv : Server) (i : ℕ) (o : Oracle) (stanza : Node) (srv' : Server) : Prop :=
  ∃ t, routeTarget srv o (stanza.prop "to") = some t ∧ srv.Live t ∧
    srv' = srv.stanzaSend t (stanza.setProp "from" (srv.sess i).fullJid.str) ∧ Adds i [] srv srv'

section
variable {i : ℕ} {l m : List Out} {id : Str} {a b c : Server}

theorem Adds.trans (hab : Adds i l a b) (hbc : Adds i m b c) : Adds i (l ++ m) a c := by
  obtain ⟨x, hx, hl⟩ := hab.out
  obtain ⟨y, hy, hm⟩ := hbc.out
  refine ⟨hbc.live, x ++ y, ?_, ?_⟩
  · rw [hy, hx, List.append_assoc]
  · rw [List.filter_append, hl, hm]

theorem Adds.of_writes {P : ℕ → Out → Prop} (h : Writes P a b) (hl : b.Live i) (hP : ∀ x, P i x → isAnswer x = false) :
    Adds i [] a b := ⟨hl, h.filter_eq_nil hl hP⟩

theorem adds_stanzaSend (hl : a.Live i) (n : Node) : Adds i ([.stanza n].filter isAnswer) a (a.stanzaSend i n) := by
  refine ⟨(Server.modify_live a i i _).mpr hl, [.stanza n], ?_, rfl⟩
  rw [Server.stanzaSend, Server.sessionWrite, Server.sess_modify_self hl]

/-- What is sent to another session, or is no answer. -/
theorem adds_nothing (hl : a.Live i) {t : ℕ} {n : Node} (h : t = i → isAnswer (.stanza n) = false) :
    Adds i [] a (a.stanzaSend t n) := by
  refine .of_writes (Writes.stanzaSend (P := fun j x => j = i → isAnswer x = false) h) ?_ fun x hx => hx rfl
  exact (Server.modify_live a t i _).mpr hl

theorem answered_stanzaSend (hl : a.Live i) {n : Node} (hn : isAnswer (.stanza n) = true) (hid : n.prop "id" = id) :
    Answered i id a (a.stanzaSend i n) := by
  refine ⟨n, hid, ?_⟩
  have hadd := adds_stanzaSend hl n
  rwa [List.filter_cons_of_pos hn, List.filter_nil] at hadd

theorem Answered.after (hab : Adds i [] a b) (hbc : Answered i id b c) : Answered i id a c := by
  obtain ⟨n, hid, hn⟩ := hbc
  exact ⟨n, hid, hab.trans hn⟩

theorem Answered.before (hab : Answered i id a b) (hbc : Adds i [] b c) : Answered i id a c := by
  obtain ⟨n, hid, hn⟩ := hab
  exact ⟨n, hid, hn.trans hbc⟩

/-- A write that leaves the output alone. -/
theorem adds_modify (hl : a.Live i) (t : ℕ) {f : Session → Session} (hf : ∀ s, (f s).out = s.out) : Adds i [] a (a.modify t f) :=
  .of_writes (Writes.modify a t hf : Writes (fun _ _ => False) a _) ((Server.modify_live a t i f).mpr hl) fun _ => False.elim

theorem adds_filesOnly (hl : a.Live i) (h : FilesOnly a b) : Adds i [] a b :=
  .of_writes (Writes.of_filesOnly h : Writes (fun _ _ => False) a b) (((Same.of_filesOnly h : Steady a b).live i).mpr hl)
    fun _ => False.elim

end

theorem Answered.live {i : ℕ} {id : Str} {a b : Server} (h : Answered i id a b) : b.Live i := by
  obtain ⟨n, -, hn⟩ := h
  exact hn.live

theorem Answered.filesOnly {i : ℕ} {id : Str} {a b c : Server} (h : Answered i id a b) (hf : FilesOnly b c) : Answered i id a c :=
  h.before (adds_filesOnly h.live hf)

/-! ## The replies -/

theorem getProp_append {name tag ns : Str} {as : List Attr} (h : ∀ a ∈ as, a.name ≠ name) (bs : List Attr)
    (children : List Node) :
    (Node.element tag ns (as ++ bs) children).getProp name = (Node.element tag ns bs children).getProp name := by
  unfold Node.getProp
  dsimp only [Node.attrs]
  rw [List.find?_append, List.find?_eq_none.mpr fun a ha => by simpa using h a ha, Option.none_or]

/-- The identifier of a reply that has one only where the request had. -/
theorem prop_id (name : Str) {before after : List Attr} (hbefore : ∀ a ∈ before, a.name ≠ ("id" : Str))
    (hafter : ∀ a ∈ after, a.name ≠ ("id" : Str)) (id : Option Str) (children : List Node) :
    (elem name (before ++ optAttr "id" id ++ after) children).prop "id" = id.getD [] := by
  unfold Node.prop elem
  rw [List.append_assoc, getProp_append hbefore]
  cases id with
  | none =>
      have hnone : (Node.element name [] (after ++ []) children).getProp "id" = (Node.element name [] [] children).getProp "id" :=
        getProp_append hafter [] children
      rw [getProp_nil, List.append_nil] at hnone
      exact congrArg (fun v : Option Str => v.getD []) hnone
  | some id => exact congrArg (fun v : Option Str => v.getD []) (getProp_cons_self name [] "id" id after children)

/-- The names of the other attributes that replies have. -/
theorem not_id {name : Str} (h : name ∈ ([("type" : Str), "from", "to"] : List Str)) : name ≠ "id" := by
  rintro rfl
  revert h
  decide

theorem isAnswer_elem {type : Str} (h : type = "result" ∨ type = "error") (attrs : List Attr) (children : List Node) :
    isAnswer (.stanza (elem "iq" (attr "type" type :: attrs) children)) = true := by
  have htype : (elem "iq" (attr "type" type :: attrs) children).prop "type" = type := by
    rw [Node.prop, elem, getProp_cons_self]
    rfl
  exact decide_eq_true ⟨rfl, by rwa [htype]⟩

section
variable {srv : Server} {i : ℕ} {stanza : Node}

/-- A reply whose attributes are its type, the identifier of the request and addresses. -/
theorem answered_reply (hl : srv.Live i) {type : Str} (htype : type = "result" ∨ type = "error") {before after : List Attr}
    (hbefore : ∀ a ∈ before, a.name ∈ ([("from" : Str), "to"] : List Str))
    (hafter : ∀ a ∈ after, a.name ∈ ([("from" : Str), "to"] : List Str)) (id : Option Str) (children : List Node) :
    Answered i (id.getD []) srv
      (srv.stanzaSend i (elem "iq" (attr "type" type :: before ++ optAttr "id" id ++ after) children)) := by
  apply answered_stanzaSend hl
  · exact isAnswer_elem htype _ _
  · apply prop_id
    · intro a ha
      apply not_id
      rcases List.mem_cons.mp ha with rfl | ha
      · exact List.mem_cons_self
      · exact List.mem_cons_of_mem _ (hbefore a ha)
    · exact fun a ha => not_id (List.mem_cons_of_mem _ (hafter a ha))

theorem mem_addresses {src dest : Str} {as : List Attr} (h : List.Sublist as [attr "from" src, attr "to" dest]) :
    ∀ a ∈ as, a.name ∈ ([("from" : Str), "to"] : List Str) := by
  intro a ha
  rcases List.mem_cons.mp (h.subset ha) with rfl | ha
  · exact List.mem_cons_self
  · rw [List.mem_singleton.mp ha]
    exact List.mem_cons_of_mem _ List.mem_cons_self

theorem answered_sendError (hl : srv.Live i) (hname : stanza.name = "iq") (t c : Str) :
    Answered i (stanza.prop "id") srv (srv.stanzaSendError i stanza t c) := by
  unfold Server.stanzaSendError
  rw [hname]
  exact answered_reply hl (Or.inr rfl) (List.forall_mem_nil _) (mem_addresses (.refl _)) _ _

theorem answered_resultIq (hl : srv.Live i) (children : List Node) {extra : List Attr}
    (hextra : ∀ a ∈ extra, a.name ∈ ([("from" : Str), "to"] : List Str)) :
    Answered i (stanza.prop "id") srv (srv.stanzaSend i (resultIq stanza children extra)) :=
  answered_reply hl (Or.inl rfl) (List.forall_mem_nil _) hextra _ _

theorem answered_discoReply (hl : srv.Live i) (ns : Str) (children : List Node) :
    Answered i (stanza.prop "id") srv (discoReply srv i stanza ns children) := by
  have hreply := answered_reply hl (Or.inl rfl) (mem_addresses (.refl [attr "from" srv.cfg.domain.str,
    attr "to" (srv.sess i).fullJid.str])) (List.forall_mem_nil _) (stanza.getProp "id") [.element "query" ns [] children]
  rwa [List.append_nil] at hreply

/-- The registration replies leave out an empty identifier. -/
theorem given_id (id : Str) : (if id = [] then [] else [attr "id" id]) = optAttr "id" (if id = [] then none else some id) := by
  split
  · rfl
  · rfl

theorem getD_given (id : Str) : (if id = [] then none else some id).getD [] = id := by
  split
  · next h => rw [h]; rfl
  · rfl

theorem answered_given (hl : srv.Live i) (id src dest : Str) {withTo : Prop} [Decidable withTo] (children : List Node) :
    Answered i id srv (srv.stanzaSend i (elem "iq" ([attr "type" "result"] ++ (if id = [] then [] else [attr "id" id]) ++
      [attr "from" src] ++ (if withTo then [attr "to" dest] else [])) children)) := by
  have hafter : ∀ a ∈ [attr "from" src] ++ (if withTo then [attr "to" dest] else []), a.name ∈ ([("from" : Str), "to"] : List Str) := by
    apply mem_addresses
    split
    · exact .refl _
    · exact List.sublist_append_left _ _
  have hreply := answered_reply hl (Or.inl rfl) (List.forall_mem_nil _) hafter (if id = [] then none else some id) children
  rwa [getD_given, ← given_id, ← List.append_assoc] at hreply

theorem answered_sendResultIq (hl : srv.Live i) (id : Str) (includeTo : Bool) :
    Answered i id srv (sendResultIq srv i id includeTo) := answered_given hl _ _ _ _

/-! ## The handlers -/

theorem answered_sessionHandleSessionIq (hl : srv.Live i) :
    Answered i (stanza.prop "id") srv (sessionHandleSessionIq srv i stanza) := by
  have hmod : Adds i [] srv (srv.modify i fun s => { s with state := .sessionActive }) := adds_modify hl i fun _ => rfl
  exact .after hmod (answered_resultIq hmod.live _ (by simp))

/-- The unavailable presence of the session that a bind ends is no answer. -/
theorem adds_kickConflict (o : Oracle) (hl : srv.Live i) : Adds i [] srv (kickConflict srv i o) := by
  have hkick : Writes (fun _ x => isAnswer x = false) srv (kickConflict srv i o) :=
    kickConflict_writes (fun _ _ => rfl) fun _ _ _ _ _ => rfl
  exact .of_writes hkick (kickConflict_live srv i o hl) fun _ h => h

theorem answered_sessionHandleBind (o : Oracle) (hl : srv.Live i) (hname : stanza.name = "iq") :
    Answered i (stanza.prop "id") srv (sessionHandleBind srv i o stanza) := by
  unfold sessionHandleBind
  split
  · exact answered_sendError hl hname _ _
  · have hkick := adds_kickConflict o hl
    have hmod : Adds i [] _ ((kickConflict srv i o).modify i fun s =>
        { s with jidResource := requestedResource o stanza, state := .bound }) := adds_modify hkick.live i fun _ => rfl
    exact .after (hkick.trans hmod) (answered_resultIq hmod.live _ (by simp))

/-- A push is a request of the server's own. -/
theorem adds_rosterPush (hl : srv.Live i) (id : Str) (item : RosterItem) : Adds i [] srv (rosterPush srv i id item) := by
  apply adds_nothing hl
  intro _
  have htype : ∀ dest, (pushNode id dest item).prop "type" = "set" := by
    intro dest
    rw [Node.prop, pushNode, elem, getProp_cons_self]
    rfl
  rw [isAnswer, htype, decide_eq_false_iff_not]
  rintro ⟨-, h | h⟩
  · exact absurd h (by decide)
  · exact absurd h (by decide)

theorem answered_rosterHandleIq (o : Oracle) (hl : srv.Live i) (hname : stanza.name = "iq") :
    Answered i (stanza.prop "id") srv (rosterHandleIq srv i o stanza) := by
  have hensure : Adds i [] srv (ensureRoster srv i) :=
    .of_writes (writes_ensureRoster srv i : Writes (fun _ _ => False) _ _) (((steady_ensureRoster srv i).live i).mpr hl)
      fun _ => False.elim
  have hset : ∀ f a, a.Live i → Answered i (stanza.prop "id") a
      ((rosterSave (modifyRoster a i f) i).stanzaSend i (resultIq stanza [] [])) := by
    intro f a ha
    have hedit : Adds i [] a (rosterSave (modifyRoster a i f) i) :=
      .of_writes (writes_editSave a i f : Writes (fun _ _ => False) _ _) (((steady_editSave a i f).live i).mpr ha)
        fun _ => False.elim
    exact .after hedit (answered_resultIq hedit.live _ (by simp))
  refine .after hensure ?_
  have hl' := hensure.live
  unfold rosterHandleIq
  dsimp only
  split
  · exact answered_resultIq hl' _ (mem_addresses (List.sublist_append_right [attr "from" []] _))
  split
  · split
    · exact answered_sendError hl' hname _ _
    · split
      · exact answered_sendError hl' hname _ _
      · next item _ _ jid _ =>
        split
        · have hremove := hset (fun r => rosterRemoveItem r jid) _ hl'
          exact hremove.before (adds_rosterPush hremove.live _ _)
        · have hupdate := hset (updateItem jid (item.getProp "name")) _ hl'
          split
          · exact hupdate.before (adds_rosterPush hupdate.live _ _)
          · exact hupdate
  · exact answered_sendError hl' hname _ _

theorem answered_registerCreate (o : Oracle) (hl : srv.Live i) (hname : stanza.name = "iq") (uname pw : Str) :
    Answered i (stanza.prop "id") srv (registerCreate srv i o stanza uname pw) := by
  have hfiles := adds_filesOnly hl (userCreate_filesOnly srv o uname pw)
  unfold registerCreate
  dsimp only
  refine .after hfiles ?_
  split
  · exact answered_sendResultIq hfiles.live _ _
  split
  · exact answered_sendError hfiles.live hname _ _
  split
  · exact answered_sendError hfiles.live hname _ _
  · exact answered_sendError hfiles.live hname _ _

theorem answered_registerSet (o : Oracle) (hl : srv.Live i) (hname : stanza.name = "iq") :
    Answered i (stanza.prop "id") srv (registerSet srv i o stanza) := by
  unfold registerSet
  dsimp only
  split
  · split
    · exact answered_sendError hl hname _ _
    · have hreply := answered_sendResultIq hl (stanza.prop "id") true
      have hdelete := hreply.filesOnly (filesOnly_userDelete _ ((sendResultIq srv i (stanza.prop "id") true).sess i).jidLocal.str)
      exact hdelete.before (adds_modify hdelete.live i fun _ => rfl)
  split
  · exact answered_sendError hl hname _ _
  split
  · exact answered_registerCreate o hl hname _ _
  split
  · exact answered_sendError hl hname _ _
  · have hchange := adds_filesOnly hl (filesOnly_userChangePassword srv
      ((lastContent (stanza.firstElement.getD (.text [])) "username").getD [])
      ((lastContent (stanza.firstElement.getD (.text [])) "password").getD []))
    refine .after hchange ?_
    split
    · exact answered_sendResultIq hchange.live _ _
    · exact answered_sendError hchange.live hname _ _

theorem answered_registerHandleIq (o : Oracle) (hl : srv.Live i) (hname : stanza.name = "iq") :
    Answered i (stanza.prop "id") srv (registerHandleIq srv i o stanza) := by
  unfold registerHandleIq
  split
  · exact answered_given hl _ _ _ _
  split
  · exact answered_registerSet o hl hname
  · exact answered_sendError hl hname _ _

theorem answered_whenActive (hl : srv.Live i) (hname : stanza.name = "iq") {srv' : Server}
    (h : Answered i (stanza.prop "id") srv srv') : Answered i (stanza.prop "id") srv (whenActive srv i stanza srv') := by
  unfold whenActive
  split
  · exact h
  · exact answered_sendError hl hname _ _

/-- A request in an unknown namespace is the one kind that may stay unanswered. -/
theorem routeUnknown_answered (o : Oracle) (hl : srv.Live i) (hname : stanza.name = "iq")
    (htype : stanza.prop "type" = "get" ∨ stanza.prop "type" = "set") (hns : childNs stanza ∉ known) :
    Answered i (stanza.prop "id") srv (routeUnknown srv i o stanza) ∨
      Foreign srv i stanza ∧ PassedOn srv i o stanza (routeUnknown srv i o stanza) := by
  have hquery : ∀ v, isAnswer (.stanza (stanza.setProp "from" v)) = false := by
    intro v
    have hsame : (stanza.setProp "from" v).prop "type" = stanza.prop "type" := by
      rw [Node.prop, Node.getProp_setProp_of_ne stanza v (by decide)]
      rfl
    rw [isAnswer, hsame, decide_eq_false_iff_not]
    rintro ⟨-, h | h⟩
    · rcases htype with hget | hset
      · exact absurd (hget.symm.trans h) (by decide)
      · exact absurd (hset.symm.trans h) (by decide)
    · rcases htype with hget | hset
      · exact absurd (hget.symm.trans h) (by decide)
      · exact absurd (hset.symm.trans h) (by decide)
  unfold routeUnknown
  dsimp only
  split
  · next hforeign =>
    cases htarget : routeTarget srv o (stanza.prop "to") with
    | none => exact Or.inl (answered_sendError hl hname _ _)
    | some t =>
        refine Or.inr ⟨⟨hns, by simpa using hforeign.1, hforeign.2⟩, t, htarget, ?_, rfl, ?_⟩
        · exact Server.sessionFindByJid_live htarget
        · exact adds_nothing hl fun _ => hquery _
  · exact Or.inl (answered_sendError hl hname _ _)

theorem handleIq_answered (o : Oracle) (hl : srv.Live i) (hname : stanza.name = "iq")
    (htype : stanza.prop "type" = "get" ∨ stanza.prop "type" = "set") :
    Answered i (stanza.prop "id") srv (handleIq srv i o stanza) ∨
      Foreign srv i stanza ∧ PassedOn srv i o stanza (handleIq srv i o stanza) := by
  have hreply : ¬(stanza.prop "type" = "result" ∨ stanza.prop "type" = "error") := by
    rcases htype with h | h
    · rw [h]
      decide
    · rw [h]
      decide
  unfold handleIq
  dsimp only
  rw [if_neg hreply]
  split
  · exact Or.inl (answered_sessionHandleBind o hl hname)
  split
  · exact Or.inl (answered_sessionHandleSessionIq hl)
  split
  · exact Or.inl (answered_whenActive hl hname (answered_rosterHandleIq o hl hname))
  split
  · exact Or.inl (answered_whenActive hl hname (answered_discoReply hl _ _))
  split
  · exact Or.inl (answered_whenActive hl hname (answered_discoReply hl _ _))
  split
  · exact Or.inl (answered_registerHandleIq o hl hname)
  · next hbind hsession hroster hinfo hitems hregister =>
    apply routeUnknown_answered o hl hname htype
    simp only [known, List.mem_cons, List.not_mem_nil, or_false, not_or]
    exact ⟨hbind, hsession, hroster, hinfo, hitems, hregister⟩

end

/-- A query for the roster. -/
def rosterQuery : Node :=
  elem "iq" [attr "type" "get", attr "id" "1"] [.element "query" rosterNs [] []]

end Xmppd.IqAnswers
