import Xmppd.GoAuthGate
import Xmppd.Recipients
import Xmppd.RosterTraffic

/-!
# Before a resource is bound

A session that has authenticated is to reach no other user before it binds a
resource. There is no one place that sees to this: every handler tests the state
for itself, the state is also set by a request for a session, and the forwarding
of results and errors has no test. Where neither is used, and the account is not
removed with its roster, the stanzas of such a session stay between it and the
server. The session a bind ends takes its leave in its own name.
-/
namespace Xmppd.BeforeBind
open CStrings FileTree LibXml Util ServerState User Roster Message Presence Streams Auth Stanza Frames Evolution
open Accounts Confinement RosterStore Outputs Recipients EventLoop Installation Phases

/-! ## The C server -/

local instance lawfulStr : LawfulBEq Str := inferInstance

/-- Authenticated, and without a resource. -/
def Unbound (s : Session) : Prop := s.authenticated = true ∧ s.jidResource.str = []

instance (s : Session) : Decidable (Unbound s) := inferInstanceAs (Decidable (_ ∧ _))

/-- What a stanza of session `i` does stays with its user: other users are sent at most
the leave of the session that a bind ends, no message is stored, and all rosters, cached
and on disk, are as before. -/
structure Private (srv : Server) (i : ℕ) (srv' : Server) : Prop where
  sent : ∀ t, srv'.Live t → (srv.sess t).bareJid.str ≠ (srv.sess i).bareJid.str →
    ∃ added, (srv'.sess t).out = (srv.sess t).out ++ added ∧
      ∀ x ∈ added, ∃ e ∈ rival srv i, x = .stanza (unavailableNode (srv.sess e).fullJid.str)
  cached : ∀ t, srv'.Live t → (srv'.sess t).roster = (srv.sess t).roster
  saved : ∀ u : Str, u.length < 256 → rosterLoadForUser srv' u = rosterLoadForUser srv u
  stored : ∀ p root, srv'.files.content p = some (.xml root) → srv.files.content p = some (.xml root)

def Reply (stanza : Node) : Prop := stanza.prop "type" = "result" ∨ stanza.prop "type" = "error"

instance (stanza : Node) : Decidable (Reply stanza) := inferInstanceAs (Decidable (_ ∨ _))

/-- A result or an error is passed on to the session of another user. -/
def Forwards (srv : Server) (i : ℕ) (o : Oracle) (stanza : Node) : Prop :=
  isServerJid srv.cfg (stanza.prop "to") = false ∧
    ∃ t ∈ routeTarget srv o (stanza.prop "to"), (srv.sess t).bareJid.str ≠ (srv.sess i).bareJid.str

instance (srv : Server) (i : ℕ) (o : Oracle) (stanza : Node) : Decidable (Forwards srv i o stanza) :=
  inferInstanceAs (Decidable (_ ∧ _))

/-- A request that removes the account, or one that sets a password where the name of
the data directory leaves no room for the names of the files. -/
def Overreaches (srv : Server) (stanza : Node) : Prop :=
  stanza.prop "type" = "set" ∧
    (((stanza.firstElement.getD (.text [])).findChild "remove").isSome = true ∨ 1021 < srv.cfg.datadir.str.length)

instance (srv : Server) (stanza : Node) : Decidable (Overreaches srv stanza) := inferInstanceAs (Decidable (_ ∧ _))

/-- The stanza goes nowhere without a test of the state, and the state tells that no
resource has been bound where it is tested. -/
def Guarded (srv : Server) (i : ℕ) (o : Oracle) (stanza : Node) : Prop :=
  if stanza.name = "iq" ∧ Reply stanza then ¬Forwards srv i o stanza
  else if stanza.name = "iq" ∧ childNs stanza ∈ [bindNs, sessionNs, discoInfoNs, discoItemsNs] then True
  else if stanza.name = "iq" ∧ childNs stanza = registerNs then ¬Overreaches srv stanza
  else (srv.sess i).isActive = false

instance (srv : Server) (i : ℕ) (o : Oracle) (stanza : Node) : Decidable (Guarded srv i o stanza) := by
  unfold Guarded
  infer_instance

/-- The stanzas of sessions without a resource are guarded. -/
def UnboundGuarded : Server → Step → Prop := OnStanza fun srv i o stanza => Unbound (srv.sess i) → Guarded srv i o stanza

instance (srv : Server) (e : Step) : Decidable (UnboundGuarded srv e) := decidableOnStanza _ srv e

/-- The stanzas of sessions without a resource are kept private. -/
def UnboundPrivate : Server → Step → Prop := OnStanza fun srv i o stanza =>
  parsing srv i = true → Unbound (srv.sess i) → Private srv i (stanzaRoute srv i o stanza)

section
variable {srv a b : Server} {i : ℕ} {o : Oracle} {stanza : Node}

/-- What may be written to a session. -/
def Aside (srv : Server) (i t : ℕ) (x : Out) : Prop :=
  (srv.sess t).bareJid.str = (srv.sess i).bareJid.str ∨
    ∃ e ∈ rival srv i, x = .stanza (unavailableNode (srv.sess e).fullJid.str)

theorem aside_own (x : Out) : Aside srv i i x := Or.inl rfl

theorem bareJid_rival {e : ℕ} (he : e ∈ rival srv i) : (srv.sess e).bareJid.str = (srv.sess i).bareJid.str := by
  obtain ⟨hfind, -⟩ := Option.filter_eq_some_iff.mp he
  exact Server.bareJid_of_found hfind

/-- The roster of a record is as before. -/
def Untouched (s s' : Session) : Prop := s'.roster = s.roster

theorem loose_untouched : Loose Untouched where
  trans _ _ _ hrs hst := hst.trans hrs
  held _ _ h := holding.get Session.roster (fun _ => rfl) h
  opened _ := rfl
  returned _ := rfl
  bound _ _ := rfl
  started _ := rfl

theorem Private.of_flow (hw : Writes (Aside srv i) srv b) (hf : Flow Untouched srv b) : Private srv i b := by
  constructor
  · intro t ht hother
    obtain ⟨added, hout, hallowed⟩ := hw.out t ht
    exact ⟨added, hout, fun x hx => (hallowed x hx).resolve_left hother⟩
  · intro t ht
    obtain ⟨hm, hid⟩ := Server.sess_mem ht
    obtain ⟨s, hs, hst, hroster⟩ := hf.evolves _ hm
    rw [show (b.sess t).roster = s.roster from hroster, ← hid, ← hst, Server.sess_of_mem hs]
  · intro u _
    exact RosterTraffic.rosterLoadForUser_congr hf.cfg hf.files u
  · intro p root h
    rwa [hf.files] at h

theorem Private.of_silent (hw : Writes (Aside srv i) srv b) (hs : Silent srv b) : Private srv i b :=
  .of_flow hw (.of_silent loose_untouched.toTame hs)

theorem private_stanzaSendError (n : Node) (t c : Str) : Private srv i (srv.stanzaSendError i n t c) :=
  .of_silent (.stanzaSendError aside_own n t c) (.stanzaSendError srv i n t c)

theorem private_stanzaSend (n : Node) : Private srv i (srv.stanzaSend i n) :=
  .of_silent (.stanzaSend (aside_own _)) (.stanzaSend srv i n)

theorem private_streamSendError (hx : (srv.sess i).inXmlParse = true) (condition : Str) :
    Private srv i (streamSendError srv i o condition) :=
  .of_flow (streamSendError_deferred hx (fun _ => aside_own _) condition)
    (streamSendError_flow srv i o loose_untouched.toTame condition)

/-! ### Results and errors -/

theorem routeReply_private (h : ¬Forwards srv i o stanza) : Private srv i (routeReply srv i o stanza) := by
  refine .of_silent (routeReply_writes ?_) (silent_routeReply srv i o stanza)
  intro t ht n
  split at ht
  · cases ht
  · next hserver =>
    left
    by_contra hne
    exact h ⟨by simpa using hserver, t, Option.mem_toList.mp ht, hne⟩

/-- No query is anybody's leave. -/
theorem not_leave {n : Node} (hname : n.name = "iq") (src : Str) : Out.stanza n ≠ .stanza (unavailableNode src) := by
  intro h
  have hpresence : (unavailableNode src).name = "presence" := rfl
  rw [Out.stanza.inj h, hpresence] at hname
  exact absurd hname (by decide)

theorem routeReply_private_iff (hname : stanza.name = "iq") :
    Private srv i (routeReply srv i o stanza) ↔ ¬Forwards srv i o stanza := by
  refine ⟨?_, routeReply_private⟩
  rintro h ⟨hserver, t, ht, hne⟩
  have hroute : routeReply srv i o stanza = srv.stanzaSend t (stanza.setProp "from" (srv.sess i).fullJid.str) := by
    unfold routeReply
    dsimp only
    rw [hserver, Option.mem_def.mp ht]
    rfl
  have hl : srv.Live t := by
    obtain ⟨s, hs, hst, -⟩ := Server.sessionFindByJid_some ht
    exact hst ▸ List.mem_map_of_mem hs
  rw [hroute] at h
  obtain ⟨added, hout, hadded⟩ := h.sent t ((Server.modify_live srv t t _).mpr hl) hne
  rw [Server.stanzaSend, Server.sessionWrite, Server.sess_modify_self hl] at hout
  have hsent := List.append_cancel_left hout
  obtain ⟨e, -, hleave⟩ := hadded _ (hsent ▸ List.mem_singleton_self _)
  exact not_leave ((Node.name_setProp _ _ _).trans hname) _ hleave

/-! ### Binding and sessions -/

theorem kickConflict_aside : Writes (Aside srv i) srv (kickConflict srv i o) := by
  rw [kickConflict_eq]
  cases hr : rival srv i with
  | none => exact .refl srv
  | some e =>
      apply streamSendError_writes
      · exact fun _ => Or.inl (bareJid_rival hr)
      · exact fun t _ _ => Or.inr ⟨e, hr, rfl⟩

theorem sessionHandleBind_private : Private srv i (sessionHandleBind srv i o stanza) := by
  refine .of_flow ?_ (sessionHandleBind_flow srv i o loose_untouched stanza)
  unfold sessionHandleBind
  split
  · exact .stanzaSendError aside_own _ _ _
  · refine (kickConflict_aside.trans (.modify _ i ?_)).trans (.stanzaSend (aside_own _))
    exact fun _ => rfl

theorem sessionHandleSessionIq_private : Private srv i (sessionHandleSessionIq srv i stanza) :=
  .of_flow (sessionHandleSessionIq_writes aside_own stanza) (sessionHandleSessionIq_flow srv i loose_untouched stanza)

theorem whenActive_private {srv' : Server} (h : (srv.sess i).isActive = true → Private srv i srv') :
    Private srv i (whenActive srv i stanza srv') := by
  unfold whenActive
  split
  · next hactive => exact h hactive
  · exact private_stanzaSendError _ _ _

/-! ### Passwords -/

/-- Where the file of a name stands, as long as there is room for a letter of its own name. -/
theorem locate_room {name file : Str} {c : Char} {cs : Str} (hfile : file = c :: cs) (hroom : srv.cfg.datadir.str.length ≤ 1021)
    (hn : name.length < 256) (hs : '/' ∉ file) (hdot : c ≠ '.') {p : Path}
    (h : locate srv (userPath srv.cfg name file) = some p) : ∃ q k, p = q ++ [c :: cs.take k] := by
  subst hfile
  obtain ⟨q, -, -, hp⟩ := locate_walk hn hs (List.cons_ne_nil c cs) (by simpa using hdot) h
  have hspare : ∃ k, spare srv.cfg name = k + 2 := by
    refine ⟨spare srv.cfg name - 2, ?_⟩
    unfold spare
    omega
  obtain ⟨k, hk⟩ := hspare
  refine ⟨q, k, ?_⟩
  rw [hp, hk, if_neg (by omega)]
  rfl

/-- The file of a password is nobody's roster. -/
theorem conf_apart {u v : Str} {p q : Path} (hroom : srv.cfg.datadir.str.length ≤ 1021) (hu : u.length < 256)
    (hv : v.length < 256) (hp : locate srv (userPath srv.cfg u "user.conf") = some p) (hq : rosterFile srv v = some q) :
    q ≠ p := by
  obtain ⟨d, k, hd⟩ := locate_room (c := 'u') rfl hroom hu (by decide) (by decide) hp
  obtain ⟨e, m, he⟩ := locate_room (c := 'r') rfl hroom hv (by decide) (by decide) hq
  intro h
  rw [hd, he] at h
  have hlast := (List.append_inj' h rfl).2
  exact absurd (List.cons.inj (List.cons.inj hlast).1).1 (by decide)

theorem userChangePassword_private {u : Str} (hroom : srv.cfg.datadir.str.length ≤ 1021) (hu : u.length < 256)
    (password : Str) : Private srv i (userChangePassword srv u password).1 := by
  have hsame : Private srv i srv := .of_silent (.refl srv) (.refl srv)
  unfold userChangePassword
  cases hw : writeFile srv (userPath srv.cfg u "user.conf") (passwordLine password) with
  | none => exact hsame
  | some b =>
      obtain ⟨p, t, hp, ht, rfl⟩ := User.writeFile_eq_some hw
      have hplaces : SamePlaces srv { srv with files := t } := ⟨rfl, Tree.isDir_write ht⟩
      have hother : ∀ q, q ≠ p → t.content q = srv.files.content q := by
        intro q hq
        rw [Tree.content, Tree.lookup_write_of_ne ht hq, Tree.content]
      refine ⟨hsame.sent, hsame.cached, ?_, ?_⟩
      · intro v hv
        rw [rosterLoadForUser_eq, rosterLoadForUser_eq, hplaces.rosterFile]
        cases hq : rosterFile srv v with
        | none => rfl
        | some q => exact congrArg loadContent (hother q (conf_apart hroom hu hv hp hq))
      · intro q root hroot
        by_cases hq : q = p
        · rw [hq] at hroot
          cases (Tree.content_write_self ht).symm.trans hroot
        · rwa [← hother q hq]

/-- An answer to the session itself. -/
theorem Private.answer (h : Private srv i b) (x : Out) : Private srv i (b.sessionWrite i x) := by
  have hlive : ∀ t, (b.sessionWrite i x).Live t → b.Live t := fun t => (Server.modify_live b i t _).mp
  constructor
  · intro t ht hother
    have hti : t ≠ i := by
      rintro rfl
      exact hother rfl
    rw [Server.sessionWrite, Server.sess_modify_of_ne _ _ _ _ hti]
    exact h.sent t (hlive t ht) hother
  · intro t ht
    refine Eq.trans ?_ (h.cached t (hlive t ht))
    exact Server.sess_modify_congr Session.roster b i t _ fun _ => rfl
  · exact h.saved
  · exact h.stored

theorem registerSet_private (hauth : (srv.sess i).authenticated = true) (htype : stanza.prop "type" = "set")
    (h : ¬Overreaches srv stanza) : Private srv i (registerSet srv i o stanza) := by
  unfold Overreaches at h
  rw [and_iff_right htype, not_or] at h
  have hroom : srv.cfg.datadir.str.length ≤ 1021 := Nat.le_of_not_lt h.2
  unfold registerSet
  dsimp only
  rw [if_neg h.1]
  split
  · exact private_stanzaSendError _ _ _
  rw [hauth, if_neg (by decide)]
  split
  · exact private_stanzaSendError _ _ _
  · next huname =>
    have hchange := userChangePassword_private (i := i) hroom ((srv.sess i).jidLocal.fits)
      ((lastContent (stanza.firstElement.getD (.text [])) "password").getD [])
    rw [← not_not.mp huname] at hchange
    split
    · exact hchange.answer _
    · exact hchange.answer _

theorem registerHandleIq_private (hauth : (srv.sess i).authenticated = true) (h : ¬Overreaches srv stanza) :
    Private srv i (registerHandleIq srv i o stanza) := by
  unfold registerHandleIq
  split
  · exact private_stanzaSend _
  split
  · next htype => exact registerSet_private hauth htype h
  · exact private_stanzaSendError _ _ _

/-! ### Stanzas and runs -/

theorem handleIq_private (hauth : (srv.sess i).authenticated = true) (hname : stanza.name = "iq")
    (h : Guarded srv i o stanza) : Private srv i (handleIq srv i o stanza) := by
  unfold Guarded at h
  simp only [hname, true_and] at h
  unfold handleIq
  dsimp only
  split
  · next hreply =>
    rw [if_pos (show Reply stanza from hreply)] at h
    exact routeReply_private h
  next hreply =>
  rw [if_neg (show ¬Reply stanza from hreply)] at h
  split
  · exact sessionHandleBind_private
  next hbind =>
  split
  · exact sessionHandleSessionIq_private
  next hsession =>
  split
  · next hroster =>
    rw [hroster, if_neg (by decide), if_neg (by decide)] at h
    exact whenActive_private fun hactive => absurd hactive (by rw [h]; decide)
  next hroster =>
  split
  · exact whenActive_private fun _ => private_stanzaSend _
  next hinfo =>
  split
  · exact whenActive_private fun _ => private_stanzaSend _
  next hitems =>
  rw [if_neg (by simp [hbind, hsession, hinfo, hitems])] at h
  split
  · next hregister =>
    rw [if_pos hregister] at h
    exact registerHandleIq_private hauth h
  · next hregister =>
    rw [if_neg hregister] at h
    unfold routeUnknown
    dsimp only
    rw [h, if_neg (by simp)]
    exact private_stanzaSendError _ _ _

theorem stanzaRoute_private (hauth : (srv.sess i).authenticated = true) (hx : (srv.sess i).inXmlParse = true)
    (h : Guarded srv i o stanza) : Private srv i (stanzaRoute srv i o stanza) := by
  unfold stanzaRoute
  rw [if_neg (by simp [hauth])]
  split
  · next hname => exact handleIq_private hauth hname h
  next hname =>
  have hactive : (srv.sess i).isActive = false := by
    unfold Guarded at h
    rwa [if_neg fun hc => hname hc.1, if_neg fun hc => hname hc.1, if_neg fun hc => hname hc.1] at h
  rw [hactive]
  split
  · exact private_streamSendError hx _
  split
  · exact private_streamSendError hx _
  · exact private_streamSendError hx _

theorem step_private (e : Step) (h : UnboundGuarded srv e) : UnboundPrivate srv e :=
  OnStanza.mono (fun _ _ _ _ hguarded hp hu =>
    stanzaRoute_private hu.1 (of_decide_eq_true hp).2 (hguarded hu)) h

end

/-! ## The Go server -/

section
open GoXml Programs Program GoSession GoStanza GoAuthGate

/-- The registry finds sessions of the user that is asked for. -/
def Honest (owner : ℕ → Str) : (c : Call) → GoSession.Result c → Prop
  | .find jid, r => ∀ t, r = some t → owner t = jid
  | .register jid, r => ∀ t, r = some t → owner t = jid
  | _, _ => True

/-- Calls that stay with one user: sends to the session itself and to others of the user,
and nothing that stores a message or changes a roster. -/
def Discreet (owner : ℕ → Str) (self : ℕ) (user : Str) : Call → Prop
  | .send t _ => t = self ∨ owner t = user
  | .setRoster _ _ | .save _ _ | .mkdirAll _ | .writeFile _ _ _ | .create _ _ | .delete _ => False
  | _ => True

/-- What a stanza does stays with its user, whatever the calls are answered. -/
def GoPrivate (owner : ℕ → Str) (domain : Str) (self : ℕ) (s : GoSession.Session) (node : XmlNode) : Prop :=
  EnsuresGiven (Honest owner) (Discreet owner self s.bareJID) (route domain self s node) fun _ => True

/-- A result or an error to another user. -/
def GoForwards (domain : Str) (s : GoSession.Session) (node : XmlNode) : Prop :=
  isServerJID (node.attr "to") domain = false ∧ GoSession.bareJID (node.attr "to") ≠ s.bareJID

/-- A request that removes the account. -/
def GoRemoves (node : XmlNode) : Prop :=
  node.attr "type" = "set" ∧ ∃ query ∈ node.firstChild, (query.findChild "remove").isSome = true

/-- The stanza goes nowhere without a test of the state, and the state tells that no
resource has been bound where it is tested. -/
def GoGuarded (domain : Str) (s : GoSession.Session) (node : XmlNode) : Prop :=
  if node.name = "iq" ∧ IsReply node then ¬GoForwards domain s node
  else if node.name = "iq" ∧ childNS node ∈ [nsBind, nsSession, nsDiscoInfo, nsDiscoItems] then True
  else if node.name = "iq" ∧ childNS node = nsRegister then ¬GoRemoves node
  else s.isActive = false

section
variable {owner : ℕ → Str} {domain : Str} {self : ℕ} {s : GoSession.Session} {node : XmlNode} {A : Type}

/-- Calls that stay with the session itself. -/
def Solitary (self : ℕ) : Call → Prop
  | .send t _ => t = self
  | .setRoster _ _ | .save _ _ | .mkdirAll _ | .writeFile _ _ _ | .create _ _ | .delete _ => False
  | _ => True

theorem Solitary.discreet {user : Str} {c : Call} (h : Solitary self c) : Discreet owner self user c := by
  cases c with
  | send t d => exact Or.inl h
  | _ => exact h

theorem solitary_self (x : Str) : Solitary self (.send self (.text x)) := rfl

theorem refuse_solitary {errType condition : Str} {a : A} :
    Ensures (Solitary self) (sendStanzaError self s node errType condition >>= fun _ => pure a) fun _ => True := by
  rw [ensures_bind, ensures_sendStanzaError solitary_self]
  trivial

theorem sendText_solitary {x : Str} {a : A} :
    Ensures (Solitary self) (sendText self x >>= fun _ => pure a) fun _ => True := by
  rw [ensures_bind, ensures_sendText]
  exact ⟨solitary_self x, trivial⟩

theorem registerSet_solitary (hauth : s.authenticated = true) (htype : node.attr "type" = "set") (h : ¬GoRemoves node)
    (id : Str) : Ensures (Solitary self) (GoStanza.registerSet self s node id) fun _ => True := by
  unfold GoStanza.registerSet
  split
  · exact refuse_solitary
  next query hquery =>
  rw [if_neg fun hremove => h ⟨htype, query, hquery, hremove⟩]
  split
  · exact refuse_solitary
  rw [hauth, if_neg (by decide)]
  split
  · exact refuse_solitary
  · rw [ensures_bind, ensures_changePassword]
    refine ⟨trivial, ?_⟩
    intro ok
    split
    · exact sendText_solitary
    · exact refuse_solitary

theorem registerHandleIQ_solitary (hauth : s.authenticated = true) (h : ¬GoRemoves node) :
    Ensures (Solitary self) (registerHandleIQ self s node) fun _ => True := by
  unfold registerHandleIQ
  split
  · exact sendText_solitary
  split
  · next htype => exact registerSet_solitary hauth htype h _
  · exact refuse_solitary

/-- What is passed on goes to the session of the user in the address. -/
theorem forward_private {user : Str} (h : GoSession.bareJID (node.attr "to") = user) :
    EnsuresGiven (Honest owner) (Discreet owner self user) (forward s node) fun _ => True := by
  refine ⟨trivial, ?_⟩
  intro found hfound
  cases found with
  | none => trivial
  | some t => exact ⟨Or.inr ((hfound t rfl).trans h), fun _ _ => trivial⟩

/-- The session that is replaced belongs to the same user. -/
theorem bindResource_private {id : Str} :
    EnsuresGiven (Honest owner) (Discreet owner self s.bareJID) (bindResource self s id) fun _ => True := by
  have hresult : ∀ x : Str, EnsuresGiven (Honest owner) (Discreet owner self s.bareJID)
      (sendText self x >>= fun _ => pure s) fun _ => True := fun _ => sendText_solitary.given fun _ => Solitary.discreet
  refine ⟨trivial, ?_⟩
  intro old hold
  change EnsuresGiven _ _ (kick old >>= fun _ => sendText self _ >>= fun _ => pure s) _
  rw [ensuresGiven_bind]
  cases old with
  | none => exact hresult _
  | some t => exact ⟨Or.inr (hold t rfl), fun _ _ => ⟨trivial, fun _ _ => hresult _⟩⟩

theorem handleBind_private :
    EnsuresGiven (Honest owner) (Discreet owner self s.bareJID) (handleBind self s node) fun _ => True := by
  unfold handleBind
  split
  · exact refuse_solitary.given fun _ => Solitary.discreet
  split
  · refine ⟨trivial, ?_⟩
    intro resource _
    change EnsuresGiven _ _ (bindResource self _ _ >>= fun x => pure (x, RouteResult.ok)) _
    rw [ensuresGiven_bind]
    exact bindResource_private (s := { s with jidResource := resource, state := .bound })
  · change EnsuresGiven _ _ (bindResource self _ _ >>= fun x => pure (x, RouteResult.ok)) _
    rw [ensuresGiven_bind]
    exact bindResource_private (s := { s with jidResource := requestedResource node, state := .bound })

theorem whenActive_solitary {h : Handler RouteResult}
    (hh : s.isActive = true → Ensures (Solitary self) h fun _ => True) :
    Ensures (Solitary self) (GoStanza.whenActive self s node h) fun _ => True :=
  ensures_whenActive solitary_self hh trivial

theorem handleIQ_private (hauth : s.authenticated = true) (hname : node.name = "iq") (h : GoGuarded domain s node) :
    EnsuresGiven (Honest owner) (Discreet owner self s.bareJID) (handleIQ domain self s node) fun _ => True := by
  have hsolitary : ∀ {p : Handler (GoSession.Session × RouteResult)}, Ensures (Solitary self) p (fun _ => True) →
      EnsuresGiven (Honest owner) (Discreet owner self s.bareJID) p fun _ => True :=
    fun hp => hp.given fun _ => Solitary.discreet
  unfold GoGuarded at h
  simp only [hname, true_and] at h
  unfold handleIQ
  dsimp only
  split
  · next hreply =>
    rw [if_pos (show IsReply node from hreply)] at h
    split
    · trivial
    · next hserver =>
      rw [ensuresGiven_bind]
      apply forward_private
      by_contra hother
      exact h ⟨by simpa using hserver, hother⟩
  next hreply =>
  rw [if_neg (show ¬IsReply node from hreply)] at h
  split
  · exact handleBind_private
  next hbind =>
  split
  · exact hsolitary ((ensures_handleSessionIQ solitary_self).mpr trivial)
  next hsession =>
  split
  · next hroster =>
    rw [hroster, if_neg (by decide), if_neg (by decide)] at h
    exact hsolitary (whenActive_solitary fun hactive => absurd hactive (by rw [h]; decide))
  next hroster =>
  split
  · next hregister =>
    rw [hregister, if_neg (by decide), if_pos rfl] at h
    apply hsolitary
    rw [ensures_bind]
    exact registerHandleIQ_solitary hauth h
  next hregister =>
  split
  · exact hsolitary (whenActive_solitary fun _ => (ensures_discoReply solitary_self).mpr trivial)
  next hinfo =>
  split
  · exact hsolitary (whenActive_solitary fun _ => (ensures_discoReply solitary_self).mpr trivial)
  next hitems =>
  rw [if_neg (by simp [hbind, hsession, hinfo, hitems]), if_neg hregister] at h
  rw [h, if_neg (by simp)]
  exact hsolitary refuse_solitary

theorem route_private (hauth : s.authenticated = true) (h : GoGuarded domain s node) : GoPrivate owner domain self s node := by
  have hclose : ∀ condition, EnsuresGiven (Honest owner) (Discreet owner self s.bareJID)
      (sendError self condition >>= fun _ => pure (s, RouteResult.close)) fun _ => True := by
    intro condition
    apply Ensures.given (P := Solitary self) _ fun _ => Solitary.discreet
    rw [ensures_bind, ensures_sendError solitary_self]
    trivial
  unfold GoPrivate route
  rw [if_neg (by simp [hauth])]
  split
  · next hname => exact handleIQ_private hauth hname h
  next hname =>
  have hactive : s.isActive = false := by
    unfold GoGuarded at h
    rwa [if_neg fun hc => hname hc.1, if_neg fun hc => hname hc.1, if_neg fun hc => hname hc.1] at h
  rw [hactive]
  split
  · exact hclose _
  split
  · exact hclose _
  · exact hclose _

/-- As long as the state tells that no resource has been bound, the guarded stanzas
are exactly those that are kept private whoever is connected. -/
theorem route_private_iff (hauth : s.authenticated = true) (hinactive : s.isActive = false) :
    (∀ owner, GoPrivate owner domain self s node) ↔ GoGuarded domain s node := by
  refine ⟨?_, fun h owner => route_private hauth h⟩
  intro h
  unfold GoGuarded
  split
  · next hreply =>
    rintro ⟨hserver, hother⟩
    have hforward := h fun _ => GoSession.bareJID (node.attr "to")
    unfold GoPrivate route handleIQ at hforward
    dsimp only at hforward
    rw [if_neg (by simp [hauth]), if_pos hreply.1, if_pos (show _ ∨ _ from hreply.2), hserver, if_neg (by decide), ensuresGiven_bind] at hforward
    rcases (hforward.2 (some (self + 1)) fun _ _ => rfl).1 with hself | howner
    · omega
    · exact hother howner
  split
  · trivial
  split
  · next hreply hother hregister =>
    rintro ⟨htype, query, hquery, hremove⟩
    have hset := h fun _ => []
    have hnotReply : ¬IsReply node := fun hr => hreply ⟨hregister.1, hr⟩
    unfold GoPrivate route handleIQ at hset
    dsimp only at hset
    rw [if_neg (by simp [hauth]), if_pos hregister.1, if_neg (show ¬(_ ∨ _) from hnotReply), hregister.2, if_neg (by decide),
      if_neg (by decide), if_neg (by decide), if_pos rfl, ensuresGiven_bind] at hset
    unfold registerHandleIQ at hset
    rw [htype, if_neg (by decide), if_pos rfl] at hset
    unfold GoStanza.registerSet at hset
    rw [Option.mem_def.mp hquery] at hset
    dsimp only at hset
    rw [if_pos hremove, hauth, if_neg (by decide)] at hset
    exact (hset.2 () trivial).1
  · exact hinactive

end

end

/-- In every run in which the stanzas of sessions without a resource are guarded they are
kept private, and so is every guarded stanza of an authenticated session of the Go server. -/
theorem unbound_private (cfg : Config) (files : FileTree.Tree Content) (steps : List Step) (domain : Str) (self : ℕ)
    (s : GoSession.Session) (node : GoXml.XmlNode) (hauth : s.authenticated = true) :
    (Meets UnboundGuarded (Server.init cfg files) steps → Meets UnboundPrivate (Server.init cfg files) steps) ∧
      (GoGuarded domain s node → ∀ owner, GoPrivate owner domain self s node) ∧
      (s.isActive = false → (∀ owner, GoPrivate owner domain self s node) → GoGuarded domain s node) :=
  ⟨Meets.mono (fun _ => step_private) steps _, fun h _ => route_private hauth h,
    fun hinactive => (route_private_iff hauth hinactive).mp⟩

/-! ## A reply from a session without a resource -/

section
open GoXml GoSession GoStanza

/-- Alice is bound, and bob has authenticated. -/
def authenticatedOnly : List Step :=
  [.accept, .accept] ++ login 0 alicePlain ++ chunk 1 (streamHeaderTo "localhost" :: authPlain bobPlain)

/-- Bob writes to alice before he binds a resource. -/
def messageEarly : List Step :=
  authenticatedOnly ++ chunk 1 (streamHeaderTo "localhost" :: emptyStanza "message" [attr "to" "alice@localhost"])

/-- The same with the result of a query. -/
def replyEarly : List Step :=
  authenticatedOnly ++ [.beginRead 1, .sax 1 exampleOracle (streamHeaderTo "localhost"),
    .sax 1 exampleOracle (.startElement "iq" "jabber:client" [attr "type" "result", attr "to" "alice@localhost"])]

def goBob : GoSession.Session := { jidLocal := "bob", jidDomain := "localhost", state := .streamOpened, authenticated := true }

def goMessage : XmlNode := .mk "message" "jabber:client" [⟨"to", [], "alice@localhost"⟩] [] []

def goReply : XmlNode := .mk "iq" "jabber:client" [⟨"type", [], "result"⟩, ⟨"to", [], "alice@localhost"⟩] [] []

theorem message_private :
    Meets UnboundPrivate exampleServer messageEarly ∧
      ∀ owner, GoPrivate owner "localhost" 1 goBob goMessage := by
  have h := unbound_private exampleConfig (dataDirectory exampleAccounts) messageEarly "localhost" 1 goBob goMessage rfl
  refine ⟨h.1 (by decide +kernel), h.2.1 ?_⟩
  unfold GoGuarded
  rw [if_neg (by decide), if_neg (by decide), if_neg (by decide)]
  decide

/-- The result reaches alice, in both servers. -/
theorem reply_leaks :
    ¬Meets UnboundPrivate exampleServer (replyEarly ++ [.sax 1 exampleOracle .endElement]) ∧
      ¬∀ owner, GoPrivate owner "localhost" 1 goBob goReply := by
  constructor
  · intro h
    obtain ⟨-, hlast, -⟩ := meets_append [.sax 1 exampleOracle .endElement] replyEarly h
    generalize hsrv : run exampleServer replyEarly = srv at hlast
    have hstanza : ∃ stanza ∈ dispatched (srv.sess 1), stanza.name = "iq" ∧ Reply stanza ∧
        Forwards (addDepth srv 1 (-1)) 1 exampleOracle stanza := by
      subst hsrv
      decide +kernel
    obtain ⟨stanza, hd, hname, hreply, hforwards⟩ := hstanza
    have hparsing : parsing (addDepth srv 1 (-1)) 1 = true := by
      subst hsrv
      decide +kernel
    have hunbound : Unbound ((addDepth srv 1 (-1)).sess 1) := by
      subst hsrv
      decide +kernel
    have hprivate := hlast stanza hd hparsing hunbound
    have hroute : stanzaRoute (addDepth srv 1 (-1)) 1 exampleOracle stanza =
        routeReply (addDepth srv 1 (-1)) 1 exampleOracle stanza := by
      unfold stanzaRoute handleIq
      dsimp only
      rw [if_neg (by simp [hunbound.1]), if_pos hname, if_pos (show _ ∨ _ from hreply)]
    rw [hroute, routeReply_private_iff hname] at hprivate
    exact hprivate hforwards
  · intro h
    have hguarded := (route_private_iff rfl rfl).mp h
    unfold GoGuarded at hguarded
    rw [if_pos (by decide)] at hguarded
    exact hguarded (by unfold GoForwards; decide)

end

end Xmppd.BeforeBind
