import Mathlib.Logic.Relation
import Xmppd.KeptRosters
import Xmppd.OfflineDirectory
import Xmppd.OwnAccount

/-!
# What the server does to its files

Whatever the server does to the file tree, it writes a file, makes a directory, unlinks a file
or removes a directory, one after another. Every handler that is not about accounts keeps to the
rosters, the stored messages and their directories, so that a condition on changes that allows
these is met by it.
-/
namespace Xmppd.Revisions
open CStrings FileTree LibXml Util ServerState User Roster Message Presence Streams Auth Stanza EventLoop Frames RosterStore Evolution
open Confinement OfflineDirectory PaddedNumbers Passwords OwnAccount

/-! ## Trees -/

inductive Change where
  | write
  | mkdir
  | unlink
  | rmdir
deriving DecidableEq, Repr

section
variable {κ : Type}

/-- One change, which is allowed at its place. -/
inductive Edit (P : Change → Path → Prop) : FileTree.Tree κ → FileTree.Tree κ → Prop
  | write {t u : FileTree.Tree κ} {p : Path} {c : κ} (h : t.write p c = some u) (hp : P .write p) : Edit P t u
  | mkdir {t u : FileTree.Tree κ} {p : Path} (h : t.mkdir p = some u) (hp : P .mkdir p) : Edit P t u
  | unlink (t : FileTree.Tree κ) (p : Path) (hp : P .unlink p) : Edit P t (t.unlink p)
  | rmdir (t : FileTree.Tree κ) (p : Path) (hp : P .rmdir p) : Edit P t (t.rmdir p)

def Edited (P : Change → Path → Prop) : FileTree.Tree κ → FileTree.Tree κ → Prop := Relation.ReflTransGen (Edit P)

end

/-! ## Places -/

/-- A name that stored messages have, as far as it is read. -/
def Letter (n : Name) : Prop := Tree.Plain n ∧ n.length ≤ 63 ∧ (n.length = 63 ∨ n.drop (n.length - 4) = (".xml" : Str))

theorem length_nextSeq (names : List Str) : (nextSeq names).length ≤ 11 := by
  unfold nextSeq
  split
  · next h =>
    rw [pad4_padded, PaddedNumbers.padded, List.length_append, List.length_replicate]
    have hten : (Nat.toDigits 10 (maxSeq names + 1)).length ≤ 10 := (Nat.length_toDigits_le_iff (by decide) (by decide)).mpr (by omega)
    omega
  · decide

theorem letter_nextSeq (names : List Str) : Letter (nextSeq names ++ (".xml" : Str)) := by
  have hslash : '/' ∉ nextSeq names ++ (".xml" : Str) := by
    intro h
    rcases List.mem_append.mp h with hdigit | hxml
    · have hno := nextSeq_chars hdigit
      revert hno
      decide
    · revert hxml
      decide
  have hhead : (nextSeq names ++ (".xml" : Str)).head? ≠ some '.' := by
    obtain ⟨c, cs, hcons⟩ := List.exists_cons_of_ne_nil (nextSeq_ne_nil names)
    rw [hcons, List.cons_append, List.head?_cons]
    intro h
    have hdigit : c ∈ nextSeq names := by
      rw [hcons]
      exact List.mem_cons_self
    have hno := nextSeq_chars hdigit
    rw [Option.some.inj h] at hno
    revert hno
    decide
  have htake := plain_take (k := (nextSeq names).length + 3) hslash (by simp) hhead
  rw [List.take_of_length_le (by rw [List.length_append]; exact Nat.le_refl _)] at htake
  have hlen : (nextSeq names ++ (".xml" : Str)).length = (nextSeq names).length + 4 := List.length_append
  have hshort := length_nextSeq names
  refine ⟨htake, by omega, .inr ?_⟩
  rw [hlen, Nat.add_sub_cancel, List.drop_left]

theorem letter_offlineNames {srv : Server} {dir n : Str} (h : n ∈ offlineNames srv dir) : Letter n := by
  obtain ⟨hplain, hlen⟩ := Offline.offlineNames_plain h
  refine ⟨hplain, hlen, ?_⟩
  obtain ⟨m, hm, rfl⟩ := List.mem_map.mp h
  obtain ⟨-, hxml⟩ := of_decide_eq_true (List.mem_filter.mp (List.mem_of_mem_take hm)).2
  rw [snprintf_str]
  by_cases hshort : m.length ≤ 63
  · right
    rwa [List.take_of_length_le (by omega)]
  · left
    rw [List.length_take]
    omega

/-- The changes to rosters and stored messages are allowed. -/
structure Permits (P : Change → Path → Prop) (cfg : Config) : Prop where
  roster : ∀ (name : Buf 256) (t : FileTree.Tree Content) q,
    t.resolve cfg.cwd (userPath cfg name.str "roster.xml") = some q → P .write q
  store : ∀ (name : Buf 256) (t : FileTree.Tree Content) q, t.resolve cfg.cwd (offlineDir cfg name.str) = some q → P .mkdir q
  letter : ∀ (name : Buf 256) n, Letter n → ∀ (t : FileTree.Tree Content) q,
    t.resolve cfg.cwd (fileIn (offlineDir cfg name.str) n) = some q → P .write q ∧ P .unlink q

/-! ## The server -/

/-- Only allowed changes have been made to the files. -/
structure Revised (P : Change → Path → Prop) (a b : Server) : Prop where
  cfg : b.cfg = a.cfg
  files : Edited P a.files b.files

section
variable {P : Change → Path → Prop} {a b c : Server}

theorem Revised.refl (srv : Server) : Revised P srv srv := ⟨rfl, .refl⟩

theorem Revised.trans (hab : Revised P a b) (hbc : Revised P b c) : Revised P a c :=
  ⟨hbc.cfg.trans hab.cfg, Relation.ReflTransGen.trans hab.files hbc.files⟩

theorem Revised.of_files (hcfg : b.cfg = a.cfg) (h : b.files = a.files) : Revised P a b := by
  refine ⟨hcfg, ?_⟩
  rw [h]
  exact .refl

theorem Revised.of_silent (h : Silent a b) : Revised P a b := .of_files h.cfg h.files

theorem Revised.silent (hab : Revised P a b) (hbc : Silent b c) : Revised P a c := hab.trans (.of_silent hbc)

theorem Revised.of_flow {R : Session → Session → Prop} (h : Flow R a b) : Revised P a b := .of_files h.cfg h.files

theorem Revised.foldl {α : Type} {f : Server → α → Server} {l : List α}
    (hf : ∀ srv, srv.cfg = a.cfg → ∀ x ∈ l, Revised P srv (f srv x)) (h : Revised P a b) : Revised P a (l.foldl f b) := by
  induction l generalizing b with
  | nil => exact h
  | cons x xs ih =>
      exact ih (fun srv hsrv y hy => hf srv hsrv y (List.mem_cons_of_mem x hy)) (h.trans (hf b h.cfg x List.mem_cons_self))

/-! ### Files -/

theorem revised_writeFile {path : Str} {x : Content} (h : writeFile a path x = some b) (hp : ∀ q, locate a path = some q → P .write q) :
    Revised P a b := by
  obtain ⟨q, t, hq, ht, rfl⟩ := writeFile_eq_some h
  exact ⟨rfl, .single (.write ht (hp q hq))⟩

theorem revised_mkdir {path : Str} (h : mkdir a path = some b) (hp : ∀ q, locate a path = some q → P .mkdir q) : Revised P a b := by
  obtain ⟨q, t, hq, ht, rfl⟩ := mkdir_eq_some h
  exact ⟨rfl, .single (.mkdir ht (hp q hq))⟩

theorem revised_getD {x : Option Server} (h : ∀ b, x = some b → Revised P a b) : Revised P a (x.getD a) := by
  cases x with
  | none => exact .refl a
  | some b => exact h b rfl

theorem revised_unlink {path : Str} (hp : ∀ q, locate a path = some q → P .unlink q) : Revised P a (unlink a path) := by
  unfold unlink
  split
  · next q hq => exact ⟨rfl, .single (.unlink a.files q (hp q hq))⟩
  · exact .refl a

theorem revised_rmdir {path : Str} (hp : ∀ q, locate a path = some q → P .rmdir q) : Revised P a (rmdir a path) := by
  unfold rmdir
  split
  · next q hq => exact ⟨rfl, .single (.rmdir a.files q (hp q hq))⟩
  · exact .refl a

end

section
variable {P : Change → Path → Prop} {srv : Server} (hP : Permits P srv.cfg) (i : ℕ) (o : Oracle) (stanza : Node)
include hP

theorem revised_rosterSaveForUser (name : Buf 256) (r : Roster) : Revised P srv (rosterSaveForUser srv name.str r) := by
  unfold rosterSaveForUser
  exact revised_getD fun b hb => revised_writeFile hb (hP.roster name srv.files)

theorem revised_editSave (f : Roster → Roster) : Revised P srv (rosterSave (modifyRoster srv i f) i) :=
  Revised.trans (b := modifyRoster srv i f) (.of_files rfl rfl) (@revised_rosterSaveForUser P (modifyRoster srv i f) hP _ _)

theorem revised_messageStoreOffline (name : Buf 256) : Revised P srv (messageStoreOffline srv o name.str stanza) := by
  have hmade : Revised P srv ((mkdir srv (offlineDir srv.cfg name.str)).getD srv) :=
    revised_getD fun b hb => revised_mkdir hb (hP.store name srv.files)
  unfold messageStoreOffline
  dsimp only
  generalize (mkdir srv (offlineDir srv.cfg name.str)).getD srv = b at hmade
  refine hmade.trans (revised_getD fun c hc => revised_writeFile hc fun q hq => ?_)
  rw [← hmade.cfg] at hP hq
  exact (hP.letter name _ (letter_nextSeq _) b.files q hq).1

theorem revised_messageDeliverOffline : Revised P srv (messageDeliverOffline srv i) := by
  have hletter : ∀ (b : Server) n, b.cfg = srv.cfg → Letter n →
      ∀ q, locate b (fileIn (offlineDir srv.cfg (srv.sess i).jidLocal.str) n) = some q → P .unlink q := by
    intro b n hb hn q hq
    rw [locate, hb] at hq
    exact (hP.letter _ n hn b.files q hq).2
  unfold messageDeliverOffline
  refine Revised.foldl ?_ (.refl srv)
  intro b hb n hn
  have hname := letter_offlineNames (Offline.mem_sortNames.mp hn)
  unfold deliverOne
  dsimp only
  split
  · exact (Revised.of_silent (.stanzaSend b i _)).trans (revised_unlink (hletter (b.stanzaSend i _) n hb hname))
  · exact revised_unlink (hletter b n hb hname)

end

theorem revised_ensureRoster {P : Change → Path → Prop} (srv : Server) (i : ℕ) : Revised P srv (ensureRoster srv i) :=
  .of_files (steady_ensureRoster srv i).cfg (Unreadable.files_ensureRoster srv i)

/-! ### Handlers -/

section
variable {P : Change → Path → Prop} {srv : Server} (hP : Permits P srv.cfg) (i : ℕ) (o : Oracle) (stanza : Node)
include hP

theorem revised_rosterHandleIq : Revised P srv (rosterHandleIq srv i o stanza) := by
  have ha := revised_ensureRoster (P := P) srv i
  unfold rosterHandleIq
  dsimp only
  generalize ensureRoster srv i = a at ha
  rw [← ha.cfg] at hP
  split
  · exact ha.silent (.stanzaSend _ i _)
  split
  · split
    · exact ha.silent (.stanzaSendError _ i _ _ _)
    · split
      · exact ha.silent (.stanzaSendError _ i _ _ _)
      · next jid _ =>
        split
        · exact ((ha.trans (revised_editSave hP i _)).silent (.stanzaSend _ i _)).silent (silent_rosterPush _ i _ _)
        · split
          · exact ((ha.trans (revised_editSave hP i _)).silent (.stanzaSend _ i _)).silent (silent_rosterPush _ i _ _)
          · exact (ha.trans (revised_editSave hP i _)).silent (.stanzaSend _ i _)
  · exact ha.silent (.stanzaSendError _ i _ _ _)

theorem revised_presenceHandleAvailable : Revised P srv (presenceHandleAvailable srv i o stanza) := by
  unfold presenceHandleAvailable
  dsimp only
  generalize stanza.setProp "from" (srv.sess i).fullJid.str = pres
  have hm : Revised P srv (srv.modify i fun s => { s with available := true, presenceStanza := some pres }) := .of_files rfl rfl
  have he := (hm.trans (revised_ensureRoster _ i)).silent (silent_exchangePresence _ i o pres)
  split
  · have hi := he.silent (Silent.modify _ i (f := fun s => { s with initialPresenceSent := true }) fun _ => rfl)
    refine (hi.trans (revised_messageDeliverOffline ?_ i)).silent (Silent.foldl (silent_redeliverPending i) _ _)
    rw [hi.cfg]
    exact hP
  · exact he

theorem revised_presenceHandleSubscribe (dest : Str) : Revised P srv (presenceHandleSubscribe srv i o dest) := by
  have ha := revised_ensureRoster (P := P) srv i
  unfold presenceHandleSubscribe
  dsimp only
  generalize ensureRoster srv i = a at ha
  rw [← ha.cfg] at hP
  have hs := ha.trans (revised_editSave hP i (requestItem (jidParse (o.stack 0) dest).jid.bare.str))
  split
  · exact hs.silent (.crash _)
  · split
    · exact (hs.silent (silent_rosterPush _ i _ _)).silent (.stanzaSend _ _ _)
    · exact hs.silent (silent_rosterPush _ i _ _)

theorem revised_grantTarget (target : Option ℕ) (localpart : Buf 256) (bare : Str) :
    Revised P srv (grantTarget srv o target localpart.str bare) := by
  unfold grantTarget
  dsimp only
  split
  · next t _ =>
    split
    · exact (revised_editSave hP t _).silent (silent_rosterPush _ _ _ _)
    · exact revised_editSave hP t _
  · exact revised_rosterSaveForUser hP _ _

theorem revised_presenceHandleSubscribed (dest : Str) : Revised P srv (presenceHandleSubscribed srv i o dest) := by
  have ha := revised_ensureRoster (P := P) srv i
  unfold presenceHandleSubscribed
  dsimp only
  generalize ensureRoster srv i = a at ha
  have hPa := hP
  rw [← ha.cfg] at hPa
  have hs := ha.trans (revised_editSave hPa i (approveItem (jidParse (o.stack 0) dest).jid.bare.str))
  split
  · exact hs.silent (.crash _)
  · next item _ =>
    have hpushed := hs.silent (silent_rosterPush _ i (o.ident 0) item)
    refine (hpushed.trans (revised_grantTarget ?_ o _ _ _)).silent (silent_notifySubscribed _ i _ _ _)
    rw [hpushed.cfg]
    exact hP

theorem revised_withdrawAt (id jid : Str) (f : RosterItem → RosterItem) : Revised P srv (withdrawAt srv i id jid f) := by
  unfold withdrawAt
  split
  · exact (revised_editSave hP i fun r => rosterEdit r jid f).silent (silent_rosterPush _ i _ _)
  · exact .refl srv

theorem revised_withdraw (type : Str) (own theirs : RosterItem → RosterItem) (dest : Str) :
    Revised P srv (withdraw type own theirs srv i o dest) := by
  have he := revised_ensureRoster (P := P) srv i
  have hPe := hP
  rw [← he.cfg] at hPe
  have ha := he.trans (revised_withdrawAt hPe i (o.ident 0) (jidParse (o.stack 0) dest).jid.bare.str own)
  unfold withdraw withdrawTarget
  dsimp only
  generalize withdrawAt (ensureRoster srv i) i _ _ own = a at ha
  rw [← ha.cfg] at hP
  split
  · next t _ =>
    have ht := ha.trans (revised_withdrawAt hP t (o.ident 1) (a.sess i).bareJid.str theirs)
    split
    · exact (ht.silent (.stanzaSend _ _ _)).silent (.stanzaSend _ _ _)
    · exact ht.silent (.stanzaSend _ _ _)
  · split
    · exact ha.trans (revised_rosterSaveForUser hP _ _)
    · exact ha

theorem revised_handlePresence : Revised P srv (handlePresence srv i o stanza) := by
  unfold handlePresence
  dsimp only
  split
  · exact revised_presenceHandleAvailable hP i o stanza
  split
  · exact .of_files (steady_presenceBroadcastUnavailable srv i o).cfg (presenceBroadcastUnavailable_files srv i o)
  split
  · exact revised_presenceHandleSubscribe hP i o _
  split
  · exact revised_presenceHandleSubscribed hP i o _
  split
  · exact revised_withdraw hP i o _ _ _ _
  split
  · exact revised_withdraw hP i o _ _ _ _
  · exact .refl srv

theorem revised_handleMessage : Revised P srv (handleMessage srv i o stanza) := by
  unfold handleMessage
  dsimp only
  split
  · exact .of_silent (.stanzaSendError srv i _ _ _)
  split
  · exact .of_silent (.stanzaSendError srv i _ _ _)
  split
  · exact .of_silent (.stanzaSendError srv i _ _ _)
  split
  · exact .of_silent (.stanzaSend srv _ _)
  split
  · exact .refl srv
  · exact revised_messageStoreOffline hP o _ _

end

/-- Any change of a record will do. -/
theorem loose_any : Loose fun _ _ => True where
  trans _ _ _ _ _ := trivial
  held _ _ _ := trivial
  opened _ := trivial
  returned _ := trivial
  bound _ _ := trivial
  started _ := trivial

/-- A registration request that reaches its handler. -/
def Registers (stanza : Node) : Prop := stanza.name = "iq" ∧ childNs stanza = registerNs

section
variable {P : Change → Path → Prop} {srv : Server} (hP : Permits P srv.cfg) (i : ℕ) (o : Oracle) (stanza : Node)
  (hreg : Registers stanza → Revised P srv (registerHandleIq srv i o stanza))
include hP hreg

theorem revised_handleIq (hname : stanza.name = "iq") : Revised P srv (handleIq srv i o stanza) := by
  have hguard : ∀ a, Revised P srv a → Revised P srv (whenActive srv i stanza a) := by
    intro a ha
    unfold whenActive
    split
    · exact ha
    · exact .of_silent (.stanzaSendError srv i _ _ _)
  unfold handleIq
  dsimp only
  split
  · exact .of_silent (silent_routeReply srv i o stanza)
  split
  · exact .of_flow (sessionHandleBind_flow srv i o loose_any stanza)
  split
  · exact .of_flow (sessionHandleSessionIq_flow srv i loose_any stanza)
  split
  · exact hguard _ (revised_rosterHandleIq hP i o stanza)
  split
  · exact hguard _ (.of_silent (.stanzaSend srv i _))
  split
  · exact hguard _ (.of_silent (.stanzaSend srv i _))
  split
  · next hns => exact hreg ⟨hname, hns⟩
  · exact .of_silent (silent_routeUnknown srv i o stanza)

theorem revised_stanzaRoute : Revised P srv (stanzaRoute srv i o stanza) := by
  have herror : ∀ condition, Revised P srv (streamSendError srv i o condition) :=
    fun condition => .of_flow (streamSendError_flow srv i o loose_any.toTame condition)
  unfold stanzaRoute
  split
  · next hgate =>
    have hunauth : (srv.sess i).authenticated = false := by simpa using hgate.2
    unfold routeBeforeAuth
    split
    · exact .of_flow (authHandleSasl_flow srv i loose_any.toTame (fun _ _ _ => trivial) stanza hunauth)
    split
    · next hname =>
      split
      · next hns => exact hreg ⟨hname, hns⟩
      · exact .of_silent (.stanzaSendError srv i _ _ _)
    · exact herror _
  split
  · next hname => exact revised_handleIq hP i o stanza hreg hname
  split
  · split
    · exact revised_handleMessage hP i o stanza
    · exact herror _
  split
  · split
    · exact revised_handlePresence hP i o stanza
    · exact herror _
  · exact herror _

end

/-! ### Accounts -/

/-- What a registration request asks of the accounts. -/
inductive Request where
  | remove (username : Str)
  | create (username password : Str)
  | change (username password : Str)
deriving DecidableEq, Repr

/-- The request of a session; the first match of one scan of the children decides whether it is a removal, the last
matches of another what the name and the password are. -/
def request (srv : Server) (i : ℕ) (stanza : Node) : Option Request :=
  let query := stanza.firstElement.getD (.text [])
  let uname := (lastContent query "username").getD []
  let pw := (lastContent query "password").getD []
  if stanza.prop "type" ≠ "set" then none
  else if (query.findChild "remove").isSome then
    if (srv.sess i).authenticated then some (.remove (srv.sess i).jidLocal.str) else none
  else if uname = [] ∨ pw = [] then none
  else if !(srv.sess i).authenticated then some (.create uname pw)
  else if uname ≠ (srv.sess i).jidLocal.str then none
  else some (.change uname pw)

def Request.perform (srv : Server) (o : Oracle) : Request → Server
  | .remove username => userDelete srv username
  | .create username password => (userCreate srv o username password).1
  | .change username password => (userChangePassword srv username password).1

/-- The user that a request is about. -/
def Request.username : Request → Str
  | .remove username => username
  | .create username _ => username
  | .change username _ => username

section
variable {P : Change → Path → Prop} {srv : Server} (i : ℕ) (o : Oracle) (stanza : Node)

/-- An account is made by a session that has not authenticated, and changed or removed by its own. -/
theorem request_own {r : Request} (hr : request srv i stanza = some r) :
    (srv.sess i).authenticated = false ∧ (∃ username password, r = .create username password) ∨
      (srv.sess i).authenticated = true ∧ r.username = (srv.sess i).jidLocal.str := by
  unfold request at hr
  dsimp only at hr
  generalize (lastContent (stanza.firstElement.getD (.text [])) "username").getD [] = uname at hr
  generalize (lastContent (stanza.firstElement.getD (.text [])) "password").getD [] = pw at hr
  split at hr
  · cases hr
  split at hr
  · cases hauth : (srv.sess i).authenticated with
    | false =>
        rw [hauth] at hr
        cases hr
    | true =>
        rw [hauth] at hr
        cases hr
        exact .inr ⟨rfl, rfl⟩
  split at hr
  · cases hr
  cases hauth : (srv.sess i).authenticated with
  | false =>
      rw [hauth] at hr
      cases hr
      exact .inl ⟨rfl, uname, pw, rfl⟩
  | true =>
      rw [hauth, if_neg (by decide)] at hr
      split at hr
      · cases hr
      next hname =>
      cases hr
      exact .inr ⟨rfl, not_not.mp hname⟩

theorem perform_filesOnly (r : Request) : FilesOnly srv (r.perform srv o) := by
  cases r with
  | remove username => exact filesOnly_userDelete srv username
  | create username password => exact userCreate_filesOnly srv o username password
  | change username password => exact filesOnly_userChangePassword srv username password

theorem unlink_modify (f : Session → Session) (path : Str) : unlink (srv.modify i f) path = (unlink srv path).modify i f := by
  unfold unlink
  rw [locate_modify]
  split <;> rfl

theorem rmdir_modify (f : Session → Session) (path : Str) : rmdir (srv.modify i f) path = (rmdir srv path).modify i f := by
  unfold rmdir
  rw [locate_modify]
  split <;> rfl

theorem userDelete_modify (f : Session → Session) (username : Str) :
    userDelete (srv.modify i f) username = (userDelete srv username).modify i f := by
  have hfold : ∀ (l : List Str) (path : Str → Str) (b : Server), l.foldl (fun b n => unlink b (path n)) (b.modify i f) =
      (l.foldl (fun b n => unlink b (path n)) b).modify i f := by
    intro l path
    induction l with
    | nil => exact fun _ => rfl
    | cons n ns ih =>
        intro b
        rw [List.foldl_cons, List.foldl_cons, unlink_modify, ih]
  have hlist : ∀ path, listDir (srv.modify i f) path = listDir srv path := fun _ => rfl
  unfold userDelete
  dsimp only
  rw [hlist, hfold, rmdir_modify, unlink_modify, unlink_modify, rmdir_modify]
  rfl

/-- Whatever a registration request is answered, its request is all it does to the files. -/
theorem register_files (srv : Server) : (registerHandleIq srv i o stanza).cfg = srv.cfg ∧
    (registerHandleIq srv i o stanza).files = (((request srv i stanza).map (Request.perform srv o)).getD srv).files := by
  have hcfg : ∀ {b : Server}, FilesOnly srv b → b.cfg = srv.cfg := fun h => (Same.of_filesOnly (v := holding) h).cfg
  have hcreate := fun username password => hcfg (userCreate_filesOnly srv o username password)
  have hchange := fun username password => hcfg (filesOnly_userChangePassword srv username password)
  unfold registerHandleIq request
  dsimp only
  by_cases hset : stanza.prop "type" = "set"
  · rw [if_neg (by rw [hset]; decide), if_pos hset, if_neg (not_not.mpr hset)]
    unfold registerSet
    dsimp only
    split
    · cases hauth : (srv.sess i).authenticated with
      | false => exact ⟨rfl, rfl⟩
      | true =>
          have hname : ((sendResultIq srv i (stanza.prop "id") true).sess i).jidLocal = (srv.sess i).jidLocal :=
            Server.sess_modify_congr Session.jidLocal srv i i _ fun _ => rfl
          refine ⟨(Same.of_filesOnly (v := holding) (filesOnly_userDelete _ _)).cfg, ?_⟩
          have hsame : userDelete (sendResultIq srv i (stanza.prop "id") true) (srv.sess i).jidLocal.str =
              (userDelete srv (srv.sess i).jidLocal.str).modify i _ := userDelete_modify i _ _
          rw [hname, if_neg (by decide), if_pos rfl, hsame]
          rfl
    generalize (lastContent (stanza.firstElement.getD (.text [])) "username").getD [] = uname
    generalize (lastContent (stanza.firstElement.getD (.text [])) "password").getD [] = pw
    split
    · exact ⟨rfl, rfl⟩
    cases hauth : (srv.sess i).authenticated with
    | false =>
        simp only [Bool.not_false, if_true, Option.map_some, Option.getD_some, Request.perform]
        have hc := hcreate uname pw
        unfold registerCreate
        dsimp only
        generalize userCreate srv o uname pw = r at hc
        split
        · exact ⟨hc, rfl⟩
        split
        · exact ⟨hc, rfl⟩
        split
        · exact ⟨hc, rfl⟩
        · exact ⟨hc, rfl⟩
    | true =>
        simp only [Bool.not_true, Bool.false_eq_true, if_false]
        split
        · exact ⟨rfl, rfl⟩
        have hc := hchange uname pw
        simp only [Option.map_some, Option.getD_some, Request.perform]
        generalize userChangePassword srv uname pw = r at hc
        split
        · exact ⟨hc, rfl⟩
        · exact ⟨hc, rfl⟩
  · rw [if_pos hset, if_neg hset]
    split <;> exact ⟨rfl, rfl⟩

theorem revised_registerHandleIq (hperform : ∀ r ∈ request srv i stanza, Revised P srv (r.perform srv o)) :
    Revised P srv (registerHandleIq srv i o stanza) := by
  obtain ⟨hcfg, hfiles⟩ := register_files i o stanza srv
  refine ⟨hcfg, ?_⟩
  rw [hfiles]
  cases hr : request srv i stanza with
  | none => exact .refl
  | some r => exact (hperform r hr).files

end

/-- `user_delete` keeps to what is below the user's directory. -/
theorem revised_userDelete {P : Change → Path → Prop} {srv : Server} {username : Str}
    (hP : ∀ (t : FileTree.Tree Content) p, t.resolve srv.cfg.cwd (userDir srv.cfg username) = some p → ∀ k q, p <+: q → P k q) :
    Revised P srv (userDelete srv username) := by
  have hd := userDir_ne_nil srv.cfg username
  have hlen := userDir_length srv.cfg username
  have hplace : ∀ {b : Server} {path : Str}, b.cfg = srv.cfg → Beneath b (userDir srv.cfg username) path →
      ∀ k q, locate b path = some q → P k q := by
    intro b path hcfg hbeneath k q hq
    obtain ⟨p, hp, hpre⟩ := hbeneath q hq
    rw [locate, hcfg] at hp
    exact hP b.files p hp k q hpre
  unfold userDelete
  dsimp only
  rw [fileIn_userDir srv.cfg username (by decide), fileIn_userDir srv.cfg username (by decide),
    fileIn_userDir srv.cfg username (by decide)]
  have hstored : Revised P srv ((listDir srv (userDir srv.cfg username ++ '/' :: ("offline" : Str))).foldl
      (fun b n => unlink b (snprintf 1792 (userDir srv.cfg username ++ '/' :: ("offline" : Str) ++ '/' :: n)).str) srv) := by
    refine Revised.foldl ?_ (.refl srv)
    intro b hb n hn
    obtain ⟨hslash, hdot⟩ := mem_listDir hn
    rw [fpath_eq hlen]
    exact revised_unlink (hplace hb (beneath_stored hd (by decide) (by decide) hslash hdot _) .unlink)
  generalize (listDir srv (userDir srv.cfg username ++ '/' :: ("offline" : Str))).foldl _ srv = a₁ at hstored
  have h₂ := hstored.trans (revised_rmdir (hplace hstored.cfg (@beneath_file _ _ hd "offline" (by decide) (by decide)) .rmdir))
  have h₃ := h₂.trans (revised_unlink (hplace h₂.cfg (@beneath_file _ _ hd "user.conf" (by decide) (by decide)) .unlink))
  have h₄ := h₃.trans (revised_unlink (hplace h₃.cfg (@beneath_file _ _ hd "roster.xml" (by decide) (by decide)) .unlink))
  exact h₄.trans (revised_rmdir (hplace h₄.cfg (.refl _ _) .rmdir))

theorem revised_userChangePassword {P : Change → Path → Prop} {srv : Server} {username : Str} (password : Str)
    (hp : ∀ q, locate srv (userPath srv.cfg username "user.conf") = some q → P .write q) :
    Revised P srv (userChangePassword srv username password).1 := by
  unfold userChangePassword
  split
  · exact .refl srv
  · next b hb => exact revised_writeFile hb hp

/-- `user_create` keeps to the user's directory and what is in it. -/
theorem revised_userCreate {P : Change → Path → Prop} {srv : Server} {username : Str} (o : Oracle) (password : Str)
    (hdir : ∀ p, locate srv (userDir srv.cfg username) = some p → P .mkdir p)
    (hin : ∀ (t : FileTree.Tree Content) p, t.resolve srv.cfg.cwd (userDir srv.cfg username) = some p →
      ∀ n, P .write (p ++ [n]) ∧ P .mkdir (p ++ [n])) :
    Revised P srv (userCreate srv o username password).1 := by
  have hd := userDir_ne_nil srv.cfg username
  have hplace : ∀ {b : Server} {n : Str}, b.cfg = srv.cfg → Tree.Plain n →
      ∀ q, locate b (userDir srv.cfg username ++ '/' :: n) = some q → P .write q ∧ P .mkdir q := by
    intro b n hcfg hn q hq
    obtain ⟨p, hp, -, rfl⟩ := Tree.resolve_plain hd hn hq
    rw [hcfg] at hp
    exact hin b.files p hp n
  unfold userCreate
  dsimp only
  rw [fileIn_userDir srv.cfg username (by decide), fileIn_userDir srv.cfg username (by decide),
    fileIn_userDir srv.cfg username (by decide)]
  split
  · exact .refl srv
  split
  · exact .refl srv
  split
  · exact .refl srv
  next s₁ h₁ =>
  have f₁ := revised_mkdir (eq_of_not_failed h₁) hdir
  split
  · exact f₁
  next s₂ h₂ =>
  have f₂ := f₁.trans (revised_writeFile (eq_of_not_failed h₂) fun q hq => (hplace f₁.cfg (by unfold Tree.Plain; decide) q hq).1)
  split
  · exact f₂
  next s₃ h₃ =>
  have f₃ := f₂.trans (revised_writeFile (eq_of_not_failed h₃) fun q hq => (hplace f₂.cfg (by unfold Tree.Plain; decide) q hq).1)
  split
  · exact f₃
  next s₄ h₄ =>
  exact f₃.trans (revised_mkdir (eq_of_not_failed h₄) fun q hq => (hplace f₃.cfg (by unfold Tree.Plain; decide) q hq).2)

/-! ## Steps -/


/-- The stanza that a step routes. -/
def routes (srv : Server) : Step → Option (ℕ × Oracle × Node)
  | .sax i o .endElement =>
      if srv.crashed = false ∧ parsing srv i = true then (dispatched (srv.sess i)).map fun stanza => (i, o, stanza) else none
  | _ => none

theorem routes_eq {srv : Server} {e : Step} {i : ℕ} {o : Oracle} {stanza : Node} (h : routes srv e = some (i, o, stanza)) :
    e = .sax i o .endElement ∧ srv.crashed = false ∧ parsing srv i = true ∧ dispatched (srv.sess i) = some stanza := by
  unfold routes at h
  split at h
  · next i' o' =>
    split at h
    · next hon =>
      obtain ⟨x, hx, he⟩ := Option.map_eq_some_iff.mp h
      cases he
      exact ⟨rfl, hon.1, hon.2, hx⟩
    · cases h
  · cases h

theorem step_routes {srv : Server} {e : Step} {i : ℕ} {o : Oracle} {stanza : Node} (h : routes srv e = some (i, o, stanza)) :
    step srv e = (stanzaRoute (addDepth srv i (-1)) i o stanza).modify i fun s => { s with building := [] } := by
  obtain ⟨rfl, hrun, hparsing, hd⟩ := routes_eq h
  unfold step
  rw [if_neg (by rw [hrun]; decide)]
  dsimp only
  rw [if_pos hparsing]
  exact onEndElementNs_dispatched srv i o (live_of_parsing hparsing) hd

/-- A step that routes no stanza leaves the files as they are. -/
theorem unrouted {srv : Server} {e : Step} (h : routes srv e = none) : (step srv e).cfg = srv.cfg ∧ (step srv e).files = srv.files := by
  by_cases hc : srv.crashed = true
  · unfold step
    rw [if_pos hc]
    exact ⟨rfl, rfl⟩
  · revert h
    refine step_cases (P := fun e srv' => routes srv e = none → srv'.cfg = srv.cfg ∧ srv'.files = srv.files) ?_ ?_ ?_ ?_ ?_ ?_ e
    · exact fun _ _ => ⟨rfl, rfl⟩
    · intro _ _
      unfold Server.serverAccept
      split <;> exact ⟨rfl, rfl⟩
    · intro i o _ _
      have hf := sessionTeardown_flow srv i o loose_any.toTame
      exact ⟨hf.cfg, hf.files⟩
    · exact fun i _ _ => ⟨rfl, rfl⟩
    · intro i o e hp hroutes
      rcases callback_cases srv i o loose_any.toTame (live_of_parsing hp) e with hf | ⟨rfl, stanza, hd, -⟩
      · exact ⟨hf.cfg, hf.files⟩
      · have hsome : routes srv (.sax i o .endElement) = (dispatched (srv.sess i)).map fun stanza => (i, o, stanza) :=
          if_pos ⟨Bool.eq_false_iff.mpr hc, hp⟩
        rw [hsome, hd] at hroutes
        cases hroutes
    · intro i o _ _
      have hf := endChunk_flow srv i o loose_any.toTame
      exact ⟨hf.cfg, hf.files⟩

end Xmppd.Revisions
