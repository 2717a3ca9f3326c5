import Xmppd.DistinctEntries
import Xmppd.MessageFate
import Xmppd.OfflineOrder
import Xmppd.Phases
import Xmppd.Queues

/-!
# Mailboxes

In a run of the event loop, messages are stored in a directory at one time and delivered from
it at another, and rosters are saved and other directories used in between. As long as nothing
else is put into it and no more than 256 messages wait when they are delivered, the directory is
a queue: what was stored in it is what was delivered and what is still there, in its order and
each message once.
-/
namespace Xmppd.Mailboxes
open CStrings FileTree LibXml Util ServerState User Roster Message Presence Streams Auth Stanza EventLoop Frames RosterStore Offline
open Evolution Confinement Unreadable OfflineDirectory OfflineOrder Revisions DistinctEntries Queues Installation

/-! ## Operations -/

/-- The localpart that a message is stored under. -/
def storedUnder (o : Oracle) (stanza : Node) : Str := (jidParse (o.stack 0) (stanza.prop "to")).jid.localpart.str

instance (srv : Server) (o : Oracle) (stanza : Node) : Decidable (Stores srv o stanza) :=
  inferInstanceAs (Decidable (_ ∧ _ ∧ _ ∧ _ ∧ _ ∧ _))

/-- A message of a bound session that is stored. -/
def Posts (srv : Server) (i : ℕ) (o : Oracle) (stanza : Node) : Prop :=
  (srv.sess i).isActive = true ∧ stanza.name = "message" ∧ Stores srv o stanza

/-- Initial presence of a bound session. -/
def Collects (srv : Server) (i : ℕ) (stanza : Node) : Prop :=
  (srv.sess i).isActive = true ∧ stanza.name = "presence" ∧ stanza.prop "type" = [] ∧ (srv.sess i).available = false

instance (srv : Server) (i : ℕ) (o : Oracle) (stanza : Node) : Decidable (Posts srv i o stanza) :=
  inferInstanceAs (Decidable (_ ∧ _ ∧ _))

instance (srv : Server) (i : ℕ) (stanza : Node) : Decidable (Collects srv i stanza) :=
  inferInstanceAs (Decidable (_ ∧ _ ∧ _ ∧ _))

/-- The message as it is stored. -/
def posted (srv : Server) (i : ℕ) (o : Oracle) (stanza : Node) : Node :=
  (stanza.setProp "from" (srv.sess i).fullJid.str).addChild (delayNode srv.cfg o)

/-- What a stanza does to the directory as a queue. -/
def routed (q : Path) (srv : Server) (i : ℕ) (o : Oracle) (stanza : Node) : Op Node :=
  if Posts srv i o stanza ∧ offlinePath srv (storedUnder o stanza) = some q then .put (posted srv i o stanza)
  else if Collects srv i stanza ∧ offlinePath srv (srv.sess i).jidLocal.str = some q then .takeAll
  else .skip

def operation (q : Path) (srv : Server) (e : Step) : Op Node :=
  match routes srv e with
  | some (i, o, stanza) => routed q (addDepth srv i (-1)) i o stanza
  | none => .skip

def operations (q : Path) : Server → List Step → List (Op Node)
  | _, [] => []
  | srv, e :: es => operation q srv e :: operations q (step srv e) es

/-- No roster is saved in the directory, no directory made in it, no more than 256 messages wait when they are
delivered, and nobody registers. -/
structure Undisturbed (q : Path) (srv : Server) (i : ℕ) (o : Oracle) (stanza : Node) : Prop where
  rosters : (srv.sess i).isActive = true → ∀ name ∈ rosters srv i o stanza, ∀ p ∈ spots srv name, p.dropLast ≠ q
  drawers : Posts srv i o stanza → ∀ d ∈ offlinePath srv (storedUnder o stanza), d = q ∨ d.dropLast ≠ q
  few : Collects srv i stanza → offlinePath srv (srv.sess i).jidLocal.str = some q → (srv.files.readdir q).length ≤ 256
  unregistered : stanza.name = "iq" → childNs stanza ≠ registerNs

instance (q : Path) (srv : Server) (i : ℕ) (o : Oracle) (stanza : Node) : Decidable (Undisturbed q srv i o stanza) :=
  decidable_of_iff
    (((srv.sess i).isActive = true → ∀ name ∈ Unreadable.rosters srv i o stanza, ∀ p ∈ spots srv name, p.dropLast ≠ q) ∧
      (Posts srv i o stanza → ∀ d ∈ offlinePath srv (storedUnder o stanza), d = q ∨ d.dropLast ≠ q) ∧
      (Collects srv i stanza → offlinePath srv (srv.sess i).jidLocal.str = some q → (srv.files.readdir q).length ≤ 256) ∧
      (stanza.name = "iq" → childNs stanza ≠ registerNs))
    ⟨fun h => ⟨h.1, h.2.1, h.2.2.1, h.2.2.2⟩, fun h => ⟨h.rosters, h.drawers, h.few, h.unregistered⟩⟩

/-! ## The directory left aside -/

/-- The directory has what it had. -/
structure Aside (q : Path) (a b : Server) : Prop where
  dir : b.files.isDir q = a.files.isDir q
  lookup : ∀ n, b.files.lookup (q ++ [n]) = a.files.lookup (q ++ [n])

section
variable {q : Path} {a b c : Server} {w : List Node}

theorem Aside.of_files (h : b.files = a.files) : Aside q a b := by
  constructor
  · rw [h]
  · intro n
    rw [h]

theorem Aside.trans (hab : Aside q a b) (hbc : Aside q b c) : Aside q a c :=
  ⟨hbc.dir.trans hab.dir, fun n => (hbc.lookup n).trans (hab.lookup n)⟩

/-- What is where is known from the directories and the contents. -/
theorem lookup_congr {t u : FileTree.Tree Content} {p : Path} (hp : p ≠ []) (hdir : u.isDir p = t.isDir p)
    (hcontent : u.content p = t.content p) : u.lookup p = t.lookup p := by
  obtain ⟨n, ns, rfl⟩ := List.exists_cons_of_ne_nil hp
  unfold Tree.isDir at hdir
  unfold Tree.content at hcontent
  revert hdir hcontent
  cases u.lookup (n :: ns) with
  | none =>
      cases t.lookup (n :: ns) with
      | none => simp
      | some e => cases e <;> simp
  | some x =>
      cases t.lookup (n :: ns) with
      | none => cases x <;> simp
      | some e => cases x <;> cases e <;> simp

theorem Aside.of_content (hdirs : ∀ p, b.files.isDir p = a.files.isDir p)
    (hcontent : ∀ n, b.files.content (q ++ [n]) = a.files.content (q ++ [n])) : Aside q a b :=
  ⟨hdirs q, fun n => lookup_congr (by simp) (hdirs _) (hcontent n)⟩

/-- Rosters are saved elsewhere. -/
theorem Aside.of_saving {names : List Str} (h : Saving names a b) (hq : ∀ name ∈ names, ∀ p ∈ spots a name, p.dropLast ≠ q) :
    Aside q a b := by
  obtain ⟨l, hwrote, hl⟩ := h
  refine .of_content hwrote.dirs fun n => ?_
  obtain ⟨-, hsame⟩ | ⟨hin, -⟩ := hwrote.content (q ++ [n])
  · exact hsame
  · obtain ⟨name, hname, hspot⟩ := (hl _).mp hin
    exact absurd List.dropLast_concat (hq name hname _ hspot)

theorem isDir_of_no_content {t : FileTree.Tree Content} {p : Path} (hp : p ≠ []) (hthere : (t.lookup p).isSome = true)
    (h : t.content p = none) : t.isDir p = true := by
  obtain ⟨n, ns, rfl⟩ := List.exists_cons_of_ne_nil hp
  unfold Tree.content at h
  unfold Tree.isDir
  revert hthere h
  cases t.lookup (n :: ns) with
  | none => simp
  | some e => cases e <;> simp

theorem holds_empty (hdir : a.files.isDir q = true) (hempty : a.files.readdir q = []) : Holds q [] a := by
  refine ⟨hdir, ?_, ?_, ?_, ?_, fun _ k m hm => nomatch hm⟩
  · rw [hempty]
    exact fun n hn => absurd hn List.not_mem_nil
  · rw [hempty]
    exact List.nodup_nil
  · rw [hempty]
    exact Nat.min_le_left _ _
  · intro _
    rw [hempty]
    exact .refl _

theorem holds_congr (h : Holds q w a) (hf : b.files = a.files) : Holds q w b := by
  refine ⟨?_, ?_, ?_, ?_, ?_, ?_⟩
  all_goals rw [hf]
  · exact h.dir
  · exact h.files
  · exact h.nodup
  · exact h.count
  · exact h.names
  · exact h.contents

theorem holds_aside (h : Holds q w a) (ha : Distinct a.files) (hb : Distinct b.files) (hab : Aside q a b) : Holds q w b := by
  have hcontent : ∀ n, b.files.content (q ++ [n]) = a.files.content (q ++ [n]) := by
    intro n
    rw [Tree.content, Tree.content, hab.lookup]
  have hlisting : (b.files.readdir q).Perm (a.files.readdir q) := readdir_perm ha hb fun n _ => hab.lookup n
  refine ⟨?_, ?_, hb.nodup_readdir q, ?_, ?_, ?_⟩
  · rw [hab.dir]
    exact h.dir
  · intro n hn
    rw [hcontent]
    exact h.files n (hlisting.mem_iff.mp hn)
  · rw [hlisting.length_eq]
    exact h.count
  · exact fun hlen => hlisting.trans (h.names hlen)
  · intro hlen k m hm
    rw [hcontent]
    exact h.contents hlen k m hm

end

/-! ## Storing elsewhere -/

section
variable {q : Path} {a b srv : Server} {path name : Str}

theorem aside_mkdir (h : mkdir a path = some b) (hp : ∀ p ∈ locate a path, p ≠ q ∧ p.dropLast ≠ q) : Aside q a b := by
  obtain ⟨p, t, hl, ht, rfl⟩ := mkdir_eq_some h
  obtain ⟨hnew, rfl⟩ := Tree.mkdir_eq_some ht
  obtain ⟨hne, hdrop⟩ := hp p hl
  constructor
  · rw [Bool.eq_iff_iff]
    refine (Tree.isDir_put_dir a.files (Tree.not_isDir_of_not_present hnew) q).trans ?_
    exact or_iff_left fun he => hne he.symm
  · intro n
    apply Tree.lookup_put_of_ne
    rintro rfl
    exact hdrop List.dropLast_concat

theorem aside_writeFile {c : Content} (h : writeFile a path c = some b) (hp : ∀ p ∈ locate a path, p.dropLast ≠ q) : Aside q a b := by
  obtain ⟨p, t, hl, ht, rfl⟩ := writeFile_eq_some h
  refine ⟨Tree.isDir_write ht q, fun n => Tree.lookup_write_of_ne ht ?_⟩
  rintro rfl
  exact hp _ hl List.dropLast_concat

/-- A message is stored elsewhere, in a directory that may be made for it. -/
theorem aside_store (hq : ∀ d ∈ offlinePath srv name, d ≠ q ∧ d.dropLast ≠ q) (o : Oracle) (stanza : Node) :
    Aside q srv (messageStoreOffline srv o name stanza) := by
  unfold messageStoreOffline
  dsimp only
  obtain ⟨hmade, hplace⟩ : Aside q srv ((mkdir srv (offlineDir srv.cfg name)).getD srv) ∧
      ∀ d ∈ locate ((mkdir srv (offlineDir srv.cfg name)).getD srv) (offlineDir srv.cfg name), d ≠ q := by
    cases hm : mkdir srv (offlineDir srv.cfg name) with
    | none => exact ⟨.of_files rfl, fun d hd => (hq d hd).1⟩
    | some b =>
        refine ⟨aside_mkdir hm hq, fun d hd => ?_⟩
        obtain ⟨p, t, hl, -, rfl⟩ := mkdir_eq_some hm
        rw [Tree.namei_agree hd hl]
        exact (hq p hl).1
  have hcfg : ((mkdir srv (offlineDir srv.cfg name)).getD srv).cfg = srv.cfg := by
    obtain ⟨t, ht⟩ := filesOnly_mkdir_getD srv (offlineDir srv.cfg name)
    rw [ht]
  generalize (mkdir srv (offlineDir srv.cfg name)).getD srv = b at hmade hplace hcfg
  cases hw : writeFile b (fileIn (offlineDir srv.cfg name) (nextSeq (listDir b (offlineDir srv.cfg name)) ++ (".xml" : Str)))
      (.xml (stanza.addChild (delayNode b.cfg o))) with
  | none => exact hmade
  | some c =>
      refine hmade.trans (aside_writeFile hw fun p hp => ?_)
      rw [← hcfg] at hp hplace
      have hlen := length_nextSeq (listDir b (offlineDir b.cfg name))
      obtain ⟨d, hd, rfl⟩ := locate_fileIn (letter_nextSeq _).1 (by rw [List.length_append]; change _ + 4 ≤ 255; omega) hp
      rw [List.dropLast_concat]
      exact hplace d hd

end

/-! ## One stanza -/

section
variable {q : Path} {srv : Server} {i : ℕ} {o : Oracle} {stanza : Node}

theorem handleMessage_stores (h : Stores srv o stanza) : handleMessage srv i o stanza =
    messageStoreOffline srv o (storedUnder o stanza) (stanza.setProp "from" (srv.sess i).fullJid.str) := by
  obtain ⟨hok, hlocal, hdomain, hexists, hnone, htype⟩ := h
  have hkind : (stanza.setProp "from" (srv.sess i).fullJid.str).getProp "type" = stanza.getProp "type" :=
    Node.getProp_setProp_of_ne stanza _ (by decide)
  unfold handleMessage
  dsimp only
  rw [if_neg (by rw [hok]; simpa using hlocal), if_neg (not_not.mpr hdomain), if_neg (by rw [hexists]; decide), hnone]
  dsimp only
  rw [hkind, if_neg htype]
  rfl

theorem files_handleMessage (h : ¬Stores srv o stanza) : (handleMessage srv i o stanza).files = srv.files := by
  have herror : ∀ type condition, (srv.stanzaSendError i stanza type condition).files = srv.files :=
    fun type condition => (Silent.stanzaSendError srv i stanza type condition).files
  have hkind : (stanza.setProp "from" (srv.sess i).fullJid.str).getProp "type" = stanza.getProp "type" :=
    Node.getProp_setProp_of_ne stanza _ (by decide)
  unfold handleMessage
  dsimp only
  rw [hkind]
  split
  · exact herror _ _
  next hgood =>
  split
  · exact herror _ _
  next hdomain =>
  split
  · exact herror _ _
  next hexists =>
  split
  · exact (Silent.stanzaSend srv _ _).files
  next hnone =>
  split
  · rfl
  next htype =>
  rw [not_or, Bool.not_eq_true', Bool.not_eq_false] at hgood
  rw [Bool.not_eq_true', Bool.not_eq_false] at hexists
  exact absurd ⟨hgood.1, hgood.2, not_not.mp hdomain, hexists, hnone, htype⟩ h

/-- A stored message goes to the directory, or elsewhere. -/
theorem message_aside (h : Posts srv i o stanza) (hu : Undisturbed q srv i o stanza)
    (hq : offlinePath srv (storedUnder o stanza) ≠ some q) : Aside q srv (stanzaRoute srv i o stanza) := by
  rw [stanzaRoute_message h.1 h.2.1, handleMessage_stores h.2.2]
  refine aside_store (fun d hd => ?_) o _
  have hne : d ≠ q := by
    rintro rfl
    exact hq hd
  exact ⟨hne, (hu.drawers h d hd).resolve_left hne⟩

/-- Available presence that is not initial leaves the files as they are. -/
theorem files_again (h : (srv.sess i).available = true) : (presenceHandleAvailable srv i o stanza).files = srv.files := by
  unfold presenceHandleAvailable
  dsimp only
  rw [h, if_neg (by decide)]
  exact (silent_exchangePresence _ i o _).files.trans (files_ensureRoster _ i)

/-- Presence that collects nothing from the directory leaves it aside. -/
theorem available_aside (hl : srv.Live i) (hq : (srv.sess i).available = false → offlinePath srv (srv.sess i).jidLocal.str ≠ some q) :
    Aside q srv (presenceHandleAvailable srv i o stanza) := by
  cases hfirst : (srv.sess i).available with
  | true => exact .of_files (files_again hfirst)
  | false =>
      obtain ⟨c, -, hsteady, hfiles, -, -, hroute⟩ := initial_presence hl hfirst o stanza
      have hplace : offlinePath c (c.sess i).jidLocal.str = offlinePath srv (srv.sess i).jidLocal.str := by
        rw [hsteady.get Session.jidLocal (fun _ => rfl) i]
        unfold offlinePath locate
        rw [hfiles, hsteady.cfg]
      have hspares : ∀ n, Spares (q ++ [n]) c (messageDeliverOffline c i) := by
        intro n
        apply spares_messageDeliverOffline
        rintro d hd rfl
        rw [hplace, List.dropLast_concat] at hd
        exact hq hfirst hd
      rw [hroute]
      refine (Aside.of_files hfiles).trans (.trans (b := messageDeliverOffline c i) ?_ (.of_files (content_redeliver _ i)))
      exact .of_content (samePlaces_messageDeliverOffline c i).dirs fun n => (hspares n).content

theorem presence_aside (hl : srv.Live i) (ha : (srv.sess i).isActive = true) (hname : stanza.name = "presence")
    (hu : Undisturbed q srv i o stanza) (hq : ¬(Collects srv i stanza ∧ offlinePath srv (srv.sess i).jidLocal.str = some q)) :
    Aside q srv (stanzaRoute srv i o stanza) := by
  rw [stanzaRoute_presence ha hname]
  by_cases htype : stanza.prop "type" = []
  · unfold handlePresence
    rw [if_pos htype]
    exact available_aside hl fun hfirst hplace => hq ⟨⟨ha, hname, htype, hfirst⟩, hplace⟩
  · have hrosters := hu.rosters ha
    unfold Unreadable.rosters at hrosters
    rw [if_pos hname] at hrosters
    exact .of_saving (handlePresence_saving hl htype) hrosters

theorem handleIq_aside (hl : srv.Live i) (hname : stanza.name = "iq") (hu : Undisturbed q srv i o stanza) :
    Aside q srv (handleIq srv i o stanza) := by
  have hguard : ∀ a, ((srv.sess i).isActive = true → Aside q srv a) → Aside q srv (whenActive srv i stanza a) := by
    intro a ha
    unfold whenActive
    split
    · next hactive => exact ha hactive
    · exact .of_files (Silent.stanzaSendError srv i _ _ _).files
  unfold handleIq
  dsimp only
  split
  · exact .of_files (silent_routeReply srv i o stanza).files
  split
  · exact .of_files (sessionHandleBind_flow srv i o loose_any stanza).files
  split
  · exact .of_files (sessionHandleSessionIq_flow srv i loose_any stanza).files
  split
  · refine hguard _ fun hactive => .of_saving (rosterHandleIq_saving hl) ?_
    have hrosters := hu.rosters hactive
    unfold Unreadable.rosters at hrosters
    rwa [if_neg (by rw [hname]; decide)] at hrosters
  split
  · exact hguard _ fun _ => .of_files (Silent.stanzaSend srv i _).files
  split
  · exact hguard _ fun _ => .of_files (Silent.stanzaSend srv i _).files
  split
  · next hregister => exact absurd hregister (hu.unregistered hname)
  · exact .of_files (silent_routeUnknown srv i o stanza).files

/-- A stanza that neither stores a message in the directory nor collects from it leaves it aside. -/
theorem route_aside (hl : srv.Live i) (hu : Undisturbed q srv i o stanza)
    (hpost : ¬(Posts srv i o stanza ∧ offlinePath srv (storedUnder o stanza) = some q))
    (hcollect : ¬(Collects srv i stanza ∧ offlinePath srv (srv.sess i).jidLocal.str = some q)) :
    Aside q srv (stanzaRoute srv i o stanza) := by
  have herror := fun condition => Aside.of_files (q := q) (streamSendError_flow srv i o loose_any.toTame condition).files
  by_cases hpresence : (srv.sess i).isActive = true ∧ stanza.name = "presence"
  · exact presence_aside hl hpresence.1 hpresence.2 hu hcollect
  by_cases hmessage : Posts srv i o stanza
  · exact message_aside hmessage hu fun h => hpost ⟨hmessage, h⟩
  unfold stanzaRoute
  split
  · next hgate =>
    have hunauth : (srv.sess i).authenticated = false := by simpa using hgate.2
    unfold routeBeforeAuth
    split
    · exact .of_files (authHandleSasl_flow srv i loose_any.toTame (fun _ _ _ => trivial) stanza hunauth).files
    split
    · next hname =>
      rw [if_neg (hu.unregistered hname)]
      exact .of_files (Silent.stanzaSendError srv i _ _ _).files
    · exact herror _
  split
  · next hname => exact handleIq_aside hl hname hu
  split
  · next hname =>
    split
    · next ha => exact .of_files (files_handleMessage fun hstores => hmessage ⟨ha, hname, hstores⟩)
    · exact herror _
  split
  · next hname =>
    split
    · next ha => exact absurd ⟨ha, hname⟩ hpresence
    · exact herror _
  · exact herror _

/-- A message is put at the end. -/
theorem holds_posted {w : List Node} (h : Holds q w srv) (hp : Posts srv i o stanza) (hq : offlinePath srv (storedUnder o stanza) = some q) :
    Holds q (w ++ [posted srv i o stanza]) (stanzaRoute srv i o stanza) := by
  rw [stanzaRoute_message hp.1 hp.2.1, handleMessage_stores hp.2.2]
  exact h.store hq o _

/-- All that waits is taken. -/
theorem holds_collected {w : List Node} (h : Holds q w srv) (hc : Collects srv i stanza)
    (hq : offlinePath srv (srv.sess i).jidLocal.str = some q) (hu : Undisturbed q srv i o stanza) :
    Holds q [] (stanzaRoute srv i o stanza) ∧
      Delivered q i (stanza.setProp "from" (srv.sess i).fullJid.str) w srv (stanzaRoute srv i o stanza) := by
  obtain ⟨ha, hname, htype, hfirst⟩ := hc
  have hl := Server.live_of_isActive ha
  have hfew : w.length ≤ 256 := by
    have hcount := h.count
    have hlisted := hu.few ⟨ha, hname, htype, hfirst⟩ hq
    omega
  have hdelivered := (h.delivered_iff o hq ha hname htype hfirst).mpr hfew
  refine ⟨?_, hdelivered⟩
  have hdirs : ∀ p, (stanzaRoute srv i o stanza).files.isDir p = srv.files.isDir p := by
    obtain ⟨c, -, -, hfiles, -, -, hroute⟩ := initial_presence hl hfirst o stanza
    intro p
    rw [stanzaRoute_initial ha hname htype, hroute, content_redeliver, (samePlaces_messageDeliverOffline c i).dirs, hfiles]
  have hempty : (stanzaRoute srv i o stanza).files.readdir q = [] := by
    rw [List.eq_nil_iff_forall_not_mem]
    intro n hn
    have hslash : '/' ∉ n := by simpa using (List.mem_filter.mp hn).2
    have hgone := hdelivered.2 n hn
    rw [mem_readdir _ hslash] at hn
    have hdir : srv.files.isDir (q ++ [n]) = true := by
      rw [← hdirs]
      exact isDir_of_no_content (by simp) hn hgone
    by_cases hlisted : n ∈ srv.files.readdir q
    · rw [isDir_file (by simp) (h.files n hlisted)] at hdir
      cases hdir
    · rw [isDir_unlisted srv.files hslash hlisted] at hdir
      cases hdir
  exact holds_empty ((hdirs q).trans h.dir) hempty

end

/-! ## Runs -/

/-- Nothing of the outputs and the presence that is shown depends on the depth or the tree that is built. -/
theorem delivered_around {q : Path} {i : ℕ} {pres : Node} {ms : List Node} {srv b : Server}
    (h : Delivered q i pres ms (addDepth srv i (-1)) b) :
    Delivered q i pres ms srv (b.modify i fun s => { s with building := [] }) := by
  obtain ⟨⟨before, after, hout, hbefore, hafter⟩, hgone⟩ := h
  have hshown : ∀ t, ((addDepth srv i (-1)).sess t).presenceStanza = (srv.sess t).presenceStanza :=
    fun t => Server.sess_modify_congr Session.presenceStanza srv i t _ fun _ => rfl
  have hsame : ((addDepth srv i (-1)).sess i).out = (srv.sess i).out :=
    Server.sess_modify_congr Session.out srv i i _ fun _ => rfl
  refine ⟨⟨before, after, ?_, ?_, hafter⟩, hgone⟩
  · rw [← hsame, ← hout]
    exact Server.sess_modify_congr Session.out b i i _ fun _ => rfl
  · intro n hn
    exact (hbefore n hn).imp_right fun ⟨t, ht⟩ => ⟨t, by rw [← hshown, ht]⟩

section
variable {q : Path} {srv : Server} {w : List Node}

/-- What a step does to the directory, and what it sends to a session that collects. -/
theorem holds_step (h : Holds q w srv) (hd : Distinct srv.files) {e : Step} (hu : OnStanza (Undisturbed q) srv e) :
    Holds q (after w (operation q srv e)) (step srv e) ∧
      (operation q srv e = .takeAll → ∃ i pres, e.owner = some i ∧ offlinePath srv (srv.sess i).jidLocal.str = some q ∧
        Delivered q i pres w srv (step srv e)) := by
  unfold operation
  cases hr : routes srv e with
  | none => exact ⟨holds_congr h ((unrouted hr).2), fun hno => nomatch hno⟩
  | some r =>
      obtain ⟨i, o, stanza⟩ := r
      obtain ⟨rfl, -, hparsing, hdispatched⟩ := routes_eq hr
      have hl : (addDepth srv i (-1)).Live i := (Server.modify_live srv i i _).mpr (live_of_parsing hparsing)
      have hstart : Holds q w (addDepth srv i (-1)) := holds_congr h rfl
      have hundisturbed : Undisturbed q (addDepth srv i (-1)) i o stanza := hu stanza hdispatched
      rw [step_routes hr]
      unfold routed
      dsimp only
      split
      · next hpost => exact ⟨holds_congr (holds_posted hstart hpost.1 hpost.2) rfl, fun hno => nomatch hno⟩
      · next hpost =>
        split
        · next hcollect =>
          obtain ⟨hempty, hdelivered⟩ := holds_collected hstart hcollect.1 hcollect.2 hundisturbed
          have hname : ((addDepth srv i (-1)).sess i).jidLocal = (srv.sess i).jidLocal :=
            Server.sess_modify_congr Session.jidLocal srv i i _ fun _ => rfl
          refine ⟨holds_congr hempty rfl, fun _ => ⟨i, _, rfl, ?_, delivered_around hdelivered⟩⟩
          rw [← hname]
          exact hcollect.2
        · next hcollect =>
          have haside := holds_aside hstart hd (hd.edited (revised_any (addDepth srv i (-1)) i o stanza).files)
            (route_aside hl hundisturbed hpost hcollect)
          exact ⟨holds_congr haside rfl, fun hno => nomatch hno⟩

end

theorem holds_run {q : Path} (steps : List Step) : ∀ {srv : Server} {w : List Node}, Holds q w srv →
    Distinct srv.files → Meets (OnStanza (Undisturbed q)) srv steps →
      Holds q (waiting w (operations q srv steps)) (run srv steps) := by
  induction steps with
  | nil => exact fun h _ _ => h
  | cons e es ih =>
      intro srv w h hd hmeets
      exact ih (holds_step h hd hmeets.1).1 (distinct_step hd e) hmeets.2

/-- In a run that leaves an empty directory to its messages, it holds those that wait, whoever collects is sent those
that wait at that moment, and what was collected and what waits is what was stored, in its order. -/
theorem mail_in_order {q : Path} {srv : Server} (hdistinct : Distinct srv.files) (hdir : srv.files.isDir q = true)
    (hempty : srv.files.readdir q = []) (steps : List Step) (hmeets : Meets (OnStanza (Undisturbed q)) srv steps) :
    Holds q (waiting [] (operations q srv steps)) (run srv steps) ∧
      taken [] (operations q srv steps) ++ waiting [] (operations q srv steps) = puts (operations q srv steps) ∧
      ∀ earlier e later, steps = earlier ++ e :: later → operation q (run srv earlier) e = .takeAll →
        ∃ i pres, e.owner = some i ∧ offlinePath (run srv earlier) ((run srv earlier).sess i).jidLocal.str = some q ∧
          Delivered q i pres (waiting [] (operations q srv earlier)) (run srv earlier) (run srv (earlier ++ [e])) := by
  have hstart := holds_empty hdir hempty
  refine ⟨holds_run steps hstart hdistinct hmeets, ?_, ?_⟩
  · exact taken_waiting [] (operations q srv steps)
  · rintro earlier e later rfl htake
    obtain ⟨hearlier, hrest⟩ := Phases.meets_append (e :: later) earlier hmeets
    have hholds := holds_run earlier hstart hdistinct hearlier
    have hstep := (holds_step hholds (distinct_run hdistinct earlier) hrest.1).2 htake
    have hlast : run srv (earlier ++ [e]) = step (run srv earlier) e := List.foldl_append
    rwa [hlast]

/-- Alice writes to bob twice before he comes, and once more after he has left. -/
def letters : List Step :=
  .accept :: login 0 alicePlain ++ chunk 0 (emptyStanza "message" [attr "to" "bob@localhost"]) ++
    chunk 0 (emptyStanza "message" [attr "to" "bob@localhost"]) ++ .accept :: login 1 bobPlain ++
    chunk 1 (emptyStanza "presence" []) ++ .hangup 1 exampleOracle :: chunk 0 (emptyStanza "message" [attr "to" "bob@localhost"])

theorem letters_in_order : Holds MessageFate.bobDrawer (waiting [] (operations MessageFate.bobDrawer exampleServer letters)) (run exampleServer letters) ∧
    taken [] (operations MessageFate.bobDrawer exampleServer letters) ++ waiting [] (operations MessageFate.bobDrawer exampleServer letters) =
      puts (operations MessageFate.bobDrawer exampleServer letters) ∧
    ∀ earlier e later, letters = earlier ++ e :: later → operation MessageFate.bobDrawer (run exampleServer earlier) e = .takeAll →
      ∃ i pres, e.owner = some i ∧
        offlinePath (run exampleServer earlier) ((run exampleServer earlier).sess i).jidLocal.str = some MessageFate.bobDrawer ∧
        Delivered MessageFate.bobDrawer i pres (waiting [] (operations MessageFate.bobDrawer exampleServer earlier))
          (run exampleServer earlier) (run exampleServer (earlier ++ [e])) := by
  have hdistinct : (exampleServer.files.entries.map Prod.fst).Nodup := by decide +kernel
  have hmeets : Meets (OnStanza (Undisturbed MessageFate.bobDrawer)) exampleServer letters := by decide +kernel
  exact mail_in_order hdistinct (by decide +kernel) (by decide +kernel) letters hmeets

end Xmppd.Mailboxes
