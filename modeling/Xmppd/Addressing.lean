import Xmppd.Evolution
import Xmppd.Addresses
import Xmppd.MessageFate

/-!
# Whose message it is

The parts of an address are put in arrays of 256 bytes and cut to them without a
word, and the session and the account are then looked up by what is left. A longer
name is taken for the account that its first 255 bytes name, and a resource that
does not fit is not refused either.
-/
namespace Xmppd.Addressing
open CStrings LibXml Util ServerState User Message Stanza Frames Evolution Confinement Installation Addresses MessageFate

/-- `local@domain` or `local@domain/resource`, of any length. -/
structure Address (dest : CString) (l d : Str) (r : Option Str) : Prop where
  eq : dest.str = l ++ '@' :: (d ++ r.elim [] ('/' :: ·))
  sign : '@' ∉ l
  slash : '/' ∉ l
  host : '/' ∉ d

/-- Every part fits its array. -/
structure Fits (l d : Str) (r : Option Str) : Prop where
  name : l.length < 256
  host : d.length < 256
  resource : (r.getD []).length < 256

/-- What is left of the address belongs to an account of this server. -/
structure CutUser (srv : Server) (l d : Str) : Prop where
  name : l ≠ []
  host : d ≠ []
  domain : d.take 255 = srv.cfg.domain.str
  known : userExists srv (l.take 255) = true

/-- The answer is an error, and nothing else happens. -/
def Refused (srv : Server) (i : ℕ) (stanza : Node) (srv' : Server) : Prop :=
  ∃ errorType condition, srv' = srv.stanzaSendError i stanza errorType condition

/-- The message is written to sessions of the user or stored for the user, if at all, and
an address that does not fit is refused. -/
structure Addressed (srv : Server) (i : ℕ) (o : Oracle) (stanza : Node) (l d : Str) (r : Option Str) (srv' : Server) : Prop where
  written : Refused srv i stanza srv' ∨
    ∀ t, (srv'.sess t).out ≠ (srv.sess t).out → (srv.sess t).jidLocal.str = l ∧ d = srv.cfg.domain.str
  stored : srv'.files ≠ srv.files →
    d = srv.cfg.domain.str ∧ ∃ n, srv'.files = (messageStoreOffline srv o l n).files
  fits : ¬Fits l d r → Refused srv i stanza srv'

section
variable {srv srv' : Server} {i : ℕ} {o : Oracle} {stanza : Node} {dest : CString} {l d : Str} {r : Option Str}

/-- The parser keeps the first 255 bytes of every part. -/
theorem Address.parse (h : Address dest l d r) (buf : Jid) :
    (jidParse buf dest.str).ok = decide (l ≠ [] ∧ d ≠ []) ∧
      (l ≠ [] → d ≠ [] → (jidParse buf dest.str).jid = ⟨snprintf 256 l, snprintf 256 d, snprintf 256 (r.getD [])⟩) := by
  have haddr := dest.addressable
  have heq := h.eq
  rw [heq] at haddr ⊢
  by_cases hl : l = []
  · subst hl
    exact ⟨rfl, fun hne => absurd rfl hne⟩
  cases r with
  | none =>
      rw [Option.elim_none, List.append_nil, jidParse_bare buf h.sign hl h.slash h.host]
      by_cases hd : d = []
      · rw [if_pos hd]
        exact ⟨by simp [hd], fun _ hne => absurd hd hne⟩
      · rw [if_neg hd]
        exact ⟨by simp [hl, hd], fun _ _ => rfl⟩
  | some r =>
      have hlen : (l ++ '@' :: d).length < 2^63 := by
        simp only [Option.elim_some, List.length_append, List.length_cons] at haddr ⊢
        omega
      rw [Option.elim_some, jidParse_full buf h.sign hl h.slash h.host hlen]
      by_cases hd : d = []
      · rw [if_pos hd]
        exact ⟨by simp [hd], fun _ hne => absurd hd hne⟩
      · rw [if_neg hd]
        exact ⟨by simp [hl, hd], fun _ _ => rfl⟩

/-- An address that leads to no account is answered with an error. -/
theorem refused_of_not_user (h : Address dest l d r) (hto : stanza.prop "to" = dest.str) (hcut : ¬CutUser srv l d) :
    Refused srv i stanza (handleMessage srv i o stanza) := by
  obtain ⟨hok, hjid⟩ := h.parse (o.stack 0)
  unfold handleMessage
  rw [hto]
  dsimp only
  generalize jidParse (o.stack 0) dest.str = p at hok hjid
  split
  · exact ⟨_, _, rfl⟩
  next hgood =>
  split
  · exact ⟨_, _, rfl⟩
  next hdomain =>
  split
  · exact ⟨_, _, rfl⟩
  next hknown =>
  exfalso
  rw [not_or, Bool.not_eq_true', Bool.not_eq_false, hok, decide_eq_true_eq] at hgood
  rw [not_not, hjid hgood.1.1 hgood.1.2] at hdomain
  rw [hjid hgood.1.1 hgood.1.2] at hknown
  exact hcut ⟨hgood.1.1, hgood.1.2, congrArg Buf.str hdomain, by simpa using hknown⟩

/-- The session that is found has the name that is left of the address. -/
theorem found_name (hhome : AtHome srv) {t : ℕ}
    (hfind : srv.sessionFindByJid (jidBare (snprintf 256 l) srv.cfg.domain).str = some t) :
    srv.Live t ∧ (srv.sess t).bareJid = jidBare (snprintf 256 l) srv.cfg.domain ∧ (srv.sess t).jidLocal.str = l.take 255 := by
  obtain ⟨s, hs, rfl, hne, hbare⟩ := Server.sessionFindByJid_some hfind
  rw [Server.sess_of_mem hs]
  refine ⟨Server.live_of_mem hs, Buf.ext hbare, ?_⟩
  rw [Session.bareJid, (hhome s hs).domain ((hhome s hs).known hne), jidBare_str, jidBare_str] at hbare
  exact List.append_cancel_right hbare

/-- For the account that is left of the address, the message is written, stored or dropped. -/
theorem accepted (h : Address dest l d r) (hto : stanza.prop "to" = dest.str) (hhome : AtHome srv) (hcut : CutUser srv l d) :
    (∃ t, srv.Live t ∧ (srv.sess t).bareJid = jidBare (snprintf 256 l) srv.cfg.domain ∧
        (srv.sess t).jidLocal.str = l.take 255 ∧
        handleMessage srv i o stanza = srv.stanzaSend t (stanza.setProp "from" (srv.sess i).fullJid.str)) ∨
      handleMessage srv i o stanza = srv ∨
      ∃ n, handleMessage srv i o stanza = messageStoreOffline srv o (l.take 255) n := by
  obtain ⟨hok, hjid⟩ := h.parse (o.stack 0)
  have hdomain : snprintf 256 d = srv.cfg.domain := Buf.ext hcut.domain
  have hname : l.take 255 ≠ [] := by
    intro he
    rcases List.take_eq_nil_iff.mp he with h | h
    · exact absurd h (by decide)
    · exact hcut.name h
  have hparsed := hjid hcut.name hcut.host
  rw [decide_eq_true ⟨hcut.name, hcut.host⟩] at hok
  rw [hdomain] at hparsed
  unfold handleMessage
  rw [hto]
  dsimp only
  rw [hok, hparsed, if_neg (by simpa using hname), if_neg (fun hd => hd rfl), if_neg (by simpa using hcut.known)]
  split
  next t hfind =>
    obtain ⟨hlive, hbare, hlocal⟩ := found_name hhome hfind
    exact .inl ⟨t, hlive, hbare, hlocal, rfl⟩
  next =>
    split
    · exact .inr (.inl rfl)
    · exact .inr (.inr ⟨_, rfl⟩)

theorem out_refused (hl : srv.Live i) (h : Refused srv i stanza srv') : (srv'.sess i).out ≠ (srv.sess i).out := by
  obtain ⟨errorType, condition, rfl⟩ := h
  intro he
  unfold Server.stanzaSendError at he
  rw [out_stanzaSend hl] at he
  exact absurd he (by simp)

/-- An accepted message is not refused. -/
theorem not_refused (h : Address dest l d r) (hto : stanza.prop "to" = dest.str) (hname : stanza.name = "message")
    (hhome : AtHome srv) (hcut : CutUser srv l d) (hl : srv.Live i) : ¬Refused srv i stanza (handleMessage srv i o stanza) := by
  intro hrefused
  have hout := out_refused hl hrefused
  rcases accepted h hto hhome hcut with ⟨t, ht, hbare, -, hsent⟩ | hnone | ⟨n, hstored⟩
  · have hdomain : snprintf 256 d = srv.cfg.domain := Buf.ext hcut.domain
    have hjid : addressee o stanza = ⟨snprintf 256 l, srv.cfg.domain, snprintf 256 (r.getD [])⟩ := by
      rw [addressee, hto, (h.parse (o.stack 0)).2 hcut.name hcut.host, hdomain]
    have hbare' : (srv.sess t).bareJid.str = (addressee o stanza).bare.str := by
      rw [hbare, hjid]
      rfl
    have hlocal : IsLocalUser srv o stanza := by
      rw [IsLocalUser, hjid]
      exact ⟨rfl, hcut.known⟩
    have helement : stanza.isElement = true := isElement_of_name (by rw [hname]; decide)
    exact refused_not_delivered hl hrefused ⟨hlocal, t, _, ht, hbare', stamped_setProp helement _, hsent⟩
  · exact hout (by rw [hnone])
  · obtain ⟨files, hfiles⟩ := filesOnly_messageStoreOffline srv o (l.take 255) n
    rw [hstored, hfiles] at hout
    exact hout rfl

/-- Nobody else gets the message exactly if the address fits, or what is left of it is nobody's. -/
theorem addressed_iff (h : Address dest l d r) (hto : stanza.prop "to" = dest.str) (hname : stanza.name = "message")
    (hhome : AtHome srv) (hbound : (srv.sess i).isActive = true) :
    Addressed srv i o stanza l d r (stanzaRoute srv i o stanza) ↔ Fits l d r ∨ ¬CutUser srv l d := by
  rw [stanzaRoute_message hbound hname]
  by_cases hcut : CutUser srv l d
  · have hnot := not_refused h hto hname hhome hcut (Server.live_of_isActive hbound) (o := o)
    constructor
    · intro ha
      by_contra hboth
      rw [not_or] at hboth
      exact hnot (ha.fits hboth.1)
    · intro hor
      have hfits := hor.resolve_right fun hn => hn hcut
      have hl : l.take 255 = l := List.take_of_length_le (by have := hfits.name; omega)
      have hd : d = srv.cfg.domain.str := by
        rw [← hcut.domain, List.take_of_length_le (by have := hfits.host; omega)]
      have haccepted := accepted h hto hhome hcut (i := i) (o := o)
      rw [hl] at haccepted
      refine ⟨.inr ?_, ?_, fun hn => absurd hfits hn⟩
      · intro t ht
        refine ⟨?_, hd⟩
        rcases haccepted with ⟨u, -, -, hlocal, hsent⟩ | hnone | ⟨n, hstored⟩
        · by_cases htu : t = u
          · rw [htu]
            exact hlocal
          · rw [hsent, Server.stanzaSend, Server.sessionWrite, Server.sess_modify_of_ne _ _ _ _ htu] at ht
            exact absurd rfl ht
        · rw [hnone] at ht
          exact absurd rfl ht
        · obtain ⟨files, hfiles⟩ := filesOnly_messageStoreOffline srv o l n
          rw [hstored, hfiles] at ht
          exact absurd rfl ht
      · intro hfiles
        rcases haccepted with ⟨u, -, -, -, hsent⟩ | hnone | ⟨n, hstored⟩
        · rw [hsent] at hfiles
          exact absurd rfl hfiles
        · rw [hnone] at hfiles
          exact absurd rfl hfiles
        · exact ⟨hd, n, congrArg Server.files hstored⟩
  · have hrefused : Refused srv i stanza (handleMessage srv i o stanza) := refused_of_not_user h hto hcut
    refine iff_of_true ⟨.inl hrefused, ?_, fun _ => hrefused⟩ (.inr hcut)
    intro hfiles
    obtain ⟨errorType, condition, he⟩ := hrefused
    rw [he] at hfiles
    exact absurd rfl hfiles

end

/-- The account of a name that takes all of its 255 bytes. -/
def longName : Str := List.replicate 255 'a'

def longServer : Server := { aliceBound with files := dataDirectory [("alice", "pa"), (longName, "pb")] }

/-- One byte more than the name of the account. -/
def longDest : CString := ⟨List.replicate 256 'a' ++ ("@localhost" : Str), by decide +kernel, by decide +kernel⟩

def bobDest : CString := ⟨"bob@localhost", by decide, by decide⟩

theorem bobDest_address : Address bobDest "bob" "localhost" none := ⟨by decide, by decide, by decide, by decide⟩

theorem longDest_address : Address longDest (List.replicate 256 'a') "localhost" none :=
  ⟨by decide +kernel, by decide +kernel, by decide +kernel, by decide⟩

set_option maxRecDepth 20000 in
theorem aliceBound_home : AtHome aliceBound := by
  have hall : (aliceBound.sessions.all fun s => (s.jidLocal.str = [] ∨ s.authenticated = true) ∧
      (s.authenticated = false ∨ s.jidDomain = aliceBound.cfg.domain)) = true := by decide +kernel
  intro s hs
  have hone := of_decide_eq_true (List.all_eq_true.mp hall s hs)
  exact ⟨fun hne => hone.1.resolve_left hne, fun hau => hone.2.resolve_left (by rw [hau]; decide)⟩

/-- Other files make no difference. -/
theorem atHome_files {srv : Server} (h : AtHome srv) (files : FileTree.Tree Content) : AtHome { srv with files := files } := h

set_option maxRecDepth 20000 in
/-- A message to bob is addressed to bob. -/
theorem letter_addressed :
    Addressed aliceBound 0 exampleOracle (letterTo "bob@localhost") "bob" "localhost" none
      (stanzaRoute aliceBound 0 exampleOracle (letterTo "bob@localhost")) :=
  (addressed_iff bobDest_address (by decide +kernel) rfl aliceBound_home (by decide +kernel)).mpr
    (.inl ⟨by decide, by decide, by decide⟩)

set_option maxRecDepth 20000 in
/-- A message to a name of 256 bytes is stored for the account of the first 255. -/
theorem long_name_confused :
    ¬∀ (srv : Server) (i : ℕ) (o : Oracle) (stanza : Node) (dest : CString) (l d : Str) (r : Option Str),
      Address dest l d r → stanza.prop "to" = dest.str → stanza.name = "message" → AtHome srv →
      (srv.sess i).isActive = true → Addressed srv i o stanza l d r (stanzaRoute srv i o stanza) := by
  intro h
  have hto : (letterTo longDest.str).prop "to" = longDest.str := by decide +kernel
  have hbound : (longServer.sess 0).isActive = true := by decide +kernel
  have hhome : AtHome longServer := atHome_files aliceBound_home _
  have haddressed := h longServer 0 exampleOracle (letterTo longDest.str) longDest _ _ none longDest_address hto rfl hhome hbound
  rcases (addressed_iff longDest_address hto rfl hhome hbound).mp haddressed with hfits | hcut
  · exact absurd hfits.name (by decide +kernel)
  · exact hcut ⟨by decide, by decide, by decide +kernel, by decide +kernel⟩

end Xmppd.Addressing
