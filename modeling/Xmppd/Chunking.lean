import Xmppd.Closing
import Xmppd.Evolution

/-!
# Reads and stanza boundaries

A connection is a sequence of bytes and the socket hands it over in pieces. The
parser is a parameter: which events it delivers for a byte depends on the bytes
fed to the same context before it, and on nothing else. What the callbacks draw
from outside is tied to the position in the byte sequence. The deferred reset of
the parser, the deferred teardown and the check of the read buffer act at the
end of a piece. Between two reads the read buffer is empty, since a parser
always exists.
-/
namespace Xmppd.Chunking
open CStrings FileTree LibXml Util ServerState User Streams Auth Stanza EventLoop Installation Frames Evolution Closing

def readBufSize : ℕ := 8192

/-- What a callback shows: the stanza it routed, and the state and the output of
the session after it. -/
structure Observation where
  stanza : Option Node
  state : State
  out : List Out
deriving DecidableEq

/-- The server, the bytes fed to the current parser context, the number of bytes
parsed so far and what has been observed. -/
structure Reader where
  srv : Server
  fed : List UInt8
  pos : ℕ
  log : List Observation

/-- The library and the draws: the events for a byte after those fed to the
context, what a callback draws, and what the end of a read draws. -/
structure World where
  parser : List UInt8 → UInt8 → List Sax
  draw : ℕ → ℕ → Oracle
  leave : ℕ → Oracle

/-- One callback, unless the process has ended. -/
def observe (i : ℕ) (o : Oracle) (r : Reader) (e : Sax) : Reader :=
  if r.srv.crashed then r
  else
    let srv := callback r.srv i o e
    { r with
      srv := srv
      log := r.log ++ [⟨routed r.srv i e, (srv.sess i).state, (srv.sess i).out⟩] }

/-- The callbacks for one byte, numbered. -/
def deliver (i : ℕ) (draw : ℕ → Oracle) : ℕ → Reader → List Sax → Reader
  | _, r, [] => r
  | k, r, e :: es => deliver i draw (k + 1) (observe i (draw k) r e) es

/-- `xmlParseChunk` on one byte. -/
def parseByte (w : World) (i : ℕ) (r : Reader) (b : UInt8) : Reader :=
  if r.srv.crashed then r
  else
    let r' := deliver i (w.draw r.pos) 0 r (w.parser r.fed b)
    { r' with fed := r.fed ++ [b], pos := r.pos + 1 }

/-- `session_on_readable` up to the return of the parser. -/
def parseChunk (w : World) (i : ℕ) (r : Reader) (chunk : List UInt8) : Reader :=
  chunk.foldl (parseByte w i) { r with srv := beginChunk r.srv i }

/-- `session_on_readable` after the parser has returned. -/
def finish (w : World) (i : ℕ) (r : Reader) : Reader :=
  if r.srv.crashed then r
  else
    { r with
      srv := endChunk r.srv i (w.leave r.pos)
      fed := if (r.srv.sess i).parserResetPending then [] else r.fed }

/-- `session_on_readable` on the bytes of one read. -/
def sessionOnReadable (w : World) (i : ℕ) (r : Reader) (chunk : List UInt8) : Reader :=
  if r.srv.crashed ∨ ¬r.srv.Live i then r
  else if readBufSize ≤ chunk.length then { r with srv := sessionTeardown r.srv i (w.leave r.pos) }
  else finish w i (parseChunk w i r chunk)

def readAll (w : World) (i : ℕ) (r : Reader) (chunks : List (List UInt8)) : Reader :=
  chunks.foldl (sessionOnReadable w i) r

/-! ## The reading session stays -/

theorem parsing_of_steady {srv srv' : Server} {i : ℕ} (h : Steady srv srv') (hp : parsing srv i = true) :
    parsing srv' i = true := by
  obtain ⟨hl, hx⟩ := of_decide_eq_true hp
  have hx' := h.get Session.inXmlParse (fun _ => rfl) i
  exact decide_eq_true ⟨(h.live i).mpr hl, hx'.trans hx⟩

theorem parsing_of_own {srv srv' : Server} {i : ℕ} (h : Own i srv srv') (hp : parsing srv i = true) :
    parsing srv' i = true := by
  obtain ⟨hl, hx⟩ := of_decide_eq_true hp
  exact decide_eq_true ⟨(h.live i).mpr hl, h.inXmlParse.trans hx⟩

theorem parsing_modify {srv : Server} {i : ℕ} {f : Session → Session} (hf : ∀ s, (f s).inXmlParse = s.inXmlParse)
    (hp : parsing srv i = true) : parsing (srv.modify i f) i = true := by
  obtain ⟨hl, hx⟩ := of_decide_eq_true hp
  have hx' := Server.sess_modify_congr Session.inXmlParse srv i i f hf
  exact decide_eq_true ⟨(Server.modify_live srv i i f).mpr hl, hx'.trans hx⟩

theorem kickConflict_parsing {srv : Server} {i : ℕ} (o : Oracle) (hp : parsing srv i = true) :
    parsing (kickConflict srv i o) i = true := by
  obtain ⟨hl, hx⟩ := of_decide_eq_true hp
  have hx' := standing.get Session.inXmlParse (fun _ => rfl) (kickConflict_standing srv i o)
  exact decide_eq_true ⟨kickConflict_live srv i o hl, hx'.trans hx⟩

theorem authHandleSasl_parsing {srv : Server} {i : ℕ} (stanza : Node) (hp : parsing srv i = true) :
    parsing (authHandleSasl srv i stanza) i = true := by
  unfold authHandleSasl
  split
  · exact parsing_modify (fun _ => rfl) hp
  · split
    · exact parsing_modify (fun _ => rfl) hp
    · dsimp only
      apply parsing_modify (by intro s; rfl)
      apply parsing_modify (by intro s; rfl)
      exact parsing_modify (by intro s; rfl) hp

theorem stanzaRoute_parsing {srv : Server} {i : ℕ} (o : Oracle) (stanza : Node) (hp : parsing srv i = true) :
    parsing (stanzaRoute srv i o stanza) i = true := by
  have hx := (of_decide_eq_true hp).2
  have herr : ∀ condition, parsing (streamSendError srv i o condition) i = true := by
    intro condition
    exact parsing_of_own (streamSendError_own o hx condition) hp
  by_cases hg : (srv.sess i).state = .streamOpened ∧ (srv.sess i).authenticated = false
  · have hg' : (srv.sess i).state = .streamOpened ∧ (!(srv.sess i).authenticated) = true := by simpa using hg
    rw [stanzaRoute, if_pos hg', routeBeforeAuth]
    split
    · exact authHandleSasl_parsing stanza hp
    · split
      · split
        · exact parsing_of_steady (steady_registerHandleIq srv i o stanza) hp
        · exact parsing_modify (fun _ => rfl) hp
      · exact herr _
  · by_cases ha : Activates stanza
    · rw [stanzaRoute_activates srv i o ha hg]
      split
      · unfold sessionHandleBind
        split
        · exact parsing_modify (fun _ => rfl) hp
        · dsimp only
          apply parsing_modify (by intro s; rfl)
          exact parsing_modify (by intro s; rfl) (kickConflict_parsing o hp)
      · unfold sessionHandleSessionIq
        dsimp only
        apply parsing_modify (by intro s; rfl)
        exact parsing_modify (by intro s; rfl) hp
    · have hg' : ¬((srv.sess i).state = .streamOpened ∧ (!(srv.sess i).authenticated) = true) := by simpa using hg
      rw [stanzaRoute, if_neg hg']
      split
      · next hn => exact parsing_of_steady (handleIq_steady srv i o hn ha) hp
      · split
        · split
          · exact parsing_of_steady (steady_handleMessage srv i o stanza) hp
          · exact herr _
        · split
          · split
            · exact parsing_of_steady (steady_handlePresence srv i o stanza) hp
            · exact herr _
          · exact herr _

/-- The session whose parser runs is not removed by its own events. -/
theorem callback_parsing {srv : Server} {i : ℕ} (o : Oracle) (e : Sax) (hp : parsing srv i = true) :
    parsing (callback srv i o e) i = true := by
  by_cases he : EndsStanza (srv.sess i) e
  · obtain ⟨rfl, hd, hb⟩ := he
    have hl := live_of_parsing hp
    obtain ⟨n, rest, hnr⟩ := List.exists_cons_of_ne_nil hb
    have hdis : dispatched (srv.sess i) = some (rest.foldl (fun c p => p.addChild c) n) := by
      simp [dispatched, hd, hnr, currentStanza]
    rw [callback, onEndElementNs_dispatched srv i o hl hdis]
    apply parsing_modify (by intro s; rfl)
    apply stanzaRoute_parsing
    exact parsing_of_own (addDepth_own (-1)) hp
  · exact parsing_of_own ((quiet_iff hp o e).mpr he).own hp

section
variable (w : World) (i : ℕ)

theorem deliver_parsing (draw : ℕ → Oracle) (es : List Sax) {k : ℕ} {r : Reader} (hp : parsing r.srv i = true) :
    parsing (deliver i draw k r es).srv i = true := by
  induction es generalizing k r with
  | nil => exact hp
  | cons e es ih =>
      apply ih
      unfold observe
      split
      · exact hp
      · exact callback_parsing _ e hp

theorem parseByte_parsing {r : Reader} (b : UInt8) (hp : parsing r.srv i = true) :
    parsing (parseByte w i r b).srv i = true := by
  unfold parseByte
  split
  · exact hp
  · exact deliver_parsing i _ _ hp

theorem parseBytes_parsing (bs : List UInt8) {r : Reader} (hp : parsing r.srv i = true) :
    parsing (bs.foldl (parseByte w i) r).srv i = true := by
  induction bs generalizing r with
  | nil => exact hp
  | cons b bs ih => exact ih (parseByte_parsing w i b hp)

theorem beginChunk_parsing {srv : Server} (hl : srv.Live i) : parsing (beginChunk srv i) i = true := by
  have hs : (beginChunk srv i).sess i = { srv.sess i with id := i, inXmlParse := true } := Server.sess_modify_self hl _
  refine decide_eq_true ⟨(Server.modify_live srv i i _).mpr hl, ?_⟩
  rw [hs]

theorem parseBytes_crashed (bs : List UInt8) {r : Reader} (hc : r.srv.crashed = true) :
    bs.foldl (parseByte w i) r = r := by
  induction bs with
  | nil => rfl
  | cons b bs ih =>
      have hb : parseByte w i r b = r := by rw [parseByte, if_pos hc]
      rw [List.foldl_cons, hb, ih]

end

/-- Two writes through one pointer that undo each other. -/
theorem modify_undone {srv : Server} {i : ℕ} {f g : Session → Session} (hl : srv.Live i)
    (h : { g { f (srv.sess i) with id := i } with id := i } = srv.sess i) : (srv.modify i f).modify i g = srv := by
  obtain ⟨hm, hi⟩ := Server.sess_mem hl
  have hs : ((srv.modify i f).modify i g).sessions = srv.sessions := by
    simp only [Server.modify, List.map_map]
    conv_rhs => rw [← List.map_id srv.sessions]
    apply List.map_congr_left
    intro s hs
    by_cases hsi : s.id = i
    · have he : srv.sess i = s := by
        rw [← hsi]
        exact Server.sess_of_mem hs
      rw [he] at h
      simp only [Function.comp, hsi, if_true]
      exact h
    · simp [hsi]
  cases srv
  simp only [Server.modify] at hs ⊢
  simp only [Server.mk.injEq, and_true, true_and]
  exact hs

/-- Nothing is deferred, or the process has ended. -/
def Calm (i : ℕ) (r : Reader) : Prop :=
  r.srv.crashed = true ∨ (r.srv.sess i).parserResetPending = false ∧ (r.srv.sess i).teardownPending = false

/-- A read that ends with nothing deferred, followed by another one, leaves the
server as if it had not ended. -/
theorem beginChunk_endChunk {srv : Server} {i : ℕ} (o : Oracle) (hp : parsing srv i = true)
    (hr : (srv.sess i).parserResetPending = false) (ht : (srv.sess i).teardownPending = false) :
    endChunk srv i o = srv.modify i closeChunk ∧ beginChunk (endChunk srv i o) i = srv := by
  obtain ⟨hl, hx⟩ := of_decide_eq_true hp
  have hid := (Server.sess_mem hl).2
  have hs : (srv.modify i closeChunk).sess i = { closeChunk (srv.sess i) with id := i } :=
    Server.sess_modify_self hl closeChunk
  have hclose : closeChunk (srv.sess i) = { srv.sess i with inXmlParse := false } := by
    simp [closeChunk, hr]
  have hend : endChunk srv i o = srv.modify i closeChunk := by
    have hpend : ((srv.modify i closeChunk).sess i).teardownPending = false := by
      rw [hs, hclose]
      exact ht
    simp [endChunk, hpend]
  refine ⟨hend, ?_⟩
  rw [hend, beginChunk]
  apply modify_undone hl
  rw [hclose]
  cases h : srv.sess i with
  | mk id state out jl jd jr building depth auth reset teardown inParse avail sent pres roster =>
      rw [h] at hx hid
      simp only at hx hid
      subst hx hid
      rfl

section
variable (w : World) (i : ℕ)

/-- Between two bytes at which nothing is deferred a read can be cut in two. -/
theorem sessionOnReadable_append {r : Reader} {p q : List UInt8} (hlen : (p ++ q).length < readBufSize)
    (hc : Calm i (parseChunk w i r p)) :
    sessionOnReadable w i r (p ++ q) = sessionOnReadable w i (sessionOnReadable w i r p) q := by
  have hp : p.length < readBufSize := by
    rw [List.length_append] at hlen
    omega
  have hq : q.length < readBufSize := by
    rw [List.length_append] at hlen
    omega
  by_cases hgone : r.srv.crashed ∨ ¬r.srv.Live i
  · have hr : ∀ c, sessionOnReadable w i r c = r := fun c => by rw [sessionOnReadable, if_pos hgone]
    rw [hr, hr, hr]
  · have hl : r.srv.Live i := by
      by_contra hn
      exact hgone (Or.inr hn)
    have hread : ∀ c, c.length < readBufSize → sessionOnReadable w i r c = finish w i (parseChunk w i r c) := by
      intro c hc
      rw [sessionOnReadable, if_neg hgone, if_neg (by omega)]
    have hpar : parsing (parseChunk w i r p).srv i = true :=
      parseBytes_parsing w i p (r := { r with srv := beginChunk r.srv i }) (beginChunk_parsing i hl)
    have hsplit : parseChunk w i r (p ++ q) = q.foldl (parseByte w i) (parseChunk w i r p) := by
      simp only [parseChunk, List.foldl_append]
    rw [hread _ hlen, hread _ hp, hsplit]
    generalize parseChunk w i r p = r₁ at hc hpar
    rcases hc with hcr | ⟨hreset, htear⟩
    · have hfin : finish w i r₁ = r₁ := by rw [finish, if_pos hcr]
      rw [parseBytes_crashed w i q hcr, hfin, sessionOnReadable, if_pos (Or.inl hcr)]
    · by_cases hcr : r₁.srv.crashed = true
      · have hfin : finish w i r₁ = r₁ := by rw [finish, if_pos hcr]
        rw [parseBytes_crashed w i q hcr, hfin, sessionOnReadable, if_pos (Or.inl hcr)]
      · obtain ⟨hend, hbegin⟩ := beginChunk_endChunk (w.leave r₁.pos) hpar hreset htear
        have hfin : finish w i r₁ = { r₁ with srv := endChunk r₁.srv i (w.leave r₁.pos) } := by
          simp only [finish, hcr, hreset, Bool.false_eq_true, if_false]
        have hstill : ¬((finish w i r₁).srv.crashed ∨ ¬(finish w i r₁).srv.Live i) := by
          rw [hfin]
          simp only [hend, Server.modify_crashed, Server.modify_live]
          intro h
          rcases h with h | h
          · exact hcr h
          · exact h (live_of_parsing hpar)
        rw [sessionOnReadable, if_neg hstill, if_neg (by omega), parseChunk, hfin]
        simp only [hbegin]

/-- A read shorter than the buffer in which nothing is deferred before the last byte. -/
def Aligned (r : Reader) (chunk : List UInt8) : Prop :=
  chunk.length < readBufSize ∧ ∀ p q, chunk = p ++ q → p ≠ [] → q ≠ [] → Calm i (parseChunk w i r p)

def AllAligned : Reader → List (List UInt8) → Prop
  | _, [] => True
  | r, c :: cs => Aligned w i r c ∧ AllAligned (sessionOnReadable w i r c) cs

/-- Reading byte by byte. -/
def readBytes (r : Reader) (bytes : List UInt8) : Reader :=
  bytes.foldl (fun r b => sessionOnReadable w i r [b]) r

theorem sessionOnReadable_bytes {r : Reader} {chunk : List UInt8} (hne : chunk ≠ []) (h : Aligned w i r chunk) :
    sessionOnReadable w i r chunk = readBytes w i r chunk := by
  induction chunk using List.reverseRec with
  | nil => exact absurd rfl hne
  | append_singleton p b ih =>
      by_cases hp : p = []
      · subst hp
        rfl
      · have hpa : Aligned w i r p := by
          constructor
          · have hl := h.1
            rw [List.length_append] at hl
            omega
          · intro p' q' he hp' hq'
            exact h.2 p' (q' ++ [b]) (by rw [he, List.append_assoc]) hp' (by simp)
        rw [sessionOnReadable_append w i h.1 (h.2 p [b] rfl hp (by simp)), ih hp hpa]
        simp only [readBytes, List.foldl_append, List.foldl_cons, List.foldl_nil]

theorem readAll_bytes {r : Reader} {chunks : List (List UInt8)} (hne : ∀ c ∈ chunks, c ≠ [])
    (h : AllAligned w i r chunks) : readAll w i r chunks = readBytes w i r chunks.flatten := by
  induction chunks generalizing r with
  | nil => rfl
  | cons c cs ih =>
      have hc := sessionOnReadable_bytes w i (hne c List.mem_cons_self) h.1
      have hcs := ih (fun c' hc' => hne c' (List.mem_cons_of_mem c hc')) h.2
      simp only [readAll, List.foldl_cons] at hcs ⊢
      rw [hcs, List.flatten_cons, readBytes, readBytes, List.foldl_append, hc]
      rfl

end

/-- The same stanzas were routed, with the same states and outputs, and the
session is there in both or in neither. -/
def SameOutcome (i : ℕ) (a b : Reader) : Prop := a.log = b.log ∧ (a.srv.Live i ↔ b.srv.Live i)

/-- Two ways of cutting a byte sequence into reads that end where something is
deferred have the same outcome, and leave the same server. -/
theorem chunking_independent (w : World) (i : ℕ) (r : Reader) (c₁ c₂ : List (List UInt8))
    (hbytes : c₁.flatten = c₂.flatten) (hne₁ : ∀ c ∈ c₁, c ≠ []) (hne₂ : ∀ c ∈ c₂, c ≠ [])
    (h₁ : AllAligned w i r c₁) (h₂ : AllAligned w i r c₂) :
    SameOutcome i (readAll w i r c₁) (readAll w i r c₂) ∧ (readAll w i r c₁).srv = (readAll w i r c₂).srv := by
  have he : readAll w i r c₁ = readAll w i r c₂ := by
    rw [readAll_bytes w i hne₁ h₁, readAll_bytes w i hne₂ h₂, hbytes]
  rw [he]
  exact ⟨⟨rfl, Iff.rfl⟩, rfl⟩

instance (i : ℕ) (r : Reader) : Decidable (Calm i r) := inferInstanceAs (Decidable (_ ∨ _ ∧ _))

/-- Nothing is deferred after any byte but the last, checked in one pass. -/
def calmAlong (w : World) (i : ℕ) : Reader → List UInt8 → Bool
  | r, b :: c :: bs => Calm i (parseByte w i r b) ∧ calmAlong w i (parseByte w i r b) (c :: bs)
  | _, _ => true

theorem calm_of_along {w : World} {i : ℕ} {p q : List UInt8} (hp : p ≠ []) (hq : q ≠ []) :
    ∀ r, calmAlong w i r (p ++ q) = true → Calm i (p.foldl (parseByte w i) r) := by
  induction p with
  | nil => exact absurd rfl hp
  | cons b bs ih =>
      intro r h
      cases bs with
      | nil =>
          obtain ⟨c, cs, rfl⟩ := List.exists_cons_of_ne_nil hq
          simp only [List.cons_append, List.nil_append, calmAlong, decide_eq_true_eq] at h
          exact h.1
      | cons c cs =>
          simp only [List.cons_append, calmAlong, decide_eq_true_eq] at h
          exact ih (by simp) _ h.2

theorem aligned_of_along {w : World} {i : ℕ} {r : Reader} {chunk : List UInt8} (hl : chunk.length < readBufSize)
    (h : calmAlong w i { r with srv := beginChunk r.srv i } chunk = true) : Aligned w i r chunk := by
  constructor
  · exact hl
  · intro p q he hp hq
    rw [he] at h
    exact calm_of_along hp hq _ h

def bytesOf (s : String) : List UInt8 := s.toList.map fun c => UInt8.ofNat c.toNat

def streamTag : List UInt8 := bytesOf "<stream to='localhost'>"

def authTag : List UInt8 := bytesOf "<auth xmlns='urn:ietf:params:xml:ns:xmpp-sasl' mechanism='PLAIN'>"

def authEnd : List UInt8 := bytesOf "AGFsaWNlAHBh</auth>"

/-- The events of a login and of the stream header after it, in the context of
the first stream and in a new one, by the number of bytes fed to the context. -/
def loginScript : List (ℕ × List Sax) :=
  [(23, [streamHeaderTo "localhost"]), (88, [.startElement "auth" saslNs [attr "mechanism" "PLAIN"]]),
    (107, [.characters alicePlain, .endElement]), (130, [streamHeaderTo "localhost"])]

def loginWorld : World where
  parser fed _ := ((loginScript.find? fun x => x.1 = fed.length + 1).map Prod.snd).getD []
  draw _ _ := exampleOracle
  leave _ := exampleOracle

def accepted : Reader := ⟨step exampleServer .accept, [], 0, []⟩

/-- The stream header after the login is sent before the answer is awaited. -/
theorem pipelined_login_lost :
    ¬∀ w i r c₁ c₂, (∀ c ∈ c₁ ++ c₂, 1 ≤ List.length c ∧ c.length ≤ readBufSize) → c₁.flatten = c₂.flatten →
      SameOutcome i (readAll w i r c₁) (readAll w i r c₂) := by
  intro h
  have hs := h loginWorld 0 accepted [streamTag ++ authTag ++ authEnd ++ streamTag]
    [streamTag ++ authTag ++ authEnd, streamTag] (by decide +kernel)
    (by simp only [List.flatten_cons, List.flatten_nil, List.append_nil])
  have hn : ((readAll loginWorld 0 accepted [streamTag ++ authTag ++ authEnd ++ streamTag]).log.map fun o => o.state) ≠
      (readAll loginWorld 0 accepted [streamTag ++ authTag ++ authEnd, streamTag]).log.map fun o => o.state := by
    decide +kernel
  apply hn
  rw [hs.1]

theorem awaited_aligned : AllAligned loginWorld 0 accepted [streamTag ++ authTag ++ authEnd, streamTag] := by
  constructor
  · exact aligned_of_along (by decide +kernel) (by decide +kernel)
  constructor
  · exact aligned_of_along (by decide +kernel) (by decide +kernel)
  · trivial

theorem separate_aligned : AllAligned loginWorld 0 accepted [streamTag, authTag ++ authEnd, streamTag] := by
  constructor
  · exact aligned_of_along (by decide +kernel) (by decide +kernel)
  constructor
  · exact aligned_of_along (by decide +kernel) (by decide +kernel)
  constructor
  · exact aligned_of_along (by decide +kernel) (by decide +kernel)
  · trivial

/-- The login in reads that end with it. -/
theorem awaited_login_independent :
    SameOutcome 0 (readAll loginWorld 0 accepted [streamTag ++ authTag ++ authEnd, streamTag])
        (readAll loginWorld 0 accepted [streamTag, authTag ++ authEnd, streamTag]) ∧
      (readAll loginWorld 0 accepted [streamTag ++ authTag ++ authEnd, streamTag]).srv =
        (readAll loginWorld 0 accepted [streamTag, authTag ++ authEnd, streamTag]).srv := by
  have hbytes : [streamTag ++ authTag ++ authEnd, streamTag].flatten =
      [streamTag, authTag ++ authEnd, streamTag].flatten := by
    simp only [List.flatten_cons, List.flatten_nil, List.append_nil, List.append_assoc]
  exact chunking_independent loginWorld 0 accepted _ _ hbytes (by decide +kernel) (by decide +kernel)
    awaited_aligned separate_aligned

end Xmppd.Chunking
