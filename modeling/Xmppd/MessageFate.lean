import Xmppd.OfflineDirectory

/-!
# What becomes of a message

A message of a bound session is refused, written to one session, stored for its
user, or dropped. The fates exclude one another. One of them is met unless the
directory of the user has used up the numbers: the next number then wraps around,
and a message that was stored under its name is overwritten.
-/
namespace Xmppd.MessageFate
open CStrings FileTree LibXml Util ServerState User Message Stanza Offline Confinement OfflineDirectory Installation

/-- The value of the attribute that has no namespace. -/
def plainProp (n : Node) (a : Str) : Option Str := (n.attrs.find? fun x => x.name = a ∧ x.ns = []).map Attr.value

/-- The stanza with this sender and these elements behind its own, otherwise as it was. -/
structure Stamped (stanza n : Node) (sender : Str) (extra : List Node) : Prop where
  name : n.name = stanza.name
  ns : n.ns = stanza.ns
  children : n.children = stanza.children ++ extra
  sender : plainProp n "from" = some sender
  attrs : (n.attrs.filter fun x => ¬(x.name = ("from" : Str) ∧ x.ns = [])) =
    stanza.attrs.filter fun x => ¬(x.name = ("from" : Str) ∧ x.ns = [])

inductive Fate where
  | refused | delivered | stored | dropped
deriving DecidableEq, Repr

section
variable (srv : Server) (i : ℕ) (o : Oracle) (stanza : Node)

/-- What `jid_parse` makes of the address. -/
def addressee : Jid := (jidParse (o.stack 0) (stanza.prop "to")).jid

def IsLocalUser : Prop :=
  (addressee o stanza).domain = srv.cfg.domain ∧ userExists srv (addressee o stanza).localpart.str = true

/-- Beside one new file, and its directory, nothing has changed. -/
def NewFile (srv srv' : Server) (q : Path) (file : Name) (c : Content) : Prop :=
  srv' = { srv with files := srv'.files } ∧ srv.files.present (q ++ [file]) = false ∧
    (∀ p, srv'.files.content p = if p = q ++ [file] then some c else srv.files.content p) ∧
    ∀ p, srv'.files.isDir p = true ↔ srv.files.isDir p = true ∨ p = q

/-- The state after each of the fates. -/
def Meets (srv' : Server) : Fate → Prop
  | .refused => ∃ errorType condition, srv' = srv.stanzaSendError i stanza errorType condition
  | .delivered => IsLocalUser srv o stanza ∧ ∃ t n, srv.Live t ∧
      (srv.sess t).bareJid.str = (addressee o stanza).bare.str ∧ Stamped stanza n (srv.sess i).fullJid.str [] ∧
      srv' = srv.stanzaSend t n
  | .stored => IsLocalUser srv o stanza ∧ ∃ q file n, offlinePath srv (addressee o stanza).localpart.str = some q ∧
      Stamped stanza n (srv.sess i).fullJid.str [delayNode srv.cfg o] ∧ NewFile srv srv' q file (.xml n)
  | .dropped => srv' = srv ∧ stanza.getProp "type" = some "error" ∧ IsLocalUser srv o stanza ∧
      ∀ s ∈ srv.sessions, s.jidLocal.str ≠ [] → s.bareJid.str ≠ (addressee o stanza).bare.str

/-- The largest number is taken, and so is the name of the one after it. -/
def Exhausted (name : Str) : Prop :=
  ∃ q, offlinePath srv name = some q ∧ (∃ n ∈ visible srv q, atoi n = 2 ^ 31 - 1) ∧
    ("-2147483648.xml" : Str) ∈ visible srv q

end

/-! ## The stanza that is written -/

theorem stamped_setProp {stanza : Node} (h : stanza.isElement = true) (v : Str) :
    Stamped stanza (stanza.setProp "from" v) v [] := by
  cases stanza with
  | text s => cases h
  | element m u as cs =>
      unfold Node.setProp
      dsimp only
      split
      · next hany =>
        have hkeep : ∀ x : Attr, ((if x.name = ("from" : Str) ∧ x.ns = [] then { x with value := v } else x).name = "from" ∧
            (if x.name = ("from" : Str) ∧ x.ns = [] then { x with value := v } else x).ns = []) ↔
              x.name = ("from" : Str) ∧ x.ns = [] := by
          intro x
          split <;> rfl
        refine ⟨rfl, rfl, (List.append_nil cs).symm, ?_, ?_⟩
        · rw [plainProp, Node.attrs, List.find?_map, Option.map_map]
          simp only [Function.comp_def, hkeep]
          cases hfind : as.find? fun x => decide (x.name = ("from" : Str) ∧ x.ns = []) with
          | none =>
              rw [List.any_eq_true] at hany
              obtain ⟨x, hx, hfrom⟩ := hany
              exact absurd hfrom (List.find?_eq_none.mp hfind x hx)
          | some x =>
              have hx := List.find?_some hfind
              rw [decide_eq_true_eq] at hx
              rw [Option.map_some, if_pos hx]
        · rw [Node.attrs, Node.attrs, List.filter_map]
          simp only [Function.comp_def, hkeep]
          apply Eq.trans (List.map_congr_left (g := id) _) (List.map_id _)
          intro x hx
          exact if_neg (of_decide_eq_true (List.mem_filter.mp hx).2)
      · next hany =>
        have hnone : (as.find? fun x => decide (x.name = ("from" : Str) ∧ x.ns = [])) = none := by
          rw [List.find?_eq_none]
          intro x hx hfrom
          exact hany (List.any_eq_true.mpr ⟨x, hx, hfrom⟩)
        refine ⟨rfl, rfl, (List.append_nil cs).symm, ?_, ?_⟩
        · rw [plainProp, Node.attrs, List.find?_append, hnone]
          simp
        · rw [Node.attrs, Node.attrs, List.filter_append]
          simp

theorem stamped_addChild {stanza n : Node} {v : Str} (h : Stamped stanza n v []) (hn : n.isElement = true) (c : Node) :
    Stamped stanza (n.addChild c) v [c] := by
  cases n with
  | text s => cases hn
  | element m u as cs =>
      refine ⟨h.name, h.ns, ?_, h.sender, h.attrs⟩
      have hchildren := h.children
      rw [List.append_nil] at hchildren
      exact congrArg (· ++ [c]) hchildren

theorem isElement_of_name {n : Node} (h : n.name ≠ []) : n.isElement = true := by
  cases n with
  | element m u as cs => rfl
  | text s => exact absurd rfl h

theorem isElement_setProp (n : Node) (a v : Str) : (n.setProp a v).isElement = n.isElement := by
  cases n with
  | text s => rfl
  | element m u as cs =>
      unfold Node.setProp
      dsimp only
      split
      · rfl
      · rfl

/-! ## The fates exclude one another -/

section
variable {srv : Server}

theorem out_stanzaSend {t : ℕ} (h : srv.Live t) (n : Node) :
    ((srv.stanzaSend t n).sess t).out = (srv.sess t).out ++ [.stanza n] := by
  rw [Server.stanzaSend, Server.sessionWrite, Server.sess_modify_self h]

theorem stanzaSend_ne {t : ℕ} (h : srv.Live t) (n : Node) : srv.stanzaSend t n ≠ srv := by
  intro he
  have hout := out_stanzaSend h n
  rw [he] at hout
  exact absurd hout (by simp)

theorem stanzaSend_inj {t u : ℕ} {m n : Node} (ht : srv.Live t) (h : srv.stanzaSend t m = srv.stanzaSend u n) :
    t = u ∧ m = n := by
  have hout := out_stanzaSend ht m
  rw [h] at hout
  by_cases htu : t = u
  · rw [← htu, out_stanzaSend ht n] at hout
    refine ⟨htu, ?_⟩
    have hlast := (List.append_cancel_left hout : [Out.stanza n] = [Out.stanza m])
    exact (Out.stanza.inj (List.cons.inj hlast).1).symm
  · rw [Server.stanzaSend, Server.sessionWrite, Server.sess_modify_of_ne _ _ _ _ htu] at hout
    exact absurd hout (by simp)

variable {i : ℕ} {o : Oracle} {stanza : Node} {srv' : Server}

/-- A full address is longer than the domain in its bare address. -/
theorem fullJid_ne_domain {t : ℕ} {j : Jid} (hbare : (srv.sess t).bareJid.str = j.bare.str) (hdomain : j.domain = srv.cfg.domain) :
    (srv.sess t).fullJid.str ≠ srv.cfg.domain.str := by
  intro h
  have hfull : (srv.sess t).fullJid.str = (srv.sess t).bareJid.str ++ '/' :: (srv.sess t).jidResource.str := by
    have hl := (srv.sess t).jidLocal.fits
    have hd := (srv.sess t).jidDomain.fits
    have hr := (srv.sess t).jidResource.fits
    rw [Session.bareJid, jidBare_str]
    apply snprintf_fits
    simp only [List.length_append, List.length_cons]
    omega
  have hlen := congrArg List.length (hfull.symm.trans h)
  rw [hbare, Jid.bare, jidBare_str, hdomain] at hlen
  simp only [List.length_append, List.length_cons] at hlen
  omega

theorem refused_not_delivered (hl : srv.Live i) (hr : Meets srv i o stanza srv' .refused)
    (hd : Meets srv i o stanza srv' .delivered) : False := by
  obtain ⟨errorType, condition, rfl⟩ := hr
  obtain ⟨⟨hdomain, _⟩, t, n, ht, hbare, hstamped, hsend⟩ := hd
  obtain ⟨rfl, rfl⟩ := stanzaSend_inj hl hsend
  apply fullJid_ne_domain hbare hdomain
  have hsender := hstamped.sender
  cases hid : stanza.getProp "id" with
  | none =>
      rw [hid] at hsender
      exact (Option.some.inj hsender).symm
  | some id =>
      rw [hid] at hsender
      exact (Option.some.inj hsender).symm

theorem files_of_meets {f : Fate} (h : Meets srv i o stanza srv' f) (hf : f ≠ .stored) : srv'.files = srv.files := by
  cases f with
  | refused =>
      obtain ⟨_, _, rfl⟩ := h
      rfl
  | delivered =>
      obtain ⟨_, _, _, _, _, _, rfl⟩ := h
      rfl
  | stored => exact absurd rfl hf
  | dropped => rw [h.1]

theorem files_of_stored (h : Meets srv i o stanza srv' .stored) : srv'.files ≠ srv.files := by
  obtain ⟨_, q, file, n, _, _, _, hfree, hcontent, _⟩ := h
  intro he
  have hnew := hcontent (q ++ [file])
  rw [if_pos rfl, he, Tree.content] at hnew
  unfold Tree.present at hfree
  rw [Bool.or_eq_false_iff, Option.isSome_eq_false_iff, Option.isNone_iff_eq_none] at hfree
  rw [hfree.2] at hnew
  cases hnew

theorem dropped_not_sent (h : Meets srv i o stanza srv' .dropped) {t : ℕ} (ht : srv.Live t) (n : Node) :
    srv' ≠ srv.stanzaSend t n := by
  rw [h.1]
  exact (stanzaSend_ne ht n).symm

/-- No state is that of two fates. -/
theorem meets_unique (hl : srv.Live i) {f g : Fate} (hf : Meets srv i o stanza srv' f) (hg : Meets srv i o stanza srv' g) :
    f = g := by
  by_cases hfs : f = .stored
  · by_cases hgs : g = .stored
    · rw [hfs, hgs]
    · rw [hfs] at hf
      exact absurd (files_of_meets hg hgs) (files_of_stored hf)
  by_cases hgs : g = .stored
  · rw [hgs] at hg
    exact absurd (files_of_meets hf hfs) (files_of_stored hg)
  cases f with
  | stored => exact absurd rfl hfs
  | refused =>
      cases g with
      | stored => exact absurd rfl hgs
      | refused => rfl
      | delivered => exact (refused_not_delivered hl hf hg).elim
      | dropped =>
          obtain ⟨_, _, hsend⟩ := hf
          exact absurd hsend (dropped_not_sent hg hl _)
  | delivered =>
      cases g with
      | stored => exact absurd rfl hgs
      | refused => exact (refused_not_delivered hl hg hf).elim
      | delivered => rfl
      | dropped =>
          obtain ⟨_, t, n, ht, _, _, hsend⟩ := hf
          exact absurd hsend (dropped_not_sent hg ht n)
  | dropped =>
      cases g with
      | stored => exact absurd rfl hgs
      | refused =>
          obtain ⟨_, _, hsend⟩ := hg
          exact absurd hsend (dropped_not_sent hf hl _)
      | delivered =>
          obtain ⟨_, t, n, ht, _, _, hsend⟩ := hg
          exact absurd hsend (dropped_not_sent hf ht n)
      | dropped => rfl

/-! ## The fate of a message -/

/-- Where the message can be stored it is, unless the next name is taken. -/
theorem meets_stored {q : Path} (h : KeepsAt srv (addressee o stanza).localpart.str q) (hlocal : IsLocalUser srv o stanza)
    (hstanza : stanza.isElement = true) :
    (∃ f, Meets srv i o stanza
      (messageStoreOffline srv o (addressee o stanza).localpart.str (stanza.setProp "from" (srv.sess i).fullJid.str)) f) ↔
      ¬Exhausted srv (addressee o stanza).localpart.str := by
  have hwritten := written_kept h o (stanza.setProp "from" (srv.sess i).fullJid.str)
  have hcontent := content_stored h o (stanza.setProp "from" (srv.sess i).fullJid.str)
  have hdirs := isDir_stored h o (stanza.setProp "from" (srv.sess i).fullJid.str)
  have hfiles : messageStoreOffline srv o (addressee o stanza).localpart.str (stanza.setProp "from" (srv.sess i).fullJid.str) =
      { srv with files := (messageStoreOffline srv o (addressee o stanza).localpart.str
        (stanza.setProp "from" (srv.sess i).fullJid.str)).files } := by
    rw [messageStoreOffline_kept h]
  generalize messageStoreOffline srv o (addressee o stanza).localpart.str
    (stanza.setProp "from" (srv.sess i).fullJid.str) = srv' at hwritten hcontent hdirs hfiles ⊢
  constructor
  · intro hfate hfull
    obtain ⟨q', hq', hmax, hlast⟩ := hfull
    have hqq : q' = q := Option.some.inj (hq'.symm.trans h.1)
    rw [hqq] at hmax hlast
    have hletter : letterName srv (addressee o stanza).localpart.str q = ("-2147483648.xml" : Str) := by
      rw [letterName_eq, nextSeq_wrapped hmax]
      rfl
    rw [← hletter, mem_visible_letterName] at hlast
    obtain ⟨f, hf⟩ := hfate
    by_cases hs : f = .stored
    · rw [hs] at hf
      obtain ⟨_, r, file, n, hr, _, _, hfree, hnew, _⟩ := hf
      rw [Option.some.inj (hr.symm.trans h.1)] at hfree hnew
      unfold Tree.present at hfree
      rw [Bool.or_eq_false_iff, Option.isSome_eq_false_iff, Option.isNone_iff_eq_none] at hfree
      have hthere := hnew (q ++ [file])
      rw [if_pos rfl, hcontent] at hthere
      split at hthere
      · next hsame =>
        rw [hsame] at hfree
        rw [hfree.2] at hlast
        cases hlast
      · rw [Tree.content, hfree.2] at hthere
        cases hthere
    · rw [files_of_meets hf hs] at hwritten
      exact absurd hwritten (by simp)
  · intro hfree
    refine ⟨.stored, hlocal, q, _, _, h.1, stamped_addChild (stamped_setProp hstanza _) ?_ _, hfiles, ?_, hcontent, hdirs⟩
    · rw [isElement_setProp]
      exact hstanza
    · rw [Tree.present, h.2.2, Bool.false_or, ← Bool.not_eq_true, ← mem_visible_letterName, letterName_eq]
      intro htaken
      exact hfree ⟨q, h.1, nextSeq_taken htaken⟩

/-- Unless the message is stored and the numbers are used up, it has a fate. -/
theorem exists_fate (hbound : (srv.sess i).isActive = true) (hname : stanza.name = "message")
    (hkeep : Stores srv o stanza → ∃ q, KeepsAt srv (addressee o stanza).localpart.str q) :
    (∃ f, Meets srv i o stanza (stanzaRoute srv i o stanza) f) ↔
      ¬(Stores srv o stanza ∧ Exhausted srv (addressee o stanza).localpart.str) := by
  have hstanza : stanza.isElement = true := isElement_of_name (by rw [hname]; decide)
  have htype : (stanza.setProp "from" (srv.sess i).fullJid.str).getProp "type" = stanza.getProp "type" :=
    Node.getProp_setProp_of_ne stanza _ (by decide)
  have hrefused : ∀ errorType condition, ∃ f, Meets srv i o stanza (srv.stanzaSendError i stanza errorType condition) f :=
    fun errorType condition => ⟨.refused, errorType, condition, rfl⟩
  have hfate : ∀ {S : Prop} {srv' : Server}, (∃ f, Meets srv i o stanza srv' f) → ¬S →
      ((∃ f, Meets srv i o stanza srv' f) ↔ ¬(S ∧ Exhausted srv (addressee o stanza).localpart.str)) :=
    fun h hS => iff_of_true h fun hboth => hS hboth.1
  rw [stanzaRoute_message hbound hname]
  unfold handleMessage
  dsimp only
  rw [htype]
  split
  · next hbad =>
    apply hfate (hrefused _ _)
    intro hstores
    rcases hbad with hok | hempty
    · rw [hstores.1] at hok
      cases hok
    · exact hstores.2.1 hempty
  · next hgood =>
    rw [not_or, Bool.not_eq_true', Bool.not_eq_false] at hgood
    split
    · next hdomain => exact hfate (hrefused _ _) fun hstores => hdomain hstores.2.2.1
    · next hdomain =>
      split
      · next hmissing =>
        apply hfate (hrefused _ _)
        intro hstores
        rw [hstores.2.2.2.1] at hmissing
        cases hmissing
      · next hexists =>
        rw [Bool.not_eq_true', Bool.not_eq_false] at hexists
        have hlocal : IsLocalUser srv o stanza := ⟨not_not.mp hdomain, hexists⟩
        split
        · next t ht =>
          apply hfate
          · exact ⟨.delivered, hlocal, t, _, Server.sessionFindByJid_live ht, Server.bareJid_of_found ht,
              stamped_setProp hstanza _, rfl⟩
          · intro hstores
            have hnone := ht.symm.trans hstores.2.2.2.2.1
            cases hnone
        · next hnone =>
          split
          · next herror =>
            apply hfate
            · refine ⟨.dropped, rfl, herror, hlocal, ?_⟩
              intro s hs hlocalpart hbare
              have hno := List.find?_eq_none.mp (Option.map_eq_none_iff.mp hnone) s hs
              exact hno (decide_eq_true ⟨hlocalpart, hbare⟩)
            · exact fun hstores => hstores.2.2.2.2.2 herror
          · next hkind =>
            have hstores : Stores srv o stanza := ⟨hgood.1, hgood.2, hlocal.1, hexists, hnone, hkind⟩
            obtain ⟨q, hq⟩ := hkeep hstores
            exact (meets_stored hq hlocal hstanza).trans (by rw [and_iff_right hstores])

end

/-- A message of a bound session has exactly one fate, unless it is stored for a
user whose directory has used up the numbers. -/
theorem message_fate_iff (srv : Server) (i : ℕ) (o : Oracle) (stanza : Node) (hbound : (srv.sess i).isActive = true)
    (hname : stanza.name = "message")
    (hkeep : Stores srv o stanza → ∃ q, KeepsAt srv (addressee o stanza).localpart.str q) :
    (∃! f, Meets srv i o stanza (stanzaRoute srv i o stanza) f) ↔
      ¬(Stores srv o stanza ∧ Exhausted srv (addressee o stanza).localpart.str) := by
  rw [← exists_fate hbound hname hkeep]
  constructor
  · exact ExistsUnique.exists
  · intro h
    obtain ⟨f, hf⟩ := h
    exact ⟨f, hf, fun g hg => meets_unique (Server.live_of_isActive hbound) hg hf⟩

/-! ## Two directories -/

/-- Where messages for bob are stored. -/
def bobDrawer : Path := ["data".toList, "bob".toList, "offline".toList]

/-- Bob has the message with the largest number and the one after it. -/
def fullDrawer : Server :=
  { aliceBound with
    files := (aliceBound.files.put (bobDrawer ++ ["2147483647.xml".toList]) (.file (.xml (elem "message" [] [])))).put
      (bobDrawer ++ ["-2147483648.xml".toList]) (.file (.xml (elem "message" [] []))) }

set_option maxRecDepth 20000 in
/-- A message for bob, whose directory is empty, has one fate. -/
theorem letter_fate :
    ∃! f, Meets aliceBound 0 exampleOracle (letterTo "bob@localhost")
      (stanzaRoute aliceBound 0 exampleOracle (letterTo "bob@localhost")) f := by
  have hplace : offlinePath aliceBound (addressee exampleOracle (letterTo "bob@localhost")).localpart.str = some bobDrawer := by
    decide +kernel
  have hempty : visible aliceBound bobDrawer = [] := by decide +kernel
  rw [message_fate_iff aliceBound 0 exampleOracle (letterTo "bob@localhost") (by decide +kernel) rfl]
  · intro h
    obtain ⟨_, q, hq, ⟨n, hn, _⟩, _⟩ := h
    rw [← Option.some.inj (hplace.symm.trans hq), hempty] at hn
    cases hn
  · exact fun _ => ⟨bobDrawer, hplace, Or.inl (by decide +kernel), by decide +kernel⟩

set_option maxRecDepth 20000 in
/-- A message for bob, whose numbers are used up, overwrites one that is stored. -/
theorem letter_without_fate :
    ¬∀ (srv : Server) (i : ℕ) (o : Oracle) (stanza : Node), (srv.sess i).isActive = true → stanza.name = "message" →
      (∃ l r, stanza.prop "to" = l ++ '@' :: r ∧ '@' ∉ l ∧ '/' ∉ l) →
      (Stores srv o stanza → ∃ q, KeepsAt srv (addressee o stanza).localpart.str q) →
      ∃! f, Meets srv i o stanza (stanzaRoute srv i o stanza) f := by
  intro h
  have hplace : offlinePath fullDrawer (addressee exampleOracle (letterTo "bob@localhost")).localpart.str = some bobDrawer := by
    decide +kernel
  have hkeep : Stores fullDrawer exampleOracle (letterTo "bob@localhost") →
      ∃ q, KeepsAt fullDrawer (addressee exampleOracle (letterTo "bob@localhost")).localpart.str q :=
    fun _ => ⟨bobDrawer, hplace, Or.inl (by decide +kernel), by decide +kernel⟩
  have hbound : (fullDrawer.sess 0).isActive = true := by decide +kernel
  have hstores : Stores fullDrawer exampleOracle (letterTo "bob@localhost") := by
    unfold Stores
    decide +kernel
  have hlast : ("2147483647.xml" : Str) ∈ visible fullDrawer bobDrawer ∧ atoi "2147483647.xml" = 2147483647 ∧
      ("-2147483648.xml" : Str) ∈ visible fullDrawer bobDrawer := by decide +kernel
  have hfate := (h fullDrawer 0 exampleOracle (letterTo "bob@localhost") hbound rfl
    ⟨"bob", "localhost", by decide +kernel, by decide, by decide⟩ hkeep).exists
  rw [exists_fate hbound rfl hkeep] at hfate
  apply hfate
  exact ⟨hstores, bobDrawer, hplace, ⟨"2147483647.xml", hlast.1, hlast.2.1⟩, hlast.2.2⟩

end Xmppd.MessageFate
