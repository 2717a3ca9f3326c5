import Xmppd.Namespaces
import Xmppd.GoXml

/-!
# Serialized stanzas

What the serializer writes is one element of a document. Read in a stream whose
default namespace is `jabber:client`, it gives the tree back if no attribute has
a namespace or is repeated, no element of `jabber:client` stands in another
namespace, and no value holds a character that a reader changes or refuses.
-/
namespace Xmppd.GoSerialization
open CStrings GoXml XmlReader Namespaces
open XmlElements hiding escapeChar

/-! ## The decoder -/

/-- The tokens of the standard library. -/
inductive Token where
  | startElement (space name : Str) (attrs : List Attr)
  | endElement
  | charData (s : Str)
  | other

/-- The attributes that `startToNode` keeps. -/
def kept (a : Attr) : Bool := !(a.space = xmlns ∨ a.space = [] ∧ a.name = xmlns)

/-- `startToNode`. -/
def startToNode (space name : Str) (attrs : List Attr) : XmlNode :=
  .mk name space ((attrs.filter kept).map fun a => ⟨a.name, a.space, a.value⟩) [] []

def addText (n : XmlNode) (s : Str) : XmlNode := .mk n.name n.ns n.attrs n.children (n.text ++ s)

/-- `ReadStanza`, with the elements that are open, the innermost first; nothing is
returned when the stream is closed or ends. -/
def readStanza : List XmlNode → List Token → Option (XmlNode × List Token)
  | _, [] => none
  | stack, .startElement space name attrs :: ts =>
      let node := startToNode space name attrs
      if stack = [] ∧ node.isStreamOpen then some (node, ts) else readStanza (node :: stack) ts
  | [], .endElement :: _ => none
  | [top], .endElement :: ts => some (top, ts)
  | top :: parent :: stack, .endElement :: ts => readStanza (parent.addChild top :: stack) ts
  | [], .charData _ :: ts => readStanza [] ts
  | top :: stack, .charData s :: ts => readStanza (addText top s :: stack) ts
  | stack, .other :: ts => readStanza stack ts

mutual
def tokens : Node → List Token
  | .text s => [.charData s]
  | .element space name attrs children => .startElement space name attrs :: (tokensAll children ++ [.endElement])

def tokensAll : List Node → List Token
  | [] => []
  | n :: ns => tokens n ++ tokensAll ns
end

/-- A text as the decoder reads it where a scope is open. -/
def parse (s : Scope) (t : Str) : Option XmlNode :=
  (readElement t).bind fun tree => (resolve s tree).bind fun n => (readStanza [] (tokens n)).map Prod.fst

/-- What a server's stream header declares. -/
def stream : Scope := ⟨"jabber:client".toList, [("stream".toList, "http://etherx.jabber.org/streams".toList)]⟩

/-! ## What is kept -/

/-- An attribute value that is read as it is written. -/
def PlainValue (s : Str) : Prop := ∀ c ∈ s, isLegal c = true ∧ (isSpace c = true → c = ' ')

def PlainText (s : Str) : Prop := ∀ c ∈ s, isLegal c = true ∧ c ≠ '\r'

/-- A namespace that can be declared in the stream without being that of the stream. -/
def Declarable (ns : Str) : Prop := ns ≠ [] ∧ ns ≠ "jabber:client".toList ∧ ns ∉ reserved ∧ PlainValue ns

def PlainAttr (a : XmlAttr) : Prop := isNCName a.name = true ∧ a.name ≠ xmlns ∧ a.ns = [] ∧ PlainValue a.value

mutual
/-- An element that is read back inside an element of namespace `parent`. -/
def Preserved (parent : Str) : XmlNode → Prop
  | .mk name ns attrs children text =>
      isNCName name = true ∧ (ns = parent ∨ Declarable ns) ∧ (∀ a ∈ attrs, PlainAttr a) ∧
        (attrs.map XmlAttr.name).Nodup ∧ PlainText text ∧ AllPreserved ns children

def AllPreserved (parent : Str) : List XmlNode → Prop
  | [] => True
  | n :: ns => Preserved parent n ∧ AllPreserved parent ns
end

/-! ## The serializer writes an element -/

/-- The namespace as the serializer sees it. -/
def effective (ns : Str) : Str := if ns = "jabber:client".toList then [] else ns

/-- The attributes in a start tag. -/
def tagAttrs (parentNS ns : Str) (attrs : List XmlAttr) : List (Str × Str) :=
  (if effective ns ≠ [] ∧ effective ns ≠ parentNS then [(xmlns, effective ns)] else []) ++
    attrs.map fun a => (a.name, a.value)

mutual
def markup (parentNS : Str) : XmlNode → Markup
  | .mk name ns attrs children text =>
      if children = [] ∧ text = [] then .empty name (tagAttrs parentNS ns attrs)
      else .element name (tagAttrs parentNS ns attrs) (.text text :: markupAll (effective ns) children)

def markupAll (parentNS : Str) : List XmlNode → List Markup
  | [] => []
  | n :: ns => markup parentNS n :: markupAll parentNS ns
end

theorem escapeAttr_quote (s : Str) : escapeAttr s = quote s := escapeAttr_eq s

theorem escapeText_escape (s : Str) : escapeText s = escape s := escapeText_eq s

theorem printAttrs_append (a b : List (Text × Text)) : printAttrs (a ++ b) = printAttrs a ++ printAttrs b :=
  List.flatMap_append

theorem startTag_eq (parentNS name ns : Str) (attrs : List XmlAttr) (children : List XmlNode) (text : Str) :
    (XmlNode.mk name ns attrs children text).startTag parentNS = '<' :: (name ++ printAttrs (tagAttrs parentNS ns attrs)) := by
  have hattrs : XmlNode.writeAttrs (XmlNode.mk name ns attrs children text).written =
      printAttrs (attrs.map fun a => (a.name, a.value)) := by
    unfold XmlNode.writeAttrs XmlNode.written printAttrs
    rw [List.flatMap_map, List.flatMap_map]
    congr 1
    funext a
    simp [escapeAttr_quote]
  have hns : (if effective ns ≠ [] ∧ effective ns ≠ parentNS
      then (" xmlns='" : Str) ++ escapeAttr (effective ns) ++ ['\''] else []) =
      printAttrs (if effective ns ≠ [] ∧ effective ns ≠ parentNS then [(xmlns, effective ns)] else []) := by
    split
    · rw [escapeAttr_quote]
      simp [printAttrs, xmlns]
    · rfl
  change '<' :: name ++ (if effective ns ≠ [] ∧ effective ns ≠ parentNS
      then (" xmlns='" : Str) ++ escapeAttr (effective ns) ++ ['\''] else []) ++
    XmlNode.writeAttrs (XmlNode.mk name ns attrs children text).written = _
  rw [hns, hattrs, tagAttrs, printAttrs_append, List.append_assoc, List.cons_append]

mutual
theorem serializeIn_eq (parentNS : Str) : ∀ n, XmlNode.serializeIn parentNS n = (markup parentNS n).print
  | .mk name ns attrs children text => by
      have hchildren : XmlNode.serializeAll (XmlNode.mk name ns attrs children text).effectiveNS children =
          printAll (markupAll (effective ns) children) := serializeAll_eq (effective ns) children
      rw [XmlNode.serializeIn, markup, startTag_eq, hchildren, escapeText_escape]
      split
      · rw [Markup.print, List.cons_append, List.append_assoc]
        rfl
      · rw [Markup.print, printAll, Markup.print, List.cons_append, List.append_assoc, List.append_assoc, List.append_assoc]
        rfl

theorem serializeAll_eq (parentNS : Str) : ∀ cs, XmlNode.serializeAll parentNS cs = printAll (markupAll parentNS cs)
  | [] => rfl
  | c :: cs => by rw [XmlNode.serializeAll, serializeIn_eq parentNS c, serializeAll_eq parentNS cs, markupAll, printAll]
end

/-! ## What the decoder builds -/

mutual
/-- A node that is read inside an open element. -/
def attach : XmlNode → Node → XmlNode
  | parent, .text s => addText parent s
  | parent, .element space name attrs children => parent.addChild (fill (startToNode space name attrs) children)

def fill : XmlNode → List Node → XmlNode
  | parent, [] => parent
  | parent, n :: ns => fill (attach parent n) ns
end

/-- The element that is read. -/
def built : Node → Option XmlNode
  | .text _ => none
  | .element space name attrs children => some (fill (startToNode space name attrs) children)

mutual
theorem readStanza_tokens (top : XmlNode) (stack : List XmlNode) (ts : List Token) : ∀ n,
    readStanza (top :: stack) (tokens n ++ ts) = readStanza (attach top n :: stack) ts
  | .text s => rfl
  | .element space name attrs children => by
      have hstart : readStanza (top :: stack) (tokens (.element space name attrs children) ++ ts) =
          readStanza (startToNode space name attrs :: top :: stack) (tokensAll children ++ .endElement :: ts) := by
        rw [tokens, List.cons_append, List.append_assoc, readStanza]
        exact if_neg fun h => List.cons_ne_nil _ _ h.1
      rw [hstart, readStanza_tokensAll (startToNode space name attrs) (top :: stack) (.endElement :: ts) children]
      rfl

theorem readStanza_tokensAll (top : XmlNode) (stack : List XmlNode) (ts : List Token) : ∀ ns,
    readStanza (top :: stack) (tokensAll ns ++ ts) = readStanza (fill top ns :: stack) ts
  | [] => rfl
  | n :: ns => by
      rw [tokensAll, List.append_assoc, readStanza_tokens top stack (tokensAll ns ++ ts) n,
        readStanza_tokensAll (attach top n) stack ts ns]
      rfl
end

/-- A stream header is returned as soon as it is read. -/
theorem readStanza_root (space name : Str) (attrs : List Attr) (children : List Node) :
    (readStanza [] (tokens (.element space name attrs children))).map Prod.fst =
      if (startToNode space name attrs).isStreamOpen then some (startToNode space name attrs)
      else built (.element space name attrs children) := by
  rw [tokens, readStanza]
  split
  · next h => rw [if_pos h.2]; rfl
  · next h =>
    have hopen : ¬(startToNode space name attrs).isStreamOpen = true := fun ho => h ⟨rfl, ho⟩
    rw [if_neg hopen, readStanza_tokensAll]
    rfl

theorem addText_nil (n : XmlNode) : addText n [] = n := by
  cases n
  simp [addText, XmlNode.name, XmlNode.ns, XmlNode.attrs, XmlNode.children, XmlNode.text]

theorem fill_built {es : List Node} {cs : List XmlNode} (h : es.mapM built = some cs) (n : XmlNode) :
    fill n es = .mk n.name n.ns n.attrs (n.children ++ cs) n.text := by
  induction es generalizing n cs with
  | nil =>
      cases h
      cases n
      simp [fill, XmlNode.name, XmlNode.ns, XmlNode.attrs, XmlNode.children, XmlNode.text]
  | cons e es ih =>
      rw [List.mapM_cons] at h
      obtain ⟨c, hc, h⟩ := Option.bind_eq_some_iff.mp h
      obtain ⟨cs', hcs, h⟩ := Option.bind_eq_some_iff.mp h
      cases h
      cases e with
      | text s => cases hc
      | element space name attrs children =>
          rw [fill, attach, Option.some.inj hc, ih hcs]
          simp [XmlNode.addChild, XmlNode.name, XmlNode.ns, XmlNode.attrs, XmlNode.children, XmlNode.text]

/-! ## What is read of what is written -/

/-- The tree of an element that is written and read. -/
def treeOf (parentNS : Str) (n : XmlNode) : Tree := (markup parentNS n).uniform.tree

/-- Attributes that are written and read. -/
def normal (attrs : List (Str × Str)) : List (Str × Str) := attrs.map fun a => (a.1, blanks (eol a.2))

theorem isText_markup (parentNS : Str) (n : XmlNode) : (markup parentNS n).isText = false := by
  cases n
  rw [markup]
  split <;> rfl

theorem treeOf_element (parentNS : Str) (n : XmlNode) : ∃ name attrs children, treeOf parentNS n = .element name attrs children := by
  cases n
  rw [treeOf, markup]
  split
  · exact ⟨_, _, _, rfl⟩
  · exact ⟨_, _, _, rfl⟩

theorem trees_markupAll (parentNS : Str) (cs : List XmlNode) :
    trees (uniformAll (markupAll parentNS cs)) = cs.map (treeOf parentNS) := by
  induction cs with
  | nil => rfl
  | cons c cs ih =>
      rw [markupAll, uniformAll, trees, ih, List.map_cons]
      change (treeOf parentNS c).before _ = _
      obtain ⟨name, attrs, children, h⟩ := treeOf_element parentNS c
      rw [h]
      rfl

theorem treeOf_mk (parentNS name ns : Str) (attrs : List XmlAttr) (children : List XmlNode) (text : Str) :
    treeOf parentNS (.mk name ns attrs children text) =
      .element name (normal (tagAttrs parentNS ns attrs)) (pushText (eol text) (children.map (treeOf (effective ns)))) := by
  have hnormal : readable (uniformAttrs (tagAttrs parentNS ns attrs)) = normal (tagAttrs parentNS ns attrs) := by
    unfold readable uniformAttrs normal
    rw [List.map_map]
    rfl
  rw [treeOf, markup]
  split
  · next h =>
    rw [Markup.uniform, Markup.tree, hnormal, h.1, h.2]
    rfl
  · rw [Markup.uniform, Markup.tree, hnormal, uniformAll, trees, trees_markupAll]
    rfl

/-- An element that is read in a scope. -/
def rebuild (s : Scope) (t : Tree) : Option XmlNode := (resolve s t).bind built

theorem resolveAll_pushText (s : Scope) (t : Str) {ts : List Tree} (h : ∀ e ∈ ts, ∃ name attrs children, e = .element name attrs children) :
    resolveAll s (pushText t ts) = (resolveAll s ts).map fun es => if t = [] then es else .text t :: es := by
  unfold pushText
  split
  · cases resolveAll s ts <;> rfl
  · cases ts with
    | nil => rfl
    | cons e ts =>
        obtain ⟨name, attrs, children, rfl⟩ := h e List.mem_cons_self
        rfl

theorem rebuildAll_eq (s : Scope) (ts : List Tree) :
    ((resolveAll s ts).bind fun es => es.mapM built) = ts.mapM (rebuild s) := by
  induction ts with
  | nil => rfl
  | cons t ts ih =>
      rw [List.mapM_cons, ← ih, resolveAll, rebuild]
      cases resolve s t with
      | none => rfl
      | some e =>
          cases resolveAll s ts with
          | none =>
              rw [Option.bind_some, Option.bind_some]
              cases built e <;> rfl
          | some es => exact List.mapM_cons

theorem built_resolveAll {s : Scope} {ts : List Tree} {es : List Node}
    (h : ∀ e ∈ ts, ∃ name attrs children, e = .element name attrs children) (hes : resolveAll s ts = some es) :
    ∃ cs, es.mapM built = some cs := by
  induction ts generalizing es with
  | nil =>
      cases hes
      exact ⟨[], rfl⟩
  | cons t ts ih =>
      obtain ⟨name, attrs, children, rfl⟩ := h t List.mem_cons_self
      obtain ⟨e, he, hes⟩ := Option.bind_eq_some_iff.mp hes
      obtain ⟨es, hrest, rfl⟩ := Option.map_eq_some_iff.mp hes
      obtain ⟨cs, hcs⟩ := ih (fun e he => h e (List.mem_cons_of_mem _ he)) hrest
      obtain ⟨start, hstart, he⟩ := Option.bind_eq_some_iff.mp he
      obtain ⟨ns, hns, rfl⟩ := Option.map_eq_some_iff.mp he
      rw [List.mapM_cons, hcs]
      exact ⟨_, rfl⟩

/-- The attributes of an element that is read without prefixes. -/
theorem keptAttrs_tagAttrs (parentNS ns : Str) (attrs : List XmlAttr) :
    ((plain (normal (tagAttrs parentNS ns attrs))).filter kept).map (fun a => (⟨a.name, a.space, a.value⟩ : XmlAttr)) =
      (attrs.filter fun a => a.name ≠ xmlns).map fun a => ⟨a.name, [], blanks (eol a.value)⟩ := by
  have hlist : ∀ l : List XmlAttr, ((plain (normal (l.map fun a => (a.name, a.value)))).filter kept).map
      (fun a => (⟨a.name, a.space, a.value⟩ : XmlAttr)) =
        (l.filter fun a => a.name ≠ xmlns).map fun a => ⟨a.name, [], blanks (eol a.value)⟩ := by
    intro l
    induction l with
    | nil => rfl
    | cons a l ih =>
        have hcons : plain (normal ((a :: l).map fun a => (a.name, a.value))) =
            ⟨[], a.name, blanks (eol a.value)⟩ :: plain (normal (l.map fun a => (a.name, a.value))) := rfl
        rw [hcons]
        by_cases h : a.name = xmlns
        · rw [List.filter_cons_of_neg (by simp [kept, h]), List.filter_cons_of_neg (by simp [h]), ih]
        · have hspace : ([] : Str) ≠ xmlns := by decide
          rw [List.filter_cons_of_pos (by simp [kept, h, hspace]), List.filter_cons_of_pos (by simp [h]), List.map_cons,
            List.map_cons, ih]
  unfold tagAttrs
  split
  · exact hlist attrs
  · exact hlist attrs

/-- What a node becomes when it is written and read, where its names are names without
colons and none is repeated. -/
theorem rebuild_treeOf {s : Scope} {parentNS name ns : Str} {attrs : List XmlAttr} {children : List XmlNode} {text : Str}
    (hname : isNCName name = true) (hattrs : ∀ a ∈ attrs, isNCName a.name = true)
    (hnodup : ((normal (tagAttrs parentNS ns attrs)).map Prod.fst).Nodup) :
    rebuild s (treeOf parentNS (.mk name ns attrs children text)) =
      (defaultOf s (normal (tagAttrs parentNS ns attrs))).bind fun s' =>
        ((children.map (treeOf (effective ns))).mapM (rebuild s')).map fun cs =>
          .mk name s'.default ((attrs.filter fun a => a.name ≠ xmlns).map fun a => ⟨a.name, [], blanks (eol a.value)⟩) cs
            (eol text) := by
  have hnames : ∀ a ∈ normal (tagAttrs parentNS ns attrs), isNCName a.1 = true := by
    intro a ha
    obtain ⟨b, hb, rfl⟩ := List.mem_map.mp ha
    rcases List.mem_append.mp hb with hb | hb
    · split at hb
      · rw [List.mem_singleton.mp hb]
        change isNCName xmlns = true
        decide
      · cases hb
    · obtain ⟨c, hc, rfl⟩ := List.mem_map.mp hb
      exact hattrs c hc
  have helements : ∀ e ∈ children.map (treeOf (effective ns)), ∃ name attrs children, e = .element name attrs children := by
    intro e he
    obtain ⟨c, -, rfl⟩ := List.mem_map.mp he
    exact treeOf_element _ c
  rw [treeOf_mk, rebuild, Namespaces.resolve, readStart_plain hname hnames hnodup]
  cases defaultOf s (normal (tagAttrs parentNS ns attrs)) with
  | none => rfl
  | some s' =>
      rw [Option.map_some, Option.bind_some, Option.bind_some, resolveAll_pushText s' _ helements, ← rebuildAll_eq]
      cases hes : resolveAll s' (children.map (treeOf (effective ns))) with
      | none => rfl
      | some es =>
          obtain ⟨cs, hcs⟩ := built_resolveAll helements hes
          rw [← keptAttrs_tagAttrs parentNS ns attrs, Option.map_some, Option.map_some, Option.bind_some, Option.bind_some,
            hcs, Option.map_some, built]
          split
          · next h =>
            rw [fill_built hcs, h]
            rfl
          · rw [fill, attach, fill_built hcs]
            rfl

/-! ## What is kept -/

theorem node_induction {P : XmlNode → Prop}
    (mk : ∀ name ns attrs children text, (∀ c ∈ children, P c) → P (.mk name ns attrs children text)) : ∀ n, P n
  | .mk name ns attrs children text => mk name ns attrs children text fun c _ => node_induction mk c

mutual
/-- All names are names without colons. -/
def Named : XmlNode → Prop
  | .mk name _ attrs children _ => isNCName name = true ∧ (∀ a ∈ attrs, isNCName a.name = true) ∧ AllNamed children

def AllNamed : List XmlNode → Prop
  | [] => True
  | n :: ns => Named n ∧ AllNamed ns
end

theorem allNamed_iff {cs : List XmlNode} : AllNamed cs ↔ ∀ c ∈ cs, Named c := by
  induction cs with
  | nil => simp [AllNamed]
  | cons c cs ih => rw [AllNamed, ih, List.forall_mem_cons]

theorem allPreserved_iff {parent : Str} {cs : List XmlNode} : AllPreserved parent cs ↔ ∀ c ∈ cs, Preserved parent c := by
  induction cs with
  | nil => simp [AllPreserved]
  | cons c cs ih => rw [AllPreserved, ih, List.forall_mem_cons]

theorem legalAll_markupAll {parentNS : Str} {cs : List XmlNode} :
    LegalAll (markupAll parentNS cs) ↔ ∀ c ∈ cs, (markup parentNS c).Legal := by
  induction cs with
  | nil => simp [markupAll, LegalAll]
  | cons c cs ih => rw [markupAll, LegalAll, ih, List.forall_mem_cons]

theorem legal_markup {parentNS name ns : Str} {attrs : List XmlAttr} {children : List XmlNode} {text : Str} :
    (markup parentNS (.mk name ns attrs children text)).Legal ↔
      (∀ a ∈ tagAttrs parentNS ns attrs, LegalText a.2) ∧ LegalText text ∧
        ∀ c ∈ children, (markup (effective ns) c).Legal := by
  rw [markup]
  split
  · next h =>
    rw [h.1, h.2, Markup.Legal]
    simp
  · rw [Markup.Legal, LegalAll, Markup.Legal, legalAll_markupAll]

theorem unique_treeOf {parentNS name ns : Str} {attrs : List XmlAttr} {children : List XmlNode} {text : Str} :
    (treeOf parentNS (.mk name ns attrs children text)).unique = true ↔
      ((normal (tagAttrs parentNS ns attrs)).map Prod.fst).Nodup ∧
        ∀ c ∈ children, (treeOf (effective ns) c).unique = true := by
  rw [treeOf_mk, Tree.unique, Bool.and_eq_true, decide_eq_true_eq, uniqueAll_pushText, uniqueAll_iff, List.forall_mem_map]

theorem filter_map_eq_iff {A : Type} {p : A → Bool} {f : A → A} {l : List A} :
    (l.filter p).map f = l ↔ ∀ a ∈ l, p a = true ∧ f a = a := by
  constructor
  · intro h
    have hlen : (l.filter p).length = l.length := by
      have hl := congrArg List.length h
      rwa [List.length_map] at hl
    have hall := List.length_filter_eq_length_iff.mp hlen
    rw [List.filter_eq_self.mpr hall] at h
    intro a ha
    refine ⟨hall a ha, ?_⟩
    have hid : l.map f = l.map id := by rw [h, List.map_id]
    exact List.map_inj_left.mp hid a ha
  · intro h
    rw [List.filter_eq_self.mpr fun a ha => (h a ha).1]
    have hid : l.map f = l.map id := List.map_congr_left fun a ha => (h a ha).2
    rw [hid, List.map_id]

theorem mapM_eq_self_iff {A : Type} {f : A → Option A} {l : List A} : l.mapM f = some l ↔ ∀ a ∈ l, f a = some a := by
  induction l with
  | nil => simp
  | cons a l ih =>
      rw [List.forall_mem_cons, ← ih, List.mapM_cons]
      cases hf : f a with
      | none => simp
      | some b =>
          cases hl : l.mapM f with
          | none => simp
          | some bs => simp

/-- The scope inside a start tag that is written and read. -/
theorem defaultOf_tagAttrs {parent ns : Str} {ps : List (Str × Str)} {attrs : List XmlAttr} (hparent : parent ≠ [])
    (hx : ∀ a ∈ attrs, a.name ≠ xmlns) :
    defaultOf ⟨parent, ps⟩ (normal (tagAttrs (effective parent) ns attrs)) = some ⟨ns, ps⟩ ↔
      ns = parent ∨ ns ≠ [] ∧ ns ≠ "jabber:client".toList ∧ ns ∉ reserved ∧ blanks (eol ns) = ns := by
  have hordinary : ∀ a ∈ normal (attrs.map fun a => (a.name, a.value)), a.1 ≠ xmlns := by
    intro a ha
    obtain ⟨b, hb, rfl⟩ := List.mem_map.mp ha
    obtain ⟨c, hc, rfl⟩ := List.mem_map.mp hb
    exact hx c hc
  unfold tagAttrs
  split
  · next h =>
    have hclient : ns ≠ "jabber:client".toList := fun he => h.1 (if_pos he)
    have heffective : effective ns = ns := if_neg hclient
    rw [heffective] at h ⊢
    have hne : ns ≠ parent := by
      rintro rfl
      exact h.2 heffective.symm
    change defaultOf _ ((xmlns, blanks (eol ns)) :: normal (attrs.map fun a => (a.name, a.value))) = _ ↔ _
    rw [defaultOf_declared hordinary]
    split
    · next hreserved =>
      constructor
      · intro he
        cases he
      · rintro (he | ⟨-, -, hr, hplain⟩)
        · exact absurd he hne
        · rw [hplain] at hreserved
          exact absurd hreserved hr
    · next hreserved =>
      constructor
      · intro he
        have hplain : blanks (eol ns) = ns := congrArg Scope.default (Option.some.inj he)
        rw [hplain] at hreserved
        exact Or.inr ⟨h.1, hclient, hreserved, hplain⟩
      · rintro (he | ⟨-, -, -, hplain⟩)
        · exact absurd he hne
        · rw [hplain]
  · next h =>
    rw [List.nil_append, defaultOf_ordinary hordinary]
    constructor
    · intro he
      exact Or.inl (congrArg Scope.default (Option.some.inj he)).symm
    · rintro (rfl | ⟨hnil, hclient, -⟩)
      · rfl
      · have heffective : effective ns = ns := if_neg hclient
        rw [heffective] at h
        have hns : ns = effective parent := by
          by_contra hne
          exact h ⟨hnil, hne⟩
        have hp : effective parent = parent := by
          unfold effective at hns ⊢
          split
          · next hc =>
            rw [if_pos hc] at hns
            exact absurd hns hnil
          · rfl
        rw [hns, hp]

theorem names_tagAttrs {parentNS ns : Str} {attrs : List XmlAttr} :
    ∃ l, (l = [] ∨ l = [xmlns]) ∧ (normal (tagAttrs parentNS ns attrs)).map Prod.fst = l ++ attrs.map XmlAttr.name := by
  have hlist : (normal (attrs.map fun a => (a.name, a.value))).map Prod.fst = attrs.map XmlAttr.name := by
    unfold normal
    rw [List.map_map, List.map_map]
    rfl
  unfold tagAttrs
  split
  · exact ⟨[xmlns], Or.inr rfl, congrArg (xmlns :: ·) hlist⟩
  · exact ⟨[], Or.inl rfl, hlist⟩

theorem plainValue_iff {s : Str} : PlainValue s ↔ LegalText s ∧ blanks (eol s) = s := by
  rw [blanks_eol_eq_iff]
  constructor
  · intro h
    exact ⟨fun c hc => (h c hc).1, fun c hc => (h c hc).2⟩
  · intro h c hc
    exact ⟨h.1 c hc, h.2 c hc⟩

theorem plainText_iff {s : Str} : PlainText s ↔ LegalText s ∧ eol s = s := by
  rw [eol_eq_iff]
  constructor
  · intro h
    exact ⟨fun c hc => (h c hc).1, fun c hc => (h c hc).2⟩
  · intro h c hc
    exact ⟨h.1 c hc, h.2 c hc⟩

/-- The strings in a start tag of an element that is kept. -/
theorem legal_tagAttrs {parent ns : Str} {attrs : List XmlAttr} (hparent : parent ≠ [])
    (h : ns = parent ∨ ns ≠ [] ∧ ns ≠ "jabber:client".toList ∧ ns ∉ reserved ∧ blanks (eol ns) = ns) :
    (∀ a ∈ tagAttrs (effective parent) ns attrs, LegalText a.2) ↔
      (ns = parent ∨ Declarable ns) ∧ ∀ a ∈ attrs, LegalText a.value := by
  have hlist : (∀ a ∈ attrs.map fun a => (a.name, a.value), LegalText a.2) ↔ ∀ a ∈ attrs, LegalText a.value :=
    List.forall_mem_map
  unfold tagAttrs
  split
  · next hdeclared =>
    have hne : ns ≠ parent := by
      rintro rfl
      exact hdeclared.2 rfl
    have hclient : ns ≠ "jabber:client".toList := fun he => hdeclared.1 (if_pos he)
    have heffective : effective ns = ns := if_neg hclient
    obtain ⟨hnil, -, hreserved, hplain⟩ := h.resolve_left hne
    rw [List.singleton_append, List.forall_mem_cons, hlist, heffective]
    constructor
    · intro hl
      exact ⟨Or.inr ⟨hnil, hclient, hreserved, plainValue_iff.mpr ⟨hl.1, hplain⟩⟩, hl.2⟩
    · intro hl
      exact ⟨(plainValue_iff.mp (hl.1.resolve_left hne).2.2.2).1, hl.2⟩
  · next hdeclared =>
    rw [List.nil_append, hlist]
    constructor
    · intro hl
      refine ⟨?_, hl⟩
      rcases h with h | ⟨hnil, hclient, hreserved, hplain⟩
      · exact Or.inl h
      · have hscope : defaultOf ⟨parent, []⟩ (normal (tagAttrs (effective parent) ns [])) = some ⟨ns, []⟩ :=
          (defaultOf_tagAttrs hparent (by simp)).mpr (Or.inr ⟨hnil, hclient, hreserved, hplain⟩)
        rw [tagAttrs, if_neg hdeclared] at hscope
        exact Or.inl (congrArg Scope.default (Option.some.inj hscope)).symm
    · intro hl
      exact hl.2

/-- An element that is written without an error and read in a scope comes back if and only
if it is one that is kept there. -/
theorem rebuild_iff (n : XmlNode) (hn : Named n) {parent : Str} (hparent : parent ≠ []) (ps : List (Str × Str)) :
    ((markup (effective parent) n).Legal ∧ (treeOf (effective parent) n).unique = true ∧
      rebuild ⟨parent, ps⟩ (treeOf (effective parent) n) = some n) ↔ Preserved parent n := by
  induction n using node_induction generalizing parent with
  | mk name ns attrs children text ih =>
      obtain ⟨hname, hattrs, hchildren⟩ := hn
      rw [allNamed_iff] at hchildren
      obtain ⟨l, hl, hnames⟩ : ∃ l, (l = [] ∨ l = [xmlns]) ∧
          (normal (tagAttrs (effective parent) ns attrs)).map Prod.fst = l ++ attrs.map XmlAttr.name := names_tagAttrs
      rw [legal_markup, unique_treeOf, Preserved, allPreserved_iff]
      constructor
      · rintro ⟨⟨htag, htext, hlegal⟩, ⟨hnodup, hunique⟩, hread⟩
        rw [rebuild_treeOf hname hattrs hnodup] at hread
        obtain ⟨s', hs', hread⟩ := Option.bind_eq_some_iff.mp hread
        obtain ⟨cs, hcs, hread⟩ := Option.map_eq_some_iff.mp hread
        obtain ⟨-, hns, hkept, rfl, heol⟩ := XmlNode.mk.inj hread
        have hkept := filter_map_eq_iff.mp hkept
        have hx : ∀ a ∈ attrs, a.name ≠ xmlns := fun a ha => of_decide_eq_true (hkept a ha).1
        have hps : s'.prefixes = ps := prefixes_defaultOf hs'
        have hscope : s' = ⟨ns, ps⟩ := by rw [← hns, ← hps]
        rw [hscope] at hs' hcs
        have hspace := (defaultOf_tagAttrs hparent hx).mp hs'
        have hdeclarable := (legal_tagAttrs hparent hspace).mp htag
        have hns' : ns ≠ [] := by
          rcases hspace with h | h
          · rw [h]
            exact hparent
          · exact h.1
        rw [List.mapM_map, mapM_eq_self_iff] at hcs
        refine ⟨hname, hdeclarable.1, ?_, ?_, plainText_iff.mpr ⟨htext, heol⟩, ?_⟩
        · intro a ha
          obtain ⟨-, hspace, hvalue⟩ := XmlAttr.mk.inj (hkept a ha).2
          exact ⟨hattrs a ha, hx a ha, hspace.symm, plainValue_iff.mpr ⟨hdeclarable.2 a ha, hvalue⟩⟩
        · rw [hnames] at hnodup
          exact (List.nodup_append.mp hnodup).2.1
        · intro c hc
          exact (ih c hc (hchildren c hc) hns').mp ⟨hlegal c hc, hunique c hc, hcs c hc⟩
      · rintro ⟨-, hspace, hplain, hnodup, htext, hkept⟩
        have hx : ∀ a ∈ attrs, a.name ≠ xmlns := fun a ha => (hplain a ha).2.1
        have hspace' : ns = parent ∨ ns ≠ [] ∧ ns ≠ "jabber:client".toList ∧ ns ∉ reserved ∧ blanks (eol ns) = ns := by
          refine hspace.imp_right ?_
          intro h
          exact ⟨h.1, h.2.1, h.2.2.1, (plainValue_iff.mp h.2.2.2).2⟩
        have hns' : ns ≠ [] := by
          rcases hspace with h | h
          · rw [h]
            exact hparent
          · exact h.1
        have hnodup' : ((normal (tagAttrs (effective parent) ns attrs)).map Prod.fst).Nodup := by
          rw [hnames]
          rcases hl with rfl | rfl
          · exact hnodup
          · refine List.nodup_cons.mpr ⟨?_, hnodup⟩
            intro hmem
            obtain ⟨a, ha, he⟩ := List.mem_map.mp hmem
            exact hx a ha he
        have hall := fun c hc => (ih c hc (hchildren c hc) hns').mpr (hkept c hc)
        have htag := (legal_tagAttrs hparent hspace').mpr
          ⟨hspace, fun a ha => (plainValue_iff.mp (hplain a ha).2.2.2).1⟩
        refine ⟨⟨htag, (plainText_iff.mp htext).1, fun c hc => (hall c hc).1⟩, ⟨hnodup', fun c hc => (hall c hc).2.1⟩, ?_⟩
        have hcs : (children.map (treeOf (effective ns))).mapM (rebuild ⟨ns, ps⟩) = some children := by
          rw [List.mapM_map, mapM_eq_self_iff]
          exact fun c hc => (hall c hc).2.2
        have hattrs' : (attrs.filter fun a => a.name ≠ xmlns).map (fun a => (⟨a.name, [], blanks (eol a.value)⟩ : XmlAttr)) =
            attrs := by
          rw [filter_map_eq_iff]
          intro a ha
          obtain ⟨-, hne, hspace, hvalue⟩ := hplain a ha
          refine ⟨decide_eq_true hne, ?_⟩
          rw [(plainValue_iff.mp hvalue).2, ← hspace]
        rw [rebuild_treeOf hname hattrs hnodup', (defaultOf_tagAttrs hparent hx).mpr hspace', Option.bind_some, hcs,
          hattrs', (plainText_iff.mp htext).2]
        rfl

/-! ## Names of what is read -/

theorem named_startToNode {space name : Str} {attrs : List Attr} (hname : isNCName name = true)
    (h : ∀ a ∈ attrs, isNCName a.name = true) : Named (startToNode space name attrs) := by
  refine ⟨hname, ?_, trivial⟩
  intro a ha
  obtain ⟨b, hb, rfl⟩ := List.mem_map.mp ha
  exact h b (List.mem_filter.mp hb).1

theorem named_addChild {n c : XmlNode} (hn : Named n) (hc : Named c) : Named (n.addChild c) := by
  cases n
  obtain ⟨hname, hattrs, hchildren⟩ := hn
  refine ⟨hname, hattrs, allNamed_iff.mpr ?_⟩
  rw [allNamed_iff] at hchildren
  exact List.forall_mem_append.mpr ⟨hchildren, by simpa using hc⟩

mutual
theorem named_attach {parent : XmlNode} (hp : Named parent) : ∀ n : Node, n.Named → Named (attach parent n)
  | .text s, _ => by
      cases parent
      exact hp
  | .element space name attrs children, h => by
      rw [attach]
      exact named_addChild hp (named_fill (named_startToNode h.1 h.2.1) children h.2.2)

theorem named_fill {parent : XmlNode} (hp : Named parent) : ∀ ns : List Node, NamedAll ns → Named (fill parent ns)
  | [], _ => hp
  | n :: ns, h => by
      rw [fill]
      exact named_fill (named_attach hp n h.1) ns h.2
end

theorem named_of_preserved (n : XmlNode) : ∀ {parent : Str}, Preserved parent n → Named n := by
  induction n using node_induction with
  | mk name ns attrs children text ih =>
      rintro parent ⟨hname, -, hattrs, -, -, hchildren⟩
      rw [allPreserved_iff] at hchildren
      exact ⟨hname, fun a ha => (hattrs a ha).1, allNamed_iff.mpr fun c hc => ih c hc (hchildren c hc)⟩

theorem names_proper {parentNS ns : Str} {attrs : List XmlAttr} (h : ∀ a ∈ attrs, isNCName a.name = true) :
    ∀ a ∈ tagAttrs parentNS ns attrs, IsName a.1 := by
  intro a ha
  rcases List.mem_append.mp ha with ha | ha
  · split at ha
    · rw [List.mem_singleton.mp ha]
      have hxmlns : isNCName xmlns = true := by decide
      exact isName_of_isNCName hxmlns
    · cases ha
  · obtain ⟨b, hb, rfl⟩ := List.mem_map.mp ha
    exact isName_of_isNCName (h b hb)

theorem proper_markupAll {parentNS : Str} {cs : List XmlNode} (h : ∀ c ∈ cs, (markup parentNS c).Proper) :
    ProperAll (markupAll parentNS cs) := by
  induction cs with
  | nil => exact trivial
  | cons c cs ih =>
      refine ⟨h c List.mem_cons_self, ?_, ih fun d hd => h d (List.mem_cons_of_mem c hd)⟩
      rw [isText_markup]
      intro hf
      cases hf

theorem proper_markup (n : XmlNode) : ∀ {parentNS : Str}, Named n → (markup parentNS n).Proper := by
  induction n using node_induction with
  | mk name ns attrs children text ih =>
      rintro parentNS ⟨hname, hattrs, hchildren⟩
      rw [allNamed_iff] at hchildren
      have hall : ProperAll (markupAll (effective ns) children) :=
        proper_markupAll fun c hc => ih c hc (hchildren c hc)
      rw [markup]
      split
      · exact ⟨isName_of_isNCName hname, names_proper hattrs⟩
      · refine ⟨isName_of_isNCName hname, names_proper hattrs, trivial, ?_, hall⟩
        intro _
        cases children with
        | nil => rfl
        | cons c cs => exact isText_markup _ c

theorem fill_start (ns : List Node) : ∀ n, (fill n ns).name = n.name ∧ (fill n ns).ns = n.ns ∧ (fill n ns).attrs = n.attrs := by
  induction ns with
  | nil => exact fun n => ⟨rfl, rfl, rfl⟩
  | cons e ns ih =>
      intro n
      rw [fill]
      cases e with
      | text s => exact ih (addText n s)
      | element space name attrs children => exact ih (n.addChild _)

theorem isStreamOpen_fill (n : XmlNode) (ns : List Node) : (fill n ns).isStreamOpen = n.isStreamOpen := by
  obtain ⟨hname, hns, -⟩ := fill_start ns n
  rw [XmlNode.isStreamOpen, XmlNode.isStreamOpen, hname, hns]

/-- What the decoder returns for an element in a stream. -/
theorem parse_eq_some {s : Scope} {t : Str} {n : XmlNode} (h : parse s t = some n) :
    ∃ tree space name attrs children, readElement t = some tree ∧
      Namespaces.resolve s tree = some (.element space name attrs children) ∧
      n = if (startToNode space name attrs).isStreamOpen then startToNode space name attrs
        else fill (startToNode space name attrs) children := by
  obtain ⟨tree, htree, h⟩ := Option.bind_eq_some_iff.mp h
  obtain ⟨e, he, h⟩ := Option.bind_eq_some_iff.mp h
  cases e with
  | text s => cases h
  | element space name attrs children =>
      refine ⟨tree, space, name, attrs, children, htree, he, ?_⟩
      rw [readStanza_root] at h
      split at h
      · next hopen =>
        rw [if_pos hopen]
        exact (Option.some.inj h).symm
      · next hopen =>
        rw [if_neg hopen]
        exact (Option.some.inj h).symm

/-- Only names without colons come out of the decoder. -/
theorem named_of_parse {s : Scope} {t : Str} {n : XmlNode} (h : parse s t = some n) : Named n := by
  obtain ⟨tree, space, name, attrs, children, -, he, rfl⟩ := parse_eq_some h
  have hnamed : (Node.element space name attrs children).Named := resolve_named tree he
  have hstart : Named (startToNode space name attrs) := named_startToNode hnamed.1 hnamed.2.1
  split
  · exact hstart
  · exact named_fill hstart children hnamed.2.2

theorem resolve_empty {s : Scope} {name : Str} {attrs : List (Str × Str)} {space name' : Str} {attrs' : List Attr}
    {children : List Node} (h : Namespaces.resolve s (.element name attrs []) = some (.element space name' attrs' children)) :
    children = [] := by
  obtain ⟨start, -, h⟩ := Option.bind_eq_some_iff.mp h
  cases h
  rfl

theorem serialize_eq (n : XmlNode) : n.serialize = (markup (effective "jabber:client".toList) n).print := serializeIn_eq [] n

theorem client_ne_nil : "jabber:client".toList ≠ [] := by decide

/-- A stanza that comes back when it is written and read in a stream. -/
theorem preserved_of_parse {n : XmlNode} (h : parse stream n.serialize = some n) :
    Preserved "jabber:client".toList n ∧ (n.isStreamOpen = true → n.children = [] ∧ n.text = []) := by
  have hn := named_of_parse h
  obtain ⟨tree, space, name, attrs, children, htree, he, hroot⟩ := parse_eq_some h
  rw [serialize_eq, readElement_print_iff (proper_markup n hn) (isText_markup _ n)] at htree
  obtain ⟨hlegal, hunique, rfl⟩ := htree
  have hrebuild : rebuild stream (treeOf (effective "jabber:client".toList) n) =
      some (fill (startToNode space name attrs) children) := by
    rw [rebuild, treeOf, he]
    rfl
  have hkept : fill (startToNode space name attrs) children = n → Preserved "jabber:client".toList n := by
    intro hfill
    rw [hfill] at hrebuild
    exact (rebuild_iff n hn client_ne_nil _).mp ⟨hlegal, hunique, hrebuild⟩
  split at hroot
  · next hopen =>
    have htree : treeOf (effective "jabber:client".toList) n =
        .element name (normal (tagAttrs (effective "jabber:client".toList) space n.attrs)) [] := by
      rw [hroot, startToNode, treeOf_mk]
      rfl
    change Namespaces.resolve stream (treeOf _ n) = _ at he
    rw [htree] at he
    have hnil : children = [] := resolve_empty he
    rw [hnil] at hkept
    refine ⟨hkept hroot.symm, ?_⟩
    intro _
    rw [hroot]
    exact ⟨rfl, rfl⟩
  · next hopen =>
    refine ⟨hkept hroot.symm, ?_⟩
    intro hstream
    rw [hroot, isStreamOpen_fill] at hstream
    exact absurd hstream hopen

theorem parse_of_preserved {n : XmlNode} (hkept : Preserved "jabber:client".toList n)
    (hopen : n.isStreamOpen = true → n.children = [] ∧ n.text = []) : parse stream n.serialize = some n := by
  have hn := named_of_preserved n hkept
  obtain ⟨hlegal, hunique, hrebuild⟩ := (rebuild_iff n hn client_ne_nil stream.prefixes).mpr hkept
  have hread := (readElement_print_iff (proper_markup n hn) (isText_markup (effective "jabber:client".toList) n)
    (treeOf (effective "jabber:client".toList) n)).mpr ⟨hlegal, hunique, rfl⟩
  obtain ⟨e, he, hbuilt⟩ := Option.bind_eq_some_iff.mp hrebuild
  have hresolve : Namespaces.resolve stream (treeOf (effective "jabber:client".toList) n) = some e := he
  rw [parse, serialize_eq, hread, Option.bind_some, hresolve, Option.bind_some]
  cases e with
  | text s => cases hbuilt
  | element space name attrs children =>
      have hfill : fill (startToNode space name attrs) children = n := Option.some.inj hbuilt
      rw [readStanza_root]
      split
      · next hstream =>
        obtain ⟨hchildren, htext⟩ := hopen (by rw [← hfill, isStreamOpen_fill]; exact hstream)
        obtain ⟨hname, hns, hattrs⟩ := fill_start children (startToNode space name attrs)
        rw [hfill] at hname hns hattrs
        cases n
        simp only [XmlNode.name, XmlNode.ns, XmlNode.attrs, XmlNode.children, XmlNode.text] at hname hns hattrs hchildren htext
        rw [hname, hns, hattrs, hchildren, htext]
        rfl
      · exact hbuilt

/-- A stanza that is written and read in a stream comes back if and only if it is one that is kept. -/
theorem serialize_preserves_iff (n : XmlNode) :
    parse stream n.serialize = some n ↔
      Preserved "jabber:client".toList n ∧ (n.isStreamOpen = true → n.children = [] ∧ n.text = []) :=
  ⟨preserved_of_parse, fun h => parse_of_preserved h.1 h.2⟩

/-- A message in a language, as a client sends it. -/
def english : Markup :=
  .empty "message".toList [("to".toList, "bob@d".toList), ("xml:lang".toList, "en".toList)]

def englishNode : XmlNode :=
  .mk "message".toList "jabber:client".toList [⟨"to".toList, [], "bob@d".toList⟩, ⟨"lang".toList, xmlURI, "en".toList⟩] [] []

theorem english_read : parse stream english.print = some englishNode := by
  have hname : ∀ name ∈ ["message".toList, "to".toList, "xml:lang".toList], IsName name := by
    have hall : ∀ name ∈ ["message".toList, "to".toList, "xml:lang".toList],
        name.all isNameChar = true ∧ name.head?.any isNameStart = true := by decide +kernel
    exact fun name hmem => ⟨List.all_eq_true.mp (hall name hmem).1, (hall name hmem).2⟩
  have hproper : english.Proper :=
    ⟨hname _ (by simp), List.forall_mem_cons.mpr ⟨hname _ (by simp), List.forall_mem_singleton.mpr (hname _ (by simp))⟩⟩
  have hlegal : english.Legal :=
    List.forall_mem_cons.mpr ⟨legal_of_all (by decide +kernel), List.forall_mem_singleton.mpr (legal_of_all (by decide +kernel))⟩
  let attrs : List Attr := [⟨[], "to".toList, "bob@d".toList⟩, ⟨xmlURI, "lang".toList, "en".toList⟩]
  have hstart : readStart stream "message".toList (readable (uniformAttrs [("to".toList, "bob@d".toList),
      ("xml:lang".toList, "en".toList)])) = some ⟨stream, "jabber:client".toList, "message".toList, attrs⟩ := by
    decide +kernel
  have hkept : attrs.filter kept = attrs := by decide +kernel
  have hread := (readElement_print_iff hproper rfl english.uniform.tree).mpr ⟨hlegal, by decide +kernel, rfl⟩
  rw [parse, hread, Option.bind_some, english, Markup.uniform, Markup.tree, Namespaces.resolve, hstart, Option.bind_some,
    resolveAll, Option.map_some, Option.bind_some, readStanza_root, if_neg (by decide +kernel), built, fill, startToNode,
    hkept]
  rfl

/-- The message in a language is sent on without it. -/
theorem language_lost :
    parse stream english.print = some englishNode ∧ parse stream englishNode.serialize ≠ some englishNode := by
  refine ⟨english_read, ?_⟩
  intro h
  obtain ⟨-, -, hattrs, -⟩ := (preserved_of_parse h).1
  have hlang := hattrs ⟨"lang".toList, xmlURI, "en".toList⟩ (by simp)
  exact absurd hlang.2.2.1 (by decide)

end Xmppd.GoSerialization
