import Xmppd.Closing

/-!
# How stanza trees are built

The callbacks of the parser add to the tree of one stanza, at the node that the
pointer to the current node leads to. Such a pointer is the path of child
positions from the root of the tree. For every document the callbacks call the
router once for each child of the root element, when it ends, with the tree of
that child. The functions of the tree library are taken to succeed. The chain of
open elements that the event loop keeps is the same tree, cut along the path.
-/
namespace Xmppd.TreeBuilding
open CStrings LibXml ServerState EventLoop Closing

/-! ## Nodes of the tree library -/

/-- `xmlNs`. -/
structure XmlNs where
  href : Str
  pfx : Option Str
deriving DecidableEq, Repr

/-- `xmlAttr`. -/
structure XmlAttr where
  name : Str
  ns : Option XmlNs
  value : Str
deriving DecidableEq, Repr

/-- An element node apart from its children. -/
structure Head where
  name : Str
  nsDef : List XmlNs := []
  ns : Option XmlNs := none
  properties : List XmlAttr := []
deriving DecidableEq, Repr

/-- `xmlNode`. -/
inductive XmlNode where
  | element (head : Head) (children : List XmlNode)
  | text (content : Str)
deriving Repr

/-- An attribute as the parser hands it over. -/
structure SaxAttr where
  localname : Str
  pfx : Option Str
  uri : Option Str
  value : Str
deriving DecidableEq, Repr

/-- The arguments of the callback for a start tag. -/
structure Tag where
  localname : Str
  pfx : Option Str := none
  uri : Option Str := none
  namespaces : List (Option Str × Str) := []
  attributes : List SaxAttr := []
deriving DecidableEq, Repr

inductive Event where
  | startElement (tag : Tag)
  | endElement
  | characters (ch : Str)
deriving DecidableEq, Repr

/-- The namespace of a node with this URI among those it declares. -/
def Head.search (head : Head) (uri : Str) : Option XmlNs := head.nsDef.find? fun ns => ns.href = uri

/-- `xmlNewNs`. -/
def Head.xmlNewNs (head : Head) (ns : XmlNs) : Head := { head with nsDef := head.nsDef ++ [ns] }

/-- One pass of the loop over the declarations of a start tag. -/
def declare (tag : Tag) (head : Head) (declaration : Option Str × Str) : Head :=
  let ns : XmlNs := ⟨declaration.2, declaration.1⟩
  let head := head.xmlNewNs ns
  if tag.uri = some ns.href ∧ tag.pfx = ns.pfx then { head with ns := some ns } else head

/-- The namespace of an element that none of its own declarations gave. -/
def settle (tag : Tag) (head : Head) : Head :=
  match head.ns, tag.uri with
  | none, some uri =>
      match head.search uri with
      | some ns => { head with ns := some ns }
      | none => { head.xmlNewNs ⟨uri, tag.pfx⟩ with ns := some ⟨uri, tag.pfx⟩ }
  | _, _ => head

/-- One pass of the loop over the attributes of a start tag. -/
def copyAttribute (head : Head) (a : SaxAttr) : Head :=
  let setProp (head : Head) (ns : Option XmlNs) : Head :=
    { head with properties := head.properties ++ [⟨a.localname, ns, a.value⟩] }
  match a.uri.filter fun uri => uri ≠ [] with
  | some uri =>
      match head.search uri with
      | some ns => setProp head (some ns)
      | none => setProp (head.xmlNewNs ⟨uri, a.pfx⟩) (some ⟨uri, a.pfx⟩)
  | none => setProp head none

/-- The node that is made for a start tag. -/
def newNode (tag : Tag) : Head :=
  let head := tag.namespaces.foldl (declare tag) { name := tag.localname }
  tag.attributes.foldl copyAttribute (settle tag head)

namespace XmlNode

def children : XmlNode → List XmlNode
  | .element _ cs => cs
  | .text _ => []

/-- `xmlAddChild` with an element. -/
def addChild (n c : XmlNode) : XmlNode :=
  match n with
  | .element head cs => .element head (cs ++ [c])
  | .text s => .text s

/-- `xmlNodeAddContentLen`. -/
def addContent (n : XmlNode) (ch : Str) : XmlNode :=
  match n with
  | .element head cs =>
      match cs.getLast? with
      | some (.text t) => .element head (cs.dropLast ++ [.text (t ++ ch)])
      | _ => .element head (cs ++ [.text ch])
  | .text t => .text (t ++ ch)

/-- The node behind a path. -/
def at? : List ℕ → XmlNode → Option XmlNode
  | [], n => some n
  | k :: ks, n => n.children[k]?.bind (at? ks)

/-- Writing to the node behind a path. -/
def modifyAt (f : XmlNode → XmlNode) : List ℕ → XmlNode → XmlNode
  | [], n => f n
  | k :: ks, .element head cs => .element head (cs.modify k (modifyAt f ks))
  | _ :: _, .text s => .text s

/-- The position that the next child of the node behind a path gets. -/
def nextChild (path : List ℕ) (n : XmlNode) : ℕ := ((at? path n).map fun m => m.children.length).getD 0

end XmlNode

/-! ## The callbacks -/

/-- A pointer to a node: in the tree of the current stanza, or in another one. -/
inductive Pointer where
  | inStanza (path : List ℕ)
  | apart (root : XmlNode) (path : List ℕ)
deriving Repr

/-- The fields that the callbacks build the tree in. -/
structure Parser where
  stanzaDepth : ℤ := 0
  currentStanza : Option XmlNode := none
  currentNode : Option Pointer := none
deriving Repr

/-- What a callback calls. -/
inductive Call (α : Type) where
  | streamHandleOpen (dest xmlns : Str)
  | stanzaRoute (stanza : α)
  | streamHandleClose
deriving Repr

def Call.map {α β : Type} (f : α → β) : Call α → Call β
  | .streamHandleOpen dest xmlns => .streamHandleOpen dest xmlns
  | .stanzaRoute stanza => .stanzaRoute (f stanza)
  | .streamHandleClose => .streamHandleClose

/-- `sax_get_attribute`. -/
def saxGetAttribute (attributes : List SaxAttr) (name : Str) : Option Str :=
  (attributes.find? fun a => a.localname = name).map SaxAttr.value

/-- The new node is added below the current one and becomes the current one. -/
def Parser.descend (p : Parser) (node : XmlNode) : Parser :=
  match p.currentNode with
  | none => { p with currentNode := some (.apart node []) }
  | some (.inStanza path) =>
      { p with
        currentStanza := p.currentStanza.map (XmlNode.modifyAt (fun n => n.addChild node) path)
        currentNode := some (.inStanza (path ++ [(p.currentStanza.map (XmlNode.nextChild path)).getD 0])) }
  | some (.apart root path) =>
      { p with currentNode := some (.apart (root.modifyAt (fun n => n.addChild node) path)
        (path ++ [root.nextChild path])) }

/-- `on_start_element_ns`. -/
def onStartElementNs (p : Parser) (tag : Tag) : Parser × Option (Call XmlNode) :=
  let p := { p with stanzaDepth := p.stanzaDepth + 1 }
  if p.stanzaDepth = 1 then
    (p, some (.streamHandleOpen ((saxGetAttribute tag.attributes "to").getD []) (tag.uri.getD [])))
  else
    let node : XmlNode := .element (newNode tag) []
    if p.stanzaDepth = 2 then
      ({ p with currentStanza := some node, currentNode := some (.inStanza []) }, none)
    else (p.descend node, none)

/-- The parent of a node, where it has one. -/
def Pointer.parent : Pointer → Pointer
  | .inStanza path => .inStanza path.dropLast
  | .apart root path => .apart root path.dropLast

/-- `on_end_element_ns`. -/
def onEndElementNs (p : Parser) : Parser × Option (Call XmlNode) :=
  let p := { p with stanzaDepth := p.stanzaDepth - 1 }
  if p.stanzaDepth = 0 then (p, some .streamHandleClose)
  else if p.stanzaDepth = 1 then
    match p.currentStanza with
    | some stanza => ({ p with currentStanza := none, currentNode := none }, some (.stanzaRoute stanza))
    | none => (p, none)
  else ({ p with currentNode := p.currentNode.map Pointer.parent }, none)

/-- `on_characters`. -/
def onCharacters (p : Parser) (ch : Str) : Parser × Option (Call XmlNode) :=
  if 2 ≤ p.stanzaDepth then
    match p.currentNode with
    | none => (p, none)
    | some (.inStanza path) =>
        ({ p with currentStanza := p.currentStanza.map (XmlNode.modifyAt (fun n => n.addContent ch) path) }, none)
    | some (.apart root path) =>
        ({ p with currentNode := some (.apart (root.modifyAt (fun n => n.addContent ch) path) path) }, none)
  else (p, none)

def callback (p : Parser) : Event → Parser × Option (Call XmlNode)
  | .startElement tag => onStartElementNs p tag
  | .endElement => onEndElementNs p
  | .characters ch => onCharacters p ch

/-- What each callback of a list of events calls. -/
def calls : Parser → List Event → List (Option (Call XmlNode))
  | _, [] => []
  | p, e :: es => (callback p e).2 :: calls (callback p e).1 es

/-- The fields after a list of events. -/
def parse (p : Parser) (events : List Event) : Parser := events.foldl (fun p e => (callback p e).1) p

section
variable (p : Parser) (es fs : List Event)

theorem calls_append : calls p (es ++ fs) = calls p es ++ calls (parse p es) fs := by
  induction es generalizing p with
  | nil => rfl
  | cons e es ih => exact congrArg (List.cons _) (ih _)

theorem parse_append : parse p (es ++ fs) = parse (parse p es) fs := List.foldl_append

end

/-! ## The node for a start tag -/

/-- A head whose namespace, where it has one, is that of the start tag. -/
structure Begun (tag : Tag) (head : Head) : Prop where
  name : head.name = tag.localname
  ns : ∀ ns, head.ns = some ns → tag.uri = some ns.href
  properties : head.properties = []

theorem declare_begun {tag : Tag} (ds : List (Option Str × Str)) :
    ∀ head, Begun tag head → Begun tag (ds.foldl (declare tag) head) := by
  induction ds with
  | nil => exact fun _ h => h
  | cons d ds ih =>
      intro head h
      refine ih _ ?_
      unfold declare
      dsimp only
      split
      · next huri => exact ⟨h.name, fun ns hns => Option.some.inj hns ▸ huri.1, h.properties⟩
      · exact ⟨h.name, h.ns, h.properties⟩

theorem search_href {head : Head} {uri : Str} {ns : XmlNs} (h : head.search uri = some ns) : ns.href = uri := by
  simpa using List.find?_some h

theorem settle_ns {tag : Tag} {head : Head} (h : Begun tag head) : (settle tag head).ns.map XmlNs.href = tag.uri := by
  unfold settle
  split
  · next uri hns huri =>
    rw [huri]
    split
    · next ns hfound => exact congrArg some (search_href hfound)
    · rfl
  · next hno =>
    cases hns : head.ns with
    | some ns => exact (h.ns ns hns).symm
    | none =>
        cases huri : tag.uri with
        | none => rfl
        | some uri => exact absurd huri (hno uri hns)

theorem settle_rest (tag : Tag) (head : Head) :
    (settle tag head).name = head.name ∧ (settle tag head).properties = head.properties := by
  unfold settle
  split
  · split
    · exact ⟨rfl, rfl⟩
    · exact ⟨rfl, rfl⟩
  · exact ⟨rfl, rfl⟩

/-- An attribute of the tree library without the prefix of its namespace. -/
def XmlAttr.erase (a : XmlAttr) : Attr := ⟨a.name, (a.ns.map XmlNs.href).getD [], a.value⟩

/-- The attribute that the document has. -/
def SaxAttr.attr (a : SaxAttr) : Attr := ⟨a.localname, a.uri.getD [], a.value⟩

theorem copyAttribute_spec (head : Head) (a : SaxAttr) : (copyAttribute head a).name = head.name ∧
    (copyAttribute head a).ns = head.ns ∧
    (copyAttribute head a).properties.map XmlAttr.erase = head.properties.map XmlAttr.erase ++ [a.attr] := by
  unfold copyAttribute
  dsimp only
  split
  · next uri huri =>
    have hattr : a.uri = some uri := (Option.filter_eq_some_iff.mp huri).1
    split
    · next ns hfound => simp [XmlAttr.erase, SaxAttr.attr, hattr, search_href hfound]
    · simp [XmlAttr.erase, SaxAttr.attr, hattr, Head.xmlNewNs]
  · next huri =>
    have hempty : a.uri.getD [] = [] := by
      cases hattr : a.uri with
      | none => rfl
      | some uri =>
          rw [hattr, Option.filter_eq_none_iff] at huri
          simpa using huri uri rfl
    simp [XmlAttr.erase, SaxAttr.attr, hempty]

theorem copyAttributes_spec (as : List SaxAttr) : ∀ head : Head, (as.foldl copyAttribute head).name = head.name ∧
    (as.foldl copyAttribute head).ns = head.ns ∧
    (as.foldl copyAttribute head).properties.map XmlAttr.erase =
      head.properties.map XmlAttr.erase ++ as.map SaxAttr.attr := by
  induction as with
  | nil => exact fun head => ⟨rfl, rfl, (List.append_nil _).symm⟩
  | cons a as ih =>
      intro head
      obtain ⟨hname, hns, hprops⟩ := copyAttribute_spec head a
      obtain ⟨hname', hns', hprops'⟩ := ih (copyAttribute head a)
      refine ⟨hname'.trans hname, hns'.trans hns, ?_⟩
      rw [List.foldl_cons, hprops', hprops, List.append_assoc]
      rfl

/-- The node has the name, the namespace and the attributes of the start tag. -/
theorem newNode_spec (tag : Tag) : (newNode tag).name = tag.localname ∧ (newNode tag).ns.map XmlNs.href = tag.uri ∧
    (newNode tag).properties.map XmlAttr.erase = tag.attributes.map SaxAttr.attr := by
  have hbegun : Begun tag (tag.namespaces.foldl (declare tag) { name := tag.localname }) :=
    declare_begun tag.namespaces _ ⟨rfl, by simp, rfl⟩
  obtain ⟨hname, hprops⟩ := settle_rest tag (tag.namespaces.foldl (declare tag) { name := tag.localname })
  obtain ⟨hname', hns', hprops'⟩ := copyAttributes_spec tag.attributes
    (settle tag (tag.namespaces.foldl (declare tag) { name := tag.localname }))
  refine ⟨(hname'.trans hname).trans hbegun.name, ?_, ?_⟩
  · rw [newNode, hns', settle_ns hbegun]
  · rw [newNode, hprops', hprops, hbegun.properties]
    rfl

/-! ## Paths -/

namespace XmlNode

theorem modifyAt_append (f : XmlNode → XmlNode) (q : List ℕ) (p : List ℕ) :
    ∀ n, modifyAt f (p ++ q) n = modifyAt (modifyAt f q) p n := by
  induction p with
  | nil => exact fun _ => rfl
  | cons k p ih =>
      intro n
      cases n with
      | text s => rfl
      | element head cs =>
          rw [List.cons_append, modifyAt, modifyAt, funext ih]

theorem at?_append (q p : List ℕ) : ∀ n, at? (p ++ q) n = (at? p n).bind (at? q) := by
  induction p with
  | nil => exact fun _ => rfl
  | cons k p ih =>
      intro n
      rw [List.cons_append, at?, at?, funext ih]
      exact (Option.bind_assoc _ _ _).symm

end XmlNode

/-- The trees that differ at one place only, and the path to it. -/
structure Hole (path : List ℕ) (fill : XmlNode → XmlNode) : Prop where
  node : ∀ n, XmlNode.at? path (fill n) = some n
  modify : ∀ f n, (fill n).modifyAt f path = fill (f n)

theorem Hole.root : Hole [] id := ⟨fun _ => rfl, fun _ _ => rfl⟩

theorem modify_last {α : Type} (f : α → α) (x : α) (l : List α) : (l ++ [x]).modify l.length f = l ++ [f x] := by
  induction l with
  | nil => rfl
  | cons y l ih => simpa using ih

/-- The last child of the node in a hole. -/
theorem Hole.child {path : List ℕ} {fill : XmlNode → XmlNode} (h : Hole path fill) (head : Head) (cs : List XmlNode) :
    Hole (path ++ [cs.length]) fun n => fill (.element head (cs ++ [n])) := by
  constructor
  · intro n
    rw [XmlNode.at?_append, h.node]
    simp [XmlNode.at?, XmlNode.children]
  · intro f n
    rw [XmlNode.modifyAt_append, h.modify]
    simp [XmlNode.modifyAt, modify_last]

/-! ## Documents -/

mutual
/-- An element of a document. -/
inductive Element where
  | mk (tag : Tag) (content : Content)

/-- The content of an element; the text before, between and after its children
comes in any number of pieces. -/
inductive Content where
  | text (chunks : List Str)
  | child (chunks : List Str) (e : Element) (rest : Content)
end

mutual
/-- The events that an element makes. -/
def Element.events : Element → List Event
  | .mk tag content => .startElement tag :: (content.events ++ [.endElement])

def Content.events : Content → List Event
  | .text chunks => chunks.map .characters
  | .child chunks e rest => chunks.map .characters ++ (e.events ++ rest.events)
end

/-- The text node for some pieces. -/
def textOf {α : Type} (text : Str → α) (chunks : List Str) : List α := if chunks = [] then [] else [text chunks.flatten]

mutual
/-- The element as a tree: its name, its namespace, its attributes, and the text and
children in document order. -/
def Element.tree : Element → Node
  | .mk tag content => .element tag.localname (tag.uri.getD []) (tag.attributes.map SaxAttr.attr) content.trees

def Content.trees : Content → List Node
  | .text chunks => textOf Node.text chunks
  | .child chunks e rest => textOf Node.text chunks ++ e.tree :: rest.trees
end

mutual
/-- The same in the nodes of the tree library. -/
def Element.dom : Element → XmlNode
  | .mk tag content => .element (newNode tag) content.doms

def Content.doms : Content → List XmlNode
  | .text chunks => textOf XmlNode.text chunks
  | .child chunks e rest => textOf XmlNode.text chunks ++ e.dom :: rest.doms
end

mutual
/-- A node of the tree library as a tree. -/
def XmlNode.erase : XmlNode → Node
  | .element head cs =>
      .element head.name ((head.ns.map XmlNs.href).getD []) (head.properties.map XmlAttr.erase) (eraseAll cs)
  | .text s => .text s

def eraseAll : List XmlNode → List Node
  | [] => []
  | n :: ns => n.erase :: eraseAll ns
end

theorem eraseAll_eq (ns : List XmlNode) : eraseAll ns = ns.map XmlNode.erase := by
  induction ns with
  | nil => rfl
  | cons n ns ih => rw [eraseAll, ih, List.map_cons]

theorem erase_textOf (chunks : List Str) :
    (textOf XmlNode.text chunks).map XmlNode.erase = textOf Node.text chunks := by
  unfold textOf
  split
  · rfl
  · rfl

mutual
theorem Element.erase_dom : ∀ e : Element, e.dom.erase = e.tree
  | .mk tag content => by
      obtain ⟨hname, hns, hprops⟩ := newNode_spec tag
      rw [Element.dom, Element.tree, XmlNode.erase, hname, hns, hprops, eraseAll_eq, content.erase_doms]

theorem Content.erase_doms : ∀ c : Content, c.doms.map XmlNode.erase = c.trees
  | .text chunks => erase_textOf chunks
  | .child chunks e rest => by
      rw [Content.doms, Content.trees, List.map_append, erase_textOf, List.map_cons, e.erase_dom, rest.erase_doms]
end

/-! ## Below a stanza -/

/-- The last of these nodes is no text that text would be added to. -/
def Ends (cs : List XmlNode) : Prop := ∀ s, cs.getLast? ≠ some (.text s)

section
variable {d : ℤ} {path : List ℕ} {fill : XmlNode → XmlNode}

/-- The parser at a node of the current stanza. -/
def within (d : ℤ) (path : List ℕ) (t : XmlNode) : Parser := ⟨d, some t, some (.inStanza path)⟩

theorem characters_within (hd : 2 ≤ d) (h : Hole path fill) (n : XmlNode) (ch : Str) :
    callback (within d path (fill n)) (.characters ch) = (within d path (fill (n.addContent ch)), none) := by
  unfold callback onCharacters within
  dsimp only
  rw [if_pos hd, Option.map_some, h.modify]

theorem addContent_last (head : Head) (cs : List XmlNode) (s ch : Str) :
    (XmlNode.element head (cs ++ [.text s])).addContent ch = .element head (cs ++ [.text (s ++ ch)]) := by
  simp [XmlNode.addContent]

/-- Pieces of text after a text node are added to it. -/
theorem more_within (hd : 2 ≤ d) (h : Hole path fill) (head : Head) (cs : List XmlNode) (chunks : List Str) : ∀ s,
    parse (within d path (fill (.element head (cs ++ [.text s])))) (chunks.map .characters) =
        within d path (fill (.element head (cs ++ [.text (s ++ chunks.flatten)]))) ∧
      calls (within d path (fill (.element head (cs ++ [.text s])))) (chunks.map .characters) =
        chunks.map fun _ => none := by
  induction chunks with
  | nil => exact fun s => ⟨by simp [parse], rfl⟩
  | cons ch chunks ih =>
      intro s
      have hstep := characters_within hd h (.element head (cs ++ [.text s])) ch
      rw [addContent_last] at hstep
      obtain ⟨hparse, hcalls⟩ := ih (s ++ ch)
      constructor
      · rw [List.map_cons, parse, List.foldl_cons, hstep]
        exact hparse.trans (by rw [List.flatten_cons, List.append_assoc])
      · rw [List.map_cons, calls, hstep, List.map_cons, hcalls]

theorem start_within (hd : 2 ≤ d) (h : Hole path fill) (head : Head) (cs : List XmlNode) (tag : Tag) :
    callback (within d path (fill (.element head cs))) (.startElement tag) =
      (within (d+1) (path ++ [cs.length]) (fill (.element head (cs ++ [.element (newNode tag) []]))), none) := by
  unfold callback onStartElementNs within
  dsimp only
  rw [if_neg (by omega), if_neg (by omega)]
  unfold Parser.descend
  dsimp only
  rw [Option.map_some, Option.map_some, h.modify, XmlNode.nextChild, h.node]
  rfl

theorem end_within (hd : 2 ≤ d) (k : ℕ) (t : XmlNode) :
    callback (within (d+1) (path ++ [k]) t) .endElement = (within d path t, none) := by
  have hdepth : d + 1 - 1 = d := by omega
  unfold callback onEndElementNs within
  dsimp only
  rw [if_neg (by omega), if_neg (by omega), Option.map_some, Pointer.parent, List.dropLast_concat, hdepth]

end

/-- These events add these nodes to the children of the current node, where the
children so far satisfy a condition, and call nothing. -/
def Adds (before : List XmlNode → Prop) (es : List Event) (ns : List XmlNode) : Prop :=
  ∀ (d : ℤ) (path : List ℕ) (fill : XmlNode → XmlNode) (head : Head) (cs : List XmlNode), 2 ≤ d → Hole path fill →
    before cs →
      parse (within d path (fill (.element head cs))) es = within d path (fill (.element head (cs ++ ns))) ∧
        calls (within d path (fill (.element head cs))) es = es.map fun _ => none

theorem Adds.append {P Q : List XmlNode → Prop} {es fs : List Event} {ns ms : List XmlNode} (h : Adds P es ns)
    (hPQ : ∀ cs, P cs → Q (cs ++ ns)) (h' : Adds Q fs ms) : Adds P (es ++ fs) (ns ++ ms) := by
  intro d path fill head cs hd hole hcs
  obtain ⟨hparse, hcalls⟩ := h d path fill head cs hd hole hcs
  obtain ⟨hparse', hcalls'⟩ := h' d path fill head (cs ++ ns) hd hole (hPQ cs hcs)
  constructor
  · rw [parse_append, hparse, hparse', List.append_assoc]
  · rw [calls_append, hparse, hcalls, hcalls', List.map_append]

/-- Pieces of text become one text node. -/
theorem adds_text (chunks : List Str) : Adds Ends (chunks.map .characters) (textOf XmlNode.text chunks) := by
  intro d path fill head cs hd hole hends
  cases chunks with
  | nil => simp [parse, calls, textOf]
  | cons ch chunks =>
      have hstep := characters_within hd hole (.element head cs) ch
      have hnew : (XmlNode.element head cs).addContent ch = .element head (cs ++ [.text ch]) := by
        unfold XmlNode.addContent
        dsimp only
        split
        · next s hlast => exact absurd hlast (hends s)
        · rfl
      rw [hnew] at hstep
      obtain ⟨hparse, hcalls⟩ := more_within hd hole head cs chunks ch
      constructor
      · rw [List.map_cons, parse, List.foldl_cons, hstep]
        exact hparse
      · rw [List.map_cons, calls, hstep, hcalls]
        simp [Function.comp_def]

theorem ends_element (cs : List XmlNode) (e : Element) : Ends (cs ++ [e.dom]) := by
  obtain ⟨tag, content⟩ := e
  simp [Ends, Element.dom]

mutual
/-- An element below a stanza becomes the last child of the current node. -/
theorem Element.adds : ∀ e : Element, Adds (fun _ => True) e.events [e.dom]
  | .mk tag content => by
      intro d path fill head cs hd hole _
      have hstart := start_within hd hole head cs tag
      obtain ⟨hparse, hcalls⟩ := content.adds (d+1) (path ++ [cs.length]) _ (newNode tag) [] (by omega)
        (hole.child head cs) (by simp [Ends])
      rw [List.nil_append] at hparse
      constructor
      · rw [Element.events, parse, List.foldl_cons, hstart]
        change parse _ (content.events ++ [.endElement]) = _
        rw [parse_append, hparse, parse, List.foldl_cons, List.foldl_nil, end_within hd, Element.dom]
      · rw [Element.events, calls, hstart, calls_append, hparse, hcalls, calls, end_within hd]
        simp [calls]

/-- The content of an element is added to the children of the current node. -/
theorem Content.adds : ∀ c : Content, Adds Ends c.events c.doms
  | .text chunks => adds_text chunks
  | .child chunks e rest =>
      (adds_text chunks).append (fun _ _ => trivial) (e.adds.append (fun cs _ => ends_element cs e) rest.adds)
end

/-! ## Whole streams -/

/-- What the callbacks of an element that is a stanza call: the router, at its end. -/
def Element.routes : Element → List (Option (Call Node))
  | .mk tag content => none :: ((content.events.map fun _ => none) ++ [some (.stanzaRoute (Element.mk tag content).tree)])

/-- What the callbacks of the content of a stream call. -/
def Content.routes : Content → List (Option (Call Node))
  | .text chunks => chunks.map fun _ => none
  | .child chunks e rest => (chunks.map fun _ => none) ++ (e.routes ++ rest.routes)

/-- What the callbacks of a stream call. -/
def Element.streamCalls : Element → List (Option (Call Node))
  | .mk tag content =>
      some (.streamHandleOpen ((saxGetAttribute tag.attributes "to").getD []) (tag.uri.getD [])) ::
        (content.routes ++ [some .streamHandleClose])

/-- The calls, with the trees as they are in the document. -/
def seen (p : Parser) (es : List Event) : List (Option (Call Node)) :=
  (calls p es).map (Option.map (Call.map XmlNode.erase))

/-- The parser between two stanzas. -/
def between : Parser := ⟨1, none, none⟩

theorem seen_append (p : Parser) (es fs : List Event) : seen p (es ++ fs) = seen p es ++ seen (parse p es) fs := by
  simp only [seen, calls_append, List.map_append]

theorem text_between (chunks : List Str) : parse between (chunks.map .characters) = between ∧
    seen between (chunks.map .characters) = chunks.map fun _ => none := by
  induction chunks with
  | nil => exact ⟨rfl, rfl⟩
  | cons ch chunks ih => exact ⟨ih.1, congrArg (List.cons none) ih.2⟩

/-- A child of the root element is routed when it ends. -/
theorem Element.parse_between (e : Element) : parse between e.events = between ∧ seen between e.events = e.routes := by
  obtain ⟨tag, content⟩ := e
  have hstart : callback between (.startElement tag) = (within 2 [] (.element (newNode tag) []), none) := rfl
  obtain ⟨hparse, hcalls⟩ := content.adds 2 [] id (newNode tag) [] (by omega) Hole.root (by simp [Ends])
  have hend : callback (within 2 [] (.element (newNode tag) content.doms)) .endElement =
      (between, some (.stanzaRoute (Element.mk tag content).dom)) := rfl
  simp only [id, List.nil_append] at hparse hcalls
  constructor
  · rw [Element.events, parse, List.foldl_cons, hstart]
    change parse _ (content.events ++ [.endElement]) = _
    rw [parse_append, hparse, parse, List.foldl_cons, List.foldl_nil, hend]
  · rw [Element.events, seen, calls, hstart, calls_append, hparse, hcalls, calls, hend]
    simp [Element.routes, Call.map, Element.erase_dom, calls]

theorem Content.parse_between : ∀ c : Content, parse between c.events = between ∧ seen between c.events = c.routes
  | .text chunks => text_between chunks
  | .child chunks e rest => by
      have htext := text_between chunks
      have helement := e.parse_between
      have hrest := rest.parse_between
      constructor
      · rw [Content.events, parse_append, htext.1, parse_append, helement.1, hrest.1]
      · rw [Content.events, seen_append, htext.2, htext.1, seen_append, helement.2, helement.1, hrest.2, Content.routes]

/-! ## Depth -/

/-- The elements that are open after some events. -/
def openTags : List Tag → List Event → List Tag
  | tags, [] => tags
  | tags, .startElement tag :: es => openTags (tag :: tags) es
  | tags, .endElement :: es => openTags tags.tail es
  | tags, .characters _ :: es => openTags tags es

/-- Every element that ends was open, with this many open before. -/
def Fits : ℕ → List Event → Prop
  | _, [] => True
  | n, .startElement _ :: es => Fits (n+1) es
  | 0, .endElement :: _ => False
  | n+1, .endElement :: es => Fits n es
  | n, .characters _ :: es => Fits n es

theorem callback_depth (p : Parser) (e : Event) : (callback p e).1.stanzaDepth =
    match e with
    | .startElement _ => p.stanzaDepth + 1
    | .endElement => p.stanzaDepth - 1
    | .characters _ => p.stanzaDepth := by
  cases e with
  | startElement tag =>
      unfold callback onStartElementNs
      dsimp only
      split_ifs
      · rfl
      · rfl
      · unfold Parser.descend
        split <;> rfl
  | endElement =>
      unfold callback onEndElementNs
      dsimp only
      split_ifs
      · rfl
      · split <;> rfl
      · rfl
  | characters ch =>
      unfold callback onCharacters
      dsimp only
      split_ifs
      · split <;> rfl
      · rfl

/-- As long as no element ends that was not begun, the depth is the number of open elements. -/
theorem depth_open (es : List Event) : ∀ (p : Parser) (tags : List Tag), p.stanzaDepth = tags.length →
    Fits tags.length es → (parse p es).stanzaDepth = (openTags tags es).length := by
  induction es with
  | nil => exact fun _ _ h _ => h
  | cons e es ih =>
      intro p tags hdepth hfits
      have hstep := callback_depth p e
      cases e with
      | startElement tag => exact ih _ (tag :: tags) (by rw [hstep, hdepth]; simp) hfits
      | characters ch => exact ih _ tags (hstep.trans hdepth) hfits
      | endElement =>
          cases tags with
          | nil => exact hfits.elim
          | cons tag tags => exact ih _ tags (by rw [hstep, hdepth]; simp) hfits

theorem fits_of_append {es fs : List Event} : ∀ n, Fits n (es ++ fs) → Fits n es := by
  induction es with
  | nil => exact fun _ _ => trivial
  | cons e es ih =>
      intro n h
      cases e with
      | startElement tag => exact ih (n+1) h
      | characters ch => exact ih n h
      | endElement =>
          cases n with
          | zero => exact h
          | succ n => exact ih n h

theorem fits_text (chunks : List Str) (n : ℕ) (fs : List Event) : Fits n (chunks.map .characters ++ fs) ↔ Fits n fs := by
  induction chunks with
  | nil => rfl
  | cons ch chunks ih => exact ih

mutual
theorem Element.fits : ∀ (e : Element) (n : ℕ) (fs : List Event), Fits n (e.events ++ fs) ↔ Fits n fs
  | .mk tag content, n, fs => by
      rw [Element.events, List.cons_append, List.append_assoc]
      exact content.fits (n+1) (.endElement :: fs)

theorem Content.fits : ∀ (c : Content) (n : ℕ) (fs : List Event), Fits n (c.events ++ fs) ↔ Fits n fs
  | .text chunks, n, fs => fits_text chunks n fs
  | .child chunks e rest, n, fs => by
      rw [Content.events, List.append_assoc, fits_text, List.append_assoc, e.fits, rest.fits]
end

/-- The callbacks of a stream open it at its first tag, hand every child of the root
element to the router when that child ends, as the tree it is in the document, and
close the stream at its last tag; they call nothing else, and the depth is the number
of open elements all along. -/
theorem stream_built (stream : Element) : seen {} stream.events = stream.streamCalls ∧
    ∀ k, (parse {} (stream.events.take k)).stanzaDepth = (openTags [] (stream.events.take k)).length := by
  constructor
  · obtain ⟨tag, content⟩ := stream
    obtain ⟨hparse, hseen⟩ := content.parse_between
    have hopen : callback {} (.startElement tag) = (between,
      some (.streamHandleOpen ((saxGetAttribute tag.attributes "to").getD []) (tag.uri.getD []))) := rfl
    have hclose : (callback between .endElement).2 = some .streamHandleClose := rfl
    rw [Element.events, seen, calls, hopen, List.map_cons]
    change _ :: seen between (content.events ++ [.endElement]) = _
    rw [seen_append, hparse, hseen, seen, calls, hclose]
    rfl
  · intro k
    have hwhole := (stream.fits 0 []).mpr trivial
    rw [List.append_nil, ← List.take_append_drop k stream.events] at hwhole
    exact depth_open _ {} [] rfl (fits_of_append 0 hwhole)

/-- Text that comes in two pieces is one text node of the stanza. -/
example : seen {} [.startElement { localname := "stream" }, .startElement { localname := "message" }, .characters "a",
      .characters "b", .endElement, .endElement] =
    [some (.streamHandleOpen [] []), none, none, none, some (.stanzaRoute (elem "message" [] [.text "ab"])),
      some .streamHandleClose] := rfl

/-! ## The chain of open elements -/

/-- The event as the event loop has it. -/
def Event.sax : Event → Sax
  | .startElement tag => .startElement tag.localname (tag.uri.getD []) (tag.attributes.map SaxAttr.attr)
  | .endElement => .endElement
  | .characters ch => .characters ch

/-- An open element, with the children it has so far. -/
abbrev Frame := Head × List XmlNode

def Frame.node (f : Frame) : XmlNode := .element f.1 f.2

/-- The tree around a node, with the innermost open element first. -/
def fillAll : List Frame → XmlNode → XmlNode
  | [], n => n
  | f :: fs, n => fillAll fs (.element f.1 (f.2 ++ [n]))

def positions : List Frame → List ℕ
  | [] => []
  | f :: fs => positions fs ++ [f.2.length]

theorem hole_frames (fs : List Frame) : Hole (positions fs) (fillAll fs) := by
  induction fs with
  | nil => exact Hole.root
  | cons f fs ih => exact ih.child f.1 f.2

theorem erase_addChild (f : Frame) (n : XmlNode) :
    (XmlNode.element f.1 (f.2 ++ [n])).erase = f.node.erase.addChild n.erase := by
  simp [Frame.node, XmlNode.erase, Node.addChild, eraseAll_eq]

theorem erase_addContent (f : Frame) (ch : Str) : (f.node.addContent ch).erase = f.node.erase.addContent ch := by
  obtain ⟨head, cs⟩ := f
  simp only [Frame.node, XmlNode.addContent, XmlNode.erase, Node.addContent, eraseAll_eq, List.getLast?_map]
  cases hlast : cs.getLast? with
  | none => simp [XmlNode.erase, eraseAll_eq]
  | some n =>
      cases n with
      | element h ds => simp [XmlNode.erase, eraseAll_eq]
      | text s => simp [XmlNode.erase, eraseAll_eq, List.map_dropLast]

theorem addContent_frame (f : Frame) (ch : Str) : ∃ g : Frame, f.node.addContent ch = g.node := by
  obtain ⟨head, cs⟩ := f
  unfold Frame.node XmlNode.addContent
  dsimp only
  split
  · exact ⟨(head, _), rfl⟩
  · exact ⟨(head, _), rfl⟩

theorem currentStanza_frames (fs : List Frame) : ∀ n : XmlNode,
    currentStanza (n.erase :: fs.map fun f => f.node.erase) = some (fillAll fs n).erase := by
  induction fs with
  | nil => exact fun _ => rfl
  | cons f fs ih =>
      intro n
      rw [fillAll, ← ih, erase_addChild]
      rfl

/-- The chain of open elements is the tree of the current stanza, cut along the path
to the current node. -/
inductive Cut : Option XmlNode → Option Pointer → List Node → Prop
  | none (q : Option Pointer) : Cut none q []
  | some (f : Frame) (fs : List Frame) : Cut (some (fillAll fs f.node)) (some (.inStanza (positions fs)))
      ((f :: fs).map fun f => f.node.erase)

/-- The session has the depth and the chain that belong to the parser's fields. -/
structure Follows (p : Parser) (s : Session) : Prop where
  depth : s.stanzaDepth = p.stanzaDepth
  cut : Cut p.currentStanza p.currentNode s.building

/-- The tree that a call hands to the router. -/
def Call.routed : Option (Call XmlNode) → Option Node
  | some (.stanzaRoute stanza) => some stanza.erase
  | _ => none

section
variable {p : Parser} {srv : Server} {i : ℕ}

theorem Follows.of_sess {s t : Session} (h : Follows p s) (hd : t.stanzaDepth = s.stanzaDepth) (hb : t.building = s.building) :
    Follows p t := ⟨hd.trans h.depth, hb ▸ h.cut⟩

theorem addDepth_follows (hl : srv.Live i) (h : Follows p (srv.sess i)) (d : ℤ) :
    Follows { p with stanzaDepth := p.stanzaDepth + d } ((addDepth srv i d).sess i) := by
  rw [addDepth, Server.sess_modify_self hl]
  exact ⟨congrArg (· + d) h.depth, h.cut⟩

/-- The parser's position is kept by what only marks or writes. -/
theorem keeps_modify {f : Session → Session} (hf : ∀ s, (f s).stanzaDepth = s.stanzaDepth ∧ (f s).building = s.building)
    (h : Follows p (srv.sess i)) : Follows p ((srv.modify i f).sess i) :=
  h.of_sess (Server.sess_modify_congr Session.stanzaDepth srv i i f fun s => (hf s).1)
    (Server.sess_modify_congr Session.building srv i i f fun s => (hf s).2)

theorem keeps_sessionWrite (out : Out) (h : Follows p (srv.sess i)) : Follows p ((srv.sessionWrite i out).sess i) :=
  keeps_modify (fun _ => ⟨rfl, rfl⟩) h

theorem keeps_teardownOrDefer (hx : (srv.sess i).inXmlParse = true) (o : Oracle) (h : Follows p (srv.sess i)) :
    Follows p ((Streams.teardownOrDefer srv i o).sess i) := by
  rw [Streams.teardownOrDefer, if_pos hx]
  exact keeps_modify (fun _ => ⟨rfl, rfl⟩) h

theorem keeps_streamHandleOpen (hx : (srv.sess i).inXmlParse = true) (o : Oracle) (dest : Str)
    (h : Follows p (srv.sess i)) : Follows p ((Streams.streamHandleOpen srv i o dest).sess i) := by
  unfold Streams.streamHandleOpen
  split
  · exact keeps_teardownOrDefer ((Own.sessionWrite srv _).inXmlParse.trans hx) o (keeps_sessionWrite _ h)
  · exact keeps_modify (fun _ => ⟨rfl, rfl⟩) (keeps_sessionWrite _ (keeps_sessionWrite _ h))

theorem descend_depth (p : Parser) (node : XmlNode) : (p.descend node).stanzaDepth = p.stanzaDepth := by
  unfold Parser.descend
  split <;> rfl

/-- A node that is added below the current one is the next link of the chain. -/
theorem descend_cut {l : List Node} (head : Head) (h : Cut p.currentStanza p.currentNode l) :
    Cut (p.descend (.element head [])).currentStanza (p.descend (.element head [])).currentNode
      (if l = [] then [] else (Frame.node (head, [])).erase :: l) := by
  obtain ⟨d, t, q⟩ := p
  cases h with
  | none =>
      have hnone : ∀ p : Parser, p.currentStanza = none → (p.descend (.element head [])).currentStanza = none := by
        intro p hp
        unfold Parser.descend
        split
        · exact hp
        · simp [hp]
        · exact hp
      rw [if_pos rfl, hnone _ rfl]
      exact Cut.none _
  | some f fs =>
      have hole := hole_frames fs
      rw [if_neg (by simp)]
      unfold Parser.descend
      dsimp only
      rw [Option.map_some, Option.map_some, hole.modify, XmlNode.nextChild, hole.node]
      exact Cut.some (head, []) (f :: fs)

theorem start_follows (hp : parsing srv i = true) (h : Follows p (srv.sess i)) (o : Oracle) (tag : Tag) :
    Follows (onStartElementNs p tag).1 ((EventLoop.onStartElementNs srv i o tag.localname (tag.uri.getD [])
      (tag.attributes.map SaxAttr.attr)).sess i) := by
  obtain ⟨hl, hx⟩ := of_decide_eq_true hp
  have hdeep := addDepth_follows hl h 1
  have hadded : Own i srv (addDepth srv i 1) := addDepth_own 1
  have hx' := hadded.inXmlParse.trans hx
  have hl' : (addDepth srv i 1).Live i := (Server.modify_live srv i i _).mpr hl
  obtain ⟨hname, hns, hprops⟩ := newNode_spec tag
  have hnode : (Frame.node (newNode tag, [])).erase =
      .element tag.localname (tag.uri.getD []) (tag.attributes.map SaxAttr.attr) [] := by
    rw [Frame.node, XmlNode.erase, hname, hns, hprops, eraseAll]
  unfold onStartElementNs EventLoop.onStartElementNs
  dsimp only
  rw [hdeep.depth]
  dsimp only
  split
  · exact keeps_streamHandleOpen hx' o _ hdeep
  · rw [Server.sess_modify_self hl', hdeep.depth]
    dsimp only
    split
    · exact ⟨rfl, hnode ▸ Cut.some (newNode tag, []) []⟩
    · rw [← hnode]
      refine ⟨?_, descend_cut (newNode tag) hdeep.cut⟩
      change _ = (Parser.descend _ _).stanzaDepth
      rw [descend_depth]

theorem Cut.currentStanza {t : Option XmlNode} {q : Option Pointer} {l : List Node} (h : Cut t q l) :
    EventLoop.currentStanza l = t.map XmlNode.erase := by
  cases h with
  | none => rfl
  | some f fs => exact currentStanza_frames fs f.node

/-- The end of an element is the end of the last link of the chain. -/
theorem closeElement_cut {s : Session} {t : Option XmlNode} {q : Option Pointer} (h : Cut t q s.building) :
    Cut t (q.map Pointer.parent) (closeElement s).building := by
  unfold closeElement
  generalize s.building = l at h
  cases h with
  | none => exact Cut.none _
  | some f fs =>
      cases fs with
      | nil => exact Cut.some f []
      | cons g fs =>
          rw [Option.map_some, Pointer.parent, positions, List.dropLast_concat]
          have hlink := Cut.some (g.1, g.2 ++ [f.node]) fs
          have herase : (Frame.node (g.1, g.2 ++ [f.node])).erase = g.node.erase.addChild f.node.erase :=
            erase_addChild g f.node
          rw [List.map_cons, herase] at hlink
          exact hlink

/-- A stanza that ends is handed to the router as the same tree, and otherwise the
session follows the parser. -/
theorem end_follows (hp : parsing srv i = true) (h : Follows p (srv.sess i)) (o : Oracle) :
    Closing.routed srv i .endElement = Call.routed (onEndElementNs p).2 ∧
      (Call.routed (onEndElementNs p).2 = none →
        Follows (onEndElementNs p).1 ((EventLoop.onEndElementNs srv i o).sess i)) := by
  obtain ⟨hl, hx⟩ := of_decide_eq_true hp
  have hdeep : Follows { p with stanzaDepth := p.stanzaDepth - 1 } ((addDepth srv i (-1)).sess i) :=
    addDepth_follows hl h (-1)
  have hadded : Own i srv (addDepth srv i (-1)) := addDepth_own (-1)
  have hx' := hadded.inXmlParse.trans hx
  have hl' : (addDepth srv i (-1)).Live i := (Server.modify_live srv i i _).mpr hl
  unfold onEndElementNs Closing.routed EventLoop.onEndElementNs
  dsimp only
  rw [hdeep.depth]
  dsimp only
  split
  · refine ⟨rfl, fun _ => ?_⟩
    exact keeps_teardownOrDefer ((Own.sessionWrite _ _).inXmlParse.trans hx') o (keeps_sessionWrite _ hdeep)
  split
  · rw [hdeep.cut.currentStanza]
    obtain ⟨d, t, q⟩ := p
    cases t with
    | none => exact ⟨rfl, fun _ => hdeep⟩
    | some stanza => exact ⟨rfl, fun hno => absurd hno (by simp [Call.routed])⟩
  · refine ⟨rfl, fun _ => ?_⟩
    rw [Server.sess_modify_self hl']
    exact ⟨hdeep.depth, closeElement_cut hdeep.cut⟩

theorem characters_follows (hl : srv.Live i) (h : Follows p (srv.sess i)) (ch : Str) :
    Follows (onCharacters p ch).1 ((EventLoop.onCharacters srv i ch).sess i) := by
  have hdepth := h.depth
  have hcut := h.cut
  unfold onCharacters EventLoop.onCharacters
  rw [Server.sess_modify_self hl, hdepth]
  generalize (srv.sess i).building = l at hcut ⊢
  by_cases hd : 2 ≤ p.stanzaDepth
  · rw [if_pos hd]
    simp only [if_pos hd]
    obtain ⟨d, t, q⟩ := p
    cases hcut with
    | none =>
        dsimp only
        split
        · exact ⟨rfl, Cut.none _⟩
        · exact ⟨rfl, Cut.none _⟩
        · exact ⟨rfl, Cut.none _⟩
    | some f fs =>
        obtain ⟨g, hg⟩ := addContent_frame f ch
        refine ⟨rfl, ?_⟩
        have hlink := Cut.some g fs
        rw [List.map_cons, ← hg, erase_addContent] at hlink
        dsimp only
        rw [Option.map_some, (hole_frames fs).modify]
        exact hlink
  · rw [if_neg hd]
    simp only [if_neg hd]
    refine ⟨rfl, ?_⟩
    cases l with
    | nil => exact hcut
    | cons n rest => exact hcut

/-- As far as the session's own fields go, the callbacks of the event loop do what
those of the parser do, and hand the same trees to the router. -/
theorem callback_follows (hp : parsing srv i = true) (h : Follows p (srv.sess i)) (o : Oracle) (e : Event) :
    Closing.routed srv i e.sax = Call.routed (callback p e).2 ∧
      (Call.routed (callback p e).2 = none → Follows (callback p e).1 ((EventLoop.callback srv i o e.sax).sess i)) := by
  cases e with
  | startElement tag =>
      refine ⟨?_, fun _ => start_follows hp h o tag⟩
      unfold callback onStartElementNs
      dsimp only
      split_ifs <;> rfl
  | endElement => exact end_follows hp h o
  | characters ch =>
      refine ⟨?_, fun _ => characters_follows (live_of_parsing hp) h ch⟩
      unfold callback onCharacters
      split_ifs
      · dsimp only
        split <;> rfl
      · rfl

end

end Xmppd.TreeBuilding
