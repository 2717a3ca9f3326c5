import Xmppd.CStrings

/-!
# Element trees as the tree library keeps them

The server sees XML only through the library's tree: elements with a local
name, a namespace URI (empty where the library has no namespace), attributes in
document order, and children in which adjacent text is merged. Attribute lookup
by `xmlGetProp` compares local names only. Serialization and parsing stay in the
library, so a stanza that is sent is the tree that was passed to it, and a file
that holds a document is the tree that is read back from it.
-/
namespace Xmppd.LibXml
open CStrings

structure Attr where
  name : Str
  ns : Str := []
  value : Str
deriving DecidableEq, Repr

inductive Node where
  | element (name ns : Str) (attrs : List Attr) (children : List Node)
  | text (content : Str)
deriving Repr

namespace Node

mutual
def decEq : (a b : Node) → Decidable (a = b)
  | .text s, .text t =>
      if h : s = t then isTrue (by rw [h]) else isFalse (by intro e; cases e; exact h rfl)
  | .text _, .element .. => isFalse (by intro e; cases e)
  | .element .., .text _ => isFalse (by intro e; cases e)
  | .element n u as cs, .element m v bs ds =>
      match decEqList cs ds with
      | isTrue hc =>
          if h : n = m ∧ u = v ∧ as = bs then isTrue (by rw [h.1, h.2.1, h.2.2, hc])
          else isFalse (by intro e; cases e; exact h ⟨rfl, rfl, rfl⟩)
      | isFalse hc => isFalse (by intro e; cases e; exact hc rfl)

def decEqList : (a b : List Node) → Decidable (a = b)
  | [], [] => isTrue rfl
  | [], _ :: _ => isFalse (by intro e; cases e)
  | _ :: _, [] => isFalse (by intro e; cases e)
  | a :: as, b :: bs =>
      match decEq a b, decEqList as bs with
      | isTrue h, isTrue hs => isTrue (by rw [h, hs])
      | isFalse h, _ => isFalse (by intro e; cases e; exact h rfl)
      | _, isFalse hs => isFalse (by intro e; cases e; exact hs rfl)
end

instance : DecidableEq Node := decEq

def name : Node → Str
  | .element n _ _ _ => n
  | .text _ => []

def ns : Node → Str
  | .element _ u _ _ => u
  | .text _ => []

def attrs : Node → List Attr
  | .element _ _ as _ => as
  | .text _ => []

def children : Node → List Node
  | .element _ _ _ cs => cs
  | .text _ => []

def isElement : Node → Bool
  | .element .. => true
  | .text _ => false

mutual
/-- `xmlNodeGetContent`: the text below a node in document order. -/
def content : Node → Str
  | .element _ _ _ cs => contents cs
  | .text s => s

def contents : List Node → Str
  | [] => []
  | n :: ns => n.content ++ contents ns
end

/-- `xmlGetProp`: the first attribute with this local name, in any namespace. -/
def getProp (n : Node) (a : Str) : Option Str :=
  (n.attrs.find? fun x => x.name = a).map Attr.value

/-- The value the handlers use where an absent attribute counts as empty. -/
def prop (n : Node) (a : Str) : Str := (n.getProp a).getD []

/-- `xmlSetProp`: replaces the attribute without a namespace, or adds it. -/
def setProp (n : Node) (a v : Str) : Node :=
  match n with
  | .element m u as cs =>
      if as.any fun x => x.name = a ∧ x.ns = [] then
        .element m u (as.map fun x => if x.name = a ∧ x.ns = [] then { x with value := v } else x) cs
      else .element m u (as ++ [⟨a, [], v⟩]) cs
  | .text s => .text s

theorem name_setProp (n : Node) (a v : Str) : (n.setProp a v).name = n.name := by
  cases n with
  | text s => rfl
  | element m u as cs =>
      unfold setProp
      dsimp only
      split
      · rfl
      · rfl

theorem getProp_setProp_of_ne (n : Node) {a b : Str} (v : Str) (h : b ≠ a) : (n.setProp a v).getProp b = n.getProp b := by
  cases n with
  | text s => rfl
  | element m u as cs =>
      unfold setProp getProp
      dsimp only
      split
      · have hname : ∀ x : Attr, decide ((if x.name = a ∧ x.ns = [] then { x with value := v } else x).name = b) =
            decide (x.name = b) := by
          intro x
          split <;> rfl
        dsimp only [attrs]
        rw [List.find?_map, Option.map_map]
        simp only [Function.comp_def, hname]
        cases hfind : as.find? fun x => decide (x.name = b) with
        | none => rfl
        | some x =>
            have hx : x.name = b := by simpa using List.find?_some hfind
            simp [hx, h]
      · dsimp only [attrs]
        rw [List.find?_append]
        simp [h.symm]

def addChild (n c : Node) : Node :=
  match n with
  | .element m u as cs => .element m u as (cs ++ [c])
  | .text s => .text s

/-- `xmlNodeAddContentLen`: text after text is merged into one node. -/
def addContent (n : Node) (s : Str) : Node :=
  match n with
  | .element m u as cs =>
      match cs.getLast? with
      | some (.text t) => .element m u as (cs.dropLast ++ [.text (t ++ s)])
      | _ => .element m u as (cs ++ [.text s])
  | .text t => .text (t ++ s)

/-- The loop that skips to the first element among the children. -/
def firstElement (n : Node) : Option Node := n.children.find? isElement

/-- `xml_find_child`. -/
def findChild (n : Node) (m : Str) : Option Node :=
  n.children.find? fun c => c.isElement ∧ c.name = m

end Node

/-- `xmlNewProp` on a node the handlers build. -/
def attr (name value : Str) : Attr := ⟨name, [], value⟩

theorem getProp_nil (tag ns name : Str) (cs : List Node) : (Node.element tag ns [] cs).getProp name = none := by
  simp [Node.getProp, Node.attrs]

theorem getProp_cons_self (tag ns name value : Str) (as : List Attr) (cs : List Node) :
    (Node.element tag ns (attr name value :: as) cs).getProp name = some value := by
  simp [Node.getProp, Node.attrs, attr]

theorem getProp_cons_of_ne {name other : Str} (h : other ≠ name) (tag ns value : Str) (as : List Attr) (cs : List Node) :
    (Node.element tag ns (attr other value :: as) cs).getProp name = (Node.element tag ns as cs).getProp name := by
  simp [Node.getProp, Node.attrs, attr, h]

/-- An attribute that is left out where the request had none. -/
def optAttr (name : Str) (value : Option Str) : List Attr := value.toList.map (attr name)

/-- An element without a namespace, as the handlers build their replies. -/
def elem (name : Str) (attrs : List Attr) (children : List Node) : Node :=
  .element name [] attrs children

/-- The content of a file: a document the library reads as this tree, or text
that it cannot read as XML. -/
inductive Content where
  | xml (root : Node)
  | text (s : Str)
deriving DecidableEq, Repr

end Xmppd.LibXml
