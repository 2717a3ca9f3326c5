import Xmppd.CStrings

/-!
# Elements of the Go server

The tree the decoder builds, the serializer, and the three ways in which a
sender's address is put on a stanza. The serializer writes attributes under
their local names and leaves their namespaces out.
-/
namespace Xmppd.GoXml
open CStrings

structure XmlAttr where
  name : Str
  ns : Str := []
  value : Str
deriving DecidableEq, Repr

inductive XmlNode where
  | mk (name ns : Str) (attrs : List XmlAttr) (children : List XmlNode) (text : Str)
deriving Repr

/-- `strings.ReplaceAll` for one character. -/
def replaceAll (c : Char) (by' : Str) (s : Str) : Str := s.flatMap fun d => if d = c then by' else [d]

/-- `escapeAttr`, the same text as `escAttr` of the handlers. -/
def escapeAttr (s : Str) : Str := replaceAll '\'' "&apos;" (replaceAll '<' "&lt;" (replaceAll '&' "&amp;" s))

/-- `escapeText`. -/
def escapeText (s : Str) : Str := replaceAll '>' "&gt;" (replaceAll '<' "&lt;" (replaceAll '&' "&amp;" s))

def escapeChar (c : Char) : Str :=
  if c = '&' then "&amp;" else if c = '<' then "&lt;" else if c = '\'' then "&apos;" else [c]

theorem escapeAttr_eq (s : Str) : escapeAttr s = s.flatMap escapeChar := by
  unfold escapeAttr replaceAll
  rw [List.flatMap_assoc, List.flatMap_assoc]
  congr 1
  funext c
  unfold escapeChar
  by_cases hamp : c = '&'
  · rw [hamp]
    decide
  · by_cases hlt : c = '<'
    · rw [hlt]
      decide
    · simp only [if_neg hamp, List.flatMap_cons, List.flatMap_nil, if_neg hlt, List.append_nil]

def escapeTextChar (c : Char) : Str :=
  if c = '&' then "&amp;" else if c = '<' then "&lt;" else if c = '>' then "&gt;" else [c]

theorem escapeText_eq (s : Str) : escapeText s = s.flatMap escapeTextChar := by
  unfold escapeText replaceAll
  rw [List.flatMap_assoc, List.flatMap_assoc]
  congr 1
  funext c
  unfold escapeTextChar
  by_cases hamp : c = '&'
  · rw [hamp]
    decide
  · by_cases hlt : c = '<'
    · rw [hlt]
      decide
    · simp only [if_neg hamp, List.flatMap_cons, List.flatMap_nil, if_neg hlt, List.append_nil]

namespace XmlNode

def name : XmlNode → Str
  | .mk name _ _ _ _ => name

def ns : XmlNode → Str
  | .mk _ ns _ _ _ => ns

def attrs : XmlNode → List XmlAttr
  | .mk _ _ attrs _ _ => attrs

def children : XmlNode → List XmlNode
  | .mk _ _ _ children _ => children

def text : XmlNode → Str
  | .mk _ _ _ _ text => text

def withAttrs (n : XmlNode) (attrs : List XmlAttr) : XmlNode := .mk n.name n.ns attrs n.children n.text

/-- `Attr`: the value of the first attribute of this local name. -/
def attr (n : XmlNode) (name : Str) : Str := ((n.attrs.find? fun a => a.name = name).map XmlAttr.value).getD []

/-- `FindChild`. -/
def findChild (n : XmlNode) (name : Str) : Option XmlNode := n.children.find? fun c => c.name = name

/-- `firstChild`. -/
def firstChild (n : XmlNode) : Option XmlNode := n.children.head?

/-- `IsStreamOpen`. -/
def isStreamOpen (n : XmlNode) : Bool := n.name = "stream" ∧ n.ns = "http://etherx.jabber.org/streams"

/-- The attributes of the start tag as they are written. -/
def written (n : XmlNode) : List (Str × Str) := n.attrs.map fun a => (a.name, escapeAttr a.value)

def writeAttrs (l : List (Str × Str)) : Str := l.flatMap fun a => ' ' :: (a.1 ++ ("='" : Str) ++ a.2 ++ ['\''])

/-- The namespace as the serializer sees it. -/
def effectiveNS (n : XmlNode) : Str := if n.ns = "jabber:client" then [] else n.ns

def startTag (parentNS : Str) (n : XmlNode) : Str :=
  '<' :: n.name ++
    (if n.effectiveNS ≠ [] ∧ n.effectiveNS ≠ parentNS
      then (" xmlns='" : Str) ++ escapeAttr n.effectiveNS ++ ['\''] else []) ++
    writeAttrs n.written

mutual

/-- `serialize`. -/
def serializeIn (parentNS : Str) : XmlNode → Str
  | .mk name ns attrs children text =>
      let n := XmlNode.mk name ns attrs children text
      if children = [] ∧ text = [] then n.startTag parentNS ++ ("/>" : Str)
      else
        n.startTag parentNS ++ '>' :: (escapeText text ++ serializeAll n.effectiveNS children ++
          ("</" : Str) ++ name ++ ['>'])

def serializeAll (parentNS : Str) : List XmlNode → Str
  | [] => []
  | c :: cs => serializeIn parentNS c ++ serializeAll parentNS cs

end

/-- `Serialize`. -/
def serialize (n : XmlNode) : Str := serializeIn [] n

/-- `append` on the children. -/
def addChild (n c : XmlNode) : XmlNode := .mk n.name n.ns n.attrs (n.children ++ [c]) n.text

end XmlNode

/-- The loop of `setAttr`: the first attribute of this name gets the value, or a
new one is added at the end. -/
def setAttrIn (name value : Str) : List XmlAttr → List XmlAttr
  | [] => [⟨name, [], value⟩]
  | a :: as => if a.name = name then { a with value := value } :: as else a :: setAttrIn name value as

/-- `setAttr`, in two packages. -/
def setAttr (n : XmlNode) (name value : Str) : XmlNode := n.withAttrs (setAttrIn name value n.attrs)

/-- `clonePresence`. -/
def clonePresence (n : XmlNode) (fromJID : Str) : XmlNode :=
  n.withAttrs ((n.attrs.filter fun a => a.name ≠ ("from" : Str)) ++ [⟨"from", [], fromJID⟩])

end Xmppd.GoXml
