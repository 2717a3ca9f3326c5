import Xmppd.GoSerialization

/-!
# Reading a stream

`ReadStanza` keeps the elements that are open on a stack, which is empty at the start of
every call. The header of a stream is returned without being put on it, so a stanza is
complete when the stack is empty again, and an end element that comes then closes the
stream. What successive calls return are the trees of the elements, in order and whatever
stands between them.
-/
namespace Xmppd.GoDecoder
open CStrings GoXml Namespaces
open GoSerialization (startToNode addText kept)

/-- The tokens of the standard library. -/
inductive Token where
  | startElement (space name : Str) (attrs : List Attr)
  | endElement
  | charData (s : Str)
  | comment (s : Str)
  | directive (s : Str)
  | procInst (target inst : Str)

/-- What `Token` still returns: tokens, and after them an error. -/
structure Source (E : Type) where
  tokens : List Token
  err : E

section
variable {E : Type} (eof : E)

/-- The loop of `ReadStanza`, with the elements that are open, the innermost first. -/
def read (err : E) : List XmlNode → List Token → Except E XmlNode × List Token
  | _, [] => (.error err, [])
  | stack, .procInst _ _ :: ts => read err stack ts
  | stack, .startElement space name attrs :: ts =>
      let node := startToNode space name attrs
      if stack = [] ∧ node.isStreamOpen then (.ok node, ts) else read err (node :: stack) ts
  | [], .endElement :: ts => (.error eof, ts)
  | [top], .endElement :: ts => (.ok top, ts)
  | top :: parent :: stack, .endElement :: ts => read err (parent.addChild top :: stack) ts
  | [], .charData _ :: ts => read err [] ts
  | top :: stack, .charData s :: ts => read err (addText top s :: stack) ts
  | stack, .comment _ :: ts => read err stack ts
  | stack, .directive _ :: ts => read err stack ts

/-- `ReadStanza`. -/
def readStanza (s : Source E) : Except E XmlNode × Source E :=
  ((read eof s.err [] s.tokens).1, { s with tokens := (read eof s.err [] s.tokens).2 })

/-- So many calls, one after the other. -/
def calls : ℕ → Source E → List (Except E XmlNode) × Source E
  | 0, s => ([], s)
  | n+1, s => ((readStanza eof s).1 :: (calls n (readStanza eof s).2).1, (calls n (readStanza eof s).2).2)

end

/-! ## Streams -/

/-- What stands between elements. -/
inductive Misc where
  | charData (s : Str)
  | comment (s : Str)
  | directive (s : Str)
  | procInst (target inst : Str)

namespace Misc

def token : Misc → Token
  | .charData s => .charData s
  | .comment s => .comment s
  | .directive s => .directive s
  | .procInst target inst => .procInst target inst

def text : Misc → Str
  | .charData s => s
  | .comment _ => []
  | .directive _ => []
  | .procInst _ _ => []

end Misc

inductive Content where
  | element (space name : Str) (attrs : List Attr) (children : List Content)
  | misc (m : Misc)

mutual
def tokens : Content → List Token
  | .element space name attrs children => .startElement space name attrs :: (tokensAll children ++ [.endElement])
  | .misc m => [m.token]

def tokensAll : List Content → List Token
  | [] => []
  | c :: cs => tokens c ++ tokensAll cs
end

/-- An attribute by which a namespace is declared. -/
def Declares (a : Attr) : Prop := a.space = xmlns ∨ a.space = [] ∧ a.name = xmlns

instance (a : Attr) : Decidable (Declares a) := inferInstanceAs (Decidable (_ ∨ _))

/-- The attributes that are no declarations. -/
def ordinary (attrs : List Attr) : List XmlAttr :=
  attrs.filterMap fun a => if Declares a then none else some ⟨a.name, a.space, a.value⟩

/-- The characters that stand in an element itself. -/
def directText (cs : List Content) : Str :=
  cs.flatMap fun c =>
    match c with
    | .misc m => m.text
    | .element _ _ _ _ => []

mutual
/-- The tree of an element. -/
def tree : Content → Option XmlNode
  | .element space name attrs children => some (.mk name space (ordinary attrs) (trees children) (directText children))
  | .misc _ => none

def trees : List Content → List XmlNode
  | [] => []
  | c :: cs => (tree c).toList ++ trees cs
end

/-- A stream up to its end, without the end element. -/
structure Stream where
  before : List Misc
  attrs : List Attr
  content : List Content
  stanzas : ∀ n ∈ trees content, n.isStreamOpen = false

namespace Stream

def ns : Str := "http://etherx.jabber.org/streams"

def tokens (s : Stream) : List Token :=
  s.before.map Misc.token ++ .startElement ns "stream" s.attrs :: tokensAll s.content

/-- The header, without what follows it, and the trees of the elements in it. -/
def nodes (s : Stream) : List XmlNode := .mk "stream" ns (ordinary s.attrs) [] [] :: trees s.content

end Stream

/-! ## What one call reads -/

section
variable {E : Type} {eof err : E}

theorem ordinary_eq (attrs : List Attr) : ordinary attrs = (attrs.filter kept).map fun a => ⟨a.name, a.space, a.value⟩ := by
  unfold ordinary
  rw [← List.filterMap_eq_map, List.filterMap_filter]
  congr 1
  funext a
  by_cases ha : Declares a
  · have hkept : ¬kept a = true := by
      unfold kept
      rw [Bool.not_eq_true', decide_eq_false_iff_not, not_not]
      exact ha
    rw [if_pos ha, if_neg hkept]
  · have hkept : kept a = true := by
      unfold kept
      rw [Bool.not_eq_true', decide_eq_false_iff_not]
      exact ha
    rw [if_neg ha, if_pos hkept]
    rfl

theorem startToNode_eq (space name : Str) (attrs : List Attr) :
    startToNode space name attrs = .mk name space (ordinary attrs) [] [] := by
  rw [ordinary_eq, startToNode]

/-- An open element with more of its content. -/
def extend (n : XmlNode) (cs : List Content) : XmlNode :=
  .mk n.name n.ns n.attrs (n.children ++ trees cs) (n.text ++ directText cs)

theorem extend_nil (n : XmlNode) : extend n [] = n := by
  cases n
  simp [extend, trees, directText, XmlNode.name, XmlNode.ns, XmlNode.attrs, XmlNode.children, XmlNode.text]

theorem extend_element (n : XmlNode) (space name : Str) (attrs : List Attr) (children cs : List Content) :
    extend n (.element space name attrs children :: cs) =
      extend (n.addChild (extend (startToNode space name attrs) children)) cs := by
  simp [extend, trees, tree, directText, startToNode_eq, XmlNode.addChild, XmlNode.name, XmlNode.ns, XmlNode.attrs,
    XmlNode.children, XmlNode.text]

theorem extend_misc (n : XmlNode) (m : Misc) (cs : List Content) : extend n (.misc m :: cs) = extend (addText n m.text) cs := by
  simp [extend, trees, tree, directText, addText, XmlNode.name, XmlNode.ns, XmlNode.attrs, XmlNode.children, XmlNode.text]

/-- Outside of all elements characters are passed over. -/
theorem read_misc_outside (m : Misc) (ts : List Token) : read eof err [] (m.token :: ts) = read eof err [] ts := by
  cases m <;> rfl

theorem read_misc_inside (m : Misc) (top : XmlNode) (stack : List XmlNode) (ts : List Token) :
    read eof err (top :: stack) (m.token :: ts) = read eof err (addText top m.text :: stack) ts := by
  cases m with
  | charData s => rfl
  | comment s =>
      rw [Misc.text, GoSerialization.addText_nil]
      rfl
  | directive s =>
      rw [Misc.text, GoSerialization.addText_nil]
      rfl
  | procInst target inst =>
      rw [Misc.text, GoSerialization.addText_nil]
      rfl

theorem read_start (space name : Str) (attrs : List Attr) (stack : List XmlNode) (ts : List Token)
    (h : ¬(stack = [] ∧ (startToNode space name attrs).isStreamOpen)) :
    read eof err stack (.startElement space name attrs :: ts) = read eof err (startToNode space name attrs :: stack) ts := by
  rw [read]
  exact if_neg h

mutual
theorem read_tokens (top : XmlNode) (stack : List XmlNode) (ts : List Token) : ∀ c,
    read eof err (top :: stack) (tokens c ++ ts) = read eof err (extend top [c] :: stack) ts
  | .misc m => by
      rw [extend_misc, extend_nil]
      exact read_misc_inside m top stack ts
  | .element space name attrs children => by
      have hinside : ¬(top :: stack = [] ∧ (startToNode space name attrs).isStreamOpen) := fun h => List.cons_ne_nil _ _ h.1
      rw [tokens, List.cons_append, List.append_assoc, read_start space name attrs _ _ hinside,
        read_tokensAll (startToNode space name attrs) (top :: stack) ([Token.endElement] ++ ts) children, extend_element, extend_nil]
      rfl

/-- The content of an open element. -/
theorem read_tokensAll (top : XmlNode) (stack : List XmlNode) (ts : List Token) : ∀ cs,
    read eof err (top :: stack) (tokensAll cs ++ ts) = read eof err (extend top cs :: stack) ts
  | [] => by
      rw [extend_nil]
      rfl
  | .misc m :: cs => by
      rw [tokensAll, List.append_assoc, read_tokens top stack (tokensAll cs ++ ts) (.misc m),
        read_tokensAll (extend top [.misc m]) stack ts cs, extend_misc, extend_nil, extend_misc]
  | .element space name attrs children :: cs => by
      rw [tokensAll, List.append_assoc, read_tokens top stack (tokensAll cs ++ ts) (.element space name attrs children),
        read_tokensAll (extend top [.element space name attrs children]) stack ts cs, extend_element, extend_nil,
        extend_element]
end

/-- An element that is no header is read to its end. -/
theorem read_element {space name : Str} {attrs : List Attr} {children : List Content} {n : XmlNode}
    (hn : tree (.element space name attrs children) = some n) (hopen : n.isStreamOpen = false) (ts : List Token) :
    read eof err [] (tokens (.element space name attrs children) ++ ts) = (.ok n, ts) := by
  obtain rfl := Option.some.inj hn
  have hstanza : ¬(([] : List XmlNode) = [] ∧ (startToNode space name attrs).isStreamOpen) := by
    rintro ⟨-, ho⟩
    rw [startToNode_eq] at ho
    exact Bool.false_ne_true (hopen.symm.trans ho)
  rw [tokens, List.cons_append, List.append_assoc, read_start space name attrs _ _ hstanza, read_tokensAll]
  rw [startToNode_eq, extend]
  rfl

/-! ## What the calls read -/

theorem calls_congr {s s' : Source E} (h : readStanza eof s = readStanza eof s') (n : ℕ) :
    calls eof (n+1) s = calls eof (n+1) s' := by
  rw [calls, calls, h]

theorem calls_stanza {s s' : Source E} {n : XmlNode} (h : readStanza eof s = (.ok n, s')) (k : ℕ) :
    calls eof (k+1) s = (.ok n :: (calls eof k s').1, (calls eof k s').2) := by
  rw [calls, h]

theorem readStanza_misc (m : Misc) (ts : List Token) :
    readStanza eof ⟨m.token :: ts, err⟩ = readStanza eof ⟨ts, err⟩ := by
  unfold readStanza
  dsimp only
  rw [read_misc_outside]

/-- Each of the calls returns the next element, and the one after them what follows. -/
theorem calls_tokensAll {cs : List Content} (h : ∀ n ∈ trees cs, n.isStreamOpen = false) (ts : List Token) :
    calls eof ((trees cs).length + 1) ⟨tokensAll cs ++ ts, err⟩ =
      ((trees cs).map .ok ++ [(readStanza eof ⟨ts, err⟩).1], (readStanza eof ⟨ts, err⟩).2) := by
  induction cs with
  | nil => rfl
  | cons c cs ih =>
      have hcs := ih fun n hn => h n (List.mem_append_right _ hn)
      cases c with
      | misc m =>
          have hskip := @readStanza_misc _ eof err m (tokensAll cs ++ ts)
          exact (calls_congr hskip _).trans hcs
      | element space name attrs children =>
          have hopen := h _ (List.mem_append_left _ (List.mem_singleton_self _))
          have hread := @read_element _ eof err _ _ _ _ _ rfl hopen (tokensAll cs ++ ts)
          have hcall : readStanza eof ⟨tokensAll (.element space name attrs children :: cs) ++ ts, err⟩ =
              (.ok (.mk name space (ordinary attrs) (trees children) (directText children)), ⟨tokensAll cs ++ ts, err⟩) := by
            rw [tokensAll, List.append_assoc, readStanza]
            dsimp only
            rw [hread]
          change calls eof ((trees cs).length + 1 + 1) _ = _
          rw [calls_stanza hcall, hcs]
          rfl

theorem readStanza_before (ms : List Misc) (ts : List Token) :
    readStanza eof ⟨ms.map Misc.token ++ ts, err⟩ = readStanza eof ⟨ts, err⟩ := by
  induction ms with
  | nil => rfl
  | cons m ms ih => exact (readStanza_misc m _).trans ih

theorem readStanza_header (s : Stream) (ts : List Token) :
    readStanza eof ⟨s.tokens ++ ts, err⟩ = (.ok (.mk "stream" Stream.ns (ordinary s.attrs) [] []), ⟨tokensAll s.content ++ ts, err⟩) := by
  have hopen : ([] : List XmlNode) = [] ∧ (startToNode Stream.ns "stream" s.attrs).isStreamOpen := ⟨rfl, rfl⟩
  rw [Stream.tokens, List.append_assoc, List.cons_append, readStanza_before, readStanza]
  dsimp only
  rw [read, if_pos hopen, startToNode_eq]

theorem calls_stream (s : Stream) (ts : List Token) :
    calls eof (s.nodes.length + 1) ⟨s.tokens ++ ts, err⟩ =
      (s.nodes.map .ok ++ [(readStanza eof ⟨ts, err⟩).1], (readStanza eof ⟨ts, err⟩).2) := by
  change calls eof ((trees s.content).length + 1 + 1) _ = _
  rw [calls_stanza (readStanza_header s ts), calls_tokensAll s.stanzas]
  rfl

end

/-- The calls return the header and then the trees of the elements. The one after them returns
`io.EOF` at the end element of the stream, and where there is none the error of the tokens. -/
theorem stream_read {E : Type} (eof err : E) (s : Stream) :
    (∀ rest, calls eof (s.nodes.length + 1) ⟨s.tokens ++ .endElement :: rest, err⟩ =
        (s.nodes.map .ok ++ [.error eof], ⟨rest, err⟩)) ∧
      calls eof (s.nodes.length + 1) ⟨s.tokens, err⟩ = (s.nodes.map .ok ++ [.error err], ⟨[], err⟩) := by
  constructor
  · intro rest
    exact calls_stream s (.endElement :: rest)
  · have hend := @calls_stream _ eof err s []
    rw [List.append_nil] at hend
    exact hend

/-- The line ends around the message are in no text, and the comment in it parts none. -/
example : (calls ("EOF" : Str) 3 ⟨[.procInst "xml" "version='1.0'", .startElement Stream.ns "stream" [⟨[], xmlns, "jabber:client"⟩],
      .charData "\n", .startElement "jabber:client" "message" [⟨[], "to", "b@x"⟩], .charData "a", .comment "c", .charData "b",
      .endElement, .charData "\n", .endElement], "unexpected EOF"⟩).1 =
    [.ok (.mk "stream" Stream.ns [] [] []), .ok (.mk "message" "jabber:client" [⟨"to", [], "b@x"⟩] [] "ab"), .error "EOF"] := by
  rfl

/-! ## The same tokens in one document -/

def Token.plain : Token → GoSerialization.Token
  | .startElement space name attrs => .startElement space name attrs
  | .endElement => .endElement
  | .charData s => .charData s
  | .comment _ => .other
  | .directive _ => .other
  | .procInst _ _ => .other

/-- The decoder that reads back what the serializer writes is this one, without its errors. -/
theorem readStanza_plain {E : Type} (eof err : E) (stack : List XmlNode) (ts : List Token) :
    GoSerialization.readStanza stack (ts.map Token.plain) =
      (read eof err stack ts).1.toOption.map fun n => (n, (read eof err stack ts).2.map Token.plain) := by
  fun_induction read eof err stack ts with
  | case1 => rfl
  | case2 stack target inst ts ih =>
      rw [List.map_cons, Token.plain, GoSerialization.readStanza]
      exact ih
  | case3 stack space name attrs ts node h =>
      rw [List.map_cons, Token.plain, GoSerialization.readStanza]
      exact if_pos h
  | case4 stack space name attrs ts node h ih =>
      rw [List.map_cons, Token.plain, GoSerialization.readStanza, ← ih]
      exact if_neg h
  | case5 ts => rfl
  | case6 top ts => rfl
  | case7 top parent stack ts ih => exact ih
  | case8 s ts ih => exact ih
  | case9 top stack s ts ih => exact ih
  | case10 stack s ts ih =>
      rw [List.map_cons, Token.plain, GoSerialization.readStanza]
      exact ih
  | case11 stack s ts ih =>
      rw [List.map_cons, Token.plain, GoSerialization.readStanza]
      exact ih

end Xmppd.GoDecoder
