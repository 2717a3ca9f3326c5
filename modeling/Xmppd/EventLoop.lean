import Xmppd.Stanza

/-!
# Parser callbacks and the event loop

The server is one thread. Between two polls it accepts a connection, ends one,
or reads one chunk; the callbacks of a chunk run to its end before anything else
happens. A run is therefore any list of the steps below: a step that the call
structure does not allow where it stands (a callback for a session whose parser
is not running, anything else while a parser runs) leaves the state unchanged.
The callbacks come in any order and number, so also in document order.
-/
namespace Xmppd.EventLoop
open CStrings FileTree LibXml Util ServerState Streams Stanza

/-- The events the parser delivers. -/
inductive Sax where
  | startElement (name uri : Str) (attrs : List Attr)
  | endElement
  | characters (s : Str)
  | error
deriving DecidableEq, Repr

/-- The stanza root, with every element still open attached to its parent. -/
def currentStanza : List Node → Option Node
  | [] => none
  | n :: rest => some (rest.foldl (fun c p => p.addChild c) n)

/-- The stanza that the next end of an element completes. -/
def dispatched (s : Session) : Option Node :=
  if s.stanzaDepth = 2 then currentStanza s.building else none

def addDepth (srv : Server) (i : ℕ) (d : ℤ) : Server :=
  srv.modify i fun s => { s with stanzaDepth := s.stanzaDepth + d }

/-- `on_start_element_ns`. -/
def onStartElementNs (srv : Server) (i : ℕ) (o : Oracle) (name uri : Str) (attrs : List Attr) : Server :=
  let srv := addDepth srv i 1
  if (srv.sess i).stanzaDepth = 1 then
    streamHandleOpen srv i o (((attrs.find? fun a => a.name = ("to" : Str)).map Attr.value).getD [])
  else
    let node := .element name uri attrs []
    srv.modify i fun s =>
      { s with building :=
          if s.stanzaDepth = 2 then [node]
          else if s.building = [] then [] else node :: s.building }

/-- The element that ends is attached to its parent. -/
def closeElement (s : Session) : Session :=
  { s with building := match s.building with
      | n :: p :: rest => p.addChild n :: rest
      | l => l }

/-- `on_end_element_ns`. -/
def onEndElementNs (srv : Server) (i : ℕ) (o : Oracle) : Server :=
  let srv := addDepth srv i (-1)
  if (srv.sess i).stanzaDepth = 0 then streamHandleClose srv i o
  else if (srv.sess i).stanzaDepth = 1 then
    match currentStanza (srv.sess i).building with
    | some stanza => (stanzaRoute srv i o stanza).modify i fun s => { s with building := [] }
    | none => srv
  else srv.modify i closeElement

/-- `on_characters`. -/
def onCharacters (srv : Server) (i : ℕ) (text : Str) : Server :=
  srv.modify i fun s =>
    { s with building := match s.building with
        | n :: rest => if 2 ≤ s.stanzaDepth then n.addContent text :: rest else n :: rest
        | [] => [] }

/-- One callback. -/
def callback (srv : Server) (i : ℕ) (o : Oracle) : Sax → Server
  | .startElement name uri attrs => onStartElementNs srv i o name uri attrs
  | .endElement => onEndElementNs srv i o
  | .characters text => onCharacters srv i text
  | .error => teardownOrDefer srv i o

/-- `session_on_readable` up to the call of the parser. -/
def beginChunk (srv : Server) (i : ℕ) : Server := srv.modify i fun s => { s with inXmlParse := true }

/-- The record once the parser has returned, with the deferred reset done. -/
def closeChunk (s : Session) : Session :=
  if s.parserResetPending then
    { s with inXmlParse := false, parserResetPending := false, building := [], stanzaDepth := 0 }
  else { s with inXmlParse := false }

/-- `session_on_readable` after the parser has returned: the deferred reset, then
the deferred teardown. -/
def endChunk (srv : Server) (i : ℕ) (o : Oracle) : Server :=
  let srv := srv.modify i closeChunk
  if (srv.sess i).teardownPending then sessionTeardown srv i o else srv

inductive Step where
  | accept
  | hangup (i : ℕ) (o : Oracle)
  | beginRead (i : ℕ)
  | sax (i : ℕ) (o : Oracle) (e : Sax)
  | endRead (i : ℕ) (o : Oracle)

/-- The connection a step belongs to. -/
def Step.owner : Step → Option ℕ
  | .accept => none
  | .hangup i _ => some i
  | .beginRead i => some i
  | .sax i _ _ => some i
  | .endRead i _ => some i

/-- No parser is on the call stack. -/
def idle (srv : Server) : Bool := srv.sessions.all fun s => !s.inXmlParse

def parsing (srv : Server) (i : ℕ) : Bool := srv.Live i ∧ (srv.sess i).inXmlParse

theorem live_of_parsing {srv : Server} {i : ℕ} (h : parsing srv i = true) : srv.Live i :=
  (of_decide_eq_true h).1

def step (srv : Server) (s : Step) : Server :=
  if srv.crashed then srv else
    match s with
    | .accept => if idle srv then srv.serverAccept else srv
    | .hangup i o => if idle srv then sessionTeardown srv i o else srv
    | .beginRead i => if idle srv then beginChunk srv i else srv
    | .sax i o e => if parsing srv i then callback srv i o e else srv
    | .endRead i o => if parsing srv i then endChunk srv i o else srv

/-- What a step can do. -/
theorem step_cases {srv : Server} {P : Step → Server → Prop} (skip : ∀ e, P e srv)
    (accept : idle srv = true → P .accept srv.serverAccept)
    (hangup : ∀ i o, idle srv = true → P (.hangup i o) (sessionTeardown srv i o))
    (beginRead : ∀ i, idle srv = true → P (.beginRead i) (beginChunk srv i))
    (sax : ∀ i o e, parsing srv i = true → P (.sax i o e) (callback srv i o e))
    (endRead : ∀ i o, parsing srv i = true → P (.endRead i o) (endChunk srv i o)) (e : Step) :
    P e (step srv e) := by
  unfold step
  split
  · exact skip e
  cases e with
  | accept =>
      dsimp only
      split
      · exact accept ‹_›
      · exact skip _
  | hangup i o =>
      dsimp only
      split
      · exact hangup i o ‹_›
      · exact skip _
  | beginRead i =>
      dsimp only
      split
      · exact beginRead i ‹_›
      · exact skip _
  | sax i o e =>
      dsimp only
      split
      · exact sax i o e ‹_›
      · exact skip _
  | endRead i o =>
      dsimp only
      split
      · exact endRead i o ‹_›
      · exact skip _

def run (srv : Server) (steps : List Step) : Server := steps.foldl step srv

/-- The stanza that a step completes, if it completes one, satisfies a condition
in the state in which it is routed. -/
def OnStanza (P : Server → ℕ → Oracle → Node → Prop) (srv : Server) : Step → Prop
  | .sax i o .endElement => ∀ stanza ∈ dispatched (srv.sess i), P (addDepth srv i (-1)) i o stanza
  | _ => True

instance decidableOnStanza (P : Server → ℕ → Oracle → Node → Prop) [∀ srv i o n, Decidable (P srv i o n)]
    (srv : Server) : (e : Step) → Decidable (OnStanza P srv e)
  | .sax i o .endElement =>
      inferInstanceAs (Decidable (∀ stanza ∈ dispatched (srv.sess i), P (addDepth srv i (-1)) i o stanza))
  | .sax _ _ (.startElement ..) => isTrue trivial
  | .sax _ _ (.characters _) => isTrue trivial
  | .sax _ _ .error => isTrue trivial
  | .accept => isTrue trivial
  | .hangup _ _ => isTrue trivial
  | .beginRead _ => isTrue trivial
  | .endRead _ _ => isTrue trivial

theorem OnStanza.mono {P Q : Server → ℕ → Oracle → Node → Prop} {srv : Server} {e : Step}
    (h : ∀ srv i o stanza, P srv i o stanza → Q srv i o stanza) (hP : OnStanza P srv e) :
    OnStanza Q srv e := by
  unfold OnStanza at hP ⊢
  split
  · exact fun stanza hd => h _ _ _ _ (hP stanza hd)
  · trivial

/-- Every step of the run is taken where the condition holds. -/
def Meets (ok : Server → Step → Prop) : Server → List Step → Prop
  | _, [] => True
  | srv, e :: es => ok srv e ∧ Meets ok (step srv e) es

instance decidableMeets (ok : Server → Step → Prop) [∀ srv e, Decidable (ok srv e)] :
    (srv : Server) → (steps : List Step) → Decidable (Meets ok srv steps)
  | _, [] => isTrue trivial
  | srv, e :: es => @instDecidableAnd _ _ _ (decidableMeets ok (step srv e) es)

theorem Meets.mono {ok ok' : Server → Step → Prop} (h : ∀ srv e, ok srv e → ok' srv e) (steps : List Step) :
    ∀ srv, Meets ok srv steps → Meets ok' srv steps := by
  induction steps with
  | nil => exact fun _ _ => trivial
  | cons e es ih => exact fun srv hm => ⟨h srv e hm.1, ih _ hm.2⟩

/-- A property kept by every step that meets the condition holds along the run. -/
theorem run_invariant {ok : Server → Step → Prop} {Inv : Server → Prop}
    (hstep : ∀ srv e, Inv srv → ok srv e → Inv (step srv e)) (steps : List Step) :
    ∀ srv, Inv srv → Meets ok srv steps → Inv (run srv steps) := by
  induction steps with
  | nil => exact fun _ h _ => h
  | cons e es ih => exact fun srv h hm => ih _ (hstep srv e h hm.1) hm.2

end Xmppd.EventLoop
