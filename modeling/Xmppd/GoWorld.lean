import Xmppd.GoMessage
import Xmppd.GoRosterFile

/-!
# The state the goroutines share

The registry, the cached rosters, the roster files, the offline directories and
the connections. Each call is one step and is answered from this state; whatever
else a handler asks, the clock and the accounts among it, is answered from
outside. The lock of a cached roster has no effect here, since no two programs
that are run together below take it. The log of the sends, the file a session has
read from an offline directory and not yet removed, which sessions were closed by
another one, and the step count are not in the source.
-/
namespace Xmppd.GoWorld
open CStrings Programs GoSession

/-- A directory, by the names of its files. -/
abbrev Dir := List (Str × Str)

namespace Dir

def lookup (d : Dir) (name : Str) : Option Str := (d.find? fun e => e.1 = name).map Prod.snd

/-- `os.WriteFile`. -/
def put (d : Dir) (name content : Str) : Dir := (d.filter fun e => e.1 ≠ name) ++ [(name, content)]

/-- `os.Remove`. -/
def erase (d : Dir) (name : Str) : Dir := d.filter fun e => e.1 ≠ name

/-- `os.ReadDir`, sorted by name. -/
def listing (d : Dir) : List (Str × Bool) := (d.map fun e => (e.1, false)).mergeSort fun a b => a.1 ≤ b.1

theorem find_erase_self (d : Dir) (name : Str) : (d.erase name).find? (fun e => e.1 = name) = none := by
  rw [List.find?_eq_none]
  intro e he
  simpa using (List.mem_filter.mp he).2

theorem find_erase_of_ne (d : Dir) {name other : Str} (h : other ≠ name) :
    (d.erase name).find? (fun e => e.1 = other) = d.find? fun e => e.1 = other := by
  rw [erase, List.find?_filter]
  congr 1
  funext e
  by_cases he : e.1 = other
  · simp [he, h]
  · simp [he]

theorem lookup_erase_self (d : Dir) (name : Str) : (d.erase name).lookup name = none := by
  rw [lookup, find_erase_self]
  rfl

theorem lookup_erase_of_ne (d : Dir) {name other : Str} (h : other ≠ name) : (d.erase name).lookup other = d.lookup other := by
  rw [lookup, find_erase_of_ne d h]
  rfl

theorem lookup_put_self (d : Dir) (name content : Str) : (d.put name content).lookup name = some content := by
  rw [put, lookup, List.find?_append]
  change (((d.erase name).find? _).or _).map _ = _
  rw [find_erase_self]
  simp

theorem lookup_put_of_ne (d : Dir) {name other : Str} (h : other ≠ name) (content : Str) :
    (d.put name content).lookup other = d.lookup other := by
  rw [put, lookup, List.find?_append]
  change (((d.erase name).find? _).or _).map _ = _
  rw [find_erase_of_ne d h]
  simp [h.symm, lookup]

theorem mem_listing {d : Dir} {name : Str} : name ∈ d.listing.map Prod.fst ↔ name ∈ d.map Prod.fst := by
  have hmem : ∀ e, e ∈ d.listing ↔ e ∈ d.map fun e => (e.1, false) := fun e => List.mem_mergeSort
  constructor
  · intro h
    obtain ⟨e, he, rfl⟩ := List.mem_map.mp h
    obtain ⟨f, hf, rfl⟩ := List.mem_map.mp ((hmem e).mp he)
    exact List.mem_map_of_mem hf
  · intro h
    obtain ⟨e, he, rfl⟩ := List.mem_map.mp h
    exact List.mem_map.mpr ⟨(e.1, false), (hmem _).mpr (List.mem_map.mpr ⟨e, he, rfl⟩), rfl⟩

theorem mem_of_lookup {d : Dir} {name content : Str} (h : d.lookup name = some content) : name ∈ d.map Prod.fst := by
  rw [lookup, Option.map_eq_some_iff] at h
  obtain ⟨e, he, _⟩ := h
  have hname := List.find?_some he
  simp only [decide_eq_true_eq] at hname
  exact List.mem_map.mpr ⟨e, List.mem_of_find?_eq_some he, hname⟩

theorem lookup_of_mem {d : Dir} {name : Str} (h : name ∈ d.map Prod.fst) : ∃ content, d.lookup name = some content := by
  obtain ⟨e, he, rfl⟩ := List.mem_map.mp h
  have hfound : (d.find? fun f => f.1 = e.1).isSome := by
    rw [List.find?_isSome]
    exact ⟨e, he, by simp⟩
  obtain ⟨f, hf⟩ := Option.isSome_iff_exists.mp hfound
  exact ⟨f.2, by rw [lookup, hf]; rfl⟩

end Dir

/-- A send: to which connection, whether that was open, and from which file. -/
structure Sent where
  dest : ℕ
  data : Data
  isOpen : Bool
  file : Option Str

structure World where
  registry : Str → Option ℕ
  jid : ℕ → Str
  rosters : ℕ → Roster
  rosterFiles : Str → Option Str
  offline : Str → Option Dir
  closed : ℕ → Bool
  log : List Sent
  reading : ℕ → Option Str
  replaced : ℕ → Bool
  clock : ℕ

section
variable (isPrint : Char → Bool) (outside : ℕ → (c : Call) → Result c)

/-- The answer to a call of one session. -/
def reply (w : World) : (c : Call) → Result c
  | .find jid => w.registry jid
  | .register jid => w.registry jid
  | .roster t => w.rosters t
  | .load user => GoRosterFile.load (w.rosterFiles user)
  | .readDir user => (w.offline user).map Dir.listing
  | .readFile user name => (w.offline user).bind fun d => d.lookup name
  | c => outside w.clock c

/-- What a call of session `i` does. -/
def effect (i : ℕ) (w : World) : Call → World
  | .register jid => { w with registry := Function.update w.registry jid (some i), jid := Function.update w.jid i jid }
  | .unregister =>
      if w.registry (w.jid i) = some i then { w with registry := Function.update w.registry (w.jid i) none } else w
  | .send t d => { w with log := w.log ++ [⟨t, d, !w.closed t, w.reading i⟩] }
  | .close t =>
      { w with
        closed := Function.update w.closed t true
        replaced := if t = i then w.replaced else Function.update w.replaced t true }
  | .setRoster t r => { w with rosters := Function.update w.rosters t r }
  | .save user r => { w with rosterFiles := Function.update w.rosterFiles user (some (GoRosterFile.save isPrint r)) }
  | .create user password =>
      if outside w.clock (.create user password) = .ok then
        { w with
          rosterFiles := Function.update w.rosterFiles user (some ("<?xml version=\"1.0\"?>\n<roster/>\n" : Str))
          offline := Function.update w.offline user (some []) }
      else w
  | .delete user =>
      { w with
        rosterFiles := Function.update w.rosterFiles user none
        offline := Function.update w.offline user none }
  | .mkdirAll user => { w with offline := Function.update w.offline user (some ((w.offline user).getD [])) }
  | .writeFile user name d =>
      { w with offline := Function.update w.offline user ((w.offline user).map fun dir => dir.put name d.str) }
  | .readFile user name =>
      { w with
        reading := Function.update w.reading i (((w.offline user).bind fun d => d.lookup name).map fun _ => name) }
  | .remove user name =>
      { w with
        offline := Function.update w.offline user ((w.offline user).map fun dir => dir.erase name)
        reading := Function.update w.reading i none }
  | _ => w

def answer (i : ℕ) (c : Call) (w : World) : Result c × World :=
  (reply outside w c, { effect isPrint outside i w c with clock := w.clock + 1 })

end

/-- Answers from outside that say nothing: all users exist, and every name and
time is the empty one. -/
def plainOutside (_ : ℕ) : (c : Call) → Result c
  | .find _ => none
  | .register _ => none
  | .allSessions => []
  | .peek _ => { jidDomain := [] }
  | .roster _ => {}
  | .load _ => {}
  | .userExists _ => true
  | .checkPassword _ _ => true
  | .create _ _ => .failed
  | .changePassword _ _ => true
  | .readDir _ => none
  | .readFile _ _ => none
  | .generateID _ => []
  | .now => []
  | .pushID => []
  | .unregister | .send _ _ | .close _ | .lock _ | .unlock _ | .setRoster _ _ | .save _ _ | .delete _ | .mkdirAll _
  | .writeFile _ _ _ | .remove _ _ => ()

end Xmppd.GoWorld
