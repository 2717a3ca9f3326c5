import Xmppd.GoDelivery
import Xmppd.GoOfflineRace
import Xmppd.PaddedNumbers

/-!
# Stored messages in their order

Messages are stored one after another into an empty directory, each under the
number after the largest one, and are then delivered. Up to four digits the order
of the names is the order of the numbers, whatever the order of the listing. The
node that is stored gets the delay as one more element of its slice of children,
and the slice is cut back when the file is written.
-/
namespace Xmppd.GoOfflineOrder
open CStrings GoXml Programs Program GoSession GoMessage GoWorld GoDelivery PaddedNumbers

/-! ## The node -/

/-- A slice: its elements, and the cells of the array behind them. -/
structure Slice (α : Type) where
  elements : List α
  spare : List (Option α)

section
variable {α : Type} (room : ℕ → ℕ)

/-- `append` of one element. Where no cell is free the elements move to a larger
array, with as much room as the runtime leaves. -/
def Slice.append (s : Slice α) (x : α) : Slice α :=
  match s.spare with
  | [] => ⟨s.elements ++ [x], List.replicate (room s.elements.length) none⟩
  | _ :: rest => ⟨s.elements ++ [x], rest⟩

/-- `s[:n]`. -/
def Slice.reslice (s : Slice α) (n : ℕ) : Slice α := ⟨s.elements.take n, (s.elements.drop n).map some ++ s.spare⟩

@[simp] theorem Slice.elements_append (s : Slice α) (x : α) : (s.append room x).elements = s.elements ++ [x] := by
  unfold append
  split <;> rfl

/-- Cutting off what was appended leaves the elements. -/
@[simp] theorem Slice.elements_reslice_append (s : Slice α) (x : α) :
    ((s.append room x).reslice ((s.append room x).elements.length - 1)).elements = s.elements := by
  simp [reslice]

end

/-- An `XMLNode` with its slice of children. -/
structure Element where
  name : Str
  ns : Str
  attrs : List XmlAttr
  children : Slice XmlNode
  text : Str

def Element.node (e : Element) : XmlNode := .mk e.name e.ns e.attrs e.children.elements e.text

section
variable (room : ℕ → ℕ) (domain user : Str)

/-- `storeOffline`, with the node as it leaves it. -/
def storeElement (e : Element) : Handler Element := do
  mkdirAll user
  let entries ← readDir user
  let seq := maxSeq ((entries.getD []).map Prod.fst)
  let stamp ← now
  let e := { e with children := e.children.append room (delay domain stamp) }
  writeFile user (nextName seq) (.node e.node)
  pure { e with children := e.children.reslice (e.children.elements.length - 1) }

/-- What it asks for is what `storeOffline` asks for. -/
theorem storeElement_storeOffline (e : Element) :
    (storeElement room domain user e >>= fun _ => pure ()) = storeOffline domain user e.node := by
  simp only [storeElement, storeOffline, Element.node, Slice.elements_append]
  rfl

/-- The node has the children it had. -/
theorem ensures_storeElement (e : Element) :
    Ensures (fun _ => True) (storeElement room domain user e) fun e' => e'.node = e.node := by
  refine ⟨trivial, fun _ => ⟨trivial, fun _ => ⟨trivial, fun stamp => ⟨trivial, fun _ => ?_⟩⟩⟩⟩
  change ({ e with children := Slice.reslice _ _ } : Element).node = e.node
  simp only [Element.node, Slice.elements_reslice_append]

end

/-! ## The machine -/

section
variable (isPrint : Char → Bool) (outside : ℕ → (c : Call) → Result c)
  (order : ℕ → List (Str × Bool) → List (Str × Bool))

/-- The shared state, with the entries of a listing in any order. -/
def answer (i : ℕ) : (c : Call) → World → Result c × World
  | .readDir user, w =>
      ((reply outside w (.readDir user)).map (order w.clock), (GoWorld.answer isPrint outside i (.readDir user) w).2)
  | c, w => GoWorld.answer isPrint outside i c w

/-- Messages are stored one after another, each by the session that got it. -/
def storeAll (room : ℕ → ℕ) (domain user : Str) : World → List (ℕ × Element) → World
  | w, [] => w
  | w, (i, e) :: l =>
      storeAll room domain user ((storeElement room domain user e).exec (answer isPrint outside order i) w).2.1 l

/-- The contents of the files, in the order in which they are written. -/
def contents (domain : Str) : ℕ → List (ℕ × Element) → List Str
  | _, [] => []
  | clock, (_, e) :: l =>
      (e.node.addChild (delay domain (outside (clock + 2) .now))).serialize :: contents domain (clock + 4) l

end

/-! ## The directory -/

/-- The directory with these contents under successive numbers. -/
def numbered : ℕ → List Str → Dir
  | _, [] => []
  | k, content :: rest => (seqName k, content) :: numbered (k + 1) rest

theorem seqName_padded (n : ℕ) : seqName n = padded 4 n ++ (".xml" : Str) := rfl

theorem seqName_inj {m n : ℕ} : seqName m = seqName n ↔ m = n := by
  rw [seqName_padded, seqName_padded, List.append_cancel_right_eq, padded_inj]

theorem numbered_append (k : ℕ) (cs : List Str) (content : Str) :
    numbered k (cs ++ [content]) = numbered k cs ++ [(seqName (k + cs.length), content)] := by
  induction cs generalizing k with
  | nil => rfl
  | cons c cs ih =>
      change (seqName k, c) :: numbered (k + 1) (cs ++ [content]) = _
      rw [ih, List.length_cons, Nat.add_right_comm]
      rfl

theorem names_numbered (k : ℕ) (cs : List Str) : (numbered k cs).map Prod.fst = (List.range' k cs.length).map seqName := by
  induction cs generalizing k with
  | nil => rfl
  | cons c cs ih =>
      change seqName k :: (numbered (k + 1) cs).map Prod.fst = _
      rw [ih]
      rfl

theorem mem_numbered {k : ℕ} {cs : List Str} {name : Str} (h : name ∈ (numbered k cs).map Prod.fst) :
    ∃ n, k ≤ n ∧ n < k + cs.length ∧ name = seqName n := by
  rw [names_numbered, List.mem_map] at h
  obtain ⟨n, hn, rfl⟩ := h
  rw [List.mem_range'_1] at hn
  exact ⟨n, hn.1, hn.2, rfl⟩

/-- A name that the directory does not have. -/
theorem numbered_free {k n : ℕ} {cs : List Str} (h : n < k ∨ k + cs.length ≤ n) :
    seqName n ∉ (numbered k cs).map Prod.fst := by
  intro hm
  obtain ⟨m, hk, hl, he⟩ := mem_numbered hm
  rw [seqName_inj] at he
  omega

theorem filter_free {d : Dir} {name : Str} (h : name ∉ d.map Prod.fst) : d.filter (fun e => e.1 ≠ name) = d := by
  rw [List.filter_eq_self]
  intro e he
  have hne : e.1 ≠ name := by
    rintro rfl
    exact h (List.mem_map_of_mem he)
  simpa using hne

/-- The next message goes behind the others. -/
theorem put_numbered (cs : List Str) (content : Str) :
    (numbered 1 cs).put (seqName (cs.length + 1)) content = numbered 1 (cs ++ [content]) := by
  rw [Dir.put, filter_free (numbered_free (Or.inr (Nat.add_comm _ _).le)), numbered_append, Nat.add_comm 1]

/-- The first file is removed. -/
theorem erase_numbered (k : ℕ) (content : Str) (cs : List Str) :
    Dir.erase (numbered k (content :: cs)) (seqName k) = numbered (k + 1) cs := by
  change List.filter (fun e => e.1 ≠ seqName k) ((seqName k, content) :: numbered (k + 1) cs) = _
  rw [List.filter_cons_of_neg (by simp)]
  exact filter_free (numbered_free (Or.inl (Nat.lt_succ_self k)))

theorem lookup_numbered (k : ℕ) (content : Str) (cs : List Str) :
    Dir.lookup (numbered k (content :: cs)) (seqName k) = some content := by
  simp [Dir.lookup, numbered]

/-! ## Listings -/

section
variable {entries : List (Str × Bool)} {cs : List Str}

/-- A listing names the files, in some order, and no directories. -/
theorem listing_perm {d : Dir} (h : entries.Perm d.listing) : entries.Perm (d.map fun e => (e.1, false)) :=
  h.trans (List.mergeSort_perm _ _)

theorem names_perm {d : Dir} (h : entries.Perm d.listing) : (entries.map Prod.fst).Perm (d.map Prod.fst) := by
  have hmap := (listing_perm h).map Prod.fst
  rwa [List.map_map] at hmap

/-- The largest number is the number of the messages. -/
theorem maxSeq_numbered (h : entries.Perm (numbered 1 cs).listing) (hlen : cs.length < 2 ^ 63) :
    maxSeq (entries.map Prod.fst) = cs.length := by
  have hmem := fun name => (names_perm h).mem_iff (a := name)
  apply Nat.le_antisymm
  · apply GoOfflineRace.maxSeq_le
    intro name hname
    obtain ⟨n, _, hn, rfl⟩ := mem_numbered ((hmem name).mp hname)
    rw [GoOfflineRace.scanSeq_seqName (by omega)]
    omega
  · cases hcs : cs.length with
    | zero => exact Nat.zero_le _
    | succ n =>
        have hlast : seqName (n + 1) ∈ entries.map Prod.fst := by
          rw [hmem, names_numbered]
          apply List.mem_map_of_mem
          rw [List.mem_range'_1]
          omega
        have hle := GoOfflineRace.scanSeq_le_maxSeq hlast
        rwa [GoOfflineRace.scanSeq_seqName (by omega)] at hle

/-- Up to four digits the files are delivered as they are numbered. -/
theorem deliverable_numbered (h : entries.Perm (numbered 1 cs).listing) (hlen : cs.length ≤ 9999) :
    deliverable entries = (numbered 1 cs).map Prod.fst := by
  apply eq_of_perm_of_pairwise
  · apply (List.mergeSort_perm _ _).trans
    have hall : entries.filter (fun e => !e.2 ∧ (".xml" : Str) <:+ e.1) = entries := by
      rw [List.filter_eq_self]
      intro e he
      obtain ⟨f, hf, rfl⟩ := List.mem_map.mp ((listing_perm h).mem_iff.mp he)
      obtain ⟨n, _, _, hn⟩ := mem_numbered (List.mem_map_of_mem (f := Prod.fst) hf)
      simp only [hn, seqName_padded]
      simp
    rw [hall]
    exact names_perm h
  · have hsorted : (deliverable entries).Pairwise fun a b => decide (a ≤ b) = true :=
      List.pairwise_mergeSort (by simpa using fun a b c => le_trans) (by simpa using fun a b => le_total a b) _
    exact hsorted.imp of_decide_eq_true
  · rw [names_numbered]
    exact pairwise_padded (by decide) (by omega) _

end

/-! ## Storing -/

section
variable (isPrint : Char → Bool) (outside : ℕ → (c : Call) → Result c)
  (order : ℕ → List (Str × Bool) → List (Str × Bool)) {user : Str}

/-- The calls of a handler that stores a message. -/
def Files : Call → Prop
  | .mkdirAll _ => True
  | .readDir _ => True
  | .now => True
  | .writeFile _ _ _ => True
  | _ => False

/-- They take one tick each and write nothing to a session. -/
theorem exec_files_kept {A : Type} {Q : A → Prop} (i : ℕ) {p : Handler A} (h : Ensures Files p Q) (w : World) :
    (p.exec (answer isPrint outside order i) w).2.1.clock =
        w.clock + (p.exec (answer isPrint outside order i) w).2.2.length ∧
      (p.exec (answer isPrint outside order i) w).2.1.log = w.log ∧
      (p.exec (answer isPrint outside order i) w).2.1.closed = w.closed := by
  induction p generalizing w with
  | done a => exact ⟨rfl, rfl, rfl⟩
  | call c next ih =>
      have hanswer : (answer isPrint outside order i c w).2.clock = w.clock + 1 ∧
          (answer isPrint outside order i c w).2.log = w.log ∧ (answer isPrint outside order i c w).2.closed = w.closed := by
        cases c with
        | mkdirAll u => exact ⟨rfl, rfl, rfl⟩
        | readDir u => exact ⟨rfl, rfl, rfl⟩
        | now => exact ⟨rfl, rfl, rfl⟩
        | writeFile u name d => exact ⟨rfl, rfl, rfl⟩
        | _ => cases h.1
      obtain ⟨hclock, hlog, hclosed⟩ := ih _ (h.2 _) (answer isPrint outside order i c w).2
      refine ⟨?_, hlog.trans hanswer.2.1, hclosed.trans hanswer.2.2⟩
      rw [Program.exec]
      dsimp only
      rw [hclock, hanswer.1, List.length_cons]
      omega

theorem files_storeElement (room : ℕ → ℕ) (domain : Str) (e : Element) :
    Ensures Files (storeElement room domain user e) fun _ => True :=
  ⟨trivial, fun _ => ⟨trivial, fun _ => ⟨trivial, fun _ => ⟨trivial, fun _ => trivial⟩⟩⟩⟩

/-- One message is stored behind the others. -/
theorem exec_storeElement (horder : ∀ n l, (order n l).Perm l) (room : ℕ → ℕ) (domain : Str) (i : ℕ) {w : World}
    {cs : List Str} (h : dir user w = numbered 1 cs) (hlen : cs.length + 1 < 2 ^ 63) (e : Element) :
    dir user ((storeElement room domain user e).exec (answer isPrint outside order i) w).2.1 =
        numbered 1 (cs ++ [(e.node.addChild (delay domain (outside (w.clock + 2) .now))).serialize]) ∧
      ((storeElement room domain user e).exec (answer isPrint outside order i) w).2.1.clock = w.clock + 4 ∧
      ((storeElement room domain user e).exec (answer isPrint outside order i) w).2.1.log = w.log ∧
      ((storeElement room domain user e).exec (answer isPrint outside order i) w).2.1.closed = w.closed := by
  constructor
  · have hmade : (answer isPrint outside order i (.mkdirAll user) w).2.offline user = some (numbered 1 cs) :=
      (Function.update_self _ _ _).trans (congrArg some h)
    change (Function.update (answer isPrint outside order i (.mkdirAll user) w).2.offline user
      (((answer isPrint outside order i (.mkdirAll user) w).2.offline user).map fun d =>
        d.put (nextName (maxSeq ((((((answer isPrint outside order i (.mkdirAll user) w).2.offline user).map
          Dir.listing).map (order (w.clock + 1))).getD []).map Prod.fst)))
          ({ e with children := e.children.append room (delay domain (outside (w.clock + 2) .now)) } : Element).node.serialize)
      user).getD [] = _
    rw [Function.update_self, hmade, Option.map_some, Option.map_some, Option.map_some, Option.getD_some, Option.getD_some,
      maxSeq_numbered (horder _ _) (Nat.lt_of_succ_lt hlen), nextName, if_pos hlen, put_numbered]
    rw [Element.node, Slice.elements_append]
    rfl
  · exact exec_files_kept isPrint outside order i (files_storeElement room domain e) w

/-- The messages are stored behind those that are there. -/
theorem storeAll_numbered (horder : ∀ n l, (order n l).Perm l) (room : ℕ → ℕ) (domain : Str)
    (messages : List (ℕ × Element)) {w : World} {cs : List Str} (h : dir user w = numbered 1 cs)
    (hlen : cs.length + messages.length < 2 ^ 63) :
    dir user (storeAll isPrint outside order room domain user w messages) =
        numbered 1 (cs ++ contents outside domain w.clock messages) ∧
      (storeAll isPrint outside order room domain user w messages).log = w.log ∧
      (storeAll isPrint outside order room domain user w messages).closed = w.closed := by
  induction messages generalizing w cs with
  | nil =>
      refine ⟨?_, rfl, rfl⟩
      rw [contents, List.append_nil]
      exact h
  | cons m l ih =>
      obtain ⟨i, e⟩ := m
      rw [List.length_cons] at hlen
      obtain ⟨hdir, hclock, hlog, hclosed⟩ := exec_storeElement isPrint outside order horder room domain i h (by omega) e
      obtain ⟨hfiles, hlogs, hcloseds⟩ := ih hdir (by rw [List.length_append, List.length_singleton]; omega)
      rw [hclock, List.append_assoc] at hfiles
      unfold storeAll
      exact ⟨hfiles, hlogs.trans hlog, hcloseds.trans hclosed⟩

/-! ## Delivering -/

/-- The sends of the contents of the files from one number on. -/
def sends (self : ℕ) : ℕ → List Str → List Sent
  | _, [] => []
  | k, content :: cs => ⟨self, .text content, true, some (seqName k)⟩ :: sends self (k + 1) cs

/-- One round sends the first file and removes it. -/
theorem exec_deliverFile (self k : ℕ) (content : Str) (cs : List Str) {w : World}
    (h : w.offline user = some (numbered k (content :: cs))) (hlive : w.closed self = false) :
    ((deliverFile self user (seqName k)).exec (answer isPrint outside order self) w).2.1.log =
        w.log ++ [⟨self, .text content, true, some (seqName k)⟩] ∧
      ((deliverFile self user (seqName k)).exec (answer isPrint outside order self) w).2.1.offline user =
        some (numbered (k + 1) cs) ∧
      ((deliverFile self user (seqName k)).exec (answer isPrint outside order self) w).2.1.closed = w.closed := by
  have hlookup : (w.offline user).bind (fun d => d.lookup (seqName k)) = some content := by
    rw [h]
    exact lookup_numbered k content cs
  have hread : ((readFile user (seqName k)).exec (answer isPrint outside order self) w).1 = some content := hlookup
  have hheld : (answer isPrint outside order self (.readFile user (seqName k)) w).2.reading self = some (seqName k) := by
    change Function.update w.reading self (((w.offline user).bind fun d => d.lookup (seqName k)).map _) self = _
    rw [Function.update_self, hlookup]
    rfl
  have hrun : ((deliverFile self user (seqName k)).exec (answer isPrint outside order self) w).2.1 =
      (answer isPrint outside order self (.remove user (seqName k))
        (answer isPrint outside order self (.send self (.text content))
          (answer isPrint outside order self (.readFile user (seqName k)) w).2).2).2 := by
    rw [deliverFile, exec_bind, hread]
    rfl
  rw [hrun]
  have hopened : (answer isPrint outside order self (.readFile user (seqName k)) w).2.log = w.log ∧
      (answer isPrint outside order self (.readFile user (seqName k)) w).2.closed = w.closed ∧
      (answer isPrint outside order self (.readFile user (seqName k)) w).2.offline = w.offline := ⟨rfl, rfl, rfl⟩
  generalize (answer isPrint outside order self (.readFile user (seqName k)) w).2 = w₁ at hheld hopened ⊢
  obtain ⟨hlog, hclosed, hoffline⟩ := hopened
  have hsent : (answer isPrint outside order self (.send self (.text content)) w₁).2.log =
        w₁.log ++ [⟨self, .text content, !w₁.closed self, w₁.reading self⟩] ∧
      (answer isPrint outside order self (.send self (.text content)) w₁).2.closed = w₁.closed ∧
      (answer isPrint outside order self (.send self (.text content)) w₁).2.offline = w₁.offline := ⟨rfl, rfl, rfl⟩
  generalize (answer isPrint outside order self (.send self (.text content)) w₁).2 = w₂ at hsent ⊢
  rw [hheld, hlog, hclosed, hlive, hoffline] at hsent
  refine ⟨hsent.1, ?_, hsent.2.1⟩
  change Function.update w₂.offline user ((w₂.offline user).map fun d => d.erase (seqName k)) user = _
  rw [Function.update_self, hsent.2.2, h, Option.map_some, erase_numbered]

/-- The loop sends every file and removes it. -/
theorem exec_files (self k : ℕ) (cs : List Str) {w : World} (h : w.offline user = some (numbered k cs))
    (hlive : w.closed self = false) :
    ((((numbered k cs).map Prod.fst).forM (deliverFile self user)).exec (answer isPrint outside order self) w).2.1.log =
        w.log ++ sends self k cs ∧
      ((((numbered k cs).map Prod.fst).forM (deliverFile self user)).exec (answer isPrint outside order self)
        w).2.1.offline user = some [] := by
  induction cs generalizing k w with
  | nil => exact ⟨(List.append_nil _).symm, h⟩
  | cons content cs ih =>
      obtain ⟨hlog, hoffline, hclosed⟩ := exec_deliverFile isPrint outside order self k content cs h hlive
      obtain ⟨hlogs, hofflines⟩ := ih (k + 1) hoffline (by rw [hclosed]; exact hlive)
      rw [hlog, List.append_assoc] at hlogs
      change (exec _ (deliverFile self user (seqName k) >>= fun _ => ((numbered (k + 1) cs).map Prod.fst).forM _) w).2.1.log =
        _ ∧ (exec _ (deliverFile self user (seqName k) >>= fun _ => ((numbered (k + 1) cs).map Prod.fst).forM _)
          w).2.1.offline user = _
      rw [exec_bind]
      exact ⟨hlogs, hofflines⟩

/-- The files of a directory that is numbered are all delivered. -/
theorem exec_deliverOffline (horder : ∀ n l, (order n l).Perm l) (self : ℕ) {cs : List Str} {w : World}
    (h : dir user w = numbered 1 cs) (hlen : cs.length ≤ 9999) (hlive : w.closed self = false) :
    ((deliverOffline self user).exec (answer isPrint outside order self) w).2.1.log = w.log ++ sends self 1 cs ∧
      dir user ((deliverOffline self user).exec (answer isPrint outside order self) w).2.1 = [] := by
  cases hd : w.offline user with
  | none =>
      have hcs : cs = [] := by
        rw [dir, hd] at h
        cases cs with
        | nil => rfl
        | cons => cases h
      have hlist : ((readDir user).exec (answer isPrint outside order self) w).1 = none := by
        change ((w.offline user).map Dir.listing).map _ = none
        rw [hd]
        rfl
      rw [deliverOffline, exec_bind, hlist, hcs]
      refine ⟨(List.append_nil _).symm, ?_⟩
      change (w.offline user).getD [] = []
      rw [hd]
      rfl
  | some d =>
      have hfiles : d = numbered 1 cs := by
        rw [dir, hd] at h
        exact h
      have hlist : ((readDir user).exec (answer isPrint outside order self) w).1 =
          some (order w.clock (numbered 1 cs).listing) := by
        change ((w.offline user).map Dir.listing).map _ = _
        rw [hd, hfiles]
        rfl
      rw [deliverOffline, exec_bind, hlist]
      dsimp only
      rw [deliverable_numbered (horder _ _) hlen]
      obtain ⟨hlog, hoffline⟩ := exec_files isPrint outside order self 1 cs
        (w := ((readDir user).exec (answer isPrint outside order self) w).2.1) (hd.trans (congrArg some hfiles)) hlive
      refine ⟨hlog, ?_⟩
      rw [dir, hoffline]
      rfl

end

section
variable (isPrint : Char → Bool) (outside : ℕ → (c : Call) → Result c)
  (order : ℕ → List (Str × Bool) → List (Str × Bool))

theorem length_contents (domain : Str) (clock : ℕ) (messages : List (ℕ × Element)) :
    (contents outside domain clock messages).length = messages.length := by
  induction messages generalizing clock with
  | nil => rfl
  | cons m l ih => exact congrArg Nat.succ (ih (clock + 4))

/-- Up to 9999 messages that are stored into an empty directory are sent once
each, in the order in which they were stored, and the directory is then empty.
Storing leaves the node as it was, whatever the answers. -/
theorem delivered_in_order (horder : ∀ n l, (order n l).Perm l) (room : ℕ → ℕ) (domain user : Str) (w : World)
    (self : ℕ) (messages : List (ℕ × Element)) (hempty : dir user w = []) (hlen : messages.length ≤ 9999)
    (hlive : w.closed self = false) :
    let stored := storeAll isPrint outside order room domain user w messages
    let delivered := ((deliverOffline self user).exec (answer isPrint outside order self) stored).2.1
    delivered.log = w.log ++ sends self 1 (contents outside domain w.clock messages) ∧ dir user delivered = [] ∧
      ∀ e, Ensures (fun _ => True) (storeElement room domain user e) fun e' => e'.node = e.node := by
  intro stored delivered
  have hmax : messages.length < 2 ^ 63 := lt_of_le_of_lt hlen (by decide)
  have hstart : dir user w = numbered 1 [] := hempty
  obtain ⟨hfiles, hlog, hclosed⟩ := storeAll_numbered isPrint outside order horder room domain messages hstart
    (by rwa [List.length_nil, Nat.zero_add])
  rw [List.nil_append] at hfiles
  obtain ⟨hsent, hgone⟩ := exec_deliverOffline isPrint outside order horder self hfiles
    (by rwa [length_contents]) (by rw [hclosed]; exact hlive)
  exact ⟨hsent.trans (by rw [hlog]), hgone, ensures_storeElement room domain user⟩

end

/-- Two messages, the first with a child and no free cell, the second with one. -/
def two : List (ℕ × Element) :=
  [(1, ⟨"message", [], [], ⟨[.mk "body" [] [] [] "a"], []⟩, []⟩), (2, ⟨"message", [], [], ⟨[], [none]⟩, []⟩)]

/-- A user with a connection and no stored messages. -/
def idle : World where
  registry := fun _ => none
  jid := fun _ => []
  rosters := fun _ => {}
  rosterFiles := fun _ => none
  offline := fun _ => none
  closed := fun _ => false
  log := []
  reading := fun _ => none
  replaced := fun _ => false
  clock := 0

/-- They arrive in order although the directory is listed backwards. -/
theorem two_in_order :
    let stored := storeAll GoRosterFile.printable plainOutside (fun _ l => l.reverse) (fun n => n) "x" "c" idle two
    let delivered := ((deliverOffline 0 "c").exec (answer GoRosterFile.printable plainOutside (fun _ l => l.reverse) 0)
      stored).2.1
    delivered.log.map (fun e => (e.dest, e.data.str, e.file)) =
        [((0 : ℕ), ("<message><body>a</body><delay xmlns='urn:xmpp:delay' from='x' stamp=''/></message>" : Str),
            some ("0001.xml" : Str)),
          (0, "<message><delay xmlns='urn:xmpp:delay' from='x' stamp=''/></message>", some "0002.xml")] ∧
      dir "c" delivered = [] := by
  obtain ⟨hlog, hgone, _⟩ := delivered_in_order GoRosterFile.printable plainOutside (fun _ l => l.reverse)
    (fun _ l => l.reverse_perm) (fun n => n) "x" "c" idle 0 two rfl (by decide) rfl
  refine ⟨?_, hgone⟩
  rw [hlog]
  decide +kernel

end Xmppd.GoOfflineOrder
