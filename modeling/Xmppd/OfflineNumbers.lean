import Xmppd.OfflineOrder

/-!
# The numbers of the offline messages

A message is stored under the number after the largest one that `atoi` reads off a name
in the directory. The name is a new one, and the numbers of successive messages increase
by one, as long as an `int` can hold them. The number after 2147483647 wraps around, and
from there on it is the same for every message.
-/
namespace Xmppd.OfflineNumbers
open CStrings FileTree LibXml ServerState User Message Offline Confinement Installation
open OfflineDirectory OfflineOrder PaddedNumbers

/-- `max_seq + 1`, an `int` that wraps around. -/
def nextNumber (names : List Str) : ℤ := if maxSeq names + 1 < 2 ^ 31 then ((maxSeq names + 1 : ℕ) : ℤ) else -2147483648

/-- `"%04d"`, whose four characters include the sign. -/
def decimal (z : ℤ) : Str := if z < 0 then '-' :: padded 3 z.natAbs else padded 4 z.natAbs

theorem nextSeq_decimal (names : List Str) : nextSeq names = decimal (nextNumber names) := by
  unfold nextSeq nextNumber
  split
  · rfl
  · decide

/-- What a store finds, and what it stores under which number. -/
structure Letter where
  found : List Name
  number : ℤ
  content : Node

/-- The name of the file. -/
def Letter.name (x : Letter) : Name := decimal x.number ++ (".xml" : Str)

/-- The message that is stored next in a directory. -/
def letter (srv : Server) (q : Path) (o : Oracle) (stanza : Node) : Letter :=
  ⟨srv.files.readdir q, nextNumber (visible srv q), stanza.addChild (delayNode srv.cfg o)⟩

/-- The directory has what it had, and may be listed in another order. -/
structure Untouched (q : Path) (a b : Server) : Prop where
  dir : b.files.isDir q = a.files.isDir q
  lookup : ∀ n, b.files.lookup (q ++ [n]) = a.files.lookup (q ++ [n])
  listing : (b.files.readdir q).Perm (a.files.readdir q)

/-- These messages were stored in the directory one after another, and whatever leaves it
alone may have happened in between. -/
inductive Stored (q : Path) (srv : Server) : List Letter → Server → Prop
  | start : Stored q srv [] srv
  | apart {l : List Letter} {a b : Server} : Stored q srv l a → Untouched q a b → Stored q srv l b
  | store {l : List Letter} {a : Server} (o : Oracle) (username : Str) (stanza : Node) : Stored q srv l a →
      offlinePath a username = some q → Stored q srv (l ++ [letter a q o stanza]) (messageStoreOffline a o username stanza)

/-- No name that is taken was there, the numbers increase, and all that was in the directory
and all that was stored is there as it was. -/
structure Kept (q : Path) (srv : Server) (l : List Letter) (a : Server) : Prop where
  fresh : ∀ x ∈ l, x.name ∉ x.found
  increasing : (l.map Letter.number).Pairwise (· < ·)
  stored : ∀ x ∈ l, a.files.content (q ++ [x.name]) = some (.xml x.content)
  earlier : ∀ n c, srv.files.content (q ++ [n]) = some c → a.files.content (q ++ [n]) = some c

/-! ## The largest number -/

theorem maxSeq_cons (n : Str) (names : List Str) : maxSeq (n :: names) = max (atoi n) (maxSeq names) := by
  apply Nat.le_antisymm
  · apply maxSeq_le
    intro m hm
    rcases List.mem_cons.mp hm with rfl | hm
    · exact le_max_left _ _
    · exact (atoi_le_maxSeq hm).trans (le_max_right _ _)
  · apply max_le
    · exact atoi_le_maxSeq List.mem_cons_self
    · exact maxSeq_le fun m hm => atoi_le_maxSeq (List.mem_cons_of_mem n hm)

theorem maxSeq_perm {l l' : List Str} (h : l.Perm l') : maxSeq l = maxSeq l' :=
  Nat.le_antisymm (maxSeq_le fun _ hn => atoi_le_maxSeq (h.mem_iff.mp hn))
    (maxSeq_le fun _ hn => atoi_le_maxSeq (h.mem_iff.mpr hn))

section
variable {q : Path} {srv a : Server} {l : List Letter} {username : Str}

theorem letter_name (a : Server) (q : Path) (o : Oracle) (stanza : Node) (username : Str) :
    (letter a q o stanza).name = letterName a username q := by
  rw [letterName_eq, nextSeq_decimal]
  rfl

/-- Below the largest number there can be, the next name is new. -/
theorem letterName_fresh (hmax : maxSeq (visible a q) < 2 ^ 31 - 1) : letterName a username q ∉ a.files.readdir q := by
  intro h
  have hvisible : letterName a username q ∈ visible a q := List.mem_filter.mpr ⟨h, decide_eq_true (letterName_head a username q)⟩
  rw [letterName_eq] at hvisible
  obtain ⟨⟨n, hn, heq⟩, _⟩ := nextSeq_taken hvisible
  have hle := atoi_le_maxSeq hn
  omega

theorem keepsAt_fresh (hq : offlinePath a username = some q) (hd : a.files.isDir q = true)
    (h : letterName a username q ∉ a.files.readdir q) : KeepsAt a username q :=
  ⟨hq, Or.inl hd, isDir_unlisted _ (letterName_plain a username q).2.2.2 h⟩

/-- A store adds one to the largest number. -/
theorem maxSeq_stored (hq : offlinePath a username = some q) (hd : a.files.isDir q = true)
    (hmax : maxSeq (visible a q) < 2 ^ 31 - 1) (o : Oracle) (stanza : Node) :
    maxSeq (visible (messageStoreOffline a o username stanza) q) = maxSeq (visible a q) + 1 := by
  have hfresh := @letterName_fresh q a username hmax
  have hlist : (messageStoreOffline a o username stanza).files.readdir q = letterName a username q :: a.files.readdir q := by
    rw [readdir_stored (keepsAt_fresh hq hd hfresh)]
    congr 1
    apply List.filter_eq_self.mpr
    exact fun n hn => decide_eq_true fun he => hfresh (he ▸ hn)
  have hvisible : visible (messageStoreOffline a o username stanza) q = letterName a username q :: visible a q := by
    rw [visible, hlist]
    exact List.filter_cons_of_pos (by simpa using letterName_head a username q)
  have hnumber : atoi (letterName a username q) = maxSeq (visible a q) + 1 := by
    rw [letterName_eq, nextSeq, if_pos (by omega), atoi_pad4 (by omega)]
  rw [hvisible, maxSeq_cons, hnumber]
  omega

/-! ## Successive stores -/

/-- As long as the numbers last: the directory is there, what is in it is kept, and the numbers
are the successive ones. -/
structure Counted (q : Path) (srv : Server) (l : List Letter) (a : Server) : Prop extends Kept q srv l a where
  dir : a.files.isDir q = true
  numbers : l.map Letter.number = (List.range' (maxSeq (visible srv q) + 1) l.length).map Nat.cast
  largest : maxSeq (visible a q) = maxSeq (visible srv q) + l.length

theorem Counted.start (hd : srv.files.isDir q = true) : Counted q srv [] srv where
  fresh := fun _ h => absurd h List.not_mem_nil
  increasing := .nil
  stored := fun _ h => absurd h List.not_mem_nil
  earlier := fun _ _ h => h
  dir := hd
  numbers := rfl
  largest := rfl

theorem Counted.apart {b : Server} (h : Counted q srv l a) (hab : Untouched q a b) : Counted q srv l b := by
  have hcontent : ∀ n, b.files.content (q ++ [n]) = a.files.content (q ++ [n]) := by
    intro n
    rw [Tree.content, Tree.content, hab.lookup]
  refine ⟨⟨h.fresh, h.increasing, ?_, ?_⟩, hab.dir.trans h.dir, h.numbers, ?_⟩
  · intro x hx
    rw [hcontent]
    exact h.stored x hx
  · intro n c hc
    rw [hcontent]
    exact h.earlier n c hc
  · rw [← h.largest]
    exact maxSeq_perm (hab.listing.filter _)

/-- One more message. -/
theorem Counted.store (h : Counted q srv l a) (o : Oracle) (stanza : Node) (hq : offlinePath a username = some q)
    (hlen : maxSeq (visible srv q) + (l.length + 1) < 2 ^ 31) :
    Counted q srv (l ++ [letter a q o stanza]) (messageStoreOffline a o username stanza) := by
  have hlargest := h.largest
  have hmax : maxSeq (visible a q) < 2 ^ 31 - 1 := by omega
  have hname := letter_name a q o stanza username
  have hfresh := @letterName_fresh q a username hmax
  have hnone := lookup_unlisted a.files (letterName_plain a username q).2.2.2 hfresh
  have hkeeps := keepsAt_fresh hq h.dir hfresh
  have hcontent := content_stored hkeeps o stanza
  have hother : ∀ n c, a.files.content (q ++ [n]) = some c →
      (messageStoreOffline a o username stanza).files.content (q ++ [n]) = some c := by
    intro n c hc
    rw [hcontent, if_neg, hc]
    intro he
    rw [he, Tree.content, hnone] at hc
    cases hc
  have hnumber : (letter a q o stanza).number = ((maxSeq (visible srv q) + 1 + l.length : ℕ) : ℤ) := by
    change nextNumber (visible a q) = _
    rw [nextNumber, if_pos (by omega), hlargest, Nat.add_right_comm]
  have hnumbers : (l ++ [letter a q o stanza]).map Letter.number =
      (List.range' (maxSeq (visible srv q) + 1) (l ++ [letter a q o stanza]).length).map Nat.cast := by
    rw [List.map_append, h.numbers, List.length_append, List.length_singleton, List.range'_concat, List.map_append,
      List.map_singleton, List.map_singleton, hnumber, Nat.one_mul]
  refine ⟨⟨?_, ?_, ?_, ?_⟩, ?_, hnumbers, ?_⟩
  · intro x hx
    rcases List.mem_append.mp hx with hx | hx
    · exact h.fresh x hx
    · rw [List.mem_singleton.mp hx, hname]
      exact hfresh
  · rw [hnumbers, List.pairwise_map]
    exact (List.pairwise_lt_range' (s := maxSeq (visible srv q) + 1)).imp fun hlt => Int.ofNat_lt.mpr hlt
  · intro x hx
    rcases List.mem_append.mp hx with hx | hx
    · exact hother _ _ (h.stored x hx)
    · rw [List.mem_singleton.mp hx, hname, hcontent, if_pos rfl]
      rfl
  · exact fun n c hc => hother n c (h.earlier n c hc)
  · exact (isDir_stored hkeeps o stanza q).mpr (Or.inl h.dir)
  · rw [maxSeq_stored hq h.dir hmax o stanza, List.length_append, List.length_singleton, hlargest]
    omega

theorem Stored.counted (h : Stored q srv l a) (hd : srv.files.isDir q = true)
    (hlen : maxSeq (visible srv q) + l.length < 2 ^ 31) : Counted q srv l a := by
  induction h with
  | start => exact .start hd
  | apart _ hab ih => exact (ih hlen).apart hab
  | store o username stanza _ hq ih =>
      rw [List.length_append, List.length_singleton] at hlen
      exact (ih (by omega)).store o stanza hq hlen

/-- Numbers that increase have not wrapped around. -/
theorem Stored.length_lt (h : Stored q srv l a) (hd : srv.files.isDir q = true) (hmax : maxSeq (visible srv q) < 2 ^ 31 - 1)
    (hincreasing : (l.map Letter.number).Pairwise (· < ·)) : maxSeq (visible srv q) + l.length < 2 ^ 31 := by
  induction h with
  | start =>
      rw [List.length_nil]
      omega
  | apart _ _ ih => exact ih hincreasing
  | @store l a o username stanza hl _ ih =>
      rw [List.map_append, List.pairwise_append] at hincreasing
      obtain ⟨hbefore, _, hlast⟩ := hincreasing
      have hlen := ih hbefore
      have hcounted := hl.counted hd hlen
      have hlargest := hcounted.largest
      rw [List.length_append, List.length_singleton]
      by_contra hge
      have hwrapped : (letter a q o stanza).number = -2147483648 := by
        change nextNumber (visible a q) = _
        rw [nextNumber, if_neg (by omega)]
      have hfirst : ((maxSeq (visible srv q) + 1 : ℕ) : ℤ) ∈ l.map Letter.number := by
        rw [hcounted.numbers]
        apply List.mem_map_of_mem
        rw [List.mem_range'_1]
        omega
      have hlt := hlast _ hfirst (letter a q o stanza).number (by simp)
      rw [hwrapped] at hlt
      omega

end

/-- Storing messages in a directory whose names read as less than the largest `int` replaces
nothing, under numbers that increase, exactly if the numbers last. -/
theorem numbers_kept_iff (q : Path) (srv a : Server) (l : List Letter) (hd : srv.files.isDir q = true)
    (hnames : ∀ n ∈ srv.files.readdir q, atoi n < 2 ^ 31 - 1) (h : Stored q srv l a) :
    Kept q srv l a ↔ maxSeq (visible srv q) + l.length < 2 ^ 31 := by
  have hmax : maxSeq (visible srv q) < 2 ^ 31 - 1 := by
    apply Nat.lt_of_le_pred (by decide)
    apply maxSeq_le
    exact fun n hn => Nat.le_pred_of_lt (hnames n (List.mem_of_mem_filter hn))
  exact ⟨fun hkept => h.length_lt hd hmax hkept.increasing, fun hlen => (h.counted hd hlen).toKept⟩

/-- Where messages for bob are stored. -/
def drawer : Path := ["data".toList, "bob".toList, "offline".toList]

/-- The name with the last number but one is taken. -/
def nearlyFull : Server :=
  { exampleServer with
    files := exampleServer.files.put (drawer ++ ["2147483646.xml".toList]) (.file (.xml (elem "message" [] []))) }

/-- One message more. -/
def full : Server := messageStoreOffline nearlyFull exampleOracle "bob" (elem "message" [] [])

theorem stored_full : Stored drawer nearlyFull [letter nearlyFull drawer exampleOracle (elem "message" [] [])] full :=
  .store exampleOracle "bob" (elem "message" [] []) .start (by decide +kernel)

theorem names_nearlyFull :
    nearlyFull.files.isDir drawer = true ∧ (∀ n ∈ nearlyFull.files.readdir drawer, atoi n < 2 ^ 31 - 1) ∧
      maxSeq (visible nearlyFull drawer) = 2 ^ 31 - 2 := by
  decide +kernel

/-- The last number is used. -/
theorem full_kept : Kept drawer nearlyFull [letter nearlyFull drawer exampleOracle (elem "message" [] [])] full := by
  obtain ⟨hd, hnames, hmax⟩ := names_nearlyFull
  rw [numbers_kept_iff drawer nearlyFull full _ hd hnames stored_full, hmax]
  decide

/-- The message after it has a smaller number. -/
theorem number_wraps :
    ¬∀ (q : Path) (srv a : Server) (l : List Letter), srv.files.isDir q = true →
      (∀ n ∈ srv.files.readdir q, atoi n < 2 ^ 31 - 1) → Stored q srv l a → Kept q srv l a := by
  intro h
  obtain ⟨hd, hnames, hmax⟩ := names_nearlyFull
  have hplace : offlinePath full "bob" = some drawer := by decide +kernel
  have hstored := stored_full.store exampleOracle "bob" (elem "message" [] []) hplace
  have hlt := hstored.length_lt hd (by rw [hmax]; decide) (h drawer nearlyFull _ _ hd hnames hstored).increasing
  rw [hmax] at hlt
  exact absurd hlt (by decide)

end Xmppd.OfflineNumbers
