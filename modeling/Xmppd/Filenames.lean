import Xmppd.Base64Arrays
import Xmppd.ExchangeSort
import Xmppd.OfflineOrder

/-!
# The array of the file names

`message_deliver_offline` collects at most 256 names of message files in
`filenames[256][64]` and sorts them where they are, with a comparison of all pairs and
an exchange by way of a third array. The rows are not initialized, and none from `count`
on is read or written by the sort.
-/
namespace Xmppd.Filenames
open CStrings FileTree ServerState User Message Offline ExchangeSort
open Base64Arrays (Checked)

/-- A `char[64]` array with all its bytes. -/
structure Row where
  bytes : Str
  full : bytes.length = 64
deriving DecidableEq, Repr

/-- `filenames`. -/
abbrev Table := Fin 256 → Row

/-- An index of the table. -/
def index (i : ℕ) : Checked (Fin 256) := if h : i < 256 then some ⟨i, h⟩ else none

/-- `strcmp`, which compares up to the first difference or terminator. -/
def strcmp : Str → Str → Checked ℤ
  | a :: s, b :: t => if a ≠ b ∨ a = '\x00' then some ((a.toNat : ℤ) - b.toNat) else strcmp s t
  | _, _ => none

/-! ## Sorting -/

/-- The three `memcpy` by way of `tmp`. -/
def exchangeRows (t : Table) (i j : Fin 256) : Table := Function.update (Function.update t i (t j)) j (t i)

/-- The body of the inner loop. -/
def compareRows (t : Table) (i j : ℕ) : Checked Table := do
  let i ← index i
  let j ← index j
  let c ← strcmp (t i).bytes (t j).bytes
  if 0 < c then some (exchangeRows t i j) else some t

/-- The inner loop, from `j` on. -/
def innerLoop (count i j : ℕ) (t : Table) : Checked Table :=
  if j < count then do
    let t ← compareRows t i j
    innerLoop count i (j+1) t
  else some t
termination_by count - j

/-- The outer loop, from `i` on. -/
def outerLoop (count i : ℕ) (t : Table) : Checked Table :=
  if i + 1 < count then do
    let t ← innerLoop count i (i+1) t
    outerLoop count (i+1) t
  else some t
termination_by count - i

def sortFilenames (count : ℕ) (t : Table) : Checked Table := outerLoop count 0 t

/-! ## Collecting -/

/-- `snprintf` into a row. -/
def Row.print (r : Row) (s : Str) : Row :=
  ⟨s.take 63 ++ '\x00' :: r.bytes.drop ((s.take 63).length + 1), by
    have hlen := List.length_take_le 63 s
    rw [List.length_append, List.length_cons, List.length_drop, r.full]
    omega⟩

/-- The loop over the entries of the directory. -/
def collect : List Name → ℕ → Table → Checked (ℕ × Table)
  | [], count, t => some (count, t)
  | n :: names, count, t =>
      if count < 256 then
        if n.head? = some '.' then collect names count t
        else if n.length < 5 ∨ n.drop (n.length - 4) ≠ (".xml" : Str) then collect names count t
        else do
          let k ← index count
          collect names (count+1) (Function.update t k ((t k).print n))
      else some (count, t)

/-- The first part of `message_deliver_offline`. -/
def collectAndSort (names : List Name) (t : Table) : Checked (ℕ × Table) := do
  let (count, t) ← collect names 0 t
  let t ← sortFilenames count t
  some (count, t)

/-! ## Strings in rows -/

/-- The string in a row. -/
def Row.name (r : Row) : Str := cstr r.bytes 0

/-- The rows up to `count` hold strings. -/
def Terminated (count : ℕ) (t : Table) : Prop := ∀ k : Fin 256, k.val < count → '\x00' ∈ (t k).bytes

theorem index_val (i : Fin 256) : index i.val = some i := dif_pos i.isLt

theorem Row.bytes_eq {r : Row} (h : '\x00' ∈ r.bytes) : '\x00' ∉ r.name ∧ ∃ u, r.bytes = r.name ++ '\x00' :: u := by
  obtain ⟨w, u, hbytes, hw⟩ := List.eq_append_cons_of_mem h
  have hname : r.name = w := by
    rw [Row.name, hbytes]
    exact @cstr_append [] w u hw
  rw [hname]
  exact ⟨hw, u, hbytes⟩

/-- The comparison is that of the strings, whatever follows their terminators. -/
theorem strcmp_eq {x y : Str} (hx : '\x00' ∉ x) (hy : '\x00' ∉ y) (u v : Str) :
    ∃ c, strcmp (x ++ '\x00' :: u) (y ++ '\x00' :: v) = some c ∧ (0 < c ↔ y < x) := by
  have hpos : ∀ c : Char, c ≠ '\x00' → 0 < c.toNat := by
    intro c hc
    exact Nat.pos_of_ne_zero fun h => hc (Char.toNat_inj.mp h)
  induction x generalizing y with
  | nil =>
      cases y with
      | nil => exact ⟨0, by simp [strcmp], by simp⟩
      | cons b t =>
          have hb : '\x00' ≠ b := fun h => hy (h ▸ List.mem_cons_self)
          refine ⟨_, if_pos (.inl hb), iff_of_false ?_ (List.not_lt_nil _)⟩
          change ¬(0 : ℤ) < 0 - b.toNat
          omega
  | cons a s ih =>
      have ha : a ≠ '\x00' := fun h => hx (h ▸ List.mem_cons_self)
      cases y with
      | nil =>
          have hlt := hpos a ha
          refine ⟨_, if_pos (.inl ha), iff_of_true ?_ (List.nil_lt_cons _ _)⟩
          change (0 : ℤ) < a.toNat - 0
          omega
      | cons b t =>
          by_cases hab : a = b
          · obtain ⟨c, hc, hiff⟩ := ih (fun h => hx (List.mem_cons_of_mem a h)) fun h => hy (List.mem_cons_of_mem b h)
            refine ⟨c, ?_, ?_⟩
            · rw [List.cons_append, List.cons_append, strcmp, if_neg (by simp [hab, hab ▸ ha]), hc]
            · rw [hiff, List.cons_lt_cons_iff, hab]
              simp
          · refine ⟨_, if_pos (.inl hab), ?_⟩
            have hba : b < a ↔ b.toNat < a.toNat := Iff.rfl
            rw [List.cons_lt_cons_iff, hba]
            constructor
            · intro h
              exact .inl (by omega)
            · intro h
              rcases h with h | ⟨h, _⟩
              · omega
              · exact absurd h.symm hab

/-! ## The loops -/

section
variable {count : ℕ} {t t' : Table}

theorem Terminated.shuffled {i : ℕ} (ht : Terminated count t) (hs : Shuffled i count t t') : Terminated count t' := by
  intro k hk
  by_cases hi : k.val < i
  · rw [hs.outside (.inl hi)]
    exact ht k hk
  · obtain ⟨l, _, hl, heq⟩ := hs.inside (by omega) hk
    rw [heq]
    exact ht l hl

theorem exchangeRows_eq (t : Table) (i j : Fin 256) : exchangeRows t i j = t ∘ Equiv.swap i j := by
  rw [Equiv.swap_comm, Equiv.comp_swap_eq_update]
  rfl

theorem compareRows_eq {i j : Fin 256} (hi : '\x00' ∈ (t i).bytes) (hj : '\x00' ∈ (t j).bytes) :
    compareRows t i.val j.val = some (if (t j).name < (t i).name then t ∘ Equiv.swap i j else t) := by
  obtain ⟨hiname, u, hibytes⟩ := Row.bytes_eq hi
  obtain ⟨hjname, v, hjbytes⟩ := Row.bytes_eq hj
  obtain ⟨c, hc, hiff⟩ := strcmp_eq hiname hjname u v
  rw [← hibytes, ← hjbytes] at hc
  unfold compareRows
  rw [index_val, index_val]
  simp only [Option.bind_eq_bind, Option.bind_some, hc]
  by_cases hlt : (t j).name < (t i).name
  · rw [if_pos (hiff.mpr hlt), if_pos hlt, exchangeRows_eq]
  · rw [if_neg fun h => hlt (hiff.mp h), if_neg hlt]

/-- A round of the outer loop brings the least of the remaining names to the front. -/
theorem innerLoop_spec (hcount : count ≤ 256) (i : Fin 256) {j : ℕ} (hij : i.val < j) (hj : j ≤ count)
    (ht : Terminated count t) (hl : Least Row.name i j t) :
    ∃ t', innerLoop count i.val j t = some t' ∧ Shuffled i.val count t t' ∧ Least Row.name i count t' := by
  induction hk : count - j generalizing j t with
  | zero =>
      obtain rfl : j = count := by omega
      exact ⟨t, by rw [innerLoop, if_neg (Nat.lt_irrefl j)], .refl _ _ _, hl⟩
  | succ k ih =>
      have hlt : j < count := by omega
      obtain ⟨l, rfl⟩ : ∃ l : Fin 256, l.val = j := ⟨⟨j, by omega⟩, rfl⟩
      rw [innerLoop, if_pos hlt, compareRows_eq (ht i (by omega)) (ht l hlt), Option.bind_eq_bind, Option.bind_some]
      by_cases hname : (t l).name < (t i).name
      · have hs : Shuffled i.val count t (t ∘ Equiv.swap i l) := .swap t ⟨Nat.le.refl, by omega⟩ ⟨by omega, hlt⟩
        obtain ⟨t', hloop, hs', hl'⟩ := ih (by omega) (by omega) (ht.shuffled hs) (hl.exchange hname) (by omega)
        rw [if_pos hname]
        exact ⟨t', hloop, hs.trans hs', hl'⟩
      · rw [if_neg hname]
        exact ih (by omega) (by omega) ht (hl.keep (not_lt.mp hname)) (by omega)

theorem outerLoop_spec (hcount : count ≤ 256) {i : ℕ} (ht : Terminated count t) (hf : Front Row.name count i t) :
    ∃ t' k, outerLoop count i t = some t' ∧ Shuffled 0 count t t' ∧ count ≤ k + 1 ∧ Front Row.name count k t' := by
  induction hk : count - i generalizing i t with
  | zero => exact ⟨t, i, by rw [outerLoop, if_neg (by omega)], .refl _ _ _, by omega, hf⟩
  | succ k ih =>
      by_cases hlt : i + 1 < count
      · obtain ⟨t₁, hinner, hs, hl⟩ :=
          @innerLoop_spec count t hcount ⟨i, by omega⟩ (i+1) (Nat.lt_succ_self i) (by omega) ht (.start _ _ _)
        obtain ⟨t', k', houter, hs', hk', hf'⟩ := ih (ht.shuffled hs) (hf.next hs hl) (by change count - (i+1) = k; omega)
        refine ⟨t', k', ?_, (hs.mono (Nat.zero_le _) Nat.le.refl).trans hs', hk', hf'⟩
        rw [outerLoop, if_pos hlt, hinner, Option.bind_eq_bind, Option.bind_some]
        exact houter
      · exact ⟨t, i, by rw [outerLoop, if_neg hlt], .refl _ _ _, by omega, hf⟩

theorem sortFilenames_spec (hcount : count ≤ 256) (ht : Terminated count t) :
    ∃ t', sortFilenames count t = some t' ∧ Shuffled 0 count t t' ∧
      ∀ a b : Fin 256, a < b → b.val < count → (t' a).name ≤ (t' b).name := by
  obtain ⟨t', k, hsort, hs, hk, hf⟩ := outerLoop_spec hcount ht (.start Row.name count t)
  exact ⟨t', hsort, hs, fun a b hab hb => hf.sorted hk hab hb⟩

end

/-- The first `count` rows become a permutation of what they were, in the order of `strcmp`,
and the other rows are as they were. -/
theorem filenames_sorted (count : ℕ) (hcount : count ≤ 256) (t : Table) (ht : Terminated count t) :
    ∃ t', sortFilenames count t = some t' ∧ ((List.ofFn t').take count).Perm ((List.ofFn t).take count) ∧
      (∀ a b : Fin 256, a < b → b.val < count → ∃ c, strcmp (t' a).bytes (t' b).bytes = some c ∧ c ≤ 0) ∧
      ∀ k : Fin 256, count ≤ k.val → t' k = t k := by
  obtain ⟨t', hsort, hs, hle⟩ := sortFilenames_spec hcount ht
  refine ⟨t', hsort, hs.perm, ?_, fun k hk => hs.outside (.inr hk)⟩
  intro a b hab hb
  have ht' := ht.shuffled hs
  obtain ⟨haname, u, habytes⟩ := Row.bytes_eq (ht' a ((Fin.lt_def.mp hab).trans hb))
  obtain ⟨hbname, v, hbbytes⟩ := Row.bytes_eq (ht' b hb)
  obtain ⟨c, hc, hiff⟩ := strcmp_eq haname hbname u v
  rw [← habytes, ← hbbytes] at hc
  exact ⟨c, hc, not_lt.mp fun h => not_lt.mpr (hle a b hab hb) (hiff.mp h)⟩

theorem print_terminated (r : Row) (s : Str) : '\x00' ∈ (r.print s).bytes := by
  unfold Row.print
  exact List.mem_append_right _ List.mem_cons_self

/-- Three names with one twice, and rows behind them. -/
def threeNames : Table := fun k =>
  Row.print ⟨List.replicate 64 'x', rfl⟩ (if k.val = 1 then "0001.xml" else "0002.xml")

theorem threeNames_sorted :
    ∃ t', sortFilenames 3 threeNames = some t' ∧ ((List.ofFn t').take 3).Perm ((List.ofFn threeNames).take 3) ∧
      (∀ a b : Fin 256, a < b → b.val < 3 → ∃ c, strcmp (t' a).bytes (t' b).bytes = some c ∧ c ≤ 0) ∧
      ∀ k : Fin 256, 3 ≤ k.val → t' k = threeNames k :=
  filenames_sorted 3 (by decide) threeNames fun _ _ => print_terminated _ _

/-! ## The names that are delivered -/

/-- The strings in the first rows. -/
def names (count : ℕ) (t : Table) : List Str := ((List.ofFn t).take count).map Row.name

section
variable {count : ℕ} {t t' : Table}

theorem print_name (r : Row) {s : Str} (hs : '\x00' ∉ s) : (r.print s).name = (snprintf 64 s).str :=
  @cstr_append [] (s.take 63) _ fun h => hs (List.mem_of_mem_take h)

theorem names_succ (k : Fin 256) (t : Table) : names (k.val+1) t = names k.val t ++ [(t k).name] := by
  unfold names
  rw [List.take_succ_eq_append_getElem (by rw [List.length_ofFn]; exact k.isLt), List.map_append, List.getElem_ofFn]
  rfl

theorem names_update (k : Fin 256) (t : Table) (r : Row) : names k.val (Function.update t k r) = names k.val t := by
  unfold names
  congr 1
  apply List.ext_getElem?
  intro i
  rw [List.getElem?_take, List.getElem?_take, List.getElem?_ofFn, List.getElem?_ofFn]
  split
  · next hi =>
    split
    · rw [Function.update_of_ne fun he => Nat.ne_of_lt hi (congrArg Fin.val he)]
    · rfl
  · rfl

/-- The names of message files. -/
def isStored (n : Name) : Bool := n.head? ≠ some '.' ∧ 5 ≤ n.length ∧ n.drop (n.length - 4) = (".xml" : Str)

theorem collect_spec {listing : List Name} (hlisting : ∀ n ∈ listing, '\x00' ∉ n) (hcount : count ≤ 256) (ht : Terminated count t) :
    ∃ count' t', collect listing count t = some (count', t') ∧ count' ≤ 256 ∧ Terminated count' t' ∧
      names count' t' = names count t ++ ((listing.filter isStored).take (256 - count)).map fun n => (snprintf 64 n).str := by
  induction listing generalizing count t with
  | nil => exact ⟨count, t, rfl, hcount, ht, by simp⟩
  | cons n listing ih =>
      have hrest : ∀ m ∈ listing, '\x00' ∉ m := fun m hm => hlisting m (List.mem_cons_of_mem n hm)
      unfold collect
      by_cases hlt : count < 256
      · rw [if_pos hlt]
        by_cases hstored : isStored n = true
        · obtain ⟨hdot, hlong, hxml⟩ := of_decide_eq_true hstored
          obtain ⟨k, rfl⟩ : ∃ k : Fin 256, k.val = count := ⟨⟨count, hlt⟩, rfl⟩
          have ht' : Terminated (k.val+1) (Function.update t k ((t k).print n)) := by
            intro l hl
            by_cases hlk : l = k
            · rw [hlk, Function.update_self]
              exact print_terminated _ _
            · rw [Function.update_of_ne hlk]
              exact ht l (lt_of_le_of_ne (Nat.lt_succ_iff.mp hl) fun he => hlk (Fin.ext he))
          obtain ⟨count', t', hcollect, hle, hterm, hnames⟩ := ih hrest hlt ht'
          refine ⟨count', t', ?_, hle, hterm, ?_⟩
          · rw [if_neg hdot, if_neg (by simp [hxml]; omega), index_val, Option.bind_eq_bind, Option.bind_some]
            exact hcollect
          · rw [hnames, names_succ, names_update, Function.update_self, print_name _ (hlisting n List.mem_cons_self),
              List.filter_cons_of_pos hstored, show 256 - k.val = 256 - (k.val+1) + 1 by omega, List.take_succ_cons,
              List.map_cons, List.append_assoc]
            rfl
        · obtain ⟨count', t', hcollect, hle, hterm, hnames⟩ := ih hrest hcount ht
          refine ⟨count', t', ?_, hle, hterm, by rw [hnames, List.filter_cons_of_neg hstored]⟩
          rw [← hcollect]
          split
          · rfl
          · next hdot =>
            refine if_pos ?_
            by_contra hno
            rw [not_or, not_lt, not_not] at hno
            exact hstored (decide_eq_true ⟨hdot, hno⟩)
      · have hzero : 256 - count = 0 := by omega
        exact ⟨count, t, if_neg hlt, hcount, ht, by rw [hzero]; simp⟩

/-- On the arrays, delivery collects and sorts the names that it collects and sorts as
strings. -/
theorem collectAndSort_names {srv : Server} {dir : Str} {q : Path} (hq : locate srv dir = some q) (hd : srv.files.isDir q = true)
    (hnames : ∀ n ∈ srv.files.readdir q, '\x00' ∉ n) (t : Table) :
    ∃ count t', collectAndSort (srv.files.readdir q) t = some (count, t') ∧
      names count t' = sortNames (offlineNames srv dir).length (offlineNames srv dir) := by
  obtain ⟨count, t₁, hcollect, hcount, hterm, hcollected⟩ :=
    collect_spec hnames (Nat.zero_le 256) (fun k hk => absurd hk (Nat.not_lt_zero k.val) : Terminated 0 t)
  obtain ⟨t', hsort, hs, hle⟩ := sortFilenames_spec hcount hterm
  have hoffline : names count t₁ = offlineNames srv dir := by
    rw [hcollected, offlineNames, listDir, hq]
    dsimp only
    have hfilter : isStored = fun n => decide (5 ≤ n.length ∧ n.drop (n.length - 4) = (".xml" : Str)) && decide (n.head? ≠ some '.') := by
      funext n
      rw [isStored, Bool.decide_and, Bool.and_comm]
    rw [if_pos hd, List.filter_filter, hfilter]
    rfl
  refine ⟨count, t', ?_, ?_⟩
  · rw [collectAndSort, hcollect, Option.bind_eq_bind, Option.bind_some]
    dsimp only
    rw [hsort]
    rfl
  · have hperm : (names count t').Perm (sortNames (offlineNames srv dir).length (offlineNames srv dir)) := by
      rw [← hoffline]
      exact (hs.perm.map Row.name).trans (sortNames_perm _ _).symm
    have hpairwise : (names count t').Pairwise (· ≤ ·) := by
      unfold names
      rw [List.pairwise_map, List.pairwise_iff_getElem]
      intro a b ha hb hab
      rw [List.length_take, List.length_ofFn] at ha hb
      rw [List.getElem_take, List.getElem_take, List.getElem_ofFn, List.getElem_ofFn]
      exact hle _ _ (Fin.lt_def.mpr hab) (by change b < count; omega)
    exact hperm.eq_of_pairwise (fun x y _ _ hxy hyx => le_antisymm hxy hyx) hpairwise (OfflineOrder.sortNames_pairwise Nat.le.refl)

end

end Xmppd.Filenames
