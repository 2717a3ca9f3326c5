import Mathlib.Data.List.Basic
import Mathlib.Tactic.SplitIfs

/-!
# Ledgers of mutual links

Every user keeps a page with entries on other users. An entry says whether its
owner follows the other user and whether he admits the other as a follower. The
two halves of a link stand on two pages, and the operations below move them
together: admitting writes an entry where there was none on the own page, and
changes an existing one on the other page.
-/
namespace Xmppd.Grants

/-- What the page of one user says about another. -/
structure Link where
  follows : Bool
  admits : Bool
deriving DecidableEq, Repr

/-- An entry without either direction. -/
def Link.bare : Link := ⟨false, false⟩

abbrev Ledger (U : Type) := U → U → Option Link

inductive Op (U : Type) where
  | note (a b : U)
  | accept (a b : U)
  | leave (a b : U)
  | expel (a b : U)
  | erase (a b : U)
deriving DecidableEq, Repr

variable {U : Type} [DecidableEq U]

/-- One entry changed. -/
def amend (L : Ledger U) (a b : U) (f : Option Link → Option Link) : Ledger U :=
  fun x y => if x = a ∧ y = b then f (L x y) else L x y

def setFollows (v : Bool) (l : Link) : Link := { l with follows := v }

def setAdmits (v : Bool) (l : Link) : Link := { l with admits := v }

/-- The ledger after an operation of the first user. -/
def apply (L : Ledger U) : Op U → Ledger U
  | .note a b => amend L a b fun l => some (l.getD .bare)
  | .accept a b =>
      amend (amend L a b fun l => some (setAdmits true (l.getD .bare))) b a (Option.map (setFollows true))
  | .leave a b => amend (amend L a b (Option.map (setFollows false))) b a (Option.map (setAdmits false))
  | .expel a b => amend (amend L a b (Option.map (setAdmits false))) b a (Option.map (setFollows false))
  | .erase a b => amend L a b fun _ => none

def Follows (L : Ledger U) (a b : U) : Prop := ∃ l ∈ L a b, l.follows = true

def Admits (L : Ledger U) (a b : U) : Prop := ∃ l ∈ L a b, l.admits = true

section
variable (L : Ledger U) (a b x y : U)

theorem amend_self (f : Option Link → Option Link) : amend L a b f a b = f (L a b) := by simp [amend]

theorem amend_of_ne (f : Option Link → Option Link) (h : ¬(x = a ∧ y = b)) : amend L a b f x y = L x y := by
  simp [amend, h]

/-! ## What an operation changes -/

theorem follows_amend (f : Option Link → Option Link) :
    Follows (amend L a b f) x y ↔
      if x = a ∧ y = b then ∃ l ∈ f (L a b), l.follows = true else Follows L x y := by
  unfold Follows
  split_ifs with h
  · rw [h.1, h.2, amend_self]
  · rw [amend_of_ne L a b x y f h]

theorem admits_amend (f : Option Link → Option Link) :
    Admits (amend L a b f) x y ↔
      if x = a ∧ y = b then ∃ l ∈ f (L a b), l.admits = true else Admits L x y := by
  unfold Admits
  split_ifs with h
  · rw [h.1, h.2, amend_self]
  · rw [amend_of_ne L a b x y f h]

theorem follows_note : Follows (apply L (.note a b)) x y ↔ Follows L x y := by
  rw [apply, follows_amend]
  split_ifs with h
  · rw [h.1, h.2, Follows]
    cases L a b <;> simp [Link.bare]
  · rfl

theorem admits_note : Admits (apply L (.note a b)) x y ↔ Admits L x y := by
  rw [apply, admits_amend]
  split_ifs with h
  · rw [h.1, h.2, Admits]
    cases L a b <;> simp [Link.bare]
  · rfl

theorem follows_erase : Follows (apply L (.erase a b)) x y ↔ Follows L x y ∧ ¬(x = a ∧ y = b) := by
  rw [apply, follows_amend]
  split_ifs with h
  · simp [h]
  · simp [h]

theorem admits_erase : Admits (apply L (.erase a b)) x y ↔ Admits L x y ∧ ¬(x = a ∧ y = b) := by
  rw [apply, admits_amend]
  split_ifs with h
  · simp [h]
  · simp [h]

theorem follows_setFollows (v : Bool) :
    Follows (amend L a b (Option.map (setFollows v))) x y ↔
      if x = a ∧ y = b then v = true ∧ (L a b).isSome else Follows L x y := by
  rw [follows_amend]
  split_ifs with h
  · cases L a b <;> simp [setFollows]
  · rfl

theorem follows_setAdmits (v : Bool) :
    Follows (amend L a b (Option.map (setAdmits v))) x y ↔ Follows L x y := by
  rw [follows_amend]
  split_ifs with h
  · rw [h.1, h.2, Follows]
    cases L a b <;> simp [setAdmits]
  · rfl

theorem admits_setAdmits (v : Bool) :
    Admits (amend L a b (Option.map (setAdmits v))) x y ↔
      if x = a ∧ y = b then v = true ∧ (L a b).isSome else Admits L x y := by
  rw [admits_amend]
  split_ifs with h
  · cases L a b <;> simp [setAdmits]
  · rfl

theorem admits_setFollows (v : Bool) :
    Admits (amend L a b (Option.map (setFollows v))) x y ↔ Admits L x y := by
  rw [admits_amend]
  split_ifs with h
  · rw [h.1, h.2, Admits]
    cases L a b <;> simp [setFollows]
  · rfl

theorem follows_leave : Follows (apply L (.leave a b)) x y ↔ Follows L x y ∧ ¬(x = a ∧ y = b) := by
  rw [apply, follows_setAdmits, follows_setFollows]
  split_ifs with h <;> simp [h]

theorem admits_leave : Admits (apply L (.leave a b)) x y ↔ Admits L x y ∧ ¬(x = b ∧ y = a) := by
  rw [apply, admits_setAdmits]
  split_ifs with h
  · simp [h]
  · rw [admits_setFollows]
    simp [h]

theorem admits_expel : Admits (apply L (.expel a b)) x y ↔ Admits L x y ∧ ¬(x = a ∧ y = b) := by
  rw [apply, admits_setFollows, admits_setAdmits]
  split_ifs with h <;> simp [h]

theorem follows_expel : Follows (apply L (.expel a b)) x y ↔ Follows L x y ∧ ¬(x = b ∧ y = a) := by
  rw [apply, follows_setFollows]
  split_ifs with h
  · simp [h]
  · rw [follows_setAdmits]
    simp [h]

theorem admits_accept : Admits (apply L (.accept a b)) x y ↔ Admits L x y ∨ x = a ∧ y = b := by
  rw [apply, admits_setFollows, admits_amend]
  split_ifs with h <;> simp [h, setAdmits]

theorem follows_accept :
    Follows (apply L (.accept a b)) x y ↔
      Follows L x y ∨ (x = b ∧ y = a) ∧ (a = b ∨ (L b a).isSome) := by
  rw [apply, follows_setFollows]
  split_ifs with h
  · by_cases hab : b = a ∧ a = b
    · obtain ⟨rfl, -⟩ := hab
      simp [h, amend_self]
    · have hne : ¬a = b := fun he => hab ⟨he.symm, he⟩
      rw [amend_of_ne L a b b a _ hab]
      simp only [true_and, h, and_self, hne, false_or]
      constructor
      · exact Or.inr
      · rintro (⟨l, hl, -⟩ | hs)
        · rw [Option.mem_def.mp hl]
          rfl
        · exact hs
  · rw [follows_amend]
    split_ifs with h'
    · obtain ⟨rfl, rfl⟩ := h'
      simp only [h, false_and, or_false, Follows]
      cases L x y <;> simp [setAdmits, Link.bare]
    · simp [h]

end

/-! ## Invariants -/

/-- Whoever follows is admitted. -/
def Granted (L : Ledger U) : Prop := ∀ a b, Follows L a b → Admits L b a

/-- Whoever is admitted follows. -/
def Mirrored (L : Ledger U) : Prop := ∀ a b, Admits L a b → Follows L b a

/-- Neither page has a direction for the other. -/
structure Severed (L : Ledger U) (a b : U) : Prop where
  follows : ¬Follows L a b
  followed : ¬Follows L b a
  admits : ¬Admits L a b
  admitted : ¬Admits L b a

variable {L : Ledger U}

theorem apply_granted (h : Granted L) {op : Op U} (hop : ∀ a b, op ≠ .erase a b) : Granted (apply L op) := by
  intro x y
  cases op with
  | note a b =>
      rw [follows_note, admits_note]
      exact h x y
  | accept a b =>
      rw [follows_accept, admits_accept]
      rintro (hf | ⟨⟨hx, hy⟩, -⟩)
      · exact Or.inl (h x y hf)
      · exact Or.inr ⟨hy, hx⟩
  | leave a b =>
      rw [follows_leave, admits_leave]
      rintro ⟨hf, hne⟩
      exact ⟨h x y hf, fun he => hne ⟨he.2, he.1⟩⟩
  | expel a b =>
      rw [follows_expel, admits_expel]
      rintro ⟨hf, hne⟩
      exact ⟨h x y hf, fun he => hne ⟨he.2, he.1⟩⟩
  | erase a b => exact absurd rfl (hop a b)

theorem isSome_amend {a b x y : U} {f : Option Link → Option Link} (hf : ∀ l, l.isSome → (f l).isSome)
    (h : (L x y).isSome) : (amend L a b f x y).isSome := by
  unfold amend
  split_ifs
  · exact hf _ h
  · exact h

/-- Entries stay until they are erased. -/
theorem isSome_apply {op : Op U} (hop : ∀ a b, op ≠ .erase a b) {x y : U} (h : (L x y).isSome) :
    (apply L op x y).isSome := by
  have hmap : ∀ (f : Link → Link) (l : Option Link), l.isSome → (l.map f).isSome := by
    intro f l hl
    rwa [Option.isSome_map]
  cases op with
  | note a b =>
      refine isSome_amend (f := fun l => some (l.getD .bare)) ?_ h
      exact fun _ _ => rfl
  | accept a b =>
      refine isSome_amend (hmap _) (isSome_amend (f := fun l => some (setAdmits true (l.getD .bare))) ?_ h)
      exact fun _ _ => rfl
  | leave a b => exact isSome_amend (hmap _) (isSome_amend (hmap _) h)
  | expel a b => exact isSome_amend (hmap _) (isSome_amend (hmap _) h)
  | erase a b => exact absurd rfl (hop a b)

/-- Nobody is admitted who has no entry for the one who admits him. -/
theorem apply_mirrored (h : Mirrored L) {op : Op U} (hop : ∀ a b, op ≠ .erase a b)
    (hask : ∀ a b, op = .accept a b → a = b ∨ (L b a).isSome) : Mirrored (apply L op) := by
  intro x y
  cases op with
  | note a b =>
      rw [follows_note, admits_note]
      exact h x y
  | accept a b =>
      rw [follows_accept, admits_accept]
      rintro (ha | ⟨hx, hy⟩)
      · exact Or.inl (h x y ha)
      · exact Or.inr ⟨⟨hy, hx⟩, hask a b rfl⟩
  | leave a b =>
      rw [follows_leave, admits_leave]
      rintro ⟨ha, hne⟩
      exact ⟨h x y ha, fun he => hne ⟨he.2, he.1⟩⟩
  | expel a b =>
      rw [follows_expel, admits_expel]
      rintro ⟨ha, hne⟩
      exact ⟨h x y ha, fun he => hne ⟨he.2, he.1⟩⟩
  | erase a b => exact absurd rfl (hop a b)

/-- Erasing severs the two, unless the other page still has a direction. -/
theorem severed_erase {a b : U} (h : a = b ∨ ¬Follows L b a ∧ ¬Admits L b a) :
    Severed (apply L (.erase a b)) a b := by
  refine ⟨?_, ?_, ?_, ?_⟩
  · rw [follows_erase]
    exact fun hf => hf.2 ⟨rfl, rfl⟩
  · rw [follows_erase]
    rintro ⟨hf, hne⟩
    rcases h with rfl | h
    · exact hne ⟨rfl, rfl⟩
    · exact h.1 hf
  · rw [admits_erase]
    exact fun hf => hf.2 ⟨rfl, rfl⟩
  · rw [admits_erase]
    rintro ⟨hf, hne⟩
    rcases h with rfl | h
    · exact hne ⟨rfl, rfl⟩
    · exact h.2 hf

/-- Nothing but an admission links two users. -/
theorem linked_of_apply {op : Op U} {x y : U} :
    (Follows (apply L op) x y → Follows L x y ∨ op = .accept y x) ∧
      (Admits (apply L op) x y → Admits L x y ∨ op = .accept x y) := by
  cases op with
  | note a b =>
      rw [follows_note, admits_note]
      exact ⟨Or.inl, Or.inl⟩
  | accept a b =>
      rw [follows_accept, admits_accept]
      constructor
      · rintro (hf | ⟨⟨rfl, rfl⟩, -⟩)
        · exact Or.inl hf
        · exact Or.inr rfl
      · rintro (ha | ⟨rfl, rfl⟩)
        · exact Or.inl ha
        · exact Or.inr rfl
  | leave a b =>
      rw [follows_leave, admits_leave]
      exact ⟨fun h => Or.inl h.1, fun h => Or.inl h.1⟩
  | expel a b =>
      rw [follows_expel, admits_expel]
      exact ⟨fun h => Or.inl h.1, fun h => Or.inl h.1⟩
  | erase a b =>
      rw [follows_erase, admits_erase]
      exact ⟨fun h => Or.inl h.1, fun h => Or.inl h.1⟩

theorem apply_severed {a b : U} (h : Severed L a b) {op : Op U} (hab : op ≠ .accept a b)
    (hba : op ≠ .accept b a) : Severed (apply L op) a b :=
  ⟨fun hf => (linked_of_apply.1 hf).elim h.follows hba, fun hf => (linked_of_apply.1 hf).elim h.followed hab,
    fun hf => (linked_of_apply.2 hf).elim h.admits hab, fun hf => (linked_of_apply.2 hf).elim h.admitted hba⟩

/-! ## Runs of operations -/

theorem foldl_granted {ops : List (Op U)} (h : Granted L) (hops : ∀ op ∈ ops, ∀ a b, op ≠ .erase a b) :
    Granted (ops.foldl apply L) := by
  induction ops generalizing L with
  | nil => exact h
  | cons op ops ih => exact ih (apply_granted h (hops op (by simp))) fun op hm => hops op (by simp [hm])

theorem foldl_mirrored {ops : List (Op U)} (h : Mirrored L) (hops : ∀ op ∈ ops, ∀ a b, op ≠ .erase a b)
    (hask : ∀ op ∈ ops, ∀ a b, op = .accept a b → a = b ∨ (L b a).isSome) :
    Mirrored (ops.foldl apply L) := by
  induction ops generalizing L with
  | nil => exact h
  | cons op ops ih =>
      have hop := hops op (by simp)
      refine ih (apply_mirrored h hop (hask op (by simp))) (fun op hm => hops op (by simp [hm])) ?_
      intro op' hm a b he
      rcases hask op' (by simp [hm]) a b he with hab | hs
      · exact Or.inl hab
      · exact Or.inr (isSome_apply hop hs)

theorem foldl_severed {a b : U} {ops : List (Op U)} (h : Severed L a b)
    (hops : ∀ op ∈ ops, op ≠ .accept a b ∧ op ≠ .accept b a) : Severed (ops.foldl apply L) a b := by
  induction ops generalizing L with
  | nil => exact h
  | cons op ops ih =>
      obtain ⟨hab, hba⟩ := hops op (by simp)
      exact ih (apply_severed h hab hba) fun op hm => hops op (by simp [hm])

end Xmppd.Grants
