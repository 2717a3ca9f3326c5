import Xmppd.RosterStore

/-!
# The offline directory

Delivery removes files that stand in the user's offline directory and changes
nothing else on disk.
-/
namespace Xmppd.Offline
open CStrings FileTree LibXml Util ServerState User Roster Message Presence Frames RosterStore

/-- The directory of a user's stored messages. -/
def offlinePath (srv : Server) (username : Str) : Option Path := locate srv (offlineDir srv.cfg username)

/-! ## The names that are delivered -/

theorem exchange_perm (x : Str) (l : List Str) : ((exchange x l).1 :: (exchange x l).2).Perm (x :: l) := by
  induction l generalizing x with
  | nil => exact List.Perm.refl _
  | cons y ys ih =>
      unfold exchange
      split_ifs
      · exact (List.Perm.swap x _ _).trans ((ih y).cons x)
      · exact (List.Perm.swap y _ _).trans (((ih x).cons y).trans (List.Perm.swap x y ys))

theorem sortNames_perm (k : ℕ) (l : List Str) : (sortNames k l).Perm l := by
  induction k generalizing l with
  | zero => exact List.Perm.refl _
  | succ k ih =>
      cases l with
      | nil => exact List.Perm.refl _
      | cons x xs => exact ((ih _).cons _).trans (exchange_perm x xs)

theorem mem_sortNames {k : ℕ} {n : Str} {l : List Str} : n ∈ sortNames k l ↔ n ∈ l := (sortNames_perm k l).mem_iff

theorem listDir_names {srv : Server} {dir n : Str} (h : n ∈ listDir srv dir) :
    '/' ∉ n ∧ n.head? ≠ some '.' := by
  unfold listDir at h
  split at h
  · split at h
    · obtain ⟨hr, hd⟩ := List.mem_filter.mp h
      have hs := (List.mem_filter.mp hr).2
      exact ⟨by simpa using hs, by simpa using hd⟩
    · cases h
  · cases h

/-- Every name that is delivered is a plain one, and short. -/
theorem offlineNames_plain {srv : Server} {dir n : Str} (h : n ∈ offlineNames srv dir) :
    Tree.Plain n ∧ n.length ≤ 63 := by
  obtain ⟨m, hm, rfl⟩ := List.mem_map.mp h
  obtain ⟨hl, hf⟩ := List.mem_filter.mp (List.mem_of_mem_take hm)
  have hlen : 5 ≤ m.length := (of_decide_eq_true hf).1
  obtain ⟨hslash, hdot⟩ := listDir_names hl
  rw [snprintf_str]
  have hhead : (m.take 63).head? = m.head? := by
    cases m with
    | nil => rfl
    | cons c cs => rfl
  refine ⟨⟨?_, ?_, ?_, ?_⟩, List.length_take_le 63 m⟩
  · intro he
    have := congrArg List.length he
    simp only [List.length_take, List.length_nil] at this
    omega
  · intro he
    rw [he] at hhead
    exact hdot hhead.symm
  · intro he
    rw [he] at hhead
    exact hdot hhead.symm
  · exact fun hc => hslash (List.mem_of_mem_take hc)

/-! ## Delivery -/

theorem userPath_ne_nil (cfg : Config) (username file : Str) : userPath cfg username file ≠ [] := by
  unfold userPath
  rw [snprintf_str]
  cases cfg.datadir.str <;> simp

theorem userPath_length (cfg : Config) (username file : Str) :
    (userPath cfg username file).length ≤ 1279 := by
  unfold userPath
  rw [snprintf_str]
  exact List.length_take_le _ _

/-- A short plain name below a user's directory is resolved in it. -/
theorem locate_fileIn {srv : Server} {username file n : Str} (hn : Tree.Plain n) (hl : n.length ≤ 255)
    {q : Path} (h : locate srv (fileIn (userPath srv.cfg username file) n) = some q) :
    ∃ d, locate srv (userPath srv.cfg username file) = some d ∧ q = d ++ [n] := by
  have hlen := userPath_length srv.cfg username file
  have hf : fileIn (userPath srv.cfg username file) n = userPath srv.cfg username file ++ '/' :: n := by
    apply snprintf_fits
    simp only [List.length_append, List.length_cons]
    omega
  rw [hf] at h
  obtain ⟨d, hd, -, hq⟩ := Tree.resolve_plain (userPath_ne_nil _ _ _) hn h
  exact ⟨d, hd, hq⟩

theorem samePlaces_unlink (srv : Server) (path : Str) : SamePlaces srv (unlink srv path) := by
  unfold unlink
  split
  · exact ⟨rfl, Tree.isDir_unlink srv.files _⟩
  · exact .refl srv

theorem content_deliverOne (i : ℕ) (dir : Str) (srv : Server) (name : Str) (q : Path) :
    (deliverOne i dir srv name).files.content q =
      if locate srv (fileIn dir name) = some q then none else srv.files.content q := by
  have hunlink : ∀ a : Server, Silent srv a → (unlink a (fileIn dir name)).files.content q =
      if locate srv (fileIn dir name) = some q then none else srv.files.content q := by
    intro a ha
    have hlocate : locate a (fileIn dir name) = locate srv (fileIn dir name) := (SamePlaces.of_silent ha).locate _
    unfold unlink
    rw [hlocate]
    cases locate srv (fileIn dir name) with
    | none => simp [ha.files]
    | some p =>
        change (a.files.unlink p).content q = _
        rw [Tree.content_unlink, ha.files]
        simp only [Option.some.injEq, eq_comm]
  unfold deliverOne
  dsimp only
  split
  · exact hunlink _ (.stanzaSend srv i _)
  · exact hunlink _ (.refl srv)

theorem samePlaces_deliverOne (i : ℕ) (dir : Str) (srv : Server) (name : Str) :
    SamePlaces srv (deliverOne i dir srv name) := by
  unfold deliverOne
  dsimp only
  split
  · exact (SamePlaces.of_silent (.stanzaSend srv i _)).trans (samePlaces_unlink _ _)
  · exact samePlaces_unlink _ _

theorem samePlaces_messageDeliverOffline (srv : Server) (i : ℕ) :
    SamePlaces srv (messageDeliverOffline srv i) := by
  have key : ∀ (dir : Str) (names : List Str) (srv : Server),
      SamePlaces srv (names.foldl (deliverOne i dir) srv) := by
    intro dir names
    induction names with
    | nil => exact SamePlaces.refl
    | cons n ns ih => exact fun srv => (samePlaces_deliverOne i dir srv n).trans (ih _)
  exact key _ _ srv

/-- Directories and the file at `p` are as before. -/
structure Spares (p : Path) (srv srv' : Server) : Prop where
  places : SamePlaces srv srv'
  content : srv'.files.content p = srv.files.content p

theorem Spares.trans {p : Path} {a b c : Server} (hab : Spares p a b) (hbc : Spares p b c) : Spares p a c :=
  ⟨hab.places.trans hbc.places, hbc.content.trans hab.content⟩

theorem Spares.of_silent {p : Path} {a b : Server} (h : Silent a b) : Spares p a b :=
  ⟨.of_silent h, by rw [h.files]⟩

theorem spares_unlink {p : Path} {srv : Server} {path : Str} (h : ∀ q, locate srv path = some q → q ≠ p) :
    Spares p srv (unlink srv path) := by
  unfold unlink
  cases hq : locate srv path with
  | none => exact .of_silent (.refl srv)
  | some q => exact ⟨⟨rfl, Tree.isDir_unlink srv.files q⟩, Tree.content_unlink_of_ne srv.files (h q hq).symm⟩

theorem spares_deliverOne {p : Path} {srv : Server} {i : ℕ} {username name : Str}
    (hn : Tree.Plain name ∧ name.length ≤ 63)
    (hd : ∀ d, offlinePath srv username = some d → p.dropLast ≠ d) :
    Spares p srv (deliverOne i (offlineDir srv.cfg username) srv name) := by
  have hq : ∀ q, locate srv (fileIn (offlineDir srv.cfg username) name) = some q → q ≠ p := by
    intro q hq hqp
    obtain ⟨d, hld, hqd⟩ := locate_fileIn hn.1 (by omega) hq
    refine hd d hld ?_
    rw [← hqp, hqd, List.dropLast_concat]
  unfold deliverOne
  dsimp only
  split
  · exact (Spares.of_silent (.stanzaSend srv i _)).trans (spares_unlink hq)
  · exact spares_unlink hq

/-- Delivery leaves a file outside the offline directory as it is. -/
theorem spares_messageDeliverOffline {p : Path} {srv : Server} {i : ℕ}
    (h : ∀ d, offlinePath srv (srv.sess i).jidLocal.str = some d → p.dropLast ≠ d) :
    Spares p srv (messageDeliverOffline srv i) := by
  have key : ∀ names : List Str, (∀ n ∈ names, Tree.Plain n ∧ n.length ≤ 63) → ∀ srv' : Server,
      SamePlaces srv srv' → Spares p srv'
        (names.foldl (deliverOne i (offlineDir srv.cfg (srv.sess i).jidLocal.str)) srv') := by
    intro names
    induction names with
    | nil => exact fun _ srv' _ => .of_silent (.refl srv')
    | cons n ns ih =>
        intro hn srv' hs
        have hd : ∀ d, offlinePath srv' (srv.sess i).jidLocal.str = some d → p.dropLast ≠ d := by
          intro d hd
          refine h d ?_
          rw [← hd]
          unfold offlinePath
          rw [hs.locate, hs.cfg]
        have h₁ := spares_deliverOne (i := i) (hn n (by simp)) hd
        rw [hs.cfg] at h₁
        exact h₁.trans (ih (fun m hm => hn m (by simp [hm])) _ (hs.trans h₁.places))
  refine key _ ?_ srv (.refl srv)
  exact fun n hn => offlineNames_plain (mem_sortNames.mp hn)

end Xmppd.Offline
