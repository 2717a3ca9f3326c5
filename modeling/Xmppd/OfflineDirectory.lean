import Xmppd.Confinement
import Xmppd.PaddedNumbers

/-!
# The directory of the offline messages

What storing a message does to the file tree where it can be stored: the
directory is there afterwards, and it has one file more under the next number, or
under the name the number has when it wraps around.
-/
namespace Xmppd.OfflineDirectory
open CStrings FileTree LibXml Util ServerState User Message Offline Confinement PaddedNumbers

/-! ## Names in a directory -/

section
variable {κ : Type} (t : FileTree.Tree κ) {q : Path} {n : Name}

theorem mem_readdir (hn : '/' ∉ n) : n ∈ t.readdir q ↔ (t.lookup (q ++ [n])).isSome = true := by
  unfold Tree.readdir Tree.lookup
  rw [List.mem_filter, List.mem_filterMap, Option.isSome_map, List.find?_isSome]
  constructor
  · intro h
    obtain ⟨⟨e, he, hname⟩, _⟩ := h
    split at hname
    · next hin =>
      refine ⟨e, he, ?_⟩
      rw [← hin.2, List.dropLast_append_getLast? _ hname]
      exact decide_eq_true rfl
    · cases hname
  · intro h
    obtain ⟨e, he, hpath⟩ := h
    have hpath := of_decide_eq_true hpath
    refine ⟨⟨e, he, ?_⟩, by simpa using hn⟩
    rw [hpath, if_pos ⟨by simp, List.dropLast_concat⟩, List.getLast?_concat]

/-- What is not listed is not there. -/
theorem lookup_unlisted (hn : '/' ∉ n) (h : n ∉ t.readdir q) : t.lookup (q ++ [n]) = none := by
  rwa [mem_readdir t hn, Bool.not_eq_true, Option.isSome_eq_false_iff, Option.isNone_iff_eq_none] at h

theorem isDir_unlisted (hn : '/' ∉ n) (h : n ∉ t.readdir q) : t.isDir (q ++ [n]) = false := by
  have hnone := lookup_unlisted t hn h
  cases hp : q ++ [n] with
  | nil => exact absurd hp (by simp)
  | cons m ms =>
      rw [hp] at hnone
      simp [Tree.isDir, hnone]

/-- A new entry is listed first, and what it replaces is not listed again. -/
theorem readdir_put (hn : '/' ∉ n) (e : Entry κ) :
    (t.put (q ++ [n]) e).readdir q = n :: (t.readdir q).filter fun m => m ≠ n := by
  unfold Tree.readdir Tree.put
  dsimp only
  rw [List.filterMap_cons_some (by rw [if_pos ⟨by simp, List.dropLast_concat⟩, List.getLast?_concat]),
    List.filter_cons_of_pos (by simpa using hn), List.filter_comm]
  congr 2
  rw [List.filterMap_filter, List.filter_filterMap]
  congr 1
  funext x
  rcases List.eq_nil_or_concat x.1 with hx | ⟨l, c, hx⟩
  · simp [hx]
  · rw [List.concat_eq_append] at hx
    rw [hx, List.dropLast_concat, List.getLast?_concat]
    by_cases hl : l = q
    · by_cases hc : c = n
      · simp [hl, hc, Option.filter]
      · simp [hl, hc, Option.filter]
    · simp [hl, List.append_singleton_inj]

end

/-! ## Numbers -/

theorem pad4_padded (n : ℕ) : pad4 n = padded 4 n := rfl

theorem atoi_lt (s : Str) : atoi s < 2 ^ 31 := by
  have hint : ∀ n, toInt n < 2 ^ 31 := by
    intro n
    unfold toInt
    split
    · next h => exact h
    · decide
  unfold atoi
  dsimp only
  split
  · exact hint _
  · exact hint _
  · exact hint _

/-- The number is read back from the name of a file. -/
theorem atoi_pad4 {n : ℕ} (hn : n < 2 ^ 31) : atoi (pad4 n ++ (".xml" : Str)) = n := by
  obtain ⟨c, cs, hcons⟩ := List.exists_cons_of_ne_nil (show pad4 n ++ (".xml" : Str) ≠ [] by simp)
  have hdigit : c.isDigit = true := head_padded hcons
  have hspace : isSpace c = false := by
    apply Bool.eq_false_iff.mpr
    intro h
    simp only [isSpace, Bool.decide_or, Bool.or_eq_true, decide_eq_true_eq] at h
    rcases h with rfl | rfl | rfl | rfl | rfl | rfl
    all_goals revert hdigit; decide
  have hdrop : (c :: cs).dropWhile isSpace = c :: cs := List.dropWhile_cons_of_neg (by simp [hspace])
  have htake : (c :: cs).takeWhile Char.isDigit = pad4 n := by
    rw [← hcons]
    apply takeWhile_padded 4 n
    intro d hd
    rw [← Option.some.inj hd]
    rfl
  have hint : toInt (min n (2 ^ 63 - 1)) = n := by
    have hle : n ≤ 2 ^ 63 - 1 := by omega
    have hcut : n < 2 ^ 32 := by omega
    rw [Nat.min_eq_left hle, toInt, Nat.mod_eq_of_lt hcut, if_pos hn]
  rw [hcons, atoi, hdrop]
  split
  · next h =>
    rw [(List.cons.inj h).1] at hdigit
    exact absurd hdigit (by decide)
  · next h =>
    rw [(List.cons.inj h).1] at hdigit
    exact absurd hdigit (by decide)
  · dsimp only
    rw [htake, ← value_eq_foldl, pad4_padded, value_padded, hint]

theorem maxSeq_foldl (names : List Str) (m : ℕ) :
    m ≤ names.foldl (fun m n => max m (atoi n)) m ∧ ∀ n ∈ names, atoi n ≤ names.foldl (fun m n => max m (atoi n)) m := by
  induction names generalizing m with
  | nil => simp
  | cons name names ih =>
      obtain ⟨hm, hall⟩ := ih (max m (atoi name))
      rw [List.foldl_cons]
      refine ⟨(le_max_left _ _).trans hm, ?_⟩
      intro n hn
      rcases List.mem_cons.mp hn with rfl | hn
      · exact (le_max_right _ _).trans hm
      · exact hall n hn

theorem atoi_le_maxSeq {names : List Str} {n : Str} (h : n ∈ names) : atoi n ≤ maxSeq names := (maxSeq_foldl names 0).2 n h

theorem maxSeq_le {names : List Str} {m : ℕ} (h : ∀ n ∈ names, atoi n ≤ m) : maxSeq names ≤ m := by
  have hfold : ∀ (names : List Str) (k : ℕ), k ≤ m → (∀ n ∈ names, atoi n ≤ m) →
      names.foldl (fun m n => max m (atoi n)) k ≤ m := by
    intro names
    induction names with
    | nil => exact fun k hk _ => hk
    | cons name names ih =>
        intro k hk hall
        apply ih
        · exact max_le hk (hall name List.mem_cons_self)
        · exact fun n hn => hall n (List.mem_cons_of_mem name hn)
  exact hfold names 0 (Nat.zero_le _) h

/-- The largest number is that of a name, unless it is zero. -/
theorem maxSeq_attained {names : List Str} (h : maxSeq names ≠ 0) : ∃ n ∈ names, atoi n = maxSeq names := by
  by_contra hno
  have hle : maxSeq names ≤ maxSeq names - 1 := by
    apply maxSeq_le
    intro n hn
    have hne : atoi n ≠ maxSeq names := fun he => hno ⟨n, hn, he⟩
    have := atoi_le_maxSeq hn
    omega
  omega

/-- The name of the next file is taken only where the number wraps around. -/
theorem nextSeq_taken {names : List Str} (h : nextSeq names ++ (".xml" : Str) ∈ names) :
    (∃ n ∈ names, atoi n = 2 ^ 31 - 1) ∧ ("-2147483648.xml" : Str) ∈ names := by
  have hmax : maxSeq names ≤ 2 ^ 31 - 1 := maxSeq_le fun n _ => Nat.le_pred_of_lt (atoi_lt n)
  unfold nextSeq at h
  split at h
  · next hlt =>
    have hle := atoi_le_maxSeq h
    rw [atoi_pad4 hlt] at hle
    omega
  · next hge =>
    have heq : maxSeq names = 2 ^ 31 - 1 := by omega
    refine ⟨?_, h⟩
    rw [← heq]
    exact maxSeq_attained (by omega)

/-- Where the largest number there can be is taken, the next one wraps around. -/
theorem nextSeq_wrapped {names : List Str} (h : ∃ n ∈ names, atoi n = 2 ^ 31 - 1) : nextSeq names = "-2147483648" := by
  obtain ⟨n, hn, hmax⟩ := h
  have hle := atoi_le_maxSeq hn
  rw [nextSeq, if_neg (by omega)]

/-! ## Storing -/

/-- The tree with the directory in it. -/
def opened (t : FileTree.Tree Content) (q : Path) : FileTree.Tree Content := if t.isDir q then t else t.put q .dir

section
variable {srv : Server} {name : Str} {q : Path}

/-- A name of an offline message is short enough for the path buffer. -/
theorem letterName_eq (srv : Server) (name : Str) (q : Path) :
    letterName srv name q = nextSeq (visible srv q) ++ (".xml" : Str) := by
  have hlen : (offlineDir srv.cfg name).length ≤ 1279 := userPath_length srv.cfg name "offline"
  have hseq : (nextSeq (visible srv q)).length ≤ 11 := by
    unfold nextSeq
    split
    · next h =>
      rw [pad4_padded, padded, List.length_append, List.length_replicate]
      have hten : (Nat.toDigits 10 (maxSeq (visible srv q) + 1)).length ≤ 10 :=
        (Nat.length_toDigits_le_iff (by decide) (by decide)).mpr (by omega)
      omega
    · decide
  apply List.take_of_length_le
  rw [List.length_append]
  change _ + 4 ≤ _
  omega

theorem letterName_head (srv : Server) (name : Str) (q : Path) : (letterName srv name q).head? ≠ some '.' := by
  obtain ⟨c, cs, hcons⟩ := List.exists_cons_of_ne_nil (nextSeq_ne_nil (visible srv q))
  rw [letterName_eq, hcons, List.cons_append, List.head?_cons]
  intro h
  have hc : c ∈ nextSeq (visible srv q) := by
    rw [hcons]
    exact List.mem_cons_self
  rw [Option.some.inj h] at hc
  exact absurd (nextSeq_chars hc) (by decide)

/-- The next name is listed exactly if there is such a file or directory. -/
theorem mem_visible_letterName :
    letterName srv name q ∈ visible srv q ↔ (srv.files.lookup (q ++ [letterName srv name q])).isSome = true := by
  rw [← mem_readdir srv.files (letterName_plain srv name q).2.2.2, visible, List.mem_filter]
  exact and_iff_left (decide_eq_true (letterName_head srv name q))

theorem isDir_opened (p : Path) : (opened srv.files q).isDir p = true ↔ srv.files.isDir p = true ∨ p = q := by
  unfold opened
  split
  · next hd =>
    constructor
    · exact Or.inl
    · intro h
      rcases h with h | rfl
      · exact h
      · exact hd
  · next hd => exact Tree.isDir_put_dir srv.files (Bool.eq_false_iff.mpr hd) p

theorem lookup_opened {p : Path} (hp : p ≠ q) : (opened srv.files q).lookup p = srv.files.lookup p := by
  unfold opened
  split
  · rfl
  · exact Tree.lookup_put_of_ne _ _ hp

theorem written_opened : (opened srv.files q).written = srv.files.written := by
  unfold opened
  split
  · rfl
  · rfl

theorem locate_opened (h : offlinePath srv name = some q) :
    locate { srv with files := opened srv.files q } (offlineDir srv.cfg name) = some q :=
  Tree.namei_mono (fun p hp => (isDir_opened p).mpr (Or.inl hp)) h

theorem visible_opened : visible { srv with files := opened srv.files q } q = visible srv q := by
  unfold visible opened
  dsimp only
  split
  · rfl
  · next hd =>
    have hne : q ≠ [] := by
      rintro rfl
      exact hd (Tree.isDir_root _)
    rw [readdir_put_dir srv.files hne]

theorem mkdir_opened (h : KeepsAt srv name q) :
    (mkdir srv (offlineDir srv.cfg name)).getD srv = { srv with files := opened srv.files q } := by
  obtain ⟨hq, hplace, -⟩ := h
  rw [mkdir_offlineDir hq]
  unfold opened
  by_cases hd : srv.files.isDir q = true
  · rw [if_neg (by rw [present_of_isDir hd]; simp), if_pos hd]
    rfl
  · rw [if_pos (hplace.resolve_left hd), if_neg hd]
    rfl

/-- Where a message can be stored, the directory is there afterwards, with the
message under the next name. -/
theorem messageStoreOffline_kept (h : KeepsAt srv name q) (o : Oracle) (stanza : Node) :
    messageStoreOffline srv o name stanza =
      { srv with
        files :=
          { (opened srv.files q).put (q ++ [letterName srv name q]) (.file (.xml (stanza.addChild (delayNode srv.cfg o)))) with
            written := srv.files.written ++ [q ++ [letterName srv name q]] } } := by
  have hplain := letterName_plain srv name q
  have hdir : offlineDir srv.cfg name ≠ [] := userPath_ne_nil srv.cfg name "offline"
  have hd : (opened srv.files q).isDir q = true := (isDir_opened q).mpr (Or.inr rfl)
  have hpath : fileIn (offlineDir srv.cfg name)
      (nextSeq (listDir { srv with files := opened srv.files q } (offlineDir srv.cfg name)) ++ (".xml" : Str)) =
      offlineDir srv.cfg name ++ '/' :: letterName srv name q := by
    rw [fileIn_offlineDir, listDir_visible (locate_opened h.1) hd, visible_opened]
    rfl
  have hfile : locate { srv with files := opened srv.files q } (offlineDir srv.cfg name ++ '/' :: letterName srv name q) =
      some (q ++ [letterName srv name q]) := by
    rw [locate, Tree.resolve_append _ _ hdir]
    change (locate { srv with files := opened srv.files q } (offlineDir srv.cfg name)).bind _ = _
    rw [locate_opened h.1, Option.bind_some, List.splitOn_eq_singleton hplain.2.2.2, Tree.namei_plain _ hplain _ _ hd]
    rfl
  have hfree : (opened srv.files q).isDir (q ++ [letterName srv name q]) = false := by
    rw [Bool.eq_false_iff]
    intro hno
    rcases (isDir_opened _).mp hno with hno | hno
    · rw [h.2.2] at hno
      cases hno
    · exact absurd hno (by simp)
  unfold messageStoreOffline
  dsimp only
  rw [mkdir_opened h, hpath, writeFile, hfile, Option.bind_some, Tree.write, Tree.writable, List.dropLast_concat, hd, hfree,
    written_opened]
  rfl

section
variable (h : KeepsAt srv name q) (o : Oracle) (stanza : Node)
include h

theorem content_stored (p : Path) :
    (messageStoreOffline srv o name stanza).files.content p =
      if p = q ++ [letterName srv name q] then some (.xml (stanza.addChild (delayNode srv.cfg o)))
      else srv.files.content p := by
  rw [messageStoreOffline_kept h]
  change ((opened srv.files q).put _ _).content p = _
  split
  · next hp =>
    rw [hp]
    exact Tree.content_put_self _ _ _
  · next hp =>
    rw [Tree.content_put_of_ne _ _ hp]
    by_cases hq : p = q
    · rw [hq]
      unfold opened
      split
      · rfl
      · next hd =>
        have hgone := (h.2.1.resolve_left hd).2
        have hnone : srv.files.lookup q = none := by
          unfold Tree.present at hgone
          rw [Bool.or_eq_false_iff, Option.isSome_eq_false_iff, Option.isNone_iff_eq_none] at hgone
          exact hgone.2
        rw [Tree.content, Tree.content, Tree.lookup_put_self, hnone]
    · rw [Tree.content, Tree.content, lookup_opened hq]

theorem isDir_stored (p : Path) :
    (messageStoreOffline srv o name stanza).files.isDir p = true ↔ srv.files.isDir p = true ∨ p = q := by
  rw [messageStoreOffline_kept h, ← isDir_opened]
  apply Bool.eq_iff_iff.mp
  apply Tree.isDir_put_file
  rw [Bool.eq_false_iff]
  intro hno
  rcases (isDir_opened _).mp hno with hno | hno
  · rw [h.2.2] at hno
    cases hno
  · exact absurd hno (by simp)

theorem readdir_stored :
    (messageStoreOffline srv o name stanza).files.readdir q =
      letterName srv name q :: (srv.files.readdir q).filter fun m => m ≠ letterName srv name q := by
  have hsame : (opened srv.files q).readdir q = srv.files.readdir q := by
    unfold opened
    split
    · rfl
    · next hd =>
      have hne : q ≠ [] := by
        rintro rfl
        exact hd (Tree.isDir_root _)
      exact readdir_put_dir srv.files hne
  rw [messageStoreOffline_kept h, ← hsame]
  exact readdir_put _ (letterName_plain srv name q).2.2.2 _

end

end

end Xmppd.OfflineDirectory
