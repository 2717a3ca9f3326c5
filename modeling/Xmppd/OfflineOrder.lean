import Mathlib.Data.List.Perm.Subperm
import Xmppd.OfflineDirectory
import Xmppd.PendingRequests
import Xmppd.Unreadable

/-!
# Offline messages in their order

Messages are stored one after another for a user whose directory is empty, and the
directory is listed in any order. The next initial presence collects at most 256
names, sorts them, and sends and removes the files. So all the messages arrive, in
their order, exactly if there are no more than 256 of them.
-/
namespace Xmppd.OfflineOrder
open CStrings FileTree LibXml Util ServerState User Roster Message Presence Stanza Frames RosterStore Offline
open Confinement PendingRequests Unreadable OfflineDirectory PaddedNumbers Installation EventLoop

/-- The name of the message with this number. -/
def fileName (k : ℕ) : Name := pad4 k ++ (".xml" : Str)

/-- Whatever has happened, the user's directory is where it was and has the files it
had, which may be listed in another order. -/
structure Apart (username : Str) (q : Path) (a b : Server) : Prop where
  cfg : b.cfg = a.cfg
  place : offlinePath b username = offlinePath a username
  dir : b.files.isDir q = a.files.isDir q
  lookup : ∀ n, b.files.lookup (q ++ [n]) = a.files.lookup (q ++ [n])
  listing : (b.files.readdir q).Perm (a.files.readdir q)

/-- These messages were stored for the user, one after another, and other things
may have happened in between. -/
inductive Filled (username : Str) (q : Path) (srv : Server) : List (Oracle × Node) → Server → Prop
  | start : Filled username q srv [] srv
  | apart {l : List (Oracle × Node)} {a b : Server} : Filled username q srv l a → Apart username q a b → Filled username q srv l b
  | store {l : List (Oracle × Node)} {a : Server} (o : Oracle) (stanza : Node) : Filled username q srv l a →
      Filled username q srv (l ++ [(o, stanza)]) (messageStoreOffline a o username stanza)

/-- The messages as they are stored. -/
def messages (cfg : Config) (l : List (Oracle × Node)) : List Node := l.map fun m => m.2.addChild (delayNode cfg m.1)

/-- The messages are sent to session `i`, once each and in this order, behind
presence and before subscription requests, and none of them is left. -/
def Delivered (q : Path) (i : ℕ) (pres : Node) (ms : List Node) (a b : Server) : Prop :=
  (∃ before after : List Node, (b.sess i).out = (a.sess i).out ++ (before ++ ms ++ after).map Out.stanza ∧
    (∀ n ∈ before, n = pres ∨ ∃ t, (a.sess t).presenceStanza = some n) ∧
    ∀ n ∈ after, ∃ src dest, n = subNode "subscribe" src dest) ∧
  ∀ n ∈ b.files.readdir q, b.files.content (q ++ [n]) = none

/-! ## The sort -/

theorem exchange_le (x : Str) (l : List Str) : (exchange x l).1 ≤ x := by
  induction l generalizing x with
  | nil => exact le_refl x
  | cons y ys ih =>
      unfold exchange
      split
      · next hlt => exact (ih y).trans (le_of_lt hlt)
      · exact ih x

/-- The smallest name comes first. -/
theorem exchange_min (x : Str) (l : List Str) : ∀ y ∈ (exchange x l).2, (exchange x l).1 ≤ y := by
  induction l generalizing x with
  | nil => exact fun y hy => absurd hy List.not_mem_nil
  | cons z zs ih =>
      unfold exchange
      intro y hy
      split at hy
      · next hlt =>
        rw [if_pos hlt]
        rcases List.mem_cons.mp hy with rfl | hy
        · exact (exchange_le z zs).trans (le_of_lt hlt)
        · exact ih z y hy
      · next hge =>
        rw [if_neg hge]
        rcases List.mem_cons.mp hy with rfl | hy
        · exact (exchange_le x zs).trans (not_lt.mp hge)
        · exact ih x y hy

theorem sortNames_pairwise {k : ℕ} {l : List Str} (h : l.length ≤ k) : (sortNames k l).Pairwise (· ≤ ·) := by
  induction k generalizing l with
  | zero =>
      rw [List.eq_nil_of_length_eq_zero (Nat.le_zero.mp h)]
      exact .nil
  | succ k ih =>
      cases l with
      | nil => exact .nil
      | cons x xs =>
          have hlen := (exchange_perm x xs).length_eq
          rw [List.length_cons, List.length_cons] at hlen
          rw [List.length_cons] at h
          refine .cons ?_ (ih (by omega))
          intro y hy
          exact exchange_min x xs y (mem_sortNames.mp hy)

/-! ## The directory -/

/-- What the directory holds after some messages were stored: files and nothing
else, with none lost, and as long as the numbers last one for each message. -/
structure Holds (q : Path) (ms : List Node) (a : Server) : Prop where
  dir : a.files.isDir q = true
  files : ∀ n ∈ a.files.readdir q, (a.files.content (q ++ [n])).isSome = true
  nodup : (a.files.readdir q).Nodup
  count : min ms.length 257 ≤ (a.files.readdir q).length
  names : ms.length < 2 ^ 31 → (a.files.readdir q).Perm ((List.range' 1 ms.length).map fileName)
  contents : ms.length < 2 ^ 31 → ∀ k m, ms[k]? = some m → a.files.content (q ++ [fileName (k + 1)]) = some (.xml m)

theorem fileName_cons (k : ℕ) : ∃ c cs, fileName k = c :: cs ∧ c.isDigit = true := by
  obtain ⟨c, cs, hcons⟩ := List.exists_cons_of_ne_nil (show fileName k ≠ [] by simp [fileName])
  exact ⟨c, cs, hcons, head_padded hcons⟩

theorem fileName_head (k : ℕ) : (fileName k).head? ≠ some '.' := by
  obtain ⟨c, cs, hcons, hdigit⟩ := fileName_cons k
  rw [hcons]
  intro h
  rw [Option.some.inj h] at hdigit
  exact absurd hdigit (by decide)

theorem fileName_slash (k : ℕ) : '/' ∉ fileName k := by
  intro h
  rcases List.mem_append.mp h with hdigit | hxml
  · exact absurd (pad4_digits hdigit) (by decide)
  · exact absurd hxml (by decide)

theorem fileName_plain (k : ℕ) : Tree.Plain (fileName k) := by
  obtain ⟨c, cs, hcons, _⟩ := fileName_cons k
  have hhead := fileName_head k
  refine ⟨by simp [fileName], ?_, ?_, fileName_slash k⟩
  · intro h
    rw [h] at hhead
    exact hhead rfl
  · intro h
    rw [h] at hhead
    exact hhead rfl

theorem fileName_inj {m n : ℕ} : fileName m = fileName n ↔ m = n := by
  unfold fileName
  rw [List.append_cancel_right_eq, pad4_padded, pad4_padded, padded_inj]

section
variable {q : Path} {ms : List Node} {a b : Server}

theorem Holds.apart (h : Holds q ms a) {username : Str} (hab : Apart username q a b) : Holds q ms b := by
  have hcontent : ∀ n, b.files.content (q ++ [n]) = a.files.content (q ++ [n]) := by
    intro n
    rw [Tree.content, Tree.content, hab.lookup]
  refine ⟨?_, ?_, hab.listing.nodup_iff.mpr h.nodup, ?_, ?_, ?_⟩
  · rw [hab.dir]
    exact h.dir
  · intro n hn
    rw [hcontent]
    exact h.files n (hab.listing.mem_iff.mp hn)
  · rw [hab.listing.length_eq]
    exact h.count
  · exact fun hlen => hab.listing.trans (h.names hlen)
  · intro hlen k m hm
    rw [hcontent]
    exact h.contents hlen k m hm

theorem isDir_file {t : FileTree.Tree Content} {p : Path} (hp : p ≠ []) (h : (t.content p).isSome = true) :
    t.isDir p = false := by
  obtain ⟨n, ns, rfl⟩ := List.exists_cons_of_ne_nil hp
  unfold Tree.content at h
  cases hl : t.lookup (n :: ns) with
  | none => simp [Tree.isDir, hl]
  | some e =>
      cases e with
      | dir =>
          rw [hl] at h
          cases h
      | file c => simp [Tree.isDir, hl]

theorem Holds.keepsAt (h : Holds q ms a) {username : Str} (hq : offlinePath a username = some q) : KeepsAt a username q := by
  refine ⟨hq, Or.inl h.dir, ?_⟩
  by_cases hm : letterName a username q ∈ a.files.readdir q
  · exact isDir_file (by simp) (h.files _ hm)
  · exact isDir_unlisted _ (letterName_plain a username q).2.2.2 hm

/-- The next name is that of the next number. -/
theorem Holds.letterName (h : Holds q ms a) (username : Str) (hlen : ms.length + 1 < 2 ^ 31) :
    letterName a username q = fileName (ms.length + 1) := by
  have hnames := h.names (by omega)
  have hvisible : visible a q = a.files.readdir q := by
    apply List.filter_eq_self.mpr
    intro n hn
    obtain ⟨k, _, rfl⟩ := List.mem_map.mp (hnames.mem_iff.mp hn)
    exact decide_eq_true (fileName_head k)
  have hmax : maxSeq (visible a q) = ms.length := by
    rw [hvisible]
    apply Nat.le_antisymm
    · apply maxSeq_le
      intro n hn
      obtain ⟨k, hk, rfl⟩ := List.mem_map.mp (hnames.mem_iff.mp hn)
      rw [List.mem_range'_1] at hk
      rw [fileName, atoi_pad4 (by omega)]
      omega
    · cases hms : ms.length with
      | zero => exact Nat.zero_le _
      | succ k =>
          have hlast : fileName (k + 1) ∈ a.files.readdir q := by
            rw [hnames.mem_iff]
            apply List.mem_map_of_mem
            rw [List.mem_range'_1]
            omega
          have hle := atoi_le_maxSeq hlast
          rwa [fileName, atoi_pad4 (by omega)] at hle
  rw [letterName_eq, nextSeq, hmax, if_pos hlen]
  rfl

/-- A file that replaces another one leaves as many as there were. -/
theorem length_put {l : List Name} (hl : l.Nodup) (n : Name) : l.length ≤ (n :: l.filter fun m => m ≠ n).length := by
  have herase : l.erase n = l.filter fun m => m ≠ n := by
    rw [hl.erase_eq_filter]
    congr 1
    funext m
    by_cases hm : m = n
    · simp [hm]
    · simp [hm]
  rw [← herase, List.length_cons, List.length_erase]
  split
  · omega
  · omega

/-- As long as the numbers last, the new file is listed with the others. -/
theorem Holds.readdir (h : Holds q ms a) {username : Str} (hq : offlinePath a username = some q) (o : Oracle) (stanza : Node)
    (hlen : ms.length + 1 < 2 ^ 31) :
    (messageStoreOffline a o username stanza).files.readdir q = fileName (ms.length + 1) :: a.files.readdir q := by
  have hfresh : ∀ n ∈ a.files.readdir q, n ≠ fileName (ms.length + 1) := by
    intro n hn he
    rw [he, (h.names (by omega)).mem_iff, List.mem_map] at hn
    obtain ⟨k, hk, hname⟩ := hn
    rw [List.mem_range'_1] at hk
    rw [fileName_inj] at hname
    omega
  rw [readdir_stored (h.keepsAt hq), h.letterName username hlen]
  congr 1
  apply List.filter_eq_self.mpr
  exact fun n hn => decide_eq_true (hfresh n hn)

/-- One more message is stored. -/
theorem Holds.store (h : Holds q ms a) {username : Str} (hq : offlinePath a username = some q) (o : Oracle) (stanza : Node) :
    Holds q (ms ++ [stanza.addChild (delayNode a.cfg o)]) (messageStoreOffline a o username stanza) := by
  have hkeep := h.keepsAt hq
  have hcontent := content_stored hkeep o stanza
  have hreaddir := readdir_stored hkeep o stanza
  have hlength : (ms ++ [stanza.addChild (delayNode a.cfg o)]).length = ms.length + 1 := by
    rw [List.length_append, List.length_singleton]
  refine ⟨?_, ?_, ?_, ?_, ?_, ?_⟩
  · exact (isDir_stored hkeep o stanza q).mpr (Or.inl h.dir)
  · intro n hn
    rw [hcontent]
    split
    · rfl
    · next hne =>
      rw [hreaddir] at hn
      rcases List.mem_cons.mp hn with rfl | hn
      · exact absurd rfl hne
      · exact h.files n (List.mem_filter.mp hn).1
  · rw [hreaddir]
    exact List.nodup_cons.mpr ⟨by simp, h.nodup.filter _⟩
  · rw [hlength]
    have hcount := h.count
    by_cases hsmall : ms.length ≤ 256
    · rw [h.readdir hq o stanza (by omega), List.length_cons]
      omega
    · have hle := length_put h.nodup (Confinement.letterName a username q)
      rw [hreaddir]
      omega
  · rw [hlength]
    intro hlen
    rw [h.readdir hq o stanza hlen, List.range'_concat, List.map_append, Nat.one_mul, Nat.add_comm 1]
    exact ((h.names (by omega)).cons _).trans (List.perm_append_singleton _ _).symm
  · rw [hlength]
    intro hlen k m hm
    rw [hcontent, h.letterName username hlen]
    by_cases hlast : k = ms.length
    · rw [hlast, List.getElem?_concat_length] at hm
      rw [hlast, if_pos rfl, Option.some.inj hm]
    · have hk : k < ms.length + 1 := by
        rw [← hlength]
        exact (List.getElem?_eq_some_iff.mp hm).choose
      rw [List.getElem?_append_left (by omega)] at hm
      have hne : q ++ [fileName (k + 1)] ≠ q ++ [fileName (ms.length + 1)] := by
        intro he
        have hname := fileName_inj.mp (List.append_singleton_inj.mp he).2
        omega
      rw [if_neg hne]
      exact h.contents (by omega) k m hm

end

/-- The directory after the messages were stored, and where it is. -/
theorem Filled.holds {username : Str} {q : Path} {srv a : Server} {l : List (Oracle × Node)}
    (h : Filled username q srv l a) (hq : offlinePath srv username = some q) (hdir : srv.files.isDir q = true)
    (hempty : srv.files.readdir q = []) :
    a.cfg = srv.cfg ∧ offlinePath a username = some q ∧ Holds q (messages srv.cfg l) a := by
  induction h with
  | start =>
      refine ⟨rfl, hq, hdir, ?_, ?_, ?_, ?_, ?_⟩
      · rw [hempty]
        exact fun n hn => absurd hn List.not_mem_nil
      · rw [hempty]
        exact List.nodup_nil
      · rw [hempty]
        exact Nat.min_le_left _ _
      · intro _
        rw [hempty]
        exact List.Perm.refl _
      · exact fun _ k m hm => absurd hm (by simp [messages])
  | apart _ hab ih =>
      obtain ⟨hcfg, hplace, hholds⟩ := ih
      exact ⟨hab.cfg.trans hcfg, hab.place.trans hplace, hholds.apart hab⟩
  | @store l a o stanza _ ih =>
      obtain ⟨hcfg, hplace, hholds⟩ := ih
      have hstored := hholds.store hplace o stanza
      rw [hcfg] at hstored
      refine ⟨?_, ?_, ?_⟩
      · rw [messageStoreOffline_kept (hholds.keepsAt hplace)]
        exact hcfg
      · rw [← hplace]
        unfold offlinePath
        rw [messageStoreOffline_kept (hholds.keepsAt hplace)]
        apply Tree.resolve_congr
        intro p
        have hdirs := isDir_stored (hholds.keepsAt hplace) o stanza p
        rw [messageStoreOffline_kept (hholds.keepsAt hplace)] at hdirs
        rw [Bool.eq_iff_iff]
        refine hdirs.trans ⟨?_, Or.inl⟩
        intro h
        rcases h with h | rfl
        · exact h
        · exact hholds.dir
      · rw [messages, List.map_append]
        exact hstored

/-! ## Delivery -/

section
variable {q : Path} {ms : List Node} {b : Server} {username : Str}

theorem locate_name (hq : offlinePath b username = some q) (hdir : b.files.isDir q = true) {n : Name} (hn : Tree.Plain n)
    (hlen : n.length ≤ 255) : locate b (fileIn (offlineDir b.cfg username) n) = some (q ++ [n]) := by
  have hlong : (offlineDir b.cfg username).length ≤ 1279 := userPath_length b.cfg username "offline"
  have hne : offlineDir b.cfg username ≠ [] := userPath_ne_nil b.cfg username "offline"
  rw [fileIn_offlineDir, List.take_of_length_le (by omega), locate, Tree.resolve_append _ _ hne]
  change (offlinePath b username).bind _ = _
  rw [hq, Option.bind_some, List.splitOn_eq_singleton hn.2.2.2, Tree.namei_plain _ hn _ _ hdir]
  rfl

theorem length_fileName {k : ℕ} (h : k ≤ 9999) : (fileName k).length = 8 := by
  rw [fileName, List.length_append, pad4_padded, length_padded (by decide) (by omega)]
  rfl

/-- Up to 256 messages are all collected, and sorted as they are numbered. -/
theorem Holds.sorted (h : Holds q ms b) (hq : offlinePath b username = some q) (hlen : ms.length ≤ 256) :
    sortNames (offlineNames b (offlineDir b.cfg username)).length (offlineNames b (offlineDir b.cfg username)) =
      (List.range' 1 ms.length).map fileName := by
  have hnames := h.names (by omega)
  have hform : ∀ n ∈ b.files.readdir q, ∃ k, k ≤ 256 ∧ n = fileName k := by
    intro n hn
    obtain ⟨k, hk, rfl⟩ := List.mem_map.mp (hnames.mem_iff.mp hn)
    rw [List.mem_range'_1] at hk
    exact ⟨k, by omega, rfl⟩
  have hlist : listDir b (offlineDir b.cfg username) = b.files.readdir q := by
    rw [listDir_visible hq h.dir]
    apply List.filter_eq_self.mpr
    intro n hn
    obtain ⟨k, _, rfl⟩ := hform n hn
    exact decide_eq_true (fileName_head k)
  have hall : offlineNames b (offlineDir b.cfg username) = b.files.readdir q := by
    have hfilter : (b.files.readdir q).filter (fun n => 5 ≤ n.length ∧ n.drop (n.length - 4) = (".xml" : Str)) =
        b.files.readdir q := by
      apply List.filter_eq_self.mpr
      intro n hn
      obtain ⟨k, hk, rfl⟩ := hform n hn
      have hlong := length_fileName (k := k) (by omega)
      refine decide_eq_true ⟨by omega, ?_⟩
      rw [hlong, fileName]
      apply List.drop_left'
      rw [pad4_padded, length_padded (by decide) (by omega)]
    have htake : (b.files.readdir q).length ≤ 256 := by
      rw [hnames.length_eq, List.length_map, List.length_range']
      exact hlen
    rw [offlineNames, hlist, hfilter, List.take_of_length_le htake]
    apply Eq.trans (List.map_congr_left (g := id) _) (List.map_id _)
    intro n hn
    obtain ⟨k, hk, rfl⟩ := hform n hn
    apply snprintf_fits
    rw [length_fileName (by omega)]
    decide
  rw [hall]
  apply eq_of_perm_of_pairwise
  · exact (sortNames_perm _ _).trans hnames
  · exact sortNames_pairwise (le_refl _)
  · exact pairwise_padded (by decide) (by omega) _

/-- The loop sends the messages in the order of their numbers. -/
theorem out_deliver (i k : ℕ) (hlive : b.Live i) (hq : offlinePath b username = some q) (hdir : b.files.isDir q = true)
    (hlen : k + ms.length ≤ 9999)
    (hms : ∀ j m, ms[j]? = some m → b.files.content (q ++ [fileName (k + j)]) = some (.xml m)) :
    ((((List.range' k ms.length).map fileName).foldl (deliverOne i (offlineDir b.cfg username)) b).sess i).out =
      (b.sess i).out ++ ms.map Out.stanza := by
  induction ms generalizing k b with
  | nil => exact (List.append_nil _).symm
  | cons m ms ih =>
      rw [List.length_cons] at hlen
      have hfile : locate b (fileIn (offlineDir b.cfg username) (fileName k)) = some (q ++ [fileName k]) :=
        locate_name hq hdir (fileName_plain k) (by rw [length_fileName (by omega)]; decide)
      have hread : readFile b (fileIn (offlineDir b.cfg username) (fileName k)) = some (.xml m) := by
        rw [readFile, hfile]
        exact hms 0 m rfl
      have hplaces := samePlaces_deliverOne i (offlineDir b.cfg username) b (fileName k)
      have hout : ((deliverOne i (offlineDir b.cfg username) b (fileName k)).sess i).out =
          (b.sess i).out ++ [.stanza m] := by
        unfold deliverOne
        dsimp only
        rw [hread]
        obtain ⟨t, ht⟩ := filesOnly_unlink (b.stanzaSend i m) (fileIn (offlineDir b.cfg username) (fileName k))
        dsimp only
        rw [ht]
        change ((b.modify i _).sess i).out = _
        rw [Server.sess_modify_self hlive]
      have hplace : offlinePath (deliverOne i (offlineDir b.cfg username) b (fileName k)) username = some q := by
        rw [← hq]
        unfold offlinePath
        rw [hplaces.locate, hplaces.cfg]
      have hrest := ih (k + 1) (((holding_deliverOne i _ b _).live i).mpr hlive) hplace
        ((hplaces.dirs q).trans hdir) (by omega) ?_
      · rw [hplaces.cfg, hout, List.append_assoc] at hrest
        exact hrest
      · intro j m' hm'
        have hne : some (q ++ [fileName k]) ≠ some (q ++ [fileName (k + 1 + j)]) := by
          intro he
          have hname := fileName_inj.mp (List.append_singleton_inj.mp (Option.some.inj he)).2
          omega
        rw [content_deliverOne, hfile, if_neg hne, Nat.add_assoc, Nat.add_comm 1]
        exact hms (j + 1) m' hm'

/-- Every file is read, sent and removed. -/
theorem Holds.delivered (h : Holds q ms b) {i : ℕ} (hlive : b.Live i) (huser : (b.sess i).jidLocal.str = username)
    (hq : offlinePath b username = some q) (hlen : ms.length ≤ 256) :
    ((messageDeliverOffline b i).sess i).out = (b.sess i).out ++ ms.map Out.stanza ∧
      ∀ n, '/' ∉ n → (messageDeliverOffline b i).files.content (q ++ [n]) = none := by
  have hsorted := h.sorted hq hlen
  constructor
  · unfold messageDeliverOffline
    dsimp only
    rw [huser, hsorted]
    apply out_deliver i 1 hlive hq h.dir (by omega)
    intro j m hm
    rw [Nat.add_comm]
    exact h.contents (by omega) j m hm
  · intro n hslash
    rw [content_messageDeliverOffline]
    split
    · rfl
    · next hout =>
      by_contra hthere
      have hlisted : n ∈ b.files.readdir q := by
        rw [mem_readdir _ hslash]
        cases hl : b.files.lookup (q ++ [n]) with
        | none => exact absurd (by rw [Tree.content, hl]) hthere
        | some e => rfl
      obtain ⟨k, hk, rfl⟩ := List.mem_map.mp ((h.names (by omega)).mem_iff.mp hlisted)
      have hrange := List.mem_range'_1.mp hk
      apply hout
      unfold Unreadable.delivered
      dsimp only
      rw [huser, hsorted, List.mem_filterMap]
      exact ⟨fileName k, List.mem_map_of_mem hk,
        locate_name hq h.dir (fileName_plain k) (by rw [length_fileName (by omega)]; decide)⟩

/-- Files of more than 256 messages are not all removed. -/
theorem Holds.left (h : Holds q ms b) {i : ℕ} (hlen : 256 < ms.length) :
    ∃ n ∈ b.files.readdir q, q ++ [n] ∉ Unreadable.delivered b i := by
  by_contra hall
  push Not at hall
  have hsub : (b.files.readdir q).map (fun n => q ++ [n]) ⊆ Unreadable.delivered b i := by
    intro p hp
    obtain ⟨n, hn, rfl⟩ := List.mem_map.mp hp
    exact hall n hn
  have hnodup : ((b.files.readdir q).map fun n => q ++ [n]).Nodup :=
    h.nodup.map fun _ _ he => (List.append_singleton_inj.mp he).2
  have hcount := (List.subperm_of_subset hnodup hsub).length_le
  have hfew : (Unreadable.delivered b i).length ≤ 256 := by
    unfold Unreadable.delivered
    apply (List.length_filterMap_le _ _).trans
    rw [(sortNames_perm _ _).length_eq, offlineNames, List.length_map]
    exact List.length_take_le _ _
  have hmany := h.count
  rw [List.length_map] at hcount
  omega

end

/-! ## Initial presence -/

section
variable {srv b : Server} {i : ℕ} {o : Oracle} {pres : Node}

/-- The two loops send presence. -/
theorem exchange_presence (hl : srv.Live i) (o : Oracle) (pres : Node) :
    ∃ before : List Node,
      ((exchangePresence (marked srv i pres) i o pres).sess i).out = (srv.sess i).out ++ before.map Out.stanza ∧
        ∀ n ∈ before, n = pres ∨ ∃ t, (srv.sess t).presenceStanza = some n := by
  have hself := marked_self pres hl
  have hlive : (marked srv i pres).Live i := ((steady_marked pres).live i).mpr hl
  let other : Node → Prop := fun n => ¬(n = pres ∨ ∃ t, (srv.sess t).presenceStanza = some n)
  have hown : ∀ kept, ((marked srv i pres).sess i).presenceStanza = some kept → ¬other kept := by
    intro kept hkept
    rw [hself] at hkept
    exact not_not.mpr (Or.inl (Option.some.inj hkept).symm)
  obtain ⟨⟨before, hout, hnone⟩, _⟩ := sends_exchangePresence (R := other) (not_not.mpr (Or.inl rfl)) hown o _ (.refl _) hlive
  refine ⟨before, ?_, ?_⟩
  · dsimp only at hout
    rw [hout, hself]
  · intro n hn
    by_contra hother
    obtain ⟨j, item, _, hkept⟩ := hnone.mp ⟨n, hn, hother⟩
    rw [kept_marked] at hkept
    obtain ⟨_, t, _, _, _, shown, hshown, hr⟩ := hkept
    exact hr (Or.inr ⟨t, hshown⟩)

theorem redeliver_requests (hl : b.Live i) :
    ∃ after : List Node, ((presenceRedeliverPendingSubscribes b i).sess i).out = (b.sess i).out ++ after.map Out.stanza ∧
      ∀ n ∈ after, ∃ src dest, n = subNode "subscribe" src dest := by
  obtain ⟨after, hout, hnone⟩ := shows_redeliver (R := fun n => ¬∃ src dest, n = subNode "subscribe" src dest) hl
  refine ⟨after, hout, ?_⟩
  intro n hn
  by_contra hother
  obtain ⟨t, _, _, _, _, item, _, _, _, hr⟩ := hnone.mp ⟨n, hn, hother⟩
  exact hr ⟨_, _, rfl⟩

/-- Stored messages are delivered between the presence of contacts and the requests,
and the files are as they were before. -/
theorem initial_presence (hl : srv.Live i) (hfirst : (srv.sess i).available = false) (o : Oracle) (stanza : Node) :
    ∃ (c : Server) (before : List Node), Steady srv c ∧ c.files = srv.files ∧
      (c.sess i).out = (srv.sess i).out ++ before.map Out.stanza ∧
      (∀ n ∈ before, n = stanza.setProp "from" (srv.sess i).fullJid.str ∨ ∃ t, (srv.sess t).presenceStanza = some n) ∧
      presenceHandleAvailable srv i o stanza = presenceRedeliverPendingSubscribes (messageDeliverOffline c i) i := by
  obtain ⟨before, hout, hbefore⟩ := exchange_presence hl o (stanza.setProp "from" (srv.sess i).fullJid.str)
  have hsilent := silent_exchangePresence (marked srv i (stanza.setProp "from" (srv.sess i).fullJid.str)) i o
    (stanza.setProp "from" (srv.sess i).fullJid.str)
  refine ⟨(exchangePresence (marked srv i (stanza.setProp "from" (srv.sess i).fullJid.str)) i o
    (stanza.setProp "from" (srv.sess i).fullJid.str)).modify i fun s => { s with initialPresenceSent := true }, before,
    ?_, ?_, ?_, hbefore, ?_⟩
  · exact ((steady_marked _).trans hsilent.steady).trans (.modify _ i fun _ => rfl)
  · exact hsilent.files.trans (marked_files _)
  · rw [← hout]
    exact Server.sess_modify_congr Session.out _ i i _ fun _ => rfl
  · unfold presenceHandleAvailable
    dsimp only
    rw [hfirst, Bool.not_false, if_pos rfl]
    rfl

end

/-- What the directory holds is delivered exactly if it is not too much. -/
theorem Holds.delivered_iff {q : Path} {ms : List Node} {srv : Server} {i : ℕ} (h : Holds q ms srv) (o : Oracle)
    {stanza : Node} (hq : offlinePath srv (srv.sess i).jidLocal.str = some q) (hbound : (srv.sess i).isActive = true)
    (hname : stanza.name = "presence") (htype : stanza.prop "type" = []) (hfirst : (srv.sess i).available = false) :
    Delivered q i (stanza.setProp "from" (srv.sess i).fullJid.str) ms srv (stanzaRoute srv i o stanza) ↔
      ms.length ≤ 256 := by
  have hl := Server.live_of_isActive hbound
  obtain ⟨c, before, hsteady, hfiles, hout, hbefore, hroute⟩ := initial_presence hl hfirst o stanza
  have huser : (c.sess i).jidLocal.str = (srv.sess i).jidLocal.str :=
    congrArg Buf.str (hsteady.get Session.jidLocal (fun _ => rfl) i)
  have hplace : offlinePath c (srv.sess i).jidLocal.str = some q := by
    rw [← hq]
    unfold offlinePath locate
    rw [hfiles, hsteady.cfg]
  have hlive : c.Live i := (hsteady.live i).mpr hl
  have hholds : Holds q ms c := by
    refine ⟨?_, ?_, ?_, ?_, ?_, ?_⟩
    all_goals rw [hfiles]
    · exact h.dir
    · exact h.files
    · exact h.nodup
    · exact h.count
    · exact h.names
    · exact h.contents
  have hrest : (presenceRedeliverPendingSubscribes (messageDeliverOffline c i) i).files = (messageDeliverOffline c i).files :=
    (Silent.foldl (silent_redeliverPending i) _ _).files
  rw [stanzaRoute_initial hbound hname htype, hroute]
  constructor
  · intro hdelivered
    by_contra hmany
    obtain ⟨n, hn, hkept⟩ := hholds.left (i := i) (by omega)
    have hfile : ((messageDeliverOffline c i).files.content (q ++ [n])).isSome = true := by
      rw [content_messageDeliverOffline, if_neg hkept]
      exact hholds.files n hn
    have hgone := hdelivered.2 n
    rw [hrest, mem_readdir _ (by simpa using (List.mem_filter.mp hn).2)] at hgone
    have hlisted : ((messageDeliverOffline c i).files.lookup (q ++ [n])).isSome = true := by
      unfold Tree.content at hfile
      cases hlookup : (messageDeliverOffline c i).files.lookup (q ++ [n]) with
      | none =>
          rw [hlookup] at hfile
          cases hfile
      | some e => rfl
    rw [hgone hlisted] at hfile
    cases hfile
  · intro hfew
    obtain ⟨hsent, hgone⟩ := hholds.delivered hlive huser hplace hfew
    obtain ⟨after, hafter, hrequests⟩ := redeliver_requests ((holding_messageDeliverOffline c i).live i |>.mpr hlive)
    refine ⟨⟨before, after, ?_, hbefore, hrequests⟩, ?_⟩
    · rw [hafter, hsent, hout]
      simp
    · intro n hn
      rw [hrest] at hn ⊢
      exact hgone n (by simpa using (List.mem_filter.mp hn).2)

/-- Messages that were stored into an empty directory are all delivered on the next
initial presence, in their order and once each, exactly if there are at most 256. -/
theorem messages_delivered_iff (username : Str) (q : Path) (srv a : Server) (l : List (Oracle × Node)) (i : ℕ) (o : Oracle)
    (stanza : Node) (hq : offlinePath srv username = some q) (hdir : srv.files.isDir q = true)
    (hempty : srv.files.readdir q = []) (hfilled : Filled username q srv l a) (huser : (a.sess i).jidLocal.str = username)
    (hbound : (a.sess i).isActive = true) (hname : stanza.name = "presence") (htype : stanza.prop "type" = [])
    (hfirst : (a.sess i).available = false) :
    Delivered q i (stanza.setProp "from" (a.sess i).fullJid.str) (messages srv.cfg l) a (stanzaRoute a i o stanza) ↔
      l.length ≤ 256 := by
  obtain ⟨_, hplace, hholds⟩ := hfilled.holds hq hdir hempty
  rw [← huser] at hplace
  rw [hholds.delivered_iff o hplace hbound hname htype hfirst, messages, List.length_map]

/-- Bob has bound a resource and has not sent presence yet. -/
def bobBound : Server := run exampleServer (.accept :: login 0 bobPlain)

/-- The same message stored over and over again. -/
def heaped : ℕ → Server
  | 0 => bobBound
  | n + 1 => messageStoreOffline (heaped n) exampleOracle "bob" (elem "message" [] [])

theorem filled_heaped (q : Path) (n : ℕ) :
    Filled "bob" q bobBound (List.replicate n (exampleOracle, elem "message" [] [])) (heaped n) := by
  induction n with
  | zero => exact .start
  | succ n ih =>
      rw [List.replicate_succ']
      exact .store exampleOracle (elem "message" [] []) ih

theorem sess_heaped (n i : ℕ) : (heaped n).sess i = bobBound.sess i := by
  induction n with
  | zero => rfl
  | succ n ih =>
      obtain ⟨t, ht⟩ := filesOnly_messageStoreOffline (heaped n) exampleOracle "bob" (elem "message" [] [])
      rw [heaped, ht, ← ih]
      rfl

set_option maxRecDepth 20000 in
/-- Bob's directory is empty. -/
theorem bobBound_ready :
    offlinePath bobBound "bob" = some ["data".toList, "bob".toList, "offline".toList] ∧
      bobBound.files.isDir ["data".toList, "bob".toList, "offline".toList] = true ∧
      bobBound.files.readdir ["data".toList, "bob".toList, "offline".toList] = [] ∧
      (bobBound.sess 0).jidLocal.str = "bob" ∧ (bobBound.sess 0).isActive = true ∧ (bobBound.sess 0).available = false := by
  decide +kernel

/-- Two messages for bob are delivered. -/
theorem two_delivered :
    Delivered ["data".toList, "bob".toList, "offline".toList] 0
      (initialPresence.setProp "from" ((heaped 2).sess 0).fullJid.str)
      (messages bobBound.cfg (List.replicate 2 (exampleOracle, elem "message" [] []))) (heaped 2)
      (stanzaRoute (heaped 2) 0 exampleOracle initialPresence) := by
  obtain ⟨hq, hdir, hempty, huser, hbound, hfirst⟩ := bobBound_ready
  rw [← sess_heaped 2] at huser hbound hfirst
  rw [messages_delivered_iff "bob" ["data".toList, "bob".toList, "offline".toList] bobBound (heaped 2)
    (List.replicate 2 (exampleOracle, elem "message" [] [])) 0 exampleOracle initialPresence hq hdir hempty
    (filled_heaped _ 2) huser hbound rfl (by decide) hfirst]
  decide

/-- What is stored for bob is delivered exactly if it is not too much. -/
theorem heaped_delivered_iff (n : ℕ) :
    ((heaped n).sess 0).jidLocal.str = "bob" ∧ ((heaped n).sess 0).isActive = true ∧
      ((heaped n).sess 0).available = false ∧
      (Delivered ["data".toList, "bob".toList, "offline".toList] 0
        (initialPresence.setProp "from" ((heaped n).sess 0).fullJid.str)
        (messages bobBound.cfg (List.replicate n (exampleOracle, elem "message" [] []))) (heaped n)
        (stanzaRoute (heaped n) 0 exampleOracle initialPresence) ↔ n ≤ 256) := by
  obtain ⟨hq, hdir, hempty, huser, hbound, hfirst⟩ := bobBound_ready
  rw [← sess_heaped n] at huser hbound hfirst
  obtain ⟨_, hplace, hholds⟩ := (filled_heaped ["data".toList, "bob".toList, "offline".toList] n).holds hq hdir hempty
  have hown : offlinePath (heaped n) ((heaped n).sess 0).jidLocal.str =
      some ["data".toList, "bob".toList, "offline".toList] := by
    rw [huser]
    exact hplace
  refine ⟨huser, hbound, hfirst, ?_⟩
  rw [hholds.delivered_iff exampleOracle hown hbound rfl (by decide) hfirst, messages, List.length_map, List.length_replicate]

/-- Of 257 messages one is left behind. -/
theorem one_left :
    ¬∀ (username : Str) (q : Path) (srv a : Server) (l : List (Oracle × Node)) (i : ℕ) (o : Oracle) (stanza : Node),
      offlinePath srv username = some q → srv.files.isDir q = true → srv.files.readdir q = [] → Filled username q srv l a →
      (a.sess i).jidLocal.str = username → (a.sess i).isActive = true → stanza.name = "presence" →
      stanza.prop "type" = [] → (a.sess i).available = false →
      Delivered q i (stanza.setProp "from" (a.sess i).fullJid.str) (messages srv.cfg l) a (stanzaRoute a i o stanza) := by
  intro h
  obtain ⟨hq, hdir, hempty, _⟩ := bobBound_ready
  have hall : ∀ n, n ≤ 256 := by
    intro n
    obtain ⟨huser, hbound, hfirst, hiff⟩ := heaped_delivered_iff n
    exact hiff.mp (h "bob" _ bobBound (heaped n) _ 0 exampleOracle initialPresence hq hdir hempty
      (filled_heaped _ n) huser hbound rfl (by decide) hfirst)
  exact absurd (hall 257) (by decide)

end Xmppd.OfflineOrder
