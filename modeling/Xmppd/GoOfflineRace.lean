import Mathlib.Data.Finset.Card
import Xmppd.GoWorld
import Xmppd.ReadModifyWrite

/-!
# Messages for a user who is away

A message for a user without a session is stored under the number after the
largest one in a listing of the user's offline directory. The number is free if
no other session lists the directory before this one has written its file.
-/
namespace Xmppd.GoOfflineRace
open CStrings GoXml Programs Program GoSession GoMessage GoWorld ReadModifyWrite

/-! ## Numbers and names -/

theorem seqName_digits (n : ℕ) :
    ∃ digits : Str, seqName n = digits ++ (".xml" : Str) ∧ (∀ c ∈ digits, c.isDigit = true) ∧ digits ≠ [] ∧
      Nat.ofDigitChars 10 digits 0 = n := by
  refine ⟨List.replicate (4 - (Nat.toDigits 10 n).length) '0' ++ Nat.toDigits 10 n, rfl, ?_, ?_, ?_⟩
  · intro c hc
    rcases List.mem_append.mp hc with hc | hc
    · rw [List.eq_of_mem_replicate hc]
      decide
    · exact Nat.isDigit_of_mem_toDigits (by decide) (by decide) hc
  · intro h
    exact Nat.toDigits_ne_nil (List.append_eq_nil_iff.mp h).2
  · rw [Nat.ofDigitChars_append, Nat.ofDigitChars_replicate_zero, Nat.mul_zero, Nat.ofDigitChars_ten_toDigits]

/-- The number in a name that the server has formatted. -/
theorem scanSeq_seqName {n : ℕ} (h : n < 2 ^ 63) : scanSeq (seqName n) = n := by
  obtain ⟨digits, hname, hdigits, hne, hvalue⟩ := seqName_digits n
  obtain ⟨d, ds, rfl⟩ := List.exists_cons_of_ne_nil hne
  have hd := hdigits d List.mem_cons_self
  have hblank : d.isWhitespace = false := by
    apply Bool.eq_false_iff.mpr
    intro hw
    simp only [Char.isWhitespace, Bool.or_eq_true, decide_eq_true_eq] at hw
    rcases hw with ((rfl | rfl) | rfl) | rfl
    all_goals revert hd; decide
  have hplus : d ≠ '+' := by
    rintro rfl
    revert hd
    decide
  have htake : (d :: ds ++ (".xml" : Str)).takeWhile Char.isDigit = d :: ds := by
    rw [List.takeWhile_append_of_pos hdigits]
    simp
  have hdrop : (d :: ds ++ (".xml" : Str)).dropWhile Char.isWhitespace = d :: ds ++ (".xml" : Str) := by
    rw [List.cons_append, List.dropWhile_cons_of_neg (by simp [hblank])]
  rw [Nat.ofDigitChars_eq_foldl] at hvalue
  rw [scanSeq, hname, hdrop]
  split
  · next he => exact absurd (List.cons.inj he).1 hplus
  · rw [htake, hvalue, if_pos h]

theorem maxSeq_foldl (names : List Str) (m : ℕ) :
    m ≤ names.foldl (fun m name => if m < scanSeq name then scanSeq name else m) m ∧
      ∀ name ∈ names, scanSeq name ≤ names.foldl (fun m name => if m < scanSeq name then scanSeq name else m) m := by
  induction names generalizing m with
  | nil => simp
  | cons name names ih =>
      obtain ⟨hm, hall⟩ := ih (if m < scanSeq name then scanSeq name else m)
      rw [List.foldl_cons]
      have hstep : m ≤ (if m < scanSeq name then scanSeq name else m) ∧
          scanSeq name ≤ (if m < scanSeq name then scanSeq name else m) := by
        split <;> omega
      refine ⟨by omega, ?_⟩
      intro other ho
      rcases List.mem_cons.mp ho with rfl | ho
      · omega
      · exact hall other ho

theorem scanSeq_le_maxSeq {names : List Str} {name : Str} (h : name ∈ names) : scanSeq name ≤ maxSeq names :=
  (maxSeq_foldl names 0).2 name h

theorem maxSeq_le {names : List Str} {m : ℕ} (h : ∀ name ∈ names, scanSeq name ≤ m) : maxSeq names ≤ m := by
  have hfold : ∀ (names : List Str) (k : ℕ), k ≤ m → (∀ name ∈ names, scanSeq name ≤ m) →
      names.foldl (fun m name => if m < scanSeq name then scanSeq name else m) k ≤ m := by
    intro names
    induction names with
    | nil => exact fun k hk _ => hk
    | cons name names ih =>
        intro k hk hall
        apply ih
        · have hname := hall name List.mem_cons_self
          dsimp only
          split <;> omega
        · exact fun other ho => hall other (List.mem_cons_of_mem _ ho)
  exact hfold names 0 (Nat.zero_le _) h

/-- The largest number in a directory. -/
def top (d : Dir) : ℕ := maxSeq (d.map Prod.fst)

theorem maxSeq_listing (d : Dir) : maxSeq (d.listing.map Prod.fst) = top d := by
  apply Nat.le_antisymm
  · exact maxSeq_le fun name h => scanSeq_le_maxSeq (Dir.mem_listing.mp h)
  · exact maxSeq_le fun name h => scanSeq_le_maxSeq (Dir.mem_listing.mpr h)

/-- The next number is not taken. -/
theorem nextName_fresh {d : Dir} (h : top d + 1 < 2 ^ 63) : nextName (top d) ∉ d.map Prod.fst := by
  intro hm
  have hle := scanSeq_le_maxSeq hm
  rw [nextName, if_pos h, scanSeq_seqName h] at hle
  unfold top at hle
  omega

theorem top_put {d : Dir} (h : top d + 1 < 2 ^ 63) (content : Str) : top (d.put (nextName (top d)) content) ≤ top d + 1 := by
  apply maxSeq_le
  intro name hm
  rw [Dir.put, List.map_append, List.mem_append] at hm
  rcases hm with hm | hm
  · obtain ⟨e, he, rfl⟩ := List.mem_map.mp hm
    have hle := scanSeq_le_maxSeq (List.mem_map_of_mem (f := Prod.fst) (List.mem_filter.mp he).1)
    unfold top
    omega
  · simp only [List.map_cons, List.map_nil, List.mem_singleton] at hm
    rw [hm, nextName, if_pos h, scanSeq_seqName h]

/-! ## What a handler does -/

/-- A message a session handles. -/
structure Post where
  session : Session
  node : XmlNode

section
variable (domain user : Str)

def Post.handler (self : ℕ) (q : Post) : Handler Unit := do
  let _ ← handle self domain q.session q.node
  pure ()

/-- The file of a message that was stamped with this time. -/
def Post.content (q : Post) (stamp : Str) : Str :=
  ((setAttr q.node "from" q.session.fullJID).addChild (delay domain stamp)).serialize

/-- The end of `storeOffline` from the write on, and from the two steps before it. -/
def writing (q : Post) (seq : ℕ) (stamp : Str) : Handler Unit :=
  writeFile user (nextName seq) (.node ((setAttr q.node "from" q.session.fullJID).addChild (delay domain stamp)))

def stamping (q : Post) (seq : ℕ) : Handler Unit := do
  let stamp ← now
  writing domain user q seq stamp

def listing (q : Post) : Handler Unit := do
  let entries ← readDir user
  stamping domain user q (maxSeq ((entries.getD []).map Prod.fst))

/-- The message is one for the user, and none that reports an error. -/
def Post.IsFor (q : Post) : Prop := splitBareJID (q.node.attr "to") = (user, domain) ∧ q.node.attr "type" ≠ "error"

/-- The sessions, each about to handle its message. -/
def start (w : World) (posts : ℕ → Option Post) : Pool Call Result World :=
  { shared := w
    threads := fun i =>
      match posts i with
      | some q => q.handler domain i
      | none => .done () }

/-- A session that is about to list the directory finds no other one between its
listing and its write. -/
def Exclusive (p : Pool Call Result World) (i : ℕ) : Prop :=
  (∃ next, p.threads i = .call (.readDir user) next) → ∀ j, j ≠ i →
    (∀ next, p.threads j ≠ .call .now next) ∧ ∀ name d next, p.threads j ≠ .call (.writeFile user name d) next

/-- Calls that touch neither the offline directory, except that they may make it,
nor the registry. -/
def Harmless : Call → Prop
  | .userExists _ => True
  | .find _ => True
  | _ => False

/-- The user has an account and no session. -/
def Away : (c : Call) → Result c → Prop
  | .find j, r => j = user ++ '@' :: domain → r = none
  | .userExists u, r => u = user → r = true
  | _, _ => True

variable {domain user}

/-- A handler comes to the point where it makes the directory and lists it. -/
theorem handler_leads {q : Post} (h : q.IsFor domain user) (hu : user ≠ []) (self : ℕ) :
    Leads Harmless (Away domain user) (· = (mkdirAll user >>= fun _ => listing domain user q)) (q.handler domain self) := by
  obtain ⟨hto, htype⟩ := h
  have htype' : (if q.node.attr "type" = [] then ("normal" : Str) else q.node.attr "type") ≠ "error" := by
    split
    · decide
    · exact htype
  unfold Post.handler handle
  dsimp only
  rw [hto]
  dsimp only
  rw [if_neg hu, if_neg (not_not.mpr rfl)]
  refine .call trivial ?_
  intro found hfound
  cases hfound rfl
  refine .call trivial ?_
  intro session hs
  cases hs rfl
  apply Leads.here
  rw [if_pos htype']
  rfl

end

/-! ## The discipline -/

section
variable (isPrint : Char → Bool) (outside : ℕ → (c : Call) → Result c) (domain user : Str) (posts : ℕ → Option Post)

/-- The write of a message, from the listing it has seen. -/
def writes (i : ℕ) (v w : Option Dir) : Prop :=
  ∃ q d stamp, posts i = some q ∧ v = some d ∧ w = some (d.put (nextName (top d)) (q.content domain stamp))

/-- The directory is made where there is none. -/
def made (v w : Option Dir) : Prop := v = none ∧ w = some []

theorem answer_harmless {c : Call} (h : Harmless c) (i : ℕ) (w : World) :
    (answer isPrint outside i c w).2.offline = w.offline ∧ (answer isPrint outside i c w).2.registry = w.registry := by
  cases c with
  | userExists u => exact ⟨rfl, rfl⟩
  | find j => exact ⟨rfl, rfl⟩
  | _ => cases h

variable {outside domain user} in
theorem reply_away (hexists : ∀ n, outside n (.userExists user) = true) {w : World}
    (h : w.registry (user ++ '@' :: domain) = none) (c : Call) : Away domain user c (reply outside w c) := by
  cases c with
  | find j =>
      intro hj
      rw [hj]
      exact h
  | userExists u =>
      intro hu
      rw [hu]
      exact hexists w.clock
  | _ => trivial

/-- The handlers and the offline directory. -/
def discipline (hexists : ∀ n, outside n (.userExists user) = true) :
    Discipline (answer isPrint outside) (fun w => w.offline user) (writes domain posts) made where
  frame w := w.registry (user ++ '@' :: domain) = none
  before i v p := ∃ q, posts i = some q ∧
    (Leads Harmless (Away domain user) (· = (mkdirAll user >>= fun _ => listing domain user q)) p ∨
      v.isSome ∧ p = listing domain user q)
  holding i v p := ∃ q d, posts i = some q ∧ v = some d ∧
    (p = stamping domain user q (top d) ∨ ∃ stamp, p = writing domain user q (top d) stamp)
  before_done := by
    intro i v a h
    obtain ⟨q, _, h | h⟩ := h
    · cases h with
      | here h => cases h
    · cases h.2
  holding_done := by
    intro i v a h
    obtain ⟨q, d, _, _, h | ⟨stamp, h⟩⟩ := h
    · cases h
    · cases h
  before_holding := by
    intro i v w p hb hh
    obtain ⟨q, _, hb⟩ := hb
    obtain ⟨q', d, _, _, hh⟩ := hh
    rcases hb with hb | ⟨_, hb⟩
    · rcases hh with rfl | ⟨stamp, rfl⟩
      · cases hb with
        | here h => cases h
        | call h _ => exact h
      · cases hb with
        | here h => cases h
        | call h _ => exact h
    · rw [hb] at hh
      rcases hh with hh | ⟨stamp, hh⟩
      · cases hh
      · cases hh
  before_edit := by
    intro i j v w p hb hedit
    obtain ⟨q, hq, hb⟩ := hb
    obtain ⟨_, _, _, _, _, hw⟩ := hedit
    refine ⟨q, hq, ?_⟩
    rcases hb with hb | hb
    · exact Or.inl hb
    · exact Or.inr ⟨by rw [hw]; rfl, hb.2⟩
  before_prepared := by
    intro i v w p hb hmade
    obtain ⟨q, hq, hb⟩ := hb
    refine ⟨q, hq, ?_⟩
    rcases hb with hb | hb
    · exact Or.inl hb
    · exact Or.inr ⟨by rw [hmade.2]; rfl, hb.2⟩
  holding_prepared := by
    intro i v w p hh hmade
    obtain ⟨_, d, _, hv, _⟩ := hh
    rw [hmade.1] at hv
    cases hv
  before_call := by
    intro i c next w hframe hb
    obtain ⟨q, hq, hb⟩ := hb
    rcases hb with hb | ⟨hsome, hb⟩
    · cases hb with
      | here h =>
          cases h
          refine ⟨hframe, ?_⟩
          have hoffline : (answer isPrint outside i (.mkdirAll user) w).2.offline user = some ((w.offline user).getD []) :=
            Function.update_self _ _ _
          cases hv : w.offline user with
          | none =>
              rw [hv] at hoffline
              exact Or.inr ⟨⟨rfl, hoffline⟩, q, hq, Or.inr ⟨by rw [hoffline]; rfl, rfl⟩⟩
          | some d =>
              rw [hv] at hoffline
              exact Or.inl ⟨hoffline, Or.inl ⟨q, hq, Or.inr ⟨rfl, rfl⟩⟩⟩
      | call h hnext =>
          obtain ⟨hoffline, hreg⟩ := answer_harmless isPrint outside h i w
          refine ⟨?_, Or.inl ⟨by rw [hoffline], Or.inl ⟨q, hq, Or.inl (hnext _ (reply_away hexists hframe c))⟩⟩⟩
          rw [hreg]
          exact hframe
    · cases hb
      obtain ⟨d, hd⟩ := Option.isSome_iff_exists.mp hsome
      refine ⟨hframe, Or.inl ⟨rfl, Or.inr ⟨q, d, hq, hd, Or.inl ?_⟩⟩⟩
      have hreply : (answer isPrint outside i (.readDir user) w).1 = some d.listing := by
        change (w.offline user).map Dir.listing = some d.listing
        rw [hd]
        rfl
      rw [hreply]
      change stamping domain user q (maxSeq (d.listing.map Prod.fst)) = _
      rw [maxSeq_listing]
  holding_call := by
    intro i c next w hframe hh
    obtain ⟨q, d, hq, hd, hh⟩ := hh
    rcases hh with hh | ⟨stamp, hh⟩
    · cases hh
      exact ⟨hframe, Or.inl ⟨rfl, q, d, hq, hd, Or.inr ⟨_, rfl⟩⟩⟩
    · cases hh
      refine ⟨hframe, Or.inr ⟨⟨q, d, stamp, hq, hd, ?_⟩, rfl⟩⟩
      have hwrite : (answer isPrint outside i (.writeFile user (nextName (top d))
          (.node ((setAttr q.node "from" q.session.fullJID).addChild (delay domain stamp)))) w).2.offline user =
            (w.offline user).map fun dir => dir.put (nextName (top d)) (q.content domain stamp) :=
        Function.update_self _ _ _
      rw [hd] at hwrite
      exact hwrite

variable {isPrint outside domain user posts}

/-- The condition on the calls is the one of the discipline. -/
theorem exclusive_of_calls (hexists : ∀ n, outside n (.userExists user) = true) {p : Pool Call Result World} {i : ℕ}
    (hframe : p.shared.registry (user ++ '@' :: domain) = none) (h : Exclusive user p i) :
    (discipline isPrint outside domain user posts hexists).Exclusive p i := by
  intro hb hnb j hj v hh
  obtain ⟨q, hq, hb⟩ := hb
  have hlist : ∃ next, p.threads i = .call (.readDir user) next := by
    rcases hb with hb | ⟨_, hb⟩
    · exfalso
      apply hnb
      cases hi : p.threads i with
      | done a =>
          rw [hi] at hb
          cases hb with
          | here h => cases h
      | call c next =>
          rw [hi] at hb
          rw [Pool.step_self hi, Pool.step_shared hi]
          cases hb with
          | here hmake =>
              cases hmake
              refine ⟨q, hq, Or.inr ⟨?_, rfl⟩⟩
              have hoffline : (answer isPrint outside i (.mkdirAll user) p.shared).2.offline user =
                  some ((p.shared.offline user).getD []) := Function.update_self _ _ _
              exact Option.isSome_iff_exists.mpr ⟨_, hoffline⟩
          | call _ hnext => exact ⟨q, hq, Or.inl (hnext _ (reply_away hexists hframe c))⟩
    · exact ⟨_, hb⟩
  obtain ⟨hnow, hwrite⟩ := h hlist j hj
  obtain ⟨q', d, _, _, hh | ⟨stamp, hh⟩⟩ := hh
  · exact hnow _ hh
  · exact hwrite _ _ _ hh

/-- What the directory holds after some of the messages were written: each has a
file of its own that was not there before, and what was there is kept. -/
structure Stored (domain : Str) (posts : ℕ → Option Post) (init final : Option Dir) (order : List ℕ) (file : ℕ → Str) :
    Prop where
  holds : ∀ i ∈ order, ∃ q stamp, posts i = some q ∧ (final.getD []).lookup (file i) = some (q.content domain stamp)
  distinct : ∀ i ∈ order, ∀ j ∈ order, file i = file j → i = j
  fresh : ∀ i ∈ order, file i ∉ (init.getD []).map Prod.fst
  kept : ∀ name content, (init.getD []).lookup name = some content → (final.getD []).lookup name = some content

theorem stored_start (init : Option Dir) : Stored domain posts init init [] fun _ => [] :=
  ⟨by simp, by simp, by simp, fun _ _ h => h⟩

/-- A message under a free name. -/
theorem Stored.put {init : Option Dir} {d : Dir} {order : List ℕ} {file : ℕ → Str} (h : Stored domain posts init (some d) order file)
    {i : ℕ} (hi : i ∉ order) {q : Post} (hq : posts i = some q) {name : Str} (hname : name ∉ d.map Prod.fst)
    (stamp : Str) :
    Stored domain posts init (some (d.put name (q.content domain stamp))) (order ++ [i]) (Function.update file i name) := by
  have hne : ∀ other content, d.lookup other = some content → other ≠ name := by
    intro other content ho hn
    exact hname (hn ▸ Dir.mem_of_lookup ho)
  have hfile : ∀ j ∈ order, Function.update file i name j = file j ∧ file j ≠ name := by
    intro j hj
    obtain ⟨_, _, _, hlookup⟩ := h.holds j hj
    refine ⟨Function.update_of_ne ?_ _ _, hne _ _ hlookup⟩
    rintro rfl
    exact hi hj
  constructor
  · intro j hj
    rcases List.mem_append.mp hj with hj | hj
    · obtain ⟨q', stamp', hq', hlookup⟩ := h.holds j hj
      refine ⟨q', stamp', hq', ?_⟩
      rw [(hfile j hj).1, Option.getD_some, Dir.lookup_put_of_ne d (hfile j hj).2]
      exact hlookup
    · rw [List.mem_singleton.mp hj, Function.update_self]
      exact ⟨q, stamp, hq, Dir.lookup_put_self d name _⟩
  · intro j hj k hk hjk
    rcases List.mem_append.mp hj with hj | hj
    · rcases List.mem_append.mp hk with hk | hk
      · rw [(hfile j hj).1, (hfile k hk).1] at hjk
        exact h.distinct j hj k hk hjk
      · rw [List.mem_singleton.mp hk, (hfile j hj).1, Function.update_self] at hjk
        exact absurd hjk (hfile j hj).2
    · rcases List.mem_append.mp hk with hk | hk
      · rw [List.mem_singleton.mp hj, (hfile k hk).1, Function.update_self] at hjk
        exact absurd hjk.symm (hfile k hk).2
      · rw [List.mem_singleton.mp hj, List.mem_singleton.mp hk]
  · intro j hj
    rcases List.mem_append.mp hj with hj | hj
    · rw [(hfile j hj).1]
      exact h.fresh j hj
    · rw [List.mem_singleton.mp hj, Function.update_self]
      intro hm
      obtain ⟨content, hlookup⟩ := Dir.lookup_of_mem hm
      exact hname (Dir.mem_of_lookup (h.kept name content hlookup))
  · intro other content ho
    have hkept := h.kept other content ho
    rw [Option.getD_some, Dir.lookup_put_of_ne d (hne other content hkept)]
    exact hkept

/-- Messages that are written one after another are all there. -/
theorem serially_stored {init v : Option Dir} {order : List ℕ} (h : Serially (writes domain posts) made init order v)
    (hnodup : order.Nodup) (hroom : top (init.getD []) + order.length < 2 ^ 63) :
    (∃ file, Stored domain posts init v order file) ∧ top (v.getD []) ≤ top (init.getD []) + order.length := by
  induction h with
  | start => exact ⟨⟨_, stored_start init⟩, Nat.le_refl _⟩
  | @step l v w i _ hedit ih =>
      obtain ⟨q, d, stamp, hq, hv, hw⟩ := hedit
      rw [List.length_append, List.length_singleton] at hroom
      rw [List.nodup_append] at hnodup
      have hi : i ∉ l := fun hm => hnodup.2.2 i hm i List.mem_cons_self rfl
      obtain ⟨⟨file, hfile⟩, htop⟩ := ih hnodup.1 (by omega)
      rw [hv] at hfile htop
      rw [Option.getD_some] at htop
      have hd : top d + 1 < 2 ^ 63 := by omega
      rw [hw, List.length_append, List.length_singleton]
      refine ⟨⟨_, hfile.put hi hq (nextName_fresh hd) stamp⟩, ?_⟩
      have hput := top_put hd (q.content domain stamp)
      rw [Option.getD_some]
      omega
  | prepared _ hmade ih =>
      obtain ⟨⟨file, hfile⟩, htop⟩ := ih hnodup hroom
      rw [hmade.1] at hfile htop
      rw [hmade.2]
      exact ⟨⟨file, hfile.holds, hfile.distinct, hfile.fresh, hfile.kept⟩, htop⟩

/-- If no session lists the offline directory while another one is between its
listing and its write, every message ends in a file of its own. -/
theorem offline_messages_kept (isPrint : Char → Bool) (outside : ℕ → (c : Call) → Result c) (domain user : Str)
    (posts : ℕ → Option Post) (w : World) (hu : user ≠ []) (hfor : ∀ i q, posts i = some q → q.IsFor domain user)
    (hexists : ∀ n, outside n (.userExists user) = true) (haway : w.registry (user ++ '@' :: domain) = none)
    (hroom : ∀ s : Finset ℕ, (∀ i ∈ s, (posts i).isSome) → top ((w.offline user).getD []) + s.card < 2 ^ 63)
    (schedule : List ℕ)
    (hx : Pool.Meets (answer isPrint outside) (Exclusive user) (start domain w posts) schedule)
    (hdone : ∀ i, ∃ a, (Pool.run (answer isPrint outside) (start domain w posts) schedule).threads i = .done a) :
    ∃ file : ℕ → Str,
      (∀ i q, posts i = some q → ∃ stamp,
        (((Pool.run (answer isPrint outside) (start domain w posts) schedule).shared.offline user).getD []).lookup (file i) =
          some (q.content domain stamp)) ∧
      (∀ i j, (posts i).isSome → (posts j).isSome → file i = file j → i = j) ∧
      ∀ name content, ((w.offline user).getD []).lookup name = some content →
        (∀ i, (posts i).isSome → file i ≠ name) ∧
        (((Pool.run (answer isPrint outside) (start domain w posts) schedule).shared.offline user).getD []).lookup name =
          some content := by
  have hphase : ∀ i, (posts i).isSome → (discipline isPrint outside domain user posts hexists).before i (w.offline user)
      ((start domain w posts).threads i) := by
    intro i hi
    obtain ⟨q, hq⟩ := Option.isSome_iff_exists.mp hi
    refine ⟨q, hq, Or.inl ?_⟩
    have hleads := handler_leads (hfor i q hq) hu i
    simp only [start, hq]
    exact hleads
  have hidle : ∀ i, posts i = none → (start domain w posts).threads i = .done () := by
    intro i hi
    simp only [start, hi]
  have hfree : ∀ i v,
      ¬(discipline isPrint outside domain user posts hexists).holding i v ((start domain w posts).threads i) := by
    intro i v hv
    cases hq : posts i with
    | none =>
        rw [hidle i hq] at hv
        exact (discipline isPrint outside domain user posts hexists).holding_done i v () hv
    | some q =>
        exact (discipline isPrint outside domain user posts hexists).before_holding i _ v _ (hphase i (by simp [hq])) hv
  have hinit : (discipline isPrint outside domain user posts hexists).Serial (fun i => (posts i).isSome)
      (w.offline user) (start domain w posts) [] := by
    constructor
    · exact haway
    · exact .start
    · exact List.nodup_nil
    · simp
    · intro i hi
      apply hidle i
      simpa using hi
    · exact fun i hi _ => Or.inl (hphase i hi)
    · exact fun i j v w hv _ => absurd hv (hfree i v)
  obtain ⟨order, hnodup, hmem, hserial⟩ :=
    Discipline.run_serial (fun _ _ hframe h => exclusive_of_calls hexists hframe h) hinit schedule hx hdone
  have hcard := hroom order.toFinset fun i hi => (hmem i).mp (List.mem_toFinset.mp hi)
  rw [List.toFinset_card_of_nodup hnodup] at hcard
  obtain ⟨⟨file, hfile⟩, _⟩ := serially_stored hserial hnodup hcard
  refine ⟨file, ?_, ?_, ?_⟩
  · intro i q hq
    obtain ⟨q', stamp, hq', hlookup⟩ := hfile.holds i ((hmem i).mpr (by simp [hq]))
    rw [hq] at hq'
    cases hq'
    exact ⟨stamp, hlookup⟩
  · exact fun i j hi hj => hfile.distinct i ((hmem i).mpr hi) j ((hmem j).mpr hj)
  · intro name content hname
    refine ⟨?_, hfile.kept name content hname⟩
    intro i hi hn
    exact hfile.fresh i ((hmem i).mpr hi) (hn ▸ Dir.mem_of_lookup hname)

end

/-! ## Two messages -/

def sender (name : Str) : Session :=
  { jidLocal := name, jidDomain := "x", jidResource := "r", state := .sessionActive, authenticated := true }

def letter : XmlNode := .mk "message" [] [⟨"to", [], "c@x"⟩] [] []

/-- Two sessions write to one user. -/
def letters (i : ℕ) : Option Post :=
  if i = 0 then some ⟨sender "a", letter⟩ else if i = 1 then some ⟨sender "b", letter⟩ else none

def quiet : World where
  registry := fun _ => none
  jid := fun _ => []
  rosters := fun _ => {}
  rosterFiles := fun _ => none
  offline := fun _ => some []
  closed := fun _ => false
  log := []
  reading := fun _ => none
  replaced := fun _ => false
  clock := 0

theorem letters_other {i : ℕ} (h0 : i ≠ 0) (h1 : i ≠ 1) : (start "x" quiet letters).threads i = .done () := by
  simp [start, letters, h0, h1]

theorem letters_for : ∀ i q, letters i = some q → q.IsFor "x" "c" := by
  intro i q hq
  unfold letters at hq
  unfold Post.IsFor
  split_ifs at hq
  · cases hq
    decide
  · cases hq
    decide

theorem letters_room (s : Finset ℕ) (h : ∀ i ∈ s, (letters i).isSome) :
    top ((quiet.offline "c").getD []) + s.card < 2 ^ 63 := by
  have hsub : s ⊆ {0, 1} := by
    intro i hi
    have hsome := h i hi
    by_contra hno
    simp only [Finset.mem_insert, Finset.mem_singleton, not_or] at hno
    simp [letters, hno.1, hno.2] at hsome
  have hcard := Finset.card_le_card hsub
  have htwo : ({0, 1} : Finset ℕ).card = 2 := rfl
  have htop : top ((quiet.offline "c").getD []) = 0 := rfl
  omega

/-- A session that is alone at work meets no other one. -/
theorem exclusive_alone (n i : ℕ) {p : Pool Call Result World}
    (h : ∀ j, j ≠ i → (∀ next, p.threads j ≠ .call .now next) ∧
      ∀ name d next, p.threads j ≠ .call (.writeFile "c" name d) next) :
    Pool.Meets (answer GoRosterFile.printable plainOutside) (Exclusive "c") p (List.replicate n i) :=
  Pool.meets_alone (q := fun t => (∀ next, t ≠ .call .now next) ∧ ∀ name d next, t ≠ .call (.writeFile "c" name d) next)
    (fun _ h _ => h) n p h

theorem letters_in_turn :
    ∃ file : ℕ → Str,
      (∀ i q, letters i = some q → ∃ stamp,
        (((Pool.run (answer GoRosterFile.printable plainOutside) (start "x" quiet letters)
          (List.replicate 6 0 ++ List.replicate 6 1)).shared.offline "c").getD []).lookup (file i) =
            some (q.content "x" stamp)) ∧
      (∀ i j, (letters i).isSome → (letters j).isSome → file i = file j → i = j) ∧
      ∀ name content, ((quiet.offline "c").getD []).lookup name = some content →
        (∀ i, (letters i).isSome → file i ≠ name) ∧
        (((Pool.run (answer GoRosterFile.printable plainOutside) (start "x" quiet letters)
          (List.replicate 6 0 ++ List.replicate 6 1)).shared.offline "c").getD []).lookup name = some content := by
  apply offline_messages_kept GoRosterFile.printable plainOutside "x" "c" letters quiet (by decide) letters_for
    (fun _ => rfl) rfl letters_room
  · apply Pool.meets_append
    · apply exclusive_alone
      intro j hj
      by_cases h1 : j = 1
      · rw [h1]
        exact ⟨(fun _ hcall => by cases hcall), (fun _ _ _ hcall => by cases hcall)⟩
      · rw [letters_other hj h1]
        exact ⟨(fun _ hcall => by cases hcall), (fun _ _ _ hcall => by cases hcall)⟩
    · apply exclusive_alone
      intro j hj
      by_cases h0 : j = 0
      · rw [h0]
        exact ⟨(fun _ hcall => by cases hcall), (fun _ _ _ hcall => by cases hcall)⟩
      · rw [Pool.run_other (by simpa using h0), letters_other h0 hj]
        exact ⟨(fun _ hcall => by cases hcall), (fun _ _ _ hcall => by cases hcall)⟩
  · intro i
    by_cases h0 : i = 0
    · exact ⟨(), by rw [h0]; rfl⟩
    · by_cases h1 : i = 1
      · exact ⟨(), by rw [h1]; rfl⟩
      · exact ⟨(), by rw [Pool.run_other (by simp [h0, h1]), letters_other h0 h1]⟩

/-- Both list the directory before either writes, and the second file replaces
the first. -/
theorem letter_overwritten :
    ¬∀ (isPrint : Char → Bool) (outside : ℕ → (c : Call) → Result c) (domain user : Str) (posts : ℕ → Option Post)
      (w : World), user ≠ [] → (∀ i q, posts i = some q → q.IsFor domain user) →
      (∀ n, outside n (.userExists user) = true) → w.registry (user ++ '@' :: domain) = none → ∀ schedule : List ℕ,
      (∀ i, ∃ a, (Pool.run (answer isPrint outside) (start domain w posts) schedule).threads i = .done a) →
      ∃ file : ℕ → Str,
        (∀ i q, posts i = some q → ∃ stamp,
          (((Pool.run (answer isPrint outside) (start domain w posts) schedule).shared.offline user).getD []).lookup
            (file i) = some (q.content domain stamp)) ∧
        ∀ i j, (posts i).isSome → (posts j).isSome → file i = file j → i = j := by
  intro h
  obtain ⟨file, hholds, hdistinct⟩ := h GoRosterFile.printable plainOutside "x" "c" letters quiet (by decide)
    letters_for (fun _ => rfl) rfl [0, 0, 0, 0, 1, 1, 1, 1, 0, 0, 1, 1] (by
      intro i
      by_cases h0 : i = 0
      · exact ⟨(), by rw [h0]; rfl⟩
      · by_cases h1 : i = 1
        · exact ⟨(), by rw [h1]; rfl⟩
        · exact ⟨(), by rw [Pool.run_other (by simp [h0, h1])]; exact letters_other h0 h1⟩)
  have hnames : (((Pool.run (answer GoRosterFile.printable plainOutside) (start "x" quiet letters)
      [0, 0, 0, 0, 1, 1, 1, 1, 0, 0, 1, 1]).shared.offline "c").getD []).map Prod.fst = [("0001.xml" : Str)] := by
    decide +kernel
  have hname : ∀ i q, letters i = some q → file i = "0001.xml" := by
    intro i q hq
    obtain ⟨stamp, hlookup⟩ := hholds i q hq
    have hmem := Dir.mem_of_lookup hlookup
    rw [hnames] at hmem
    exact List.mem_singleton.mp hmem
  have hsame := hdistinct 0 1 rfl rfl ((hname 0 _ rfl).trans (hname 1 _ rfl).symm)
  cases hsame

end Xmppd.GoOfflineRace
