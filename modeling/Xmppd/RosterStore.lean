import Xmppd.Frames

/-!
# Rosters on disk

A roster that is saved is read back as it was, since every field fits its array
and the number of items its bound. Writing and removing files moves no
directory, so the file a name leads to, and whether it can be written, stay the
same while stanzas are handled.
-/
namespace Xmppd.RosterStore
open CStrings FileTree LibXml Util ServerState User Roster Message Presence Frames

/-! ## Reading back what was written -/

theorem itemOfNode_nodeOfItem (ns : Str) (i : RosterItem) : itemOfNode (nodeOfItem ns i) = i := by
  obtain ⟨jid, name, sub, ask⟩ := i
  by_cases hn : name.str = []
  · have he : snprintf 256 [] = name := by rw [← hn, snprintf_buf]
    cases ask <;>
      simp (disch := decide) [itemOfNode, nodeOfItem, Node.prop, getProp_nil, getProp_cons_self, getProp_cons_of_ne, hn, he]
  · cases ask <;>
      simp (disch := decide) [itemOfNode, nodeOfItem, Node.prop, getProp_nil, getProp_cons_self, getProp_cons_of_ne, hn]

theorem loadContent_saveContent (r : Roster) :
    loadContent (some (saveContent r)) = { r with loaded := true } := by
  have hf : ((r.items.map (nodeOfItem [])).filter fun (n : Node) => n.isElement ∧ n.name = "item") =
      r.items.map (nodeOfItem []) := by
    rw [List.filter_eq_self]
    intro n hn
    obtain ⟨i, -, rfl⟩ := List.mem_map.mp hn
    rfl
  have ht : (r.items.map (nodeOfItem [])).take maxRosterItems = r.items.map (nodeOfItem []) := by
    rw [List.take_of_length_le]
    rw [List.length_map]
    exact r.bound
  refine Roster.ext ?_ rfl
  change ((((r.items.map (nodeOfItem [])).filter fun (n : Node) => n.isElement ∧ n.name = "item").take
    maxRosterItems).map itemOfNode) = r.items
  rw [hf, ht, List.map_map]
  exact List.map_id'' (itemOfNode_nodeOfItem []) r.items

/-! ## Which file -/

/-- The file that holds a user's roster. -/
def rosterFile (srv : Server) (username : Str) : Option Path :=
  locate srv (userPath srv.cfg username "roster.xml")

/-- A save of this user's roster goes through. -/
def Saves (srv : Server) (username : Str) : Prop :=
  ∃ p, rosterFile srv username = some p ∧ srv.files.writable p = true

instance decidableSaves (srv : Server) (username : Str) : Decidable (Saves srv username) :=
  inferInstanceAs (Decidable (∃ p ∈ rosterFile srv username, srv.files.writable p = true))

theorem rosterLoadForUser_eq (srv : Server) (username : Str) :
    rosterLoadForUser srv username = loadContent ((rosterFile srv username).bind srv.files.content) := rfl

/-- The configuration and the directories are as before. -/
structure SamePlaces (srv srv' : Server) : Prop where
  cfg : srv'.cfg = srv.cfg
  dirs : ∀ p, srv'.files.isDir p = srv.files.isDir p

namespace SamePlaces
variable {a b c : Server}

theorem refl (srv : Server) : SamePlaces srv srv := ⟨rfl, fun _ => rfl⟩

theorem trans (hab : SamePlaces a b) (hbc : SamePlaces b c) : SamePlaces a c :=
  ⟨hbc.cfg.trans hab.cfg, fun p => (hbc.dirs p).trans (hab.dirs p)⟩

theorem of_silent (h : Silent a b) : SamePlaces a b := ⟨h.cfg, fun p => by rw [h.files]⟩

theorem locate (h : SamePlaces a b) (path : Str) : locate b path = locate a path := by
  unfold User.locate
  rw [h.cfg]
  exact Tree.resolve_congr h.dirs _ _

theorem rosterFile (h : SamePlaces a b) (username : Str) : rosterFile b username = rosterFile a username := by
  unfold RosterStore.rosterFile
  rw [h.locate, h.cfg]

theorem writable (h : SamePlaces a b) (p : Path) : b.files.writable p = a.files.writable p := by
  unfold Tree.writable
  rw [h.dirs, h.dirs]

theorem saves (h : SamePlaces a b) (username : Str) : Saves b username ↔ Saves a username := by
  unfold Saves
  simp only [h.rosterFile, h.writable]

end SamePlaces

/-! ## Saving -/

section
variable (srv : Server) (username : Str) (r : Roster)

theorem rosterSaveForUser_cases :
    rosterSaveForUser srv username r = srv ∧ ¬Saves srv username ∨
      ∃ p, rosterFile srv username = some p ∧ srv.files.writable p = true ∧
        rosterSaveForUser srv username r = { srv with files :=
          { srv.files.put p (.file (saveContent r)) with written := srv.files.written ++ [p] } } := by
  unfold rosterSaveForUser
  cases hw : writeFile srv (userPath srv.cfg username "roster.xml") (saveContent r) with
  | some srv' =>
      obtain ⟨p, t, hp, ht, rfl⟩ := writeFile_eq_some hw
      obtain ⟨hwr, rfl⟩ := Tree.write_eq_some ht
      exact Or.inr ⟨p, hp, hwr, rfl⟩
  | none =>
      refine Or.inl ⟨rfl, ?_⟩
      rintro ⟨p, hp, hwr⟩
      have hl : locate srv (userPath srv.cfg username "roster.xml") = some p := hp
      rw [writeFile, hl] at hw
      simp [Tree.write, hwr] at hw

theorem samePlaces_rosterSaveForUser : SamePlaces srv (rosterSaveForUser srv username r) := by
  obtain ⟨h, -⟩ | ⟨p, -, hw, h⟩ := rosterSaveForUser_cases srv username r
  · rw [h]
    exact .refl srv
  · rw [h]
    exact ⟨rfl, Tree.isDir_put_file srv.files _ (Tree.writable_not_isDir hw)⟩

/-- A save that goes through is read back under every name of the file, and seen
under no other. -/
theorem rosterLoadForUser_save (h : Saves srv username) (v : Str) :
    rosterLoadForUser (rosterSaveForUser srv username r) v =
      if rosterFile srv v = rosterFile srv username then { r with loaded := true }
      else rosterLoadForUser srv v := by
  have hs := (samePlaces_rosterSaveForUser srv username r).rosterFile v
  obtain ⟨-, hn⟩ | ⟨p, hp, hw, he⟩ := rosterSaveForUser_cases srv username r
  · exact absurd h hn
  rw [rosterLoadForUser_eq, rosterLoadForUser_eq, hs, hp, he]
  cases hv : rosterFile srv v with
  | none => simp
  | some q =>
      by_cases hq : q = p
      · subst hq
        rw [if_pos rfl]
        exact (congrArg loadContent (Tree.content_put_self srv.files q _)).trans (loadContent_saveContent r)
      · rw [if_neg (by simpa using hq)]
        exact congrArg loadContent (Tree.content_put_of_ne srv.files _ hq)

theorem modifyRoster_jidLocal (i j : ℕ) (f : Roster → Roster) :
    ((modifyRoster srv i f).sess j).jidLocal = (srv.sess j).jidLocal :=
  Server.sess_modify_congr Session.jidLocal srv i j _ fun _ => rfl

theorem modifyRoster_roster {srv : Server} {i : ℕ} (hl : srv.Live i) (f : Roster → Roster) :
    ((modifyRoster srv i f).sess i).roster = f (srv.sess i).roster := by
  unfold modifyRoster
  rw [Server.sess_modify_self hl]

theorem rosterSaveForUser_sessions : (rosterSaveForUser srv username r).sessions = srv.sessions := by
  obtain ⟨t, ht⟩ := filesOnly_rosterSaveForUser srv username r
  rw [ht]

end

end Xmppd.RosterStore
