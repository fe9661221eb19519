import MessageCatalog.Config.Search
import MessageCatalog.Proofs.FileTree.Systems

/-!
The search for a configuration. It goes from path to path by dropping the last component, while the
directories around a directory are those that its names lead through. The two are the same on the
way up along names; behind a step up, the next path leads down again.
-/

namespace MessageCatalog

open Config (standardName)

namespace System

variable {s : System} {start path directory : String} {p q r : Place}

/-- The file in the first of some directories that has one, unless a repository's directory ends the
search before. -/
def firstFound (holds : String → String → Bool) : List String → Option String
  | [] => none
  | directory :: rest =>
      if holds directory standardName then some (Path.join directory standardName)
      else if holds directory ".git" then none
      else firstFound holds rest

def search (s : System) (start : String) : Option String :=
  firstFound s.holdsBelow (Path.ups start)

def Clear (s : System) (place : Place) : Prop :=
  s.holds place standardName = false ∧ s.holds place ".git" = false

/-- The search ends with a directory: there is a file in it, and the paths before it name no
directory with a reason to end. -/
structure EndsAt (s : System) (start directory : String) (q : Place) : Prop where
  before : ∃ before after, Path.ups start = before ++ directory :: after ∧
    ∀ other ∈ before, ∀ r, s.directory? other = some r → s.Clear r
  named : s.directory? directory = some q
  holds : s.holds q standardName = true

/-- The nearest of the directories around a directory, itself among them, that has a reason to end
the search has a file. -/
structure Nearest (s : System) (p q : Place) : Prop where
  contains : q <+: p
  holds : s.holds q standardName = true
  clear : ∀ r, q <+: r → r <+: p → r ≠ q → s.Clear r

theorem firstFound_eq_some {holds : String → String → Bool} {paths : List String} :
    firstFound holds paths = some path ↔ ∃ before directory after,
      paths = before ++ directory :: after ∧ path = Path.join directory standardName ∧
      holds directory standardName = true ∧
      ∀ other ∈ before, holds other standardName = false ∧ holds other ".git" = false := by
  induction paths with
  | nil => simp [firstFound]
  | cons first rest ih =>
      unfold firstFound
      constructor
      · intro found
        split at found
        next here =>
          cases found
          exact ⟨[], first, rest, rfl, rfl, here, by simp⟩
        next missing =>
          split at found
          next => cases found
          next free =>
            obtain ⟨before, directory, after, shape, same, here, clear⟩ := ih.mp found
            rw [Bool.not_eq_true] at missing free
            exact ⟨first :: before, directory, after, congrArg (first :: ·) shape, same, here,
              List.forall_mem_cons.mpr ⟨⟨missing, free⟩, clear⟩⟩
      · rintro ⟨before, directory, after, shape, same, here, clear⟩
        cases before with
        | nil =>
            obtain ⟨rfl, rfl⟩ := List.cons.inj shape
            rw [if_pos here, same]
        | cons other before =>
            obtain ⟨rfl, rfl⟩ := List.cons.inj shape
            obtain ⟨⟨missing, free⟩, clear⟩ := List.forall_mem_cons.mp clear
            rw [missing, free, if_neg Bool.false_ne_true, if_neg Bool.false_ne_true]
            exact ih.mpr ⟨before, directory, after, rfl, same, here, clear⟩

theorem search_eq_some :
    s.search start = some path ↔
      ∃ directory q, s.EndsAt start directory q ∧ path = Path.join directory standardName := by
  rw [search, firstFound_eq_some]
  constructor
  · rintro ⟨before, directory, after, shape, same, here, clear⟩
    obtain ⟨q, named, holds⟩ := holdsBelow_eq_true.mp here
    refine ⟨directory, q, ⟨⟨before, after, shape, fun other member r there => ?_⟩, named, holds⟩,
      same⟩
    obtain ⟨missing, free⟩ := clear other member
    exact ⟨holdsBelow_eq_false.mp missing r there, holdsBelow_eq_false.mp free r there⟩
  · rintro ⟨directory, q, ⟨⟨before, after, shape, clear⟩, named, holds⟩, same⟩
    refine ⟨before, directory, after, shape, same, holdsBelow_eq_true.mpr ⟨q, named, holds⟩,
      fun other member => ⟨?_, ?_⟩⟩
    · exact holdsBelow_eq_false.mpr fun r there => (clear other member r there).1
    · exact holdsBelow_eq_false.mpr fun r there => (clear other member r there).2

variable {before after : List String}

theorem exists_named_between (shape : Path.ups start = before ++ directory :: after)
    (direct : s.Direct start) (there : s.directory? start = some p)
    (named : s.directory? directory = some q) (below : q <+: r) (above : r <+: p) :
    ∃ other ∈ before ++ [directory], s.directory? other = some r := by
  induction before generalizing start p with
  | nil =>
      obtain rfl := ((Path.ups_split shape).resolve_right (by simp)).2
      cases there.symm.trans named
      have same : r = q := above.eq_of_length (Nat.le_antisymm above.length_le below.length_le)
      exact ⟨directory, by simp, same ▸ there⟩
  | cons first rest ih =>
      obtain ⟨higher, _, found, again, later⟩ := (Path.ups_split shape).resolve_left (by simp)
      cases again
      obtain ⟨part, around, split, there', turns⟩ := turns_of_parent direct found there
      by_cases here : r = p
      · exact ⟨first, by simp, here ▸ there⟩
      · -- any other directory that contains this one also contains the next one
        have higherUp : r <+: around := by
          cases turns with
          | stays => exact above
          | leaves => exact above.trans (List.prefix_append _ _)
          | enters => exact (List.prefix_concat_iff.mp above).resolve_left here
        obtain ⟨other, member, same⟩ := ih later (direct.of_components split) there' higherUp
        exact ⟨other, List.mem_cons_of_mem _ member, same⟩

/-- The search ends with the nearest directory if it ends with any that contains the start. -/
theorem EndsAt.nearest_iff (ends : s.EndsAt start directory q) (direct : s.Direct start)
    (there : s.directory? start = some p) : s.Nearest p q ↔ q <+: p := by
  refine ⟨Nearest.contains, fun contains => ⟨contains, ends.holds, fun r below above other => ?_⟩⟩
  obtain ⟨before, after, shape, clear⟩ := ends.before
  obtain ⟨path, member, named⟩ := exists_named_between shape direct there ends.named below above
  rcases List.mem_append.mp member with earlier | last
  · exact clear path earlier r named
  · obtain rfl := List.mem_singleton.mp last
    exact absurd (Option.some.inj (named.symm.trans ends.named)) other

theorem contains_of_names {behind : List PathComponent}
    (shape : Path.ups start = before ++ directory :: after) (direct : s.Direct start)
    (there : s.directory? start = some p) (named : s.directory? directory = some q)
    (split : Path.components start = Path.components directory ++ behind)
    (noUp : .up ∉ behind) : q <+: p := by
  induction before generalizing start p behind with
  | nil =>
      obtain rfl := ((Path.ups_split shape).resolve_right (by simp)).2
      cases there.symm.trans named
      exact List.prefix_rfl
  | cons first rest ih =>
      obtain ⟨higher, _, found, again, later⟩ := (Path.ups_split shape).resolve_left (by simp)
      cases again
      obtain ⟨part, around, split', there', turns⟩ := turns_of_parent direct found there
      have member : directory ∈ Path.ups higher := by
        rw [later]
        exact List.mem_append_right _ List.mem_cons_self
      obtain ⟨short, front⟩ := Path.components_of_mem_ups member
      have parts : behind = short ++ [part] := by
        rw [split', ← front, List.append_assoc] at split
        exact (List.append_cancel_left split).symm
      rw [parts, List.mem_append, not_or] at noUp
      have higherUp := ih later (direct.of_components split') there' front.symm noUp.1
      cases turns with
      | stays => exact higherUp
      | leaves => exact absurd (List.mem_singleton_self _) noUp.2
      | enters => exact higherUp.trans (List.prefix_append _ _)

end System

/-! ### The search in a tree -/

namespace Config

theorem findFileWithin_eq {t : FileTree} {directory : String} {fuel : Nat}
    (enough : (Path.ups directory).length ≤ fuel) :
    findFileWithin t directory fuel =
      System.firstFound (fun path name => t.exists? (Path.join path name))
        (Path.ups directory) := by
  induction fuel generalizing directory with
  | zero =>
      cases found : Path.parent? directory with
      | none => simp [Path.ups_of_top found] at enough
      | some above => simp [Path.ups_of_parent found] at enough
  | succ fuel ih =>
      unfold findFileWithin
      cases found : Path.parent? directory with
      | none =>
          rw [Path.ups_of_top found]
          rfl
      | some above =>
          rw [Path.ups_of_parent found] at enough ⊢
          have later := ih (Nat.le_of_succ_le_succ enough)
          simp only [System.firstFound, later]

/-- The search never runs out of fuel. -/
theorem findFile?_eq_search (t : FileTree) (start : String) :
    findFile? t start = t.system.search start := by
  have enough : (Path.ups start).length ≤ start.length + 2 := by
    have ups := Path.length_ups_le start
    have components := Path.length_components_le start
    omega
  have plain : Path.IsPlain standardName := ⟨⟨by decide, by decide, by decide⟩, by decide⟩
  have plain' : Path.IsPlain ".git" := ⟨⟨by decide, by decide, by decide⟩, by decide⟩
  have file (path : String) :
      t.exists? (Path.join path standardName) = t.system.holdsBelow path standardName :=
    FileTree.exists?_join plain (by decide) (by decide)
  have repository (path : String) :
      t.exists? (Path.join path ".git") = t.system.holdsBelow path ".git" :=
    FileTree.exists?_join plain' (by decide) (by decide)
  rw [findFile?, findFileWithin_eq enough, System.search]
  generalize Path.ups start = paths
  induction paths with
  | nil => rfl
  | cons first rest ih => simp only [System.firstFound, file, repository, ih]

/-- The search ends with the first path on the way up whose directory has a file, if none before it
has a reason to end. That is the nearest such directory of all that contain the start exactly if it
is one of them, as it is where the start goes on from it without a step up. -/
theorem findFile?_ancestors (s : System) (start : String) :
    (∀ t : FileTree, findFile? t start = t.system.search start) ∧
      (Path.ups start).length ≤ (Path.components start).length + 1 ∧
      (∀ path, s.search start = some path ↔
        ∃ directory q, s.EndsAt start directory q ∧ path = Path.join directory standardName) ∧
      ∀ directory p q, s.EndsAt start directory q → s.directory? start = some p → s.Direct start →
        (s.Nearest p q ↔ q <+: p) ∧
          (.up ∉ (Path.components start).drop (Path.components directory).length →
            s.Nearest p q) := by
  refine ⟨fun t => findFile?_eq_search t start, Path.length_ups_le start,
    fun path => System.search_eq_some, ?_⟩
  intro directory p q ends there direct
  have nearest := ends.nearest_iff direct there
  refine ⟨nearest, fun noUp => nearest.mpr ?_⟩
  obtain ⟨before, after, shape, _⟩ := ends.before
  have member : directory ∈ Path.ups start := by
    rw [shape]
    exact List.mem_append_right _ List.mem_cons_self
  obtain ⟨behind, split⟩ := Path.components_of_mem_ups member
  rw [← split, List.drop_left] at noUp
  exact System.contains_of_names shape direct there ends.named split.symm noUp

def nested : FileTree :=
  ⟨[], [(["a"], .directory), (["a", "b"], .directory), (["a", "b", "c"], .directory),
    (["a", "b", ".intlxrc.json"], .file (.text "\x7b\x7d"))]⟩

theorem findFile?_ancestors_nested :
    findFile? nested "a/b/c" = some "a/b/.intlxrc.json" ∧
      nested.system.Nearest ["a", "b", "c"] ["a", "b"] := by
  have ends : nested.system.EndsAt "a/b/c" "a/b" ["a", "b"] := by
    refine ⟨⟨["a/b/c"], ["a", ""], ?_, ?_⟩, by decide, by decide⟩
    · rw [Path.ups_of_parent (by decide : Path.parent? "a/b/c" = some "a/b"),
        Path.ups_of_parent (by decide : Path.parent? "a/b" = some "a"),
        Path.ups_of_parent (by decide : Path.parent? "a" = some ""), Path.ups_of_top (by decide)]
      rfl
    · intro other member r there
      obtain rfl := List.mem_singleton.mp member
      have named : nested.system.directory? "a/b/c" = some ["a", "b", "c"] := by decide
      obtain rfl := Option.some.inj (named.symm.trans there)
      exact ⟨by decide, by decide⟩
  obtain ⟨search, -, found, law⟩ := findFile?_ancestors nested.system "a/b/c"
  refine ⟨?_, (law _ _ _ ends (by decide) (FileTree.direct_system _ _)).2 (by decide)⟩
  rw [search]
  exact (found _).mpr ⟨_, _, ends, by decide⟩

/-- From a path that ends with a step up, the search goes down, into a directory that the start is
not in. -/
theorem findFile?_down :
    findFile? nested "a/b/.." = some "a/b/.intlxrc.json" ∧
      nested.locate "a/b/.." = .ok ["a"] ∧
      nested.locate "a/b/.intlxrc.json" = .ok ["a", "b", ".intlxrc.json"] ∧
      ¬["a", "b"] <+: ["a"] := by
  decide

end Config

end MessageCatalog
