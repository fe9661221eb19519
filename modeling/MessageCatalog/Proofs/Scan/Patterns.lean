import Mathlib.Data.List.Sort
import MessageCatalog.Proofs.Path.Joining
import MessageCatalog.Proofs.Scan.Ordered

/-!
What the patterns of a scan mean. A path is listed exactly if one of the includes names a start that
it lies under, none of the ignores covers it, and it is a file that can be scanned. So includes add
up, ignores cut down, and neither their order nor their repetition matters.
-/

namespace MessageCatalog

namespace Scan

open MessageCatalog.Path (IsPlain)

/-- What an include names: the path itself if it is there, or the directories that match it. -/
inductive Names (t : FileTree) (base entry : String) : String → Prop
  | path (literal : Glob.isPattern entry = false)
      (there : t.exists? (Path.join base entry) = true) : Names t base entry (Path.join base entry)
  | directory {found : List String} {start : String} (wild : Glob.isPattern entry = true)
      (expanded : Glob.expand t (Path.join base entry) = .ok found) (among : start ∈ found)
      (directory : t.isDirectory start = true) : Names t base entry start

/-- A path leads from a start to a node at or below the place of the start, name by name. -/
def LiesUnder (t : FileTree) (start path : String) : Prop :=
  ∃ place way, t.locate start = .ok place ∧
    (way = [] ∨ ∃ node, (place ++ way, node) ∈ t.entries) ∧ path = way.foldl Path.join start

def Included (t : FileTree) (base : String) (includes : List String) (path : String) : Prop :=
  ∃ entry ∈ includes, ∃ start, Names t base entry start ∧ LiesUnder t start path

variable {t : FileTree} {base entry start path : String} {includes ignores : List String}
  {ignoreTests : Bool}

theorem mem_startsOf : start ∈ startsOf t base entry ↔ Names t base entry start := by
  unfold startsOf
  dsimp only
  constructor
  · intro member
    split at member
    next wild =>
      split at member
      next found expanded =>
        obtain ⟨among, directory⟩ := List.mem_filter.mp member
        exact .directory wild expanded among directory
      next => cases member
    next literal =>
      split at member
      next there =>
        cases List.mem_singleton.mp member
        exact .path (Bool.eq_false_iff.mpr literal) there
      next => cases member
  · intro names
    cases names with
    | path literal there => simp [literal, there]
    | directory wild expanded among directory =>
        rw [if_pos wild, expanded]
        exact List.mem_filter.mpr ⟨among, directory⟩

theorem mem_waysBelow {place way : Place} :
    way ∈ t.waysBelow place ↔ way ≠ [] ∧ ∃ node, (place ++ way, node) ∈ t.entries := by
  unfold FileTree.waysBelow
  rw [List.mem_filterMap]
  constructor
  · rintro ⟨⟨found, node⟩, member, shape⟩
    dsimp only at shape
    split at shape
    next below =>
      cases shape
      rw [Bool.and_eq_true, List.isPrefixOf_iff_prefix, decide_eq_true_iff] at below
      obtain ⟨⟨way, rfl⟩, longer⟩ := below
      rw [List.drop_left]
      refine ⟨?_, node, member⟩
      rintro rfl
      simp at longer
    next => cases shape
  · rintro ⟨some, node, member⟩
    refine ⟨_, member, ?_⟩
    dsimp only
    rw [if_pos, List.drop_left]
    simpa [List.isPrefixOf_iff_prefix] using List.length_pos_of_ne_nil some

theorem mem_listed :
    (∃ paths, listed t start = some paths ∧ path ∈ paths) ↔ LiesUnder t start path := by
  unfold listed LiesUnder
  cases t.locate start with
  | error e => simp
  | ok place =>
      constructor
      · rintro ⟨paths, shape, member⟩
        cases shape
        rcases List.mem_cons.mp member with rfl | below
        · exact ⟨place, [], rfl, .inl rfl, rfl⟩
        · obtain ⟨way, among, rfl⟩ := List.mem_map.mp below
          exact ⟨place, way, rfl, .inr (mem_waysBelow.mp among).2, rfl⟩
      · rintro ⟨found, way, located, node, rfl⟩
        cases located
        refine ⟨_, rfl, ?_⟩
        by_cases here : way = []
        · subst here
          exact List.mem_cons_self
        · refine List.mem_cons_of_mem _ (List.mem_map_of_mem (mem_waysBelow.mpr ⟨here, ?_⟩))
          exact node.resolve_left here

theorem included_iff_starts (some : includes ≠ []) :
    (∃ start ∈ starts t base includes, ∃ paths, listed t start = .some paths ∧ path ∈ paths) ↔
      Included t base includes path := by
  rw [starts, if_neg (by simpa using some)]
  simp only [mem_listed, List.mem_flatMap, mem_startsOf]
  constructor
  · rintro ⟨start, ⟨entry, among, names⟩, under⟩
    exact ⟨entry, among, start, names, under⟩
  · rintro ⟨entry, among, start, names, under⟩
    exact ⟨start, ⟨entry, among, names⟩, under⟩

theorem LiesUnder.components (under : LiesUnder t start path)
    (named : ∀ entry ∈ t.entries, ∀ name ∈ entry.1, IsPlain name) :
    ∃ way : Place, Path.components path = Path.components start ++ way.map .name := by
  obtain ⟨place, way, located, node, rfl⟩ := under
  have present : start ≠ "" := by
    rintro rfl
    cases located
  have proper : ∀ name ∈ way, IsPlain name := by
    rcases node with rfl | ⟨node, member⟩
    · nofun
    · exact fun name among => named _ member name (List.mem_append_right place among)
  refine ⟨way, ?_⟩
  clear located node
  induction way generalizing start with
  | nil => exact (List.append_nil _).symm
  | cons first rest ih =>
      obtain ⟨here, others⟩ := List.forall_mem_cons.mp proper
      have longer := Path.components_join_name present here
      have joined : Path.join start first ≠ "" := by
        intro empty
        rw [empty] at longer
        simp [Path.components, Path.isAbsolute, Path.steps, Path.ofStep] at longer
      rw [List.foldl_cons, ih joined others, longer, List.append_assoc]
      rfl

theorem LiesUnder.startsWith (under : LiesUnder t start path)
    (named : ∀ entry ∈ t.entries, ∀ name ∈ entry.1, IsPlain name) :
    Path.startsWith path start = true := by
  obtain ⟨way, shape⟩ := under.components named
  rw [Path.startsWith, List.isPrefixOf_iff_prefix, shape]
  exact List.prefix_append _ _

/-! ### Ignores -/

/-- A path is ignored if it is at or below an ignore, or matches one that is a pattern; one that
cannot be read matches nothing. -/
inductive Ignored (base : String) (ignores : List String) (ignoreTests : Bool) (path : String) :
    Prop
  | below {ignore : String} (among : ignore ∈ ignores) (literal : Glob.isPattern ignore = false)
      (below : Path.startsWith path (Path.join base ignore) = true)
  | pattern {ignore : String} {pattern : Glob.Pattern} (among : ignore ∈ ignores)
      (wild : Glob.isPattern ignore = true) (valid : Glob.Pattern.parse ignore = .ok pattern)
      (same : pattern.matches path.toList = true)
  | test {text : String} {pattern : Glob.Pattern} (on : ignoreTests = true)
      (among : text ∈ testPatterns) (valid : Glob.Pattern.parse text = .ok pattern)
      (same : pattern.matches path.toList = true)

theorem mem_readable {patterns : List String} {pattern : Glob.Pattern} :
    pattern ∈ readable patterns ↔ ∃ text ∈ patterns, Glob.Pattern.parse text = .ok pattern := by
  unfold readable
  rw [List.mem_filterMap]
  refine exists_congr fun text => and_congr_right' ?_
  cases Glob.Pattern.parse text <;> simp [Except.toOption]

theorem covers_iff :
    (Ignores.ofList base ignores ignoreTests).covers path = true ↔
      Ignored base ignores ignoreTests path := by
  rw [Ignores.covers, Bool.or_eq_true, List.any_eq_true, List.any_eq_true]
  constructor
  · rintro (⟨ignored, member, below⟩ | ⟨pattern, member, same⟩)
    · obtain ⟨ignore, kept, rfl⟩ := List.mem_map.mp member
      obtain ⟨among, literal⟩ := List.mem_filter.mp kept
      exact .below among (by simpa using literal) below
    · rcases List.mem_append.mp member with given | test
      · obtain ⟨ignore, kept, valid⟩ := mem_readable.mp given
        obtain ⟨among, wild⟩ := List.mem_filter.mp kept
        exact .pattern among wild valid same
      · split at test
        next on =>
          obtain ⟨text, among, valid⟩ := mem_readable.mp test
          exact .test on among valid same
        next => cases test
  · intro ignored
    cases ignored with
    | below among literal below =>
        refine .inl ⟨_, List.mem_map_of_mem (List.mem_filter.mpr ⟨among, ?_⟩), below⟩
        simpa using literal
    | pattern among wild valid same =>
        refine .inr ⟨_, List.mem_append_left _ (mem_readable.mpr ⟨_, ?_, valid⟩), same⟩
        exact List.mem_filter.mpr ⟨among, wild⟩
    | test on among valid same =>
        refine .inr ⟨_, List.mem_append_right _ ?_, same⟩
        rw [if_pos on]
        exact mem_readable.mpr ⟨_, among, valid⟩

/-! ### Files -/

theorem mem_files_iff (some : includes ≠ []) :
    path ∈ (scan t base includes ignores ignoreTests).files ↔
      Included t base includes path ∧ ¬Ignored base ignores ignoreTests path ∧
        t.isFile path = true ∧ isScannable path = true := by
  rw [mem_scan_files, included_iff_starts some, isListed, Bool.and_eq_true, Bool.and_eq_true,
    Bool.not_eq_true', Bool.eq_false_iff, ne_eq, covers_iff, and_assoc]

variable {more : List String}

theorem included_append :
    Included t base (includes ++ more) path ↔
      Included t base includes path ∨ Included t base more path := by
  simp only [Included, List.mem_append, or_and_right, exists_or]

theorem Included.mono (fewer : includes ⊆ more) (included : Included t base includes path) :
    Included t base more path := by
  obtain ⟨entry, among, found⟩ := included
  exact ⟨entry, fewer among, found⟩

theorem Ignored.mono (fewer : ignores ⊆ more) (ignored : Ignored base ignores ignoreTests path) :
    Ignored base more ignoreTests path := by
  cases ignored with
  | below among literal below => exact .below (fewer among) literal below
  | pattern among wild valid same => exact .pattern (fewer among) wild valid same
  | test on among valid same => exact .test on among valid same

theorem ignored_append :
    Ignored base (ignores ++ more) ignoreTests path ↔
      Ignored base ignores ignoreTests path ∨ Ignored base more ignoreTests path := by
  constructor
  · intro ignored
    cases ignored with
    | below among literal below =>
        exact (List.mem_append.mp among).imp (.below · literal below) (.below · literal below)
    | pattern among wild valid same =>
        exact (List.mem_append.mp among).imp (.pattern · wild valid same)
          (.pattern · wild valid same)
    | test on among valid same => exact .inl (.test on among valid same)
  · rintro (ignored | ignored)
    · exact ignored.mono (List.subset_append_left _ _)
    · exact ignored.mono (List.subset_append_right _ _)

theorem files_eq_of_mem {others ignored : List String} (some : includes ≠ [])
    (same : ∀ entry, entry ∈ others ↔ entry ∈ includes)
    (sameIgnores : ∀ entry, entry ∈ ignored ↔ entry ∈ ignores) :
    (scan t base others ignored ignoreTests).files =
      (scan t base includes ignores ignoreTests).files := by
  have someOthers : others ≠ [] := by
    obtain ⟨first, rest, rfl⟩ := List.exists_cons_of_ne_nil some
    exact List.ne_nil_of_mem ((same first).mpr List.mem_cons_self)
  refine List.Pairwise.eq_of_mem_iff (scan_files_pairwise ..) (scan_files_pairwise ..)
    fun path => ?_
  rw [mem_files_iff someOthers, mem_files_iff some]
  refine and_congr ⟨.mono fun _ => (same _).mp, .mono fun _ => (same _).mpr⟩
    (and_congr_left' (not_congr ⟨.mono fun _ => (sameIgnores _).mp, .mono fun _ => ?_⟩))
  exact (sameIgnores _).mpr

end Scan

open Scan (Included Ignored Names)

/-- A scan distributes over its patterns. The files of more includes are those of the one part or of
the other, and the files that more ignores leave are those that each part leaves. So order and
repetition do not matter, and another ignore adds no file. The files are listed once each, in order;
each of them is a file that can be scanned, lies under what one of the includes names, and is
covered by no ignore; and every such path is listed. -/
theorem scan_distributes (t : FileTree) (base : String) (ignoreTests : Bool)
    (includes more ignores others : List String) (some : includes ≠ []) (someMore : more ≠ []) :
    let files := fun includes ignores => (scan t base includes ignores ignoreTests).files
    (∀ path, path ∈ files (includes ++ more) ignores ↔
      path ∈ files includes ignores ∨ path ∈ files more ignores) ∧
    (∀ path, path ∈ files includes (ignores ++ others) ↔
      path ∈ files includes ignores ∧ path ∈ files includes others) ∧
    (∀ includes' ignores', (∀ entry, entry ∈ includes' ↔ entry ∈ includes) →
      (∀ entry, entry ∈ ignores' ↔ entry ∈ ignores) →
      files includes' ignores' = files includes ignores) ∧
    (∀ ignores', ignores ⊆ ignores' → files includes ignores' ⊆ files includes ignores) ∧
    (files includes ignores).Pairwise (· < ·) ∧
    (∀ path, path ∈ files includes ignores ↔ Included t base includes path ∧
      ¬Ignored base ignores ignoreTests path ∧ t.isFile path = true ∧
      Scan.isScannable path = true) ∧
    ((∀ entry ∈ t.entries, ∀ name ∈ entry.1, FileTree.IsName name ∧ '/' ∉ name.toList) →
      ∀ path ∈ files includes ignores, ∃ entry ∈ includes, ∃ start,
        Names t base entry start ∧ Path.startsWith path start = true) := by
  have someBoth : includes ++ more ≠ [] := List.append_ne_nil_of_left_ne_nil some more
  refine ⟨fun path => ?_, fun path => ?_, fun _ _ => Scan.files_eq_of_mem some,
    fun ignores' fewer path => ?_, scan_files_pairwise .., fun path => Scan.mem_files_iff some,
    fun named path member => ?_⟩
  · rw [Scan.mem_files_iff someBoth, Scan.mem_files_iff some, Scan.mem_files_iff someMore,
      Scan.included_append, or_and_right]
  · rw [Scan.mem_files_iff some, Scan.mem_files_iff some, Scan.mem_files_iff some,
      Scan.ignored_append]
    tauto
  · rw [Scan.mem_files_iff some, Scan.mem_files_iff some]
    rintro ⟨included, spared, file⟩
    exact ⟨included, fun ignored => spared (ignored.mono fewer), file⟩
  · obtain ⟨entry, among, start, names, under⟩ := ((Scan.mem_files_iff some).mp member).1
    exact ⟨entry, among, start, names, under.startsWith named⟩

def nestedTree : FileTree :=
  ⟨["app"], [(["app", "src"], .directory), (["app", "src", "a.ts"], .file (.text "")),
    (["app", "src", "old"], .directory), (["app", "src", "old", "b.ts"], .file (.text "")),
    (["app", "lib"], .directory), (["app", "lib", "c.ts"], .file (.text ""))]⟩

theorem scan_distributes_nested :
    let files := fun includes ignores => (scan nestedTree "." includes ignores true).files
    files ["l*", "src/old"] ["src/old"] = ["lib/c.ts"] ∧
      "lib/c.ts" ∈ files (["src"] ++ ["l*", "src/old"]) ["src/old"] ∧
      "./src/old/b.ts" ∉ files ["src"] (["src/old"] ++ ["[*"]) ∧
      files ["src", "src"] ["src/old", "src/old"] = files ["src"] ["src/old"] ∧
      ∃ start, Names nestedTree "." "src" start ∧ Path.startsWith "./src/a.ts" start = true := by
  have found : (scan nestedTree "." ["l*", "src/old"] ["src/old"] true).files = ["lib/c.ts"] := by
    decide +kernel
  have left : (scan nestedTree "." ["src"] ["src/old"] true).files = ["./src/a.ts"] := by
    decide +kernel
  have proper : ∀ entry ∈ nestedTree.entries, ∀ name ∈ entry.1,
      FileTree.IsName name ∧ '/' ∉ name.toList := by
    unfold FileTree.IsName
    decide +kernel
  obtain ⟨union, inter, same, -, -, -, under⟩ :=
    scan_distributes nestedTree "." true ["src"] ["l*", "src/old"] ["src/old"] ["[*"]
      (List.cons_ne_nil _ _) (List.cons_ne_nil _ _)
  refine ⟨found, (union _).mpr (.inr ?_), fun listed => ?_, same _ _ (by simp) (by simp), ?_⟩
  · dsimp only
    rw [found]
    exact List.mem_singleton_self _
  · have kept := ((inter _).mp listed).1
    dsimp only at kept
    rw [left] at kept
    simp at kept
  · obtain ⟨entry, among, names⟩ :=
      under proper "./src/a.ts" (by dsimp only; rw [left]; exact List.mem_singleton_self _)
    cases List.mem_singleton.mp among
    exact names

end MessageCatalog
