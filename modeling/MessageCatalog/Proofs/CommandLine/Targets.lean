import MessageCatalog.Proofs.CommandLine.Summary
import MessageCatalog.Proofs.FileTree.Following
import MessageCatalog.Proofs.Path.Parents
import MessageCatalog.Proofs.Scan.Patterns

/-!
Targets of edited sources. The target of a source is told by the names of its path below the root of
the project, and an edited source stays at its target unless a later one has the same names. So
different files keep apart that are counted from one place. What is not below the root as a path is
counted from where it begins, at the root of the tree or at the working directory, and can meet a
file that is counted from somewhere else.
-/

namespace MessageCatalog.CommandLine

open FileTree (IsName)
open MessageCatalog.Path (IsPlain)

variable {t last : FileTree} {outDir root file file' : String}

/-- The names of a source in an output directory: those of its path below the root. -/
def mirrored (root file : String) : List String :=
  Path.names (Path.componentsBelow root file)

theorem isPlain_of_mirrored : ∀ name ∈ mirrored root file, IsPlain name :=
  fun _ => Path.isPlain_of_below

theorem relative_target (root file : String) :
    Path.isAbsolute (Path.ofNames (Path.componentsBelow root file)) = false :=
  Path.relative_ofNames isPlain_of_mirrored

theorem isAbsolute_targetOf (outDir root file : String) :
    Path.isAbsolute (targetOf outDir root file) = Path.isAbsolute outDir :=
  Path.isAbsolute_join outDir (relative_target root file)

theorem steps_targetOf (outDir : String) (present : mirrored root file ≠ []) :
    Path.steps (targetOf outDir root file) = Path.leading outDir ++ mirrored root file := by
  rw [targetOf, Path.steps_join outDir (relative_target root file),
    Path.steps_ofNames present isPlain_of_mirrored]
  rfl

theorem targetOf_eq_iff :
    targetOf outDir root file = targetOf outDir root file' ↔
      mirrored root file = mirrored root file' :=
  (Path.join_inj outDir (relative_target root file) (relative_target root file')).trans
    (Path.ofNames_inj isPlain_of_mirrored isPlain_of_mirrored)

/-- The place that the names of a source are counted from: the root of the project for a path below
it, and else where the path begins. -/
def countedFrom (t : FileTree) (root file : String) : Except AccessError Place :=
  if Path.startsWith file root && !root.isEmpty then t.locate root else .ok (t.origin file)

/-- Two paths are counted alike: neither steps up, and the names of both are counted from one
place. -/
structure CountedAlike (t : FileTree) (root file file' : String) : Prop where
  stays : .up ∉ Path.componentsBelow root file
  stays' : .up ∉ Path.componentsBelow root file'
  origin : countedFrom t root file = countedFrom t root file'

theorem countedFrom_cases {above : Place}
    (opened : (Path.componentsAbove root file).foldlM t.follow (t.origin file) = .ok above) :
    (countedFrom t root file = t.locate root ∧
      (Path.components root).foldlM t.follow (t.origin root) = .ok above) ∨
      countedFrom t root file = .ok above := by
  unfold countedFrom
  split
  next counted =>
    rw [Bool.and_eq_true, Bool.not_eq_true', Bool.eq_false_iff, ne_eq, String.isEmpty_iff]
      at counted
    rw [Path.componentsAbove, if_pos counted.1, FileTree.origin,
      Path.isAbsolute_of_startsWith counted.2 counted.1] at opened
    exact .inl ⟨rfl, opened⟩
  next other =>
    rw [Bool.and_eq_true, not_and, Bool.not_eq_true', Bool.eq_false_iff, not_not,
      String.isEmpty_iff] at other
    unfold Path.componentsAbove at opened
    split at opened
    next below =>
      rw [other below] at opened
      exact .inr opened
    next => exact .inr opened

theorem targetOf_eq_iff_place {place place' : Place} (found : t.locate file = .ok place)
    (found' : t.locate file' = .ok place') (alike : CountedAlike t root file file') :
    targetOf outDir root file = targetOf outDir root file' ↔ place = place' := by
  obtain ⟨above, opened, rfl⟩ := FileTree.place_of_below alike.stays found
  obtain ⟨above', opened', rfl⟩ := FileTree.place_of_below alike.stays' found'
  have one := alike.origin
  have same : above = above' := by
    rcases countedFrom_cases opened with ⟨root, led⟩ | here <;>
      rcases countedFrom_cases opened' with ⟨root', led'⟩ | here'
    · exact Except.ok.inj (led.symm.trans led')
    · rw [root, here'] at one
      exact Except.ok.inj (led.symm.trans (FileTree.follow_components one))
    · rw [here, root'] at one
      exact Except.ok.inj ((FileTree.follow_components one.symm).symm.trans led')
    · exact Except.ok.inj (here.symm.trans (one.trans here'))
  rw [targetOf_eq_iff, same]
  exact (List.append_right_inj above').symm

/-- The same names from the root of the tree and from the working directory. -/
example : targetOf "out" "./app" "/app/lib/a.ts" = targetOf "out" "./app" "app/lib/a.ts" ∧
    countedFrom ⟨["work"], []⟩ "./app" "/app/lib/a.ts" = .ok [] ∧
    countedFrom ⟨["work"], []⟩ "./app" "app/lib/a.ts" = .ok ["work"] := by
  decide +kernel

/-- No include is a pattern, and none leads out of the directory that it is taken from. -/
def Inward (includes : List String) : Prop :=
  ∀ entry ∈ includes, Glob.isPattern entry = false ∧ Path.isAbsolute entry = false ∧
    ".." ∉ Path.steps entry

variable {includes ignores : List String} {ignoreTests : Bool} {start : String}

theorem components_of_start (inward : Inward includes)
    (member : start ∈ Scan.starts t root includes) :
    ∃ behind, Path.components start = Path.components root ++ behind ∧ .up ∉ behind ∧
      .root ∉ behind := by
  unfold Scan.starts at member
  split at member
  next =>
    cases List.mem_singleton.mp member
    exact ⟨[], (List.append_nil _).symm, List.not_mem_nil, List.not_mem_nil⟩
  next =>
    obtain ⟨entry, among, start⟩ := List.mem_flatMap.mp member
    obtain ⟨literal, relative, noUp⟩ := inward entry among
    cases Scan.mem_startsOf.mp start with
    | directory wild => cases literal.symm.trans wild
    | path =>
        by_cases present : root = ""
        · rw [present, Path.join_of_empty]
          exact ⟨_, rfl, Path.up_not_mem_components noUp, Path.root_not_mem_components relative⟩
        · exact ⟨_, Path.components_join present relative, Path.up_not_mem_ofStep noUp,
            Path.root_not_mem_ofStep _⟩

theorem below_of_inward
    (named : ∀ entry ∈ t.entries, ∀ name ∈ entry.1, IsPlain name)
    (inward : Inward includes) (member : file ∈ (scan t root includes ignores ignoreTests).files) :
    Path.startsWith file root = true ∧ .up ∉ Path.componentsBelow root file ∧
      .root ∉ Path.componentsBelow root file := by
  obtain ⟨start, starts, listed⟩ := (mem_scan_files.mp member).1
  obtain ⟨way, under⟩ := (Scan.mem_listed.mp listed).components named
  obtain ⟨behind, shape, noUp, noRoot⟩ := components_of_start inward starts
  rw [shape, List.append_assoc] at under
  obtain ⟨below, found⟩ := Path.componentsBelow_of_components under
  rw [below, found, List.mem_append, not_or, List.mem_append, not_or]
  exact ⟨rfl, ⟨noUp, by simp⟩, noRoot, by simp⟩

theorem countedFrom_of_below (below : Path.startsWith file root = true)
    (noRoot : .root ∉ Path.componentsBelow root file) :
    countedFrom t root file = if root = "" then .ok t.working else t.locate root := by
  unfold countedFrom
  rw [below, Bool.true_and]
  by_cases top : root = ""
  · subst top
    have relative : Path.isAbsolute file = false := by
      refine Bool.eq_false_iff.mpr fun absolute => noRoot ?_
      rw [Path.componentsBelow, if_pos below]
      exact List.mem_of_mem_head? (Path.root_head_iff.mpr absolute)
    rw [FileTree.origin, relative]
    rfl
  · rw [if_neg top, if_pos]
    simpa [String.isEmpty_iff] using top

/-! ### Writing -/

theorem mirrored_ne_nil_of_writeText {content : String}
    (success : t.writeText (targetOf outDir root file) content = .ok last) :
    mirrored root file ≠ [] := by
  intro nothing
  have unnamed : Path.ofNames (Path.componentsBelow root file) = "" :=
    congrArg (String.intercalate "/") nothing
  rw [targetOf, unnamed] at success
  rcases Path.join_empty outDir with empty | ⟨front, slash⟩
  · rw [empty] at success
    exact writeText_empty t last content success
  · exact FileTree.writeText_slash slash success

theorem target_ends (outDir : String) (present : mirrored root file ≠ []) :
    ∃ before name, Path.steps (targetOf outDir root file) = before ++ [name] ∧ IsName name := by
  obtain ⟨before, name, ends⟩ := (List.eq_nil_or_concat' (mirrored root file)).resolve_left present
  have among : name ∈ mirrored root file := by simp [ends]
  refine ⟨Path.leading outDir ++ before, name, ?_, (isPlain_of_mirrored name among).1⟩
  rw [steps_targetOf outDir present, ends, List.append_assoc]

theorem readText_writeEdited {o : Build.Product}
    (success : writeEdited outDir root t o = (last, none)) :
    mirrored root o.source.file ≠ [] ∧
      last.readText (targetOf outDir root o.source.file) = .ok o.edited := by
  obtain ⟨made, -, wrote⟩ := writeEdited_eq_ok success
  have present := mirrored_ne_nil_of_writeText wrote
  obtain ⟨before, name, shape, named⟩ := target_ends outDir present
  exact ⟨present, FileTree.readText_writeText shape named wrote⟩

theorem writeEdited_keeps {o : Build.Product} {content : String}
    (present : mirrored root file ≠ []) (apart : mirrored root o.source.file ≠ mirrored root file)
    (read : t.readText (targetOf outDir root file) = .ok content)
    (success : writeEdited outDir root t o = (last, none)) :
    last.readText (targetOf outDir root file) = .ok content := by
  obtain ⟨made, around, wrote⟩ := writeEdited_eq_ok success
  obtain ⟨before, name, shape, named⟩ := target_ends outDir present
  have still := (around fun _ => True).readText shape named trivial read
  have present' := mirrored_ne_nil_of_writeText wrote
  have begins : Path.isAbsolute (targetOf outDir root file) =
      Path.isAbsolute (targetOf outDir root o.source.file) := by
    rw [isAbsolute_targetOf, isAbsolute_targetOf]
  exact FileTree.readText_apart (steps_targetOf outDir present)
    (fun name member => (isPlain_of_mirrored name member).1) (steps_targetOf outDir present')
    present' (fun name member => (isPlain_of_mirrored name member).1) apart begins still wrote

theorem writeAll_keeps {products : List Build.Product} {content : String}
    (present : mirrored root file ≠ [])
    (apart : ∀ o ∈ products, mirrored root o.source.file ≠ mirrored root file)
    (read : t.readText (targetOf outDir root file) = .ok content)
    (success : writeAll outDir root t products = (last, none)) :
    last.readText (targetOf outDir root file) = .ok content := by
  induction products generalizing t with
  | nil =>
      cases success
      exact read
  | cons first rest ih =>
      obtain ⟨here, others⟩ := List.forall_mem_cons.mp apart
      rw [writeAll_cons] at success
      rcases wrote : writeEdited outDir root t first with ⟨next, _ | e⟩
      all_goals rw [wrote] at success
      · exact ih others (writeEdited_keeps present here read wrote) success
      · cases success

theorem readText_writeAll {front back : List Build.Product} {o : Build.Product}
    (apart : ∀ o' ∈ back, mirrored root o'.source.file ≠ mirrored root o.source.file)
    (success : writeAll outDir root t (front ++ o :: back) = (last, none)) :
    last.readText (targetOf outDir root o.source.file) = .ok o.edited := by
  induction front generalizing t with
  | nil =>
      rw [List.nil_append, writeAll_cons] at success
      rcases wrote : writeEdited outDir root t o with ⟨next, _ | e⟩
      all_goals rw [wrote] at success
      · obtain ⟨present, read⟩ := readText_writeEdited wrote
        exact writeAll_keeps present apart read success
      · cases success
  | cons first rest ih =>
      rw [List.cons_append, writeAll_cons] at success
      rcases wrote : writeEdited outDir root t first with ⟨next, _ | e⟩
      all_goals rw [wrote] at success
      · exact ih success
      · cases success

/-! ### The command -/

theorem Finishes.writes {a : ExtractArguments} {p : Project} {run : Project.Run} {edited : Nat}
    (finishes : Finishes a t p run last edited) (told : a.outDir = some outDir) :
    writeAll outDir a.root (p.run .write t).1 run.products = (last, none) := by
  have edits := finishes.edits
  rw [told] at edits
  rw [← (Project.load_eq_ok finishes.loaded).1]
  exact edits.1

/-- When the command has come to an end, an edited source is at its target, unless a source behind
it has the same target. Two sources have one target exactly if they have the same names below the
root; and if they are counted alike, exactly if they are one file. All sources of a project with
inward includes are counted alike. -/
theorem runExtract_targets {a : ExtractArguments} {t : FileTree} {outDir : String}
    (told : a.outDir = some outDir) (whole : (runExtract a t).status ≠ .broken) :
    ∃ p run, Project.load t a.root a.overrides = .ok p ∧ (p.run .write t).2 = .ok run ∧
      let target := targetOf outDir a.root
      (∀ o ∈ run.products, ∀ o' ∈ run.products,
        (target o.source.file = target o'.source.file ↔
          mirrored a.root o.source.file = mirrored a.root o'.source.file) ∧
        (CountedAlike t a.root o.source.file o'.source.file →
          (target o.source.file = target o'.source.file ↔
            t.locate o.source.file = t.locate o'.source.file)) ∧
        ((∀ entry ∈ t.entries, ∀ name ∈ entry.1, IsPlain name) →
          Inward p.config.includes → CountedAlike t a.root o.source.file o'.source.file)) ∧
      ∀ front o back, run.products = front ++ o :: back →
        (∀ o' ∈ back, target o'.source.file ≠ target o.source.file) →
        (runExtract a t).tree.readText (target o.source.file) = .ok o.edited := by
  obtain ⟨p, run, last, edited, notes, finishes, ends⟩ :=
    (runExtract_ends a t).resolve_left fun breaks => whole breaks.1
  refine ⟨p, run, finishes.loaded, finishes.ran, fun o member o' member' => ?_,
    fun front o back shape apart => ?_⟩
  · obtain ⟨listed, content, read⟩ := Project.file_of_products finishes.ran o member
    obtain ⟨listed', content', read'⟩ := Project.file_of_products finishes.ran o' member'
    obtain ⟨place, found, -⟩ := FileTree.readText_eq_ok_iff.mp read
    obtain ⟨place', found', -⟩ := FileTree.readText_eq_ok_iff.mp read'
    refine ⟨targetOf_eq_iff, fun alike => ?_, fun named inward => ?_⟩
    · rw [targetOf_eq_iff_place found found' alike, found, found', Except.ok.injEq]
    · rw [(Project.load_eq_ok finishes.loaded).2] at listed listed'
      obtain ⟨below, stays, noRoot⟩ := below_of_inward named inward listed
      obtain ⟨below', stays', noRoot'⟩ := below_of_inward named inward listed'
      refine ⟨stays, stays', ?_⟩
      rw [countedFrom_of_below below noRoot, countedFrom_of_below below' noRoot']
  · have wrote := finishes.writes told
    rw [shape] at wrote
    rw [ends, conclude_tree]
    exact readText_writeAll (fun o' member same => apart o' member (targetOf_eq_iff.mpr same)) wrote

def mirroring (root : String) : ExtractArguments :=
  { ExtractArguments.ofGiven .empty with root, outDir := some "out" }

def twinTree : FileTree :=
  ⟨["app"], [(["app", "src"], .directory),
    (["app", "src", "a.ts"], .file (.text "const a = 1;\n")), (["app", "src", "lib"], .directory),
    (["app", "src", "lib", "a.ts"], .file (.text "const b = 2;\n"))]⟩

def twinProject : Project :=
  ⟨{}, ".", false, ["./src/a.ts", "./src/lib/a.ts"], 0⟩

theorem runExtract_targets_twins :
    ∃ first second : Build.Product, (runExtract (mirroring ".") twinTree).status = .success ∧
      first.source.file = "./src/a.ts" ∧ second.source.file = "./src/lib/a.ts" ∧
      targetOf "out" "." first.source.file ≠ targetOf "out" "." second.source.file ∧
      (runExtract (mirroring ".") twinTree).tree.readText "out/src/a.ts" = .ok first.edited ∧
      (runExtract (mirroring ".") twinTree).tree.readText "out/src/lib/a.ts" =
        .ok second.edited := by
  have success : (runExtract (mirroring ".") twinTree).status = .success := by decide +kernel
  have project : Project.load twinTree "." {} = .ok twinProject := by decide +kernel
  obtain ⟨p, run, loaded, done, apart, intact⟩ :=
    runExtract_targets (a := mirroring ".") (t := twinTree) rfl (by rw [success]; decide)
  obtain rfl := Except.ok.inj (loaded.symm.trans project)
  obtain ⟨_, done', products, -⟩ :=
    Project.run_of_told (twinProject.run .write twinTree).2
      (show Project.told _ = some (twinProject.files, false, []) by decide +kernel)
  obtain rfl := Except.ok.inj (done.symm.trans done')
  obtain ⟨first, others, shape, here, behind⟩ := List.map_eq_cons_iff.mp products
  obtain ⟨second, rest, rfl, there, nothing⟩ := List.map_eq_cons_iff.mp behind
  obtain rfl := List.map_eq_nil_iff.mp nothing
  have named : ∀ entry ∈ twinTree.entries, ∀ name ∈ entry.1, IsPlain name := by
    unfold IsPlain IsName
    decide +kernel
  have inward : Inward twinProject.config.includes := by
    unfold Inward
    decide +kernel
  have different : twinTree.locate "./src/lib/a.ts" ≠ twinTree.locate "./src/a.ts" := by
    decide +kernel
  have distinct : targetOf "out" "." second.source.file ≠ targetOf "out" "." first.source.file := by
    refine fun meet => different ?_
    rw [← here, ← there]
    obtain ⟨-, decided, alike⟩ := apart second (by simp [shape]) first (by simp [shape])
    exact (decided (alike named inward)).mp meet
  have first' := intact [] first [second] shape (List.forall_mem_singleton.mpr distinct)
  have second' := intact [first] second [] shape (by simp)
  refine ⟨first, second, success, here, there, distinct.symm, ?_, ?_⟩
  · rw [here] at first'
    exact first'
  · rw [there] at second'
    exact second'

/-- A source below the directory of the project, and one in a directory of that name inside it. A
pattern finds the one by a path without a dot in front, which the root has. -/
def meetingTree : FileTree :=
  ⟨["work"], [(["work", "app"], .directory), (["work", "app", ".intlxrc.json"],
      .file (.text "\x7b \"includes\": [\"lib*\", \"app\"] \x7d")),
    (["work", "app", "lib"], .directory),
    (["work", "app", "lib", "a.ts"], .file (.text "export const x = 1;\n")),
    (["work", "app", "app"], .directory), (["work", "app", "app", "lib"], .directory),
    (["work", "app", "app", "lib", "a.ts"], .file (.text "export const y = 2;\n"))]⟩

/-- Both sources are counted as written, but they have one target, and the text of one is lost. -/
theorem runExtract_targets_meet :
    let outcome := runExtract (mirroring "./app") meetingTree
    (Project.load meetingTree "./app" {}).toOption.map Project.files =
        some ["./app/app/lib/a.ts", "app/lib/a.ts"] ∧
      outcome.status = .success ∧
      outcome.output = "✓ Extracted 0 messages from 2 source files\n  rewrote 2 source files\n" ∧
      meetingTree.readText "app/lib/a.ts" = .ok "export const x = 1;\n" ∧
      meetingTree.readText "./app/app/lib/a.ts" = .ok "export const y = 2;\n" ∧
      targetOf "out" "./app" "app/lib/a.ts" = targetOf "out" "./app" "./app/app/lib/a.ts" ∧
      meetingTree.changesSince outcome.tree = [("out/app/lib/a.ts", "export const x = 1;\n")] := by
  decide +kernel

end MessageCatalog.CommandLine
