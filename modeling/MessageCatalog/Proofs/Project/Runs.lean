import MessageCatalog.Proofs.Project.Preview
import MessageCatalog.Proofs.Scan.Ordered

/-!
Runs over a project. A run takes the files that are sources in the order of their paths, up to the
first whose extraction fails. What it comes to is determined by these sources alone: a file that is
none has one issue of its own, and no part in anything else.
-/

namespace MessageCatalog

namespace Project

open Build (Product State Yields yields_of_eq)

variable {p : Project} {mode : Build.Mode} {t : FileTree} {s next : State}

theorem load_eq_ok {root : String} {overrides : Overrides}
    (loaded : Project.load t root overrides = .ok p) :
    p.root = root ∧
      p.files = (scan t root p.config.includes p.config.ignores p.config.ignoreTests).files := by
  unfold load ofLoaded at loaded
  split at loaded
  · cases loaded
  · dsimp only at loaded
    split at loaded
    · cases loaded
    · cases loaded
      exact ⟨rfl, rfl⟩

theorem load_files_pairwise {root : String} {overrides : Overrides}
    (loaded : Project.load t root overrides = .ok p) : p.files.Pairwise (· < ·) := by
  rw [(load_eq_ok loaded).2]
  exact scan_files_pairwise ..

/-- Why a file is no source: it cannot be read, or what it holds cannot be parsed. -/
def refusal? (t : FileTree) (file : String) : Option String :=
  match t.readText file with
  | .error e => some ("Failed to read file: " ++ e.message)
  | .ok content =>
      match Script.Source.parse file content with
      | .error fault => some fault.message
      | .ok _ => none

def isSource (t : FileTree) (file : String) : Bool :=
  (refusal? t file).isNone

def refusals (t : FileTree) (files : List String) : List Issue :=
  files.filterMap fun file => (refusal? t file).map (Issue.unparsed file)

theorem readSource_cases (t : FileTree) (file : String) :
    (∃ source, readSource t file = .ok source ∧ refusal? t file = none) ∨
      ∃ reason, readSource t file = .error (.unparsed file reason) ∧
        refusal? t file = some reason := by
  unfold readSource refusal?
  cases t.readText file with
  | error e => exact .inr ⟨_, rfl, rfl⟩
  | ok content =>
      dsimp only
      cases Script.Source.parse file content with
      | error fault => exact .inr ⟨_, rfl, rfl⟩
      | ok source => exact .inl ⟨source, rfl, rfl⟩

theorem issues_eq_refusals (t : FileTree) (files : List String) :
    (files.map (readSource t)).filterMap issue? = refusals t files := by
  rw [List.filterMap_map]
  refine List.filterMap_congr fun file _ => ?_
  rcases readSource_cases t file with ⟨source, read, accepted⟩ | ⟨reason, read, refused⟩
  · simp [read, accepted, issue?]
  · simp [read, refused, issue?]

theorem sources_filter (p : Project) (t : FileTree) :
    { p with files := p.files.filter (isSource t) }.sources t = p.sources t := by
  unfold sources
  dsimp only
  rw [List.filterMap_map, List.filterMap_map, List.filterMap_filter]
  refine List.filterMap_congr fun file _ => ?_
  rcases readSource_cases t file with ⟨source, read, accepted⟩ | ⟨reason, read, refused⟩
  · simp [read, accepted, isSource, source?]
  · simp [read, refused, isSource, source?]

/-! ### Extraction -/

def attempt (p : Project) (source : Script.Source) : Except Issue Product :=
  match Extraction.extract p.config.options Message.canonicalize source with
  | .ok found => .ok ⟨source, found⟩
  | .error failure => .error (Issue.ofFailure (String.ofList source.text) failure)

/-- The products of all attempts in front of the first that fails. -/
def firstProducts (attempts : List (Except Issue Product)) : List Product :=
  (attempts.takeWhile Except.isOk).filterMap Except.toOption

def failure? : Except Issue Product → Option Issue
  | .ok _ => none
  | .error issue => some issue

def firstFailure (attempts : List (Except Issue Product)) : Option Issue :=
  attempts.findSome? failure?

/-- A run has a table of its own unless it would write it and has no place for it. -/
def Gathers (p : Project) (mode : Build.Mode) : Prop :=
  mode = .preview ∨ p.config.messagesDir ≠ none

instance (p : Project) (mode : Build.Mode) : Decidable (p.Gathers mode) :=
  inferInstanceAs (Decidable (mode = .preview ∨ p.config.messagesDir ≠ none))

def takeUp (p : Project) (table : Table) (o : Product) : Table :=
  table.merge o.found.messages p.config.effectiveSpace

theorem attempt_of_yields {source : Script.Source} {o : Product}
    (yields : Yields (p.plan mode) s source next (.ok o)) : p.attempt source = .ok o := by
  obtain ⟨rfl, extracted⟩ := Build.extracted_of_yields yields
  unfold attempt
  rw [show Extraction.extract p.config.options Message.canonicalize o.source = .ok o.found from
    extracted]

theorem attempt_of_fails {source : Script.Source} {failure : Descriptor.Failure}
    (yields : Yields (p.plan mode) s source next (.error (.failed failure))) :
    next = s ∧ p.attempt source =
      .error (Issue.ofFailure (String.ofList source.text) failure) := by
  cases yields with
  | failed fails =>
      refine ⟨rfl, ?_⟩
      unfold attempt
      rw [show Extraction.extract p.config.options Message.canonicalize source = .error failure from
        fails]

theorem table_of_yields {source : Script.Source} {o : Product}
    (yields : Yields (p.plan mode) s source next (.ok o)) :
    next.table = if p.Gathers mode then p.takeUp s.table o else s.table := by
  cases yields with
  | @silent found _ nothing =>
      have same : p.takeUp s.table ⟨source, found⟩ = s.table := by
        unfold takeUp
        rw [nothing]
        rfl
      rw [same, ite_self]
  | previewed _ _ preview => exact (if_pos (.inl preview)).symm
  | unplaced _ _ write nowhere =>
      refine (if_neg ?_).symm
      rintro (preview | place)
      · cases write.symm.trans preview
      · exact place (Option.map_eq_none_iff.mp nowhere)
  | written _ _ _ place =>
      refine (if_pos (.inr ?_)).symm
      intro nowhere
      simp [plan, Build.Plan.ofConfig, Config.catalogDir, nowhere] at place

def SavesAll (plan : Build.Plan) (s : State) (sources : List Script.Source) : Prop :=
  ∀ before source after, sources = before ++ source :: after →
    (extractSources plan s before).2.2 = .complete →
      ∀ e, (plan.extractSource (extractSources plan s before).1 source).2 ≠ .error (.unwritten e)

def Saves (p : Project) (mode : Build.Mode) (t : FileTree) : Prop :=
  SavesAll (p.plan mode) (.start t) (p.sources t)

theorem savesAll_nil (plan : Build.Plan) (s : State) : SavesAll plan s [] := by
  intro before source after shape
  cases before <;> cases shape

theorem savesAll_cons {plan : Build.Plan} {source : Script.Source} {rest : List Script.Source} :
    SavesAll plan s (source :: rest) ↔
      (∀ e, (plan.extractSource s source).2 ≠ .error (.unwritten e)) ∧
        ∀ next o, plan.extractSource s source = (next, .ok o) → SavesAll plan next rest := by
  constructor
  · intro saves
    refine ⟨saves [] source rest rfl rfl, ?_⟩
    rintro next o extracted before other after rfl complete
    have later := saves (source :: before) other after rfl
    rw [extractSources_ok extracted] at later
    exact later complete
  · rintro ⟨first, later⟩ before other after shape complete
    match before with
    | [] =>
        cases shape
        exact first
    | _ :: before =>
        cases shape
        rcases extracted : plan.extractSource s source with ⟨next, (failure | e) | o⟩
        · rw [extractSources_failed extracted] at complete
          cases complete
        · rw [extractSources_unwritten extracted] at complete
          cases complete
        · rw [extractSources_ok extracted] at complete ⊢
          exact later next o extracted before other after rfl complete

theorem savesAll_iff {plan : Build.Plan} {sources : List Script.Source} :
    SavesAll plan s sources ↔ ∀ e, (extractSources plan s sources).2.2 ≠ .unwritten e := by
  induction sources generalizing s with
  | nil => exact iff_of_true (savesAll_nil plan s) nofun
  | cons source rest ih =>
      rw [savesAll_cons]
      rcases extracted : plan.extractSource s source with ⟨next, (failure | e) | o⟩
      · rw [extractSources_failed extracted]
        exact iff_of_true ⟨by simp, nofun⟩ nofun
      · rw [extractSources_unwritten extracted]
        exact iff_of_false (fun saves => saves.1 e rfl) fun wrote => wrote e rfl
      · rw [extractSources_ok extracted, ← ih]
        refine ⟨fun saves => saves.2 next o rfl, fun saves => ⟨nofun, fun _ _ same => ?_⟩⟩
        cases same
        exact saves

theorem saves_iff : p.Saves mode t ↔ ∃ run, (p.run mode t).2 = .ok run := by
  rw [Saves, savesAll_iff, run_eq]
  constructor
  · intro wrote
    obtain ⟨failure, told⟩ := Ending.report_written wrote
    exact ⟨_, told _⟩
  · rintro ⟨run, told⟩ e unwritten
    rw [unwritten] at told
    cases told

theorem saves_of_nowhere (t : FileTree) (nowhere : mode = .preview ∨ p.config.messagesDir = none) :
    p.Saves mode t := by
  intro before source after _ _ e refused
  rcases extracted : (p.plan mode).extractSource
    (extractSources (p.plan mode) (.start t) before).1 source with ⟨next, result⟩
  obtain rfl : result = .error (.unwritten e) := (congrArg Prod.snd extracted).symm.trans refused
  cases yields_of_eq extracted with
  | unwritten _ _ write place =>
      rcases nowhere with preview | nowhere
      · cases preview.symm.trans write
      · simp [plan, Build.Plan.ofConfig, Config.catalogDir, nowhere] at place

/-- Sources that are extracted one after another give what the extraction of each on its own gives,
up to the first that fails. -/
theorem extractSources_attempts (sources : List Script.Source)
    (saves : SavesAll (p.plan mode) s sources) :
    let found := extractSources (p.plan mode) s sources
    let attempts := sources.map p.attempt
    found.2.1 = firstProducts attempts ∧
      (∀ run, found.2.2.report run = .ok (run (firstFailure attempts))) ∧
      found.1.table =
        if p.Gathers mode then (firstProducts attempts).foldl p.takeUp s.table else s.table := by
  induction sources generalizing s with
  | nil => exact ⟨rfl, fun _ => rfl, (ite_self _).symm⟩
  | cons source rest ih =>
      rcases extracted : (p.plan mode).extractSource s source with ⟨next, (failure | e) | o⟩
      · obtain ⟨rfl, fails⟩ := attempt_of_fails (yields_of_eq extracted)
        rw [extractSources_failed extracted, List.map_cons, fails]
        exact ⟨rfl, fun _ => rfl, (ite_self _).symm⟩
      · exact absurd (congrArg Prod.snd extracted) ((savesAll_cons.mp saves).1 e)
      · have done := attempt_of_yields (yields_of_eq extracted)
        obtain ⟨products, report, table⟩ := ih ((savesAll_cons.mp saves).2 next o extracted)
        rw [extractSources_ok extracted, List.map_cons, done]
        refine ⟨?_, report, ?_⟩
        · rw [products]
          rfl
        · dsimp only
          rw [table, table_of_yields (yields_of_eq extracted)]
          split <;> rfl

/-! ### Runs -/

theorem run_attempts (saves : p.Saves mode t) :
    let attempts := (p.sources t).map p.attempt
    let table := if p.Gathers mode then (firstProducts attempts).foldl p.takeUp .empty else .empty
    (p.run mode t).2 =
      .ok (p.runOf t table (firstProducts attempts) (firstFailure attempts)) := by
  obtain ⟨products, report, table⟩ := extractSources_attempts (p.sources t) saves
  dsimp only
  rw [run_eq]
  dsimp only
  rw [report, products, table]
  rfl

theorem runOf_issues (p : Project) (t : FileTree) (table : Table) (products : List Product)
    (failure : Option Issue) :
    (p.runOf t table products failure).issues =
      refusals t p.files ++ products.flatMap skippedIssues :=
  congrArg (· ++ _) (issues_eq_refusals t p.files)

theorem run_sources (files : List String) (t' : FileTree)
    (same : { p with files }.sources t' = p.sources t) (saves : p.Saves mode t)
    (saves' : { p with files }.Saves mode t') {run : Run} (done : (p.run mode t).2 = .ok run) :
    ({ p with files }.run mode t').2 =
      .ok { run with issues := refusals t' files ++ run.products.flatMap skippedIssues } := by
  rw [run_attempts saves] at done
  cases done
  rw [run_attempts saves', same, ← issues_eq_refusals]
  rfl

theorem sources_of_filter {files : List String}
    (same : files.filter (isSource t) = p.files.filter (isSource t)) :
    { p with files }.sources t = p.sources t := by
  rw [← sources_filter p t, ← same, ← sources_filter { p with files } t]

/-! ### The status of the command -/

theorem refusals_eq_nil_iff {files : List String} :
    refusals t files = [] ↔ ∀ file ∈ files, isSource t file := by
  simp [refusals, isSource]

theorem errorCount_append (issues later : List Issue) :
    Issue.errorCount (issues ++ later) = Issue.errorCount issues + Issue.errorCount later :=
  List.countP_append

theorem errorCount_sorted (issues : List Issue) :
    Issue.errorCount (Issue.sorted issues) = Issue.errorCount issues :=
  (List.mergeSort_perm issues _).countP_eq _

theorem errorCount_refusals (t : FileTree) (files : List String) :
    Issue.errorCount (refusals t files) = (refusals t files).length := by
  refine List.countP_eq_length.mpr fun issue member => ?_
  obtain ⟨file, -, refused⟩ := List.mem_filterMap.mp member
  obtain ⟨reason, -, rfl⟩ := Option.map_eq_some_iff.mp refused
  rfl

theorem errorCount_skippedIssues (products : List Product) :
    Issue.errorCount (products.flatMap skippedIssues) = 0 := by
  refine List.countP_eq_zero.mpr fun issue member => ?_
  obtain ⟨o, -, skipped⟩ := List.mem_flatMap.mp member
  obtain ⟨warning, -, rfl⟩ := List.mem_map.mp skipped
  nofun

theorem isError_of_firstFailure (p : Project) (sources : List Script.Source) {issue : Issue}
    (failed : firstFailure (sources.map p.attempt) = some issue) : issue.isError := by
  obtain ⟨attempt, member, failed⟩ := List.exists_of_findSome?_eq_some failed
  obtain ⟨source, -, rfl⟩ := List.mem_map.mp member
  unfold Project.attempt at failed
  split at failed
  · cases failed
  · cases failed
    rfl

theorem errorCount_allIssues {run : Run} (done : (p.run mode t).2 = .ok run) :
    Issue.errorCount run.allIssues =
      (refusals t p.files).length + run.failure.toList.length := by
  rw [run_attempts (saves_iff.mpr ⟨run, done⟩)] at done
  cases done
  have told : Issue.errorCount (firstFailure ((p.sources t).map p.attempt)).toList =
      (firstFailure ((p.sources t).map p.attempt)).toList.length :=
    List.countP_eq_length.mpr fun issue member =>
      isError_of_firstFailure p _ (Option.mem_toList.mp member)
  unfold Run.allIssues
  rw [errorCount_sorted, runOf_issues, errorCount_append, errorCount_append, errorCount_refusals,
    errorCount_skippedIssues]
  exact congrArg _ told

end Project

namespace CommandLine

open Project (Run isSource refusals)

/-- The command comes to its end: it has loaded a project and made a run over it, and has then
written as many edited sources as it counts. -/
structure Finishes (a : ExtractArguments) (t : FileTree) (p : Project) (run : Run)
    (last : FileTree) (edited : Nat) : Prop where
  loaded : Project.load t a.root a.overrides = .ok p
  ran : (p.run .write t).2 = .ok run
  edits : match a.outDir with
    | none => last = (p.run .write t).1 ∧ edited = 0
    | some outDir =>
        writeAll outDir p.root (p.run .write t).1 run.products = (last, none) ∧
          edited = run.products.length

variable {a : ExtractArguments} {t : FileTree} {p : Project}

theorem conclude_status (a : ExtractArguments) (notes : String) (p : Project) (run : Run)
    (edited : Nat) : (conclude a notes t p run edited).status = statusOf run.allIssues := by
  unfold conclude
  dsimp only
  split <;> rfl

theorem extractProject_ends (notes : String)
    (loaded : Project.load t a.root a.overrides = .ok p) :
    (extractProject a notes t p).status = .broken ∧ (extractProject a notes t p).output = "" ∨
      ∃ run last edited, Finishes a t p run last edited ∧
        extractProject a notes t p = conclude a notes last p run edited := by
  unfold extractProject
  rcases ran : p.run .write t with ⟨tree, e | run⟩
  · exact .inl ⟨rfl, rfl⟩
  · dsimp only
    cases out : a.outDir with
    | none =>
        refine .inr ⟨run, tree, 0, ⟨loaded, by rw [ran], ?_⟩, rfl⟩
        rw [out, ran]
        exact ⟨rfl, rfl⟩
    | some outDir =>
        dsimp only
        rcases wrote : writeAll outDir p.root tree run.products with ⟨last, _ | e⟩
        · refine .inr ⟨run, last, run.products.length, ⟨loaded, by rw [ran], ?_⟩, rfl⟩
          rw [out, ran]
          exact ⟨wrote, rfl⟩
        · exact .inl ⟨rfl, rfl⟩

theorem runExtract_ends (a : ExtractArguments) (t : FileTree) :
    (runExtract a t).status = .broken ∧ (runExtract a t).output = "" ∨
      ∃ p run last edited notes, Finishes a t p run last edited ∧
        runExtract a t = conclude a notes last p run edited := by
  unfold runExtract
  cases config : Config.load t a.root with
  | error e => exact .inl ⟨rfl, rfl⟩
  | ok found =>
      dsimp only
      cases project : Project.ofLoaded t a.root a.overrides found with
      | error e => exact .inl ⟨rfl, rfl⟩
      | ok p =>
          have loaded : Project.load t a.root a.overrides = .ok p := by
            unfold Project.load
            rw [config]
            exact project
          refine (extractProject_ends _ loaded).imp_right ?_
          rintro ⟨run, last, edited, finishes, ends⟩
          exact ⟨p, run, last, edited, _, finishes, ends⟩

theorem runExtract_status (a : ExtractArguments) (whole : (runExtract a t).status ≠ .broken) :
    ∃ p run, Project.load t a.root a.overrides = .ok p ∧ (p.run .write t).2 = .ok run ∧
      (runExtract a t).status = statusOf run.allIssues := by
  obtain ⟨p, run, last, edited, notes, finishes, ends⟩ :=
    (runExtract_ends a t).resolve_left fun breaks => whole breaks.1
  exact ⟨p, run, finishes.loaded, finishes.ran, ends ▸ conclude_status ..⟩

theorem statusOf_allIssues {p : Project} {mode : Build.Mode} {run : Project.Run}
    (done : (p.run mode t).2 = .ok run) :
    (statusOf run.allIssues).code =
      if run.failure = none ∧ ∀ file ∈ p.files, isSource t file then 0 else 1 := by
  unfold statusOf
  rw [Project.errorCount_allIssues done]
  simp only [← Project.refusals_eq_nil_iff]
  cases run.failure <;> cases refusals t p.files <;> rfl

end CommandLine

namespace Project

/-- Where no write of the catalog fails, the products of a run are what the sources give in the
order of their files, up to the first whose extraction fails, and that failure is the failure of the
run. The table is that of the products, and the issues are one for each file that is no source, then
what was skipped in the products. Files that are no sources come and go without a change to anything
but their own issues. The files of a project that was loaded are in order; and the command, unless
it breaks off, succeeds if all files are sources and no extraction fails. -/
theorem run_failFast (p : Project) (mode : Build.Mode) (t : FileTree) (saves : p.Saves mode t) :
    let attempts := (p.sources t).map p.attempt
    ∃ run, (p.run mode t).2 = .ok run ∧
      run.products = firstProducts attempts ∧ run.failure = firstFailure attempts ∧
      (p.Gathers mode → run.table = run.products.foldl p.takeUp .empty) ∧
      run.issues = refusals t p.files ++ run.products.flatMap skippedIssues ∧
      (∀ files, files.filter (isSource t) = p.files.filter (isSource t) →
        { p with files }.run mode t = ((p.run mode t).1,
          .ok { run with issues := refusals t files ++ run.products.flatMap skippedIssues })) ∧
      (∀ files t', { p with files }.sources t' = p.sources t → { p with files }.Saves mode t' →
        ({ p with files }.run mode t').2 =
          .ok { run with issues := refusals t' files ++ run.products.flatMap skippedIssues }) ∧
      (∀ t' root overrides, Project.load t' root overrides = .ok p → p.files.Pairwise (· < ·)) ∧
      ∀ a t', (CommandLine.runExtract a t').status ≠ .broken → ∃ q told,
        Project.load t' a.root a.overrides = .ok q ∧ (q.run .write t').2 = .ok told ∧
          (CommandLine.runExtract a t').status.code =
            if told.failure = none ∧ ∀ file ∈ q.files, isSource t' file then 0 else 1 := by
  intro attempts
  have done := run_attempts saves
  refine ⟨_, done, rfl, rfl, fun gathers => if_pos gathers, runOf_issues .., ?_, ?_,
    fun _ _ _ => load_files_pairwise, ?_⟩
  · intro files same
    have sources := sources_of_filter same
    have saves' : { p with files }.Saves mode t := by
      unfold Saves
      rw [sources]
      exact saves
    have tree : ({ p with files }.run mode t).1 = (p.run mode t).1 := by
      rw [run_eq, run_eq, sources]
      rfl
    exact Prod.ext tree (run_sources files t sources saves saves' done)
  · exact fun files t' same saves' => run_sources files t' same saves saves' done
  · intro a t' whole
    obtain ⟨q, told, loaded, done', status⟩ := CommandLine.runExtract_status a whole
    exact ⟨q, told, loaded, done', by rw [status, CommandLine.statusOf_allIssues done']⟩

def mixedTree : FileTree :=
  ⟨["app"], [(["app", "src"], .directory),
    (["app", "src", "a.ts"], .file (.text Build.greetingCode)),
    (["app", "src", "b.ts"], .file (.text "(")),
    (["app", "src", "c.ts"], .file (.text (Build.greetingCode ++ "defineMessages(1);\n")))]⟩

def mixedProject : Project :=
  { greetingProject with files := ["src/a.ts", "src/b.ts", "src/c.ts", "src/d.ts"] }

def told : Except Build.WriteError Run → Option (List String × Bool × List String)
  | .ok run =>
      some (run.products.map (·.source.file), run.failure.isSome, run.issues.map Issue.file)
  | .error _ => none

theorem run_of_told (result : Except Build.WriteError Run) {products issues : List String}
    {failed : Bool} (evaluated : told result = some (products, failed, issues)) :
    ∃ run, result = .ok run ∧ run.products.map (·.source.file) = products ∧
      run.failure.isSome = failed ∧ run.issues.map Issue.file = issues := by
  cases result with
  | error e => cases evaluated
  | ok run =>
      cases evaluated
      exact ⟨run, rfl, rfl, rfl, rfl⟩

theorem run_failFast_mixed :
    mixedProject.Saves .write mixedTree ∧
      ∃ run, (mixedProject.run .write mixedTree).2 = .ok run ∧
        run.products.map (·.source.file) = ["src/a.ts"] ∧ run.failure.isSome ∧
        run.issues.map Issue.file = ["src/b.ts", "src/d.ts"] ∧
        { mixedProject with files := ["src/a.ts", "src/c.ts"] }.run .write mixedTree =
          ((mixedProject.run .write mixedTree).1,
            .ok { run with issues := run.products.flatMap skippedIssues }) := by
  obtain ⟨run, done, products, failed, issues⟩ :=
    run_of_told (mixedProject.run .write mixedTree).2
      (show told _ = some (["src/a.ts"], true, ["src/b.ts", "src/d.ts"]) by decide +kernel)
  have saves : mixedProject.Saves .write mixedTree := saves_iff.mpr ⟨run, done⟩
  refine ⟨saves, run, done, products, failed, issues, ?_⟩
  have kinds : ["src/a.ts", "src/b.ts", "src/c.ts", "src/d.ts"].map (isSource mixedTree) =
      [true, false, true, false] := by
    decide +kernel
  simp only [List.map_cons, List.map_nil, List.cons.injEq, and_true] at kinds
  obtain ⟨a, b, c, d⟩ := kinds
  obtain ⟨_, done', -, -, -, -, same, -⟩ := run_failFast mixedProject .write mixedTree saves
  obtain rfl := Except.ok.inj (done.symm.trans done')
  have fine : ∀ file ∈ ["src/a.ts", "src/c.ts"], isSource mixedTree file := by simp [a, c]
  rw [same ["src/a.ts", "src/c.ts"] (by simp [mixedProject, a, b, c, d]),
    refusals_eq_nil_iff.mpr fine]
  rfl

end Project

end MessageCatalog
