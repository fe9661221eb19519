import MessageCatalog.CommandLine.Extract
import MessageCatalog.Proofs.Build.Runs
import MessageCatalog.Tools

/-!
Previews. A run that writes nothing comes to what a run comes to that writes its catalog: the two go
through the sources side by side, and where there is a place for the catalog their tables stay the
same. The last source with messages leaves the catalog file with the text of that table.
-/

namespace MessageCatalog.CommandLine

theorem conclude_tree (a : ExtractArguments) (notes : String) (t : FileTree) (p : Project)
    (run : Project.Run) (edited : Nat) : (conclude a notes t p run edited).tree = t := by
  unfold conclude
  dsimp only
  split <;> rfl

end MessageCatalog.CommandLine

namespace MessageCatalog.Project

open Build (Product SourceError State Yields yields_of_eq)

variable {p : Project} {s s' next : State} {source : Script.Source}
  {result : Except SourceError Product}

theorem extractSource_failed {plan : Build.Plan} {failure : Descriptor.Failure}
    (fails : Extraction.extract plan.options plan.validate source = .error failure) :
    plan.extractSource s source = (s, .error (.failed failure)) := by
  unfold Build.Plan.extractSource
  rw [fails]

theorem extractSource_preview {plan : Build.Plan} {found : Extraction.Extracted}
    (preview : plan.mode = .preview)
    (extracted : Extraction.extract plan.options plan.validate source = .ok found) :
    plan.extractSource s source =
      (⟨s.table.merge found.messages plan.space, s.tree⟩, .ok ⟨source, found⟩) := by
  unfold Build.Plan.extractSource
  rw [extracted]
  dsimp only
  unfold Build.Plan.takeUp
  cases messages : found.messages with
  | nil => rfl
  | cons first rest =>
      rw [if_neg (by simp)]
      dsimp only
      rw [preview]

theorem preview_of_yields (yields : Yields (p.plan .write) s source next result)
    (wrote : ∀ e, result ≠ .error (.unwritten e))
    (same : p.config.messagesDir ≠ none → s'.table = s.table) :
    ∃ next', (p.plan .preview).extractSource s' source = (next', result) ∧
      next'.tree = s'.tree ∧ (p.config.messagesDir ≠ none → next'.table = next.table) := by
  cases yields with
  | failed fails => exact ⟨s', extractSource_failed fails, rfl, same⟩
  | @silent found extracted nothing =>
      refine ⟨_, extractSource_preview rfl extracted, rfl, fun place => ?_⟩
      rw [nothing]
      exact same place
  | previewed _ _ preview => cases preview
  | unplaced extracted _ _ nowhere =>
      refine ⟨_, extractSource_preview rfl extracted, rfl, fun place => ?_⟩
      exact absurd (Option.map_eq_none_iff.mp nowhere) place
  | written extracted =>
      refine ⟨_, extractSource_preview rfl extracted, rfl, fun place => ?_⟩
      dsimp only
      rw [same place]
      rfl
  | unwritten => exact absurd rfl (wrote _)

def Mirrored (path : String) (s : State) : Prop :=
  s.tree.readText path = .ok s.table.render

theorem mirrored_of_yields {path : String} {o : Product}
    (yields : Yields (p.plan .write) s source next (.ok o))
    (place : p.config.catalogPath p.root = some path) :
    (o.found.messages ≠ [] → Mirrored path next) ∧ (o.found.messages = [] → next = s) := by
  have mirrors := Build.mirrors_source yields nofun
  refine ⟨fun something => (mirrors.written o path rfl something rfl place).2, fun nothing => ?_⟩
  cases yields with
  | silent => rfl
  | previewed _ something => exact absurd nothing something
  | unplaced _ something => exact absurd nothing something
  | written _ something => exact absurd nothing something

/-! ### All sources -/

theorem extractSources_ok {plan : Build.Plan} {o : Product}
    (extracted : plan.extractSource s source = (next, .ok o)) (rest : List Script.Source) :
    extractSources plan s (source :: rest) =
      ((extractSources plan next rest).1, o :: (extractSources plan next rest).2.1,
        (extractSources plan next rest).2.2) := by
  rw [extractSources, extracted]

theorem extractSources_failed {plan : Build.Plan} {failure : Descriptor.Failure}
    (extracted : plan.extractSource s source = (next, .error (.failed failure)))
    (rest : List Script.Source) :
    extractSources plan s (source :: rest) =
      (next, [], .failed (Issue.ofFailure (String.ofList source.text) failure)) := by
  rw [extractSources, extracted]

theorem extractSources_unwritten {plan : Build.Plan} {e : Build.WriteError}
    (extracted : plan.extractSource s source = (next, .error (.unwritten e)))
    (rest : List Script.Source) :
    extractSources plan s (source :: rest) = (next, [], .unwritten e) := by
  rw [extractSources, extracted]

theorem extractSources_alike (p : Project) (sources : List Script.Source) (s s' : State)
    (same : p.config.messagesDir ≠ none → s'.table = s.table)
    (wrote : ∀ e, (extractSources (p.plan .write) s sources).2.2 ≠ .unwritten e) :
    let writing := extractSources (p.plan .write) s sources
    let previewing := extractSources (p.plan .preview) s' sources
    previewing.2 = writing.2 ∧ previewing.1.tree = s'.tree ∧
      (p.config.messagesDir ≠ none → previewing.1.table = writing.1.table) := by
  induction sources generalizing s s' with
  | nil => exact ⟨rfl, rfl, same⟩
  | cons source rest ih =>
      rcases extracted : (p.plan .write).extractSource s source with ⟨next, (failure | e) | o⟩
      · obtain ⟨next', previewed, tree, table⟩ :=
          preview_of_yields (yields_of_eq extracted) (by simp) same
        rw [extractSources_failed extracted, extractSources_failed previewed]
        exact ⟨rfl, tree, table⟩
      · exact absurd (by rw [extractSources_unwritten extracted]) (wrote e)
      · obtain ⟨next', previewed, tree, table⟩ :=
          preview_of_yields (yields_of_eq extracted) (by simp) same
        rw [extractSources_ok extracted] at wrote
        obtain ⟨alike, treeLater, tableLater⟩ := ih next next' table wrote
        rw [extractSources_ok extracted, extractSources_ok previewed]
        exact ⟨by rw [alike], treeLater.trans tree, tableLater⟩

/-- A catalog that has the text of the table keeps it up, and any source with messages gives it the
text of the table. -/
theorem extractSources_mirrored (p : Project) {path : String}
    (place : p.config.catalogPath p.root = some path) (sources : List Script.Source) {s : State}
    (wrote : ∀ e, (extractSources (p.plan .write) s sources).2.2 ≠ .unwritten e) :
    let run := extractSources (p.plan .write) s sources
    (Mirrored path s ∨ ∃ o ∈ run.2.1, o.found.messages ≠ []) → Mirrored path run.1 := by
  induction sources generalizing s with
  | nil =>
      rintro run (mirrored | ⟨o, member, _⟩)
      · exact mirrored
      · cases member
  | cons source rest ih =>
      rcases extracted : (p.plan .write).extractSource s source with ⟨next, (failure | e) | o⟩
      · rw [extractSources_failed extracted]
        rintro run (mirrored | ⟨o, member, _⟩)
        · cases yields_of_eq extracted
          exact mirrored
        · cases member
      · exact absurd (by rw [extractSources_unwritten extracted]) (wrote e)
      · rw [extractSources_ok extracted] at wrote ⊢
        obtain ⟨mirrors, silent⟩ := mirrored_of_yields (yields_of_eq extracted) place
        intro run begun
        -- either this source has brought the catalog up to date, or one behind it will
        refine ih wrote ?_
        by_cases something : o.found.messages = []
        · obtain rfl := silent something
          refine begun.imp_right ?_
          rintro ⟨other, member, speaks⟩
          rcases List.mem_cons.mp member with rfl | later
          · exact absurd something speaks
          · exact ⟨other, later, speaks⟩
        · exact .inl (mirrors something)

/-! ### Runs -/

def sources (p : Project) (t : FileTree) : List Script.Source :=
  (p.files.map (readSource t)).filterMap source?

def runOf (p : Project) (t : FileTree) (table : Table) (products : List Product)
    (failure : Option Issue) : Run :=
  { products := products
    issues := (p.files.map (readSource t)).filterMap issue? ++ products.flatMap skippedIssues
    failure := failure
    table := table
    catalogPath := p.config.catalogPath p.root }

def Ending.report (run : Option Issue → Run) : Ending → Except Build.WriteError Run
  | .complete => .ok (run none)
  | .failed issue => .ok (run (some issue))
  | .unwritten e => .error e

theorem run_eq (p : Project) (mode : Build.Mode) (t : FileTree) :
    let found := extractSources (p.plan mode) (.start t) (p.sources t)
    p.run mode t =
      (found.1.tree, found.2.2.report (p.runOf t found.1.table found.2.1)) := by
  unfold run sources
  dsimp only
  generalize extractSources (p.plan mode) (.start t) _ = found
  obtain ⟨state, products, ending⟩ := found
  cases ending <;> rfl

theorem Ending.report_written {ending : Ending} (wrote : ∀ e, ending ≠ .unwritten e) :
    ∃ failure, ∀ run, ending.report run = .ok (run failure) := by
  cases ending with
  | complete => exact ⟨none, fun _ => rfl⟩
  | failed issue => exact ⟨some issue, fun _ => rfl⟩
  | unwritten e => exact absurd rfl (wrote e)

theorem preview_of_run {t : FileTree} {root : String} {run : Run}
    (loaded : Project.load t root {} = .ok p) (previewed : (p.run .preview t).2 = .ok run) :
    Tools.preview t root = .ok run := by
  unfold Tools.preview
  rw [loaded]
  dsimp only
  rw [previewed]

theorem previewCatalog_content {t tree : FileTree} {root : String} {run : Run}
    (loaded : Project.load t root {} = .ok p) (previewed : p.run .preview t = (tree, .ok run)) :
    ∃ fields, Tools.previewCatalog t root = .ok (.object fields) ∧
      fields.lookup "content" = some (.text run.table.render) := by
  have preview : Tools.preview t root = .ok run :=
    preview_of_run loaded (congrArg Prod.snd previewed)
  unfold Tools.previewCatalog
  rw [preview]
  refine ⟨_, rfl, ?_⟩
  cases run.catalogPath <;> rfl

theorem extractProject_tree (a : CommandLine.ExtractArguments) (notes : String) {t tree : FileTree}
    {run : Run} (written : p.run .write t = (tree, .ok run)) (noSources : a.outDir = none) :
    (CommandLine.extractProject a notes t p).tree = tree := by
  unfold CommandLine.extractProject
  rw [written]
  dsimp only
  rw [noSources]
  exact CommandLine.conclude_tree ..

/-- If no write fails, a preview comes to the same products, issues and failure as the run that
writes, and changes no file. If there is a place for the catalog, it also comes to the same table;
and if any source has messages, the text of the preview is that of the catalog file behind the run,
and behind the command that extracts the project. -/
theorem run_preview (p : Project) (t : FileTree) {written : Run}
    (success : (p.run .write t).2 = .ok written) :
    ∃ previewed, p.run .preview t = (t, .ok previewed) ∧
      previewed.products = written.products ∧ previewed.issues = written.issues ∧
      previewed.failure = written.failure ∧
      (∀ root, Project.load t root {} = .ok p →
        ∃ fields, Tools.previewCatalog t root = .ok (.object fields) ∧
          fields.lookup "content" = some (.text previewed.table.render)) ∧
      (p.config.messagesDir ≠ none → previewed.table = written.table ∧
        ((∃ o ∈ written.products, o.found.messages ≠ []) →
          ∃ path, p.config.catalogPath p.root = some path ∧ written.catalogPath = some path ∧
            (p.run .write t).1.readText path = .ok previewed.table.render ∧
            ∀ a notes, a.outDir = none →
              (CommandLine.extractProject a notes t p).tree.readText path =
                .ok previewed.table.render)) := by
  have writing := run_eq p .write t
  have previewing := run_eq p .preview t
  have wrote (e : Build.WriteError) :
      (extractSources (p.plan .write) (.start t) (p.sources t)).2.2 ≠ .unwritten e := by
    intro unwritten
    rw [writing, unwritten] at success
    cases success
  obtain ⟨alike, tree, table⟩ :=
    extractSources_alike p (p.sources t) (.start t) (.start t) (fun _ => rfl) wrote
  have mirrored {path : String} (place : p.config.catalogPath p.root = some path) :=
    extractSources_mirrored p place (p.sources t) wrote
  generalize extractSources (p.plan .write) (.start t) (p.sources t) = w at *
  generalize extractSources (p.plan .preview) (.start t) (p.sources t) = v at *
  obtain ⟨failure, told⟩ := Ending.report_written wrote
  dsimp only at writing previewing alike tree table mirrored
  rw [told] at writing
  rw [alike, told, tree] at previewing
  rw [writing] at success ⊢
  cases success
  refine ⟨_, previewing, rfl, rfl, rfl, fun root loaded => previewCatalog_content loaded previewing,
    fun placed => ⟨table placed, fun something => ?_⟩⟩
  obtain ⟨directory, configured⟩ := Option.ne_none_iff_exists'.mp placed
  have place : p.config.catalogPath p.root =
      some (Path.join (Path.join p.root directory) p.config.catalogFileName) := by
    rw [Config.catalogPath, Config.catalogDir, configured]
    rfl
  have content :
      w.1.tree.readText (Path.join (Path.join p.root directory) p.config.catalogFileName) =
        .ok v.1.table.render := by
    rw [table placed]
    exact mirrored place (.inr something)
  refine ⟨_, place, place, content, fun a notes noSources => ?_⟩
  rw [extractProject_tree a notes writing noSources]
  exact content

def greetingTree : FileTree :=
  ⟨["app"], [(["app", "src"], .directory),
    (["app", "src", "a.ts"], .file (.text Build.greetingCode))]⟩

def greetingProject : Project :=
  ⟨Build.greetingConfig, ".", true, ["src/a.ts"], 0⟩

def hasMessages : Except Build.WriteError Run → Bool
  | .ok run => run.products.any fun o => !o.found.messages.isEmpty
  | .error _ => false

theorem run_of_hasMessages (result : Except Build.WriteError Run)
    (evaluated : hasMessages result = true) :
    ∃ run, result = .ok run ∧ ∃ o ∈ run.products, o.found.messages ≠ [] := by
  cases result with
  | error e => cases evaluated
  | ok run => exact ⟨run, rfl, by simpa [hasMessages] using evaluated⟩

theorem run_preview_greeting :
    ∃ written previewed, (greetingProject.run .write greetingTree).2 = .ok written ∧
      greetingProject.run .preview greetingTree = (greetingTree, .ok previewed) ∧
      previewed.products = written.products ∧
      (greetingProject.run .write greetingTree).1.readText "./out/messages.properties" =
        .ok previewed.table.render := by
  obtain ⟨written, success, something⟩ :=
    run_of_hasMessages (greetingProject.run .write greetingTree).2 (by decide +kernel)
  obtain ⟨previewed, run, products, _, _, _, placed⟩ :=
    run_preview greetingProject greetingTree success
  obtain ⟨path, place, _, content, _⟩ := (placed (by decide)).2 something
  have here : path = "./out/messages.properties" :=
    Option.some.inj (place.symm.trans (by decide))
  exact ⟨written, previewed, success, run, products, here ▸ content⟩

end MessageCatalog.Project
