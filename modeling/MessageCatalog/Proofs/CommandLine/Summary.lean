import MessageCatalog.Proofs.CommandLine.EditedSources
import MessageCatalog.Proofs.Project.Runs

/-!
The summary of the command that extracts a project. Where it names a catalog and counts any
messages, the run has written the catalog with the text of its table, and there it stays. Where it
names one and counts none, the run has written nothing: the catalog, if it is one, was there before.
-/

namespace MessageCatalog

namespace Project

open Build (Product State Yields yields_of_eq)

variable {p : Project} {t : FileTree} {s next : State}

theorem load_files_scannable {root : String} {overrides : Overrides}
    (loaded : Project.load t root overrides = .ok p) :
    ∀ file ∈ p.files, Scan.isScannable file = true := by
  rw [(load_eq_ok loaded).2]
  exact fun _ => isScannable_of_scan

theorem file_of_parse {file content : String} {source : Script.Source}
    (parsed : Script.Source.parse file content = .ok source) : source.file = file := by
  unfold Script.Source.parse at parsed
  dsimp only at parsed
  split at parsed
  · cases parsed
    rfl
  · cases parsed

theorem file_of_sources {source : Script.Source} (member : source ∈ p.sources t) :
    source.file ∈ p.files ∧ ∃ content, t.readText source.file = .ok content := by
  obtain ⟨read, among, found⟩ := List.mem_filterMap.mp member
  obtain ⟨file, listed, rfl⟩ := List.mem_map.mp among
  unfold readSource at found
  split at found
  · cases found
  · split at found
    · cases found
    · cases found
      rename_i content readable _ parsed
      rw [file_of_parse parsed]
      exact ⟨listed, _, readable⟩

theorem attempt_source {source : Script.Source} {o : Product} (done : p.attempt source = .ok o) :
    o.source = source := by
  unfold attempt at done
  split at done
  · cases done
    rfl
  · cases done

theorem file_of_products {mode : Build.Mode} {run : Run} (done : (p.run mode t).2 = .ok run) :
    ∀ o ∈ run.products,
      o.source.file ∈ p.files ∧ ∃ content, t.readText o.source.file = .ok content := by
  rw [run_attempts (saves_iff.mpr ⟨run, done⟩)] at done
  cases done
  intro o member
  obtain ⟨result, first, extracted⟩ := List.mem_filterMap.mp member
  obtain ⟨source, among, attempted⟩ := List.mem_map.mp ((List.takeWhile_sublist _).mem first)
  cases result with
  | error issue => cases extracted
  | ok found =>
      cases extracted
      rw [attempt_source attempted]
      exact file_of_sources among

/-! ### Catalogs that are written -/

/-- One of the sources that are extracted has messages, and for them the catalog is written with a
text. -/
inductive WritesCatalog (p : Project) (content : String) : State → List Script.Source → Prop
  | here {s next : State} {source : Script.Source} {o : Product} {directory : String}
      (rest : List Script.Source)
      (extracted : (p.plan .write).extractSource s source = (next, .ok o))
      (something : o.found.messages ≠ []) (place : p.config.catalogDir p.root = some directory)
      (wrote : Build.writeCatalog s.tree directory p.config.catalogFileName content =
        (next.tree, none)) :
      WritesCatalog p content s (source :: rest)
  | later {s next : State} {source : Script.Source} {o : Product} {rest : List Script.Source}
      (extracted : (p.plan .write).extractSource s source = (next, .ok o))
      (behind : WritesCatalog p content next rest) : WritesCatalog p content s (source :: rest)

theorem kept_of_silent {source : Script.Source} {o : Product}
    (yields : Yields (p.plan .write) s source next (.ok o)) (silent : o.found.messages = []) :
    next = s := by
  cases yields with
  | silent => rfl
  | unplaced => rfl
  | previewed _ something => exact absurd silent something
  | written _ something => exact absurd silent something

theorem extractSources_silent (sources : List Script.Source)
    (wrote : ∀ e, (extractSources (p.plan .write) s sources).2.2 ≠ .unwritten e)
    (silent : ∀ o ∈ (extractSources (p.plan .write) s sources).2.1, o.found.messages = []) :
    (extractSources (p.plan .write) s sources).1 = s := by
  induction sources generalizing s with
  | nil => rfl
  | cons source rest ih =>
      rcases extracted : (p.plan .write).extractSource s source with ⟨next, (failure | e) | o⟩
      · rw [extractSources_failed extracted]
        exact (attempt_of_fails (yields_of_eq extracted)).1
      · exact absurd (by rw [extractSources_unwritten extracted]) (wrote e)
      · rw [extractSources_ok extracted] at wrote silent ⊢
        obtain ⟨here, others⟩ := List.forall_mem_cons.mp silent
        obtain rfl := kept_of_silent (yields_of_eq extracted) here
        exact ih wrote others

theorem writesCatalog_here {source : Script.Source} {o : Product} {path : String}
    (rest : List Script.Source) (place : p.config.catalogPath p.root = some path)
    (extracted : (p.plan .write).extractSource s source = (next, .ok o))
    (something : o.found.messages ≠ []) :
    p.WritesCatalog next.table.render s (source :: rest) := by
  cases yields_of_eq extracted with
  | silent _ nothing => exact absurd nothing something
  | previewed _ _ preview => cases preview
  | unplaced _ _ _ nowhere =>
      have nowhere : p.config.catalogDir p.root = none := nowhere
      rw [Config.catalogPath, nowhere] at place
      cases place
  | written _ _ _ directory wrote => exact .here rest extracted something directory wrote

theorem writesCatalog_of_messages {path : String} (sources : List Script.Source)
    (place : p.config.catalogPath p.root = some path)
    (wrote : ∀ e, (extractSources (p.plan .write) s sources).2.2 ≠ .unwritten e)
    (something : ∃ o ∈ (extractSources (p.plan .write) s sources).2.1, o.found.messages ≠ []) :
    p.WritesCatalog (extractSources (p.plan .write) s sources).1.table.render s sources := by
  induction sources generalizing s with
  | nil =>
      obtain ⟨o, member, _⟩ := something
      cases member
  | cons source rest ih =>
      rcases extracted : (p.plan .write).extractSource s source with ⟨next, (failure | e) | o⟩
      · rw [extractSources_failed extracted] at something
        obtain ⟨o, member, _⟩ := something
        cases member
      · exact absurd (by rw [extractSources_unwritten extracted]) (wrote e)
      · rw [extractSources_ok extracted] at wrote something ⊢
        by_cases behind : ∃ o ∈ (extractSources (p.plan .write) next rest).2.1,
            o.found.messages ≠ []
        · exact .later extracted (ih wrote behind)
        -- no source behind this one has messages, so the table stays as this one leaves it
        · have silent : ∀ other ∈ (extractSources (p.plan .write) next rest).2.1,
              other.found.messages = [] := by simpa using behind
          obtain ⟨found, member, speaks⟩ := something
          rcases List.mem_cons.mp member with rfl | later
          · rw [extractSources_silent rest wrote silent]
            exact writesCatalog_here rest place extracted speaks
          · exact absurd (silent found later) speaks

theorem messageCount_eq_zero_iff {run : Run} :
    run.messageCount = 0 ↔ ∀ o ∈ run.products, o.found.messages = [] := by
  unfold Run.messageCount
  induction run.products with
  | nil => simp
  | cons first rest ih => simp [ih]

/-- What a run that comes to an end has done to the catalog. -/
theorem catalog_of_run {run : Run} {path : String} (done : (p.run .write t).2 = .ok run)
    (place : p.config.catalogPath p.root = some path) :
    (run.messageCount ≠ 0 → p.WritesCatalog run.table.render (.start t) (p.sources t) ∧
      (p.run .write t).1.readText path = .ok run.table.render) ∧
    (run.messageCount = 0 → run.table = .empty ∧ (p.run .write t).1 = t) := by
  rw [run_eq] at done ⊢
  have wrote (e : Build.WriteError) :
      (extractSources (p.plan .write) (.start t) (p.sources t)).2.2 ≠ .unwritten e := by
    intro unwritten
    rw [unwritten] at done
    cases done
  obtain ⟨failure, told⟩ := Ending.report_written wrote
  rw [told] at done
  cases done
  constructor
  · intro counted
    have something := (not_congr messageCount_eq_zero_iff).mp counted
    simp only [not_forall, exists_prop] at something
    exact ⟨writesCatalog_of_messages _ place wrote something,
      extractSources_mirrored p place _ wrote (.inr something)⟩
  · intro nothing
    have start := extractSources_silent _ wrote (messageCount_eq_zero_iff.mp nothing)
    exact ⟨congrArg State.table start, congrArg State.tree start⟩

end Project

namespace CommandLine

open Project (Run)

variable {a : ExtractArguments} {t last : FileTree} {p : Project} {run : Run} {edited : Nat}

theorem runExtract_cases (a : ExtractArguments) (t : FileTree) :
    (runExtract a t).output = "" ∨ ∃ p run last edited notes,
      Finishes a t p run last edited ∧ runExtract a t = conclude a notes last p run edited :=
  (runExtract_ends a t).imp_left And.right

theorem Finishes.spares (finishes : Finishes a t p run last edited) :
    (p.run .write t).1.Spares IsCatalogName last := by
  have edits := finishes.edits
  split at edits
  · obtain ⟨rfl, -⟩ := edits
    exact .refl _ _
  · refine spares_writeAll (fun o member => ?_) edits.1
    exact Project.load_files_scannable finishes.loaded _
      (Project.file_of_products finishes.ran o member).1

theorem conclude_output (a : ExtractArguments) (notes : String) (t : FileTree) (p : Project)
    (run : Run) (edited : Nat) :
    (conclude a notes t p run edited).output =
      if a.json then (messagesJson run.products).pretty ++ "\n"
      else Report.text false run.allIssues ++
        if run.failure.isSome then "" else (summaryOf t p run edited).text false := by
  unfold conclude
  dsimp only
  split <;> rfl

theorem steps_of_catalogPath {c : Config} {root path : String}
    (place : c.catalogPath root = some path) :
    ∃ before name, Path.steps path = before ++ [name] ∧ FileTree.IsName name ∧
      IsCatalogName name := by
  obtain ⟨directory, -, rfl⟩ := Option.map_eq_some_iff.mp place
  obtain ⟨front, joined⟩ := join_toList directory c.catalogFileName
  rw [Config.catalogFileName, String.toList_append, ← List.append_assoc] at joined
  obtain ⟨before, name, shape⟩ := steps_of_toList joined (by decide)
  exact ⟨before, _, shape, Build.isName_catalog name, name, rfl⟩

theorem Finishes.catalogPath (finishes : Finishes a t p run last edited) :
    run.catalogPath = p.config.catalogPath p.root := by
  have done := finishes.ran
  rw [Project.run_attempts (Project.saves_iff.mpr ⟨run, done⟩)] at done
  cases done
  rfl

theorem catalog_of_summary {path : String} {entries : Nat}
    (finishes : Finishes a t p run last edited)
    (told : (summaryOf last p run edited).catalog = some (path, entries)) :
    p.config.catalogPath p.root = some path ∧ run.table.size = entries := by
  obtain ⟨found, kept, same⟩ := Option.map_eq_some_iff.mp told
  cases same
  rw [← finishes.catalogPath]
  exact ⟨(Option.filter_eq_some_iff.mp kept).1, rfl⟩

/-- The command prints nothing, or it comes to its end and prints the report, with a summary unless
it has failed. Where the summary names a catalog, that is the catalog of the project, with as many
entries as the table of the run. If the run has found messages, it has written the catalog with the
text of this table, and the files the command leaves have it so. If it has found none, the run has
written nothing: what is at the path of the catalog was there before, or is a directory around the
edited sources. -/
theorem runExtract_summary (a : ExtractArguments) (t : FileTree) :
    (runExtract a t).output = "" ∨ ∃ p run last edited,
      Finishes a t p run last edited ∧ (runExtract a t).tree = last ∧
      (runExtract a t).output = (if a.json then (messagesJson run.products).pretty ++ "\n"
        else Report.text false run.allIssues ++
          if run.failure.isSome then "" else (summaryOf last p run edited).text false) ∧
      ∀ path entries, (summaryOf last p run edited).catalog = some (path, entries) →
        p.config.catalogPath p.root = some path ∧ run.table.size = entries ∧
        (run.messageCount ≠ 0 →
          p.WritesCatalog run.table.render (.start t) (p.sources t) ∧
            last.readText path = .ok run.table.render) ∧
        (run.messageCount = 0 → entries = 0 ∧ (p.run .write t).1 = t ∧
          ∀ place, last.locate path = .ok place → last.node? place = t.node? place ∨
            (t.node? place = none ∧ last.node? place = some .directory)) := by
  refine (runExtract_cases a t).imp_right ?_
  rintro ⟨p, run, last, edited, notes, finishes, ends⟩
  have tree : (conclude a notes last p run edited).tree = last := by
    unfold conclude
    dsimp only
    split <;> rfl
  refine ⟨p, run, last, edited, finishes, ends ▸ tree, ends ▸ conclude_output .., ?_⟩
  intro path entries told
  obtain ⟨place, counted⟩ := catalog_of_summary finishes told
  obtain ⟨before, name, shape, named, catalog⟩ := steps_of_catalogPath place
  obtain ⟨speaks, silent⟩ := Project.catalog_of_run finishes.ran place
  refine ⟨place, counted, fun something => ?_, fun nothing => ?_⟩
  · obtain ⟨writes, read⟩ := speaks something
    exact ⟨writes, finishes.spares.readText shape named catalog read⟩
  · obtain ⟨empty, kept⟩ := silent nothing
    refine ⟨by rw [← counted, empty]; rfl, kept, fun place found => ?_⟩
    obtain ⟨around, rfl⟩ := FileTree.place_of_locate shape named found
    have spares := finishes.spares
    rw [kept] at spares
    exact spares.same around name named catalog

def staleTree : FileTree :=
  ⟨["app"], [(["app", ".intlxrc.json"], .file (.text "\x7b \"messagesDir\": \"i18n\" \x7d")),
    (["app", "src"], .directory), (["app", "src", "a.tsx"], .file (.text "const a = 1;\n")),
    (["app", "i18n"], .directory),
    (["app", "i18n", "messages.properties"], .file (.text "stale\n"))]⟩

/-- The command tells that it wrote the catalog, and has written nothing; and what the catalog holds
is the text of no table without entries. -/
theorem runExtract_summary_stale :
    (runExtract (.ofGiven .empty) staleTree).output =
        "✓ Extracted 0 messages from 1 source file\n" ++
          "  wrote ./i18n/messages.properties (0 entries)\n" ∧
      (runExtract (.ofGiven .empty) staleTree).tree = staleTree ∧
      staleTree.readText "./i18n/messages.properties" = .ok "stale\n" ∧
      ∀ table : Table, table.size = 0 → table.render ≠ "stale\n" := by
  refine ⟨by decide +kernel, by decide +kernel, by decide +kernel, ?_⟩
  rintro ⟨entries⟩ nothing
  obtain rfl := List.length_eq_zero_iff.mp nothing
  decide +kernel

end CommandLine

end MessageCatalog
