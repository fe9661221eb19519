import Mathlib.Data.List.Induction
import MessageCatalog.Build
import MessageCatalog.Message.Validator
import MessageCatalog.Proofs.FileTree.Writing

/-!
Runs of a build: sources that are extracted one after another, and resets. A step that fails leaves
table and files as they were. Where a build writes and has a place to write to, a source with
messages leaves the catalog file with the text of the whole table; no other step changes a file.
-/

namespace MessageCatalog

namespace Build

theorem isName_catalog (front : List Char) :
    FileTree.IsName (String.ofList (front ++ Config.catalogExtension.toList)) := by
  have long {text : String} (short : text.toList.length < Config.catalogExtension.toList.length) :
      String.ofList (front ++ Config.catalogExtension.toList) ≠ text := by
    rintro rfl
    rw [String.toList_ofList, List.length_append] at short
    omega
  exact ⟨long (by decide), long (by decide), long (by decide)⟩

theorem readText_writeCatalog {t written : FileTree} {directory content : String} (c : Config)
    (success : writeCatalog t directory c.catalogFileName content = (written, none)) :
    written.readText (Path.join directory c.catalogFileName) = .ok content := by
  unfold writeCatalog at success
  split at success
  · cases success
  · dsimp only at success
    split at success
    · rename_i wrote
      cases success
      obtain ⟨front, joined⟩ := join_toList directory c.catalogFileName
      rw [Config.catalogFileName, String.toList_append, ← List.append_assoc] at joined
      obtain ⟨before, name, shape⟩ := steps_of_toList joined (by decide)
      exact FileTree.readText_writeText shape (isName_catalog name) wrote
    · cases success

/-- The ways in which the extraction of a source goes: what it leaves behind, and its result. -/
inductive Yields (p : Plan) (s : State) (source : Script.Source) :
    State → Except SourceError Product → Prop
  | failed {failure : Descriptor.Failure}
      (fails : Extraction.extract p.options p.validate source = .error failure) :
      Yields p s source s (.error (.failed failure))
  | silent {found : Extraction.Extracted}
      (extracted : Extraction.extract p.options p.validate source = .ok found)
      (nothing : found.messages = []) : Yields p s source s (.ok ⟨source, found⟩)
  | previewed {found : Extraction.Extracted}
      (extracted : Extraction.extract p.options p.validate source = .ok found)
      (something : found.messages ≠ []) (mode : p.mode = .preview) :
      Yields p s source ⟨s.table.merge found.messages p.space, s.tree⟩ (.ok ⟨source, found⟩)
  | unplaced {found : Extraction.Extracted}
      (extracted : Extraction.extract p.options p.validate source = .ok found)
      (something : found.messages ≠ []) (mode : p.mode = .write) (nowhere : p.directory = none) :
      Yields p s source s (.ok ⟨source, found⟩)
  | written {found : Extraction.Extracted} {directory : String} {tree : FileTree}
      (extracted : Extraction.extract p.options p.validate source = .ok found)
      (something : found.messages ≠ []) (mode : p.mode = .write)
      (place : p.directory = some directory)
      (wrote : writeCatalog s.tree directory p.fileName
        (s.table.merge found.messages p.space).render = (tree, none)) :
      Yields p s source ⟨s.table.merge found.messages p.space, tree⟩ (.ok ⟨source, found⟩)
  | unwritten {found : Extraction.Extracted} {directory : String} {tree : FileTree} {e : WriteError}
      (extracted : Extraction.extract p.options p.validate source = .ok found)
      (something : found.messages ≠ []) (mode : p.mode = .write)
      (place : p.directory = some directory)
      (refused : writeCatalog s.tree directory p.fileName
        (s.table.merge found.messages p.space).render = (tree, some e)) :
      Yields p s source ⟨s.table.merge found.messages p.space, tree⟩ (.error (.unwritten e))

theorem extractSource_yields (p : Plan) (s : State) (source : Script.Source) :
    Yields p s source (p.extractSource s source).1 (p.extractSource s source).2 := by
  unfold Plan.extractSource
  cases extracted : Extraction.extract p.options p.validate source with
  | error failure => exact .failed extracted
  | ok found =>
      dsimp only
      unfold Plan.takeUp
      cases messages : found.messages with
      | nil => exact .silent extracted messages
      | cons first rest =>
          have something : found.messages ≠ [] := by simp [messages]
          rw [← messages, if_neg (by simpa using something)]
          dsimp only
          cases mode : p.mode with
          | preview => exact .previewed extracted something mode
          | write =>
              cases place : p.directory with
              | none => exact .unplaced extracted something mode place
              | some directory =>
                  dsimp only
                  rcases wrote : writeCatalog s.tree directory p.fileName
                    (s.table.merge found.messages p.space).render with ⟨tree, _ | e⟩
                  · exact .written extracted something mode place wrote
                  · exact .unwritten extracted something mode place wrote

theorem yields_of_eq {p : Plan} {s next : State} {source : Script.Source}
    {result : Except SourceError Product} (extracted : p.extractSource s source = (next, result)) :
    Yields p s source next result := by
  have yields := extractSource_yields p s source
  rwa [extracted] at yields

theorem extracted_of_yields {p : Plan} {s next : State} {source : Script.Source} {o : Product}
    (yields : Yields p s source next (.ok o)) :
    o.source = source ∧ Extraction.extract p.options p.validate source = .ok o.found := by
  cases yields <;> exact ⟨rfl, ‹_›⟩

/-! ### Steps -/

inductive Step where
  | extract (file content : String)
  | reset

/-- The state behind a step, and the result if the step extracts a source. -/
def Plan.take (p : Plan) (s : State) : Step → State × Option (Except TextError Product)
  | .extract file content =>
      let (next, result) := p.extractText s file content
      (next, some result)
  | .reset => (s.reset, none)

def Plan.run (p : Plan) (s : State) (steps : List Step) : State :=
  steps.foldl (fun s step => (p.take s step).1) s

def Plan.Writes (p : Plan) (s : State) (steps : List Step) : Prop :=
  ∀ before step after, steps = before ++ step :: after →
    ∀ e, (p.take (p.run s before) step).2 ≠ some (.error (.ofSource (.unwritten e)))

/-- What a step does to the table and the files, by its result. -/
structure Mirrors {E : Type} (c : Config) (root : String) (mode : Mode) (s next : State)
    (result : Option (Except E Product)) : Prop where
  /-- Nothing of a step that fails is kept. -/
  failed : ∀ e, result = some (.error e) → next = s
  /-- Messages that are taken up by a build that writes are merged into the table, and the catalog
  file has the text of the whole table. -/
  written : ∀ o path, result = some (.ok o) → o.found.messages ≠ [] → mode = .write →
    c.catalogPath root = some path →
      next.table = s.table.merge o.found.messages c.effectiveSpace ∧
        next.tree.readText path = .ok next.table.render
  /-- No other step changes a file. -/
  kept : (mode = .preview ∨ c.messagesDir = none ∨
    ∀ o, result = some (.ok o) → o.found.messages = []) → next.tree = s.tree
  /-- A build that would write but has no place to write to takes up nothing. -/
  unplaced : mode = .write → c.messagesDir = none → s.table = .empty → next.table = .empty

variable {c : Config} {root : String} {mode : Mode} {validate : Message.Validator} {s next : State}

theorem Mirrors.of_kept {E : Type} {result : Option (Except E Product)}
    (quiet : ∀ o path, result = some (.ok o) → o.found.messages ≠ [] → mode = .write →
      c.catalogPath root ≠ some path) : Mirrors c root mode s s result where
  failed _ _ := rfl
  written o path done something write place := absurd place (quiet o path done something write)
  kept _ := rfl
  unplaced _ _ empty := empty

theorem mirrors_source {source : Script.Source} {result : Except SourceError Product}
    (yields : Yields (.ofConfig c root mode validate) s source next result)
    (wrote : ∀ e, result ≠ .error (.unwritten e)) :
    Mirrors c root mode s next (some result) := by
  cases yields with
  | failed fails =>
      apply Mirrors.of_kept
      intro o path done
      cases done
  | silent extracted nothing =>
      apply Mirrors.of_kept
      intro o path done something
      cases done
      exact absurd nothing something
  | previewed extracted something preview =>
      obtain rfl : mode = .preview := preview
      constructor
      · intro e failed
        cases failed
      · intro o path done something' write
        cases write
      · intro _
        rfl
      · intro write
        cases write
  | unplaced extracted something write nowhere =>
      apply Mirrors.of_kept
      intro o path done _ _ place
      have nowhere : c.catalogDir root = none := nowhere
      rw [Config.catalogPath, nowhere] at place
      cases place
  | @written found directory tree extracted something write place success =>
      have place : c.catalogDir root = some directory := place
      constructor
      · intro e failed
        cases failed
      · intro o path done _ _ found
        cases done
        rw [Config.catalogPath, place] at found
        cases found
        exact ⟨rfl, readText_writeCatalog c success⟩
      · rintro (preview | nowhere | silent)
        · cases write.symm.trans preview
        · rw [Config.catalogDir, nowhere] at place
          cases place
        · exact absurd (silent _ rfl) something
      · intro _ nowhere
        rw [Config.catalogDir, nowhere] at place
        cases place
  | unwritten extracted something write place refused => exact absurd rfl (wrote _)

theorem Mirrors.map_error {E F : Type} {result : Except E Product} (f : E → F)
    (mirrors : Mirrors c root mode s next (some result)) :
    Mirrors c root mode s next (some (result.mapError f)) := by
  cases result with
  | ok o =>
      constructor
      · intro e failed
        cases failed
      · intro o' path done
        cases done
        exact mirrors.written o path rfl
      · rintro (preview | nowhere | silent)
        · exact mirrors.kept (.inl preview)
        · exact mirrors.kept (.inr (.inl nowhere))
        · exact mirrors.kept (.inr (.inr fun o' done => by cases done; exact silent o rfl))
      · exact mirrors.unplaced
  | error e =>
      obtain rfl := mirrors.failed e rfl
      apply Mirrors.of_kept
      intro o path done
      cases done

theorem take_extract (p : Plan) (s : State) (file content : String) :
    p.take s (.extract file content) =
      ((p.extractText s file content).1, some (p.extractText s file content).2) := by
  rfl

theorem take_unparsed (p : Plan) (s : State) {file content : String} {fault : Script.SyntaxFault}
    (parsed : Script.Source.parse file content = .error fault) :
    p.take s (.extract file content) = (s, some (.error (.unparsed fault))) := by
  rw [take_extract]
  unfold Plan.extractText
  rw [parsed]

theorem take_parsed (p : Plan) (s : State) {file content : String} {source : Script.Source}
    (parsed : Script.Source.parse file content = .ok source) :
    p.take s (.extract file content) = ((p.extractSource s source).1,
      some ((p.extractSource s source).2.mapError .ofSource)) := by
  rw [take_extract]
  unfold Plan.extractText
  rw [parsed]

theorem take_cases (p : Plan) (s : State) (step : Step) :
    (step = .reset ∧ p.take s step = (s.reset, none)) ∨
    (∃ file content fault, step = .extract file content ∧
      Script.Source.parse file content = .error fault ∧
      p.take s step = (s, some (.error (.unparsed fault)))) ∨
    (∃ file content source, step = .extract file content ∧
      Script.Source.parse file content = .ok source ∧
      p.take s step = ((p.extractSource s source).1,
        some ((p.extractSource s source).2.mapError .ofSource))) := by
  cases step with
  | reset => exact .inl ⟨rfl, rfl⟩
  | extract file content =>
      cases parsed : Script.Source.parse file content with
      | error fault =>
          exact .inr (.inl ⟨file, content, fault, rfl, parsed, take_unparsed p s parsed⟩)
      | ok source =>
          exact .inr (.inr ⟨file, content, source, rfl, parsed, take_parsed p s parsed⟩)

theorem mirrors_take (step : Step)
    (wrote : ∀ e, ((Plan.ofConfig c root mode validate).take s step).2 ≠
      some (.error (.ofSource (.unwritten e)))) :
    let p := Plan.ofConfig c root mode validate
    Mirrors c root mode s (p.take s step).1 (p.take s step).2 := by
  intro p
  rcases take_cases p s step with ⟨_, taken⟩ | ⟨file, content, fault, _, _, taken⟩ |
    ⟨file, content, source, _, _, taken⟩
  · rw [taken]
    exact ⟨by simp, by simp, fun _ => rfl, fun _ _ _ => rfl⟩
  · rw [taken]
    exact .of_kept (by simp)
  · rw [taken] at wrote ⊢
    refine (mirrors_source (extractSource_yields p s source) ?_).map_error _
    intro e refused
    exact wrote e (by rw [refused]; rfl)

/-! ### Runs -/

theorem run_concat (p : Plan) (s : State) (steps : List Step) (step : Step) :
    p.run s (steps ++ [step]) = (p.take (p.run s steps) step).1 :=
  List.foldl_append

theorem Plan.Writes.of_concat {p : Plan} {steps : List Step} {step : Step}
    (writes : p.Writes s (steps ++ [step])) : p.Writes s steps := by
  rintro before other after rfl
  exact writes before other (after ++ [step]) (by simp)

theorem run_unplaced (nowhere : c.messagesDir = none) (tree : FileTree) (steps : List Step)
    (writes : (Plan.ofConfig c root .write validate).Writes (.start tree) steps) :
    ((Plan.ofConfig c root .write validate).run (.start tree) steps).table = .empty := by
  induction steps using List.reverseRecOn with
  | nil => rfl
  | append_singleton before step ih =>
      rw [run_concat]
      have mirrors := mirrors_take step (writes before step [] rfl)
      exact mirrors.unplaced rfl nowhere (ih writes.of_concat)

theorem product_of_take {p : Plan} {step : Step} {o : Product}
    (done : (p.take s step).2 = some (.ok o)) :
    ∃ file content, step = .extract file content ∧
      Script.Source.parse file content = .ok o.source ∧
      Extraction.extract p.options p.validate o.source = .ok o.found := by
  rcases take_cases p s step with ⟨_, taken⟩ | ⟨_, _, _, _, _, taken⟩ |
    ⟨file, content, source, extracts, parsed, taken⟩
  · simp [taken] at done
  · simp [taken] at done
  · rw [taken] at done
    rcases yielded : p.extractSource s source with ⟨next, e | found⟩
    · rw [yielded] at done
      cases done
    · rw [yielded] at done
      cases done
      obtain ⟨rfl, extracted⟩ := extracted_of_yields (yields_of_eq yielded)
      exact ⟨file, content, extracts, parsed, extracted⟩

/-- Whatever a build is set to, and whatever it has done before: a step that ends in an error leaves
table and files as they were. A step with messages in a build that writes merges the messages of its
own source, and leaves the catalog file with the text of the table. Every other step leaves the
files as they were. And a build that would write but has no place to write to keeps no message. -/
theorem run_mirrors (c : Config) (root : String) (mode : Mode) (validate : Message.Validator)
    (tree : FileTree) (steps : List Step)
    (writes : (Plan.ofConfig c root mode validate).Writes (.start tree) steps) :
    let p := Plan.ofConfig c root mode validate
    ∀ before step after, steps = before ++ step :: after →
      let s := p.run (.start tree) before
      let next := p.run (.start tree) (before ++ [step])
      let result := (p.take s step).2
      Mirrors c root mode s next result ∧
        (∀ o, result = some (.ok o) → ∃ file content, step = .extract file content ∧
          Script.Source.parse file content = .ok o.source ∧
          Extraction.extract c.options validate o.source = .ok o.found) ∧
        (mode = .write → c.messagesDir = none → s.table = .empty ∧ next.table = .empty) := by
  rintro p before step after rfl
  dsimp only
  rw [run_concat]
  have mirrors := mirrors_take step (writes before step after rfl)
  refine ⟨mirrors, fun o done => product_of_take done, ?_⟩
  rintro rfl nowhere
  have empty : (p.run (.start tree) before).table = .empty :=
    run_unplaced nowhere tree before fun front other back shape =>
      writes front other (back ++ step :: after) (by simp [shape])
  exact ⟨empty, mirrors.unplaced rfl nowhere empty⟩

def greetingConfig : Config :=
  { messagesDir := some "out" }

def greetingCode : String :=
  "import \x7b defineMessages \x7d from \"react-intl\";\n" ++
    "defineMessages(\x7b a: \x7b id: \"a\", defaultMessage: \"A\" \x7d \x7d);\n"

def greetingSteps : List Step :=
  [.extract "a.ts" greetingCode, .extract "b.ts" "("]

def messageCount : Option (Except TextError Product) → Nat
  | some (.ok o) => o.found.messages.length
  | _ => 0

theorem product_of_count {result : Option (Except TextError Product)}
    (counted : messageCount result ≠ 0) :
    ∃ o, result = some (.ok o) ∧ o.found.messages ≠ [] := by
  unfold messageCount at counted
  split at counted
  · exact ⟨_, rfl, List.ne_nil_of_length_pos (Nat.pos_of_ne_zero counted)⟩
  · exact absurd rfl counted

theorem run_mirrors_greeting :
    let p := Plan.ofConfig greetingConfig "." .write Message.canonicalize
    let s := p.run (.start .empty) [.extract "a.ts" greetingCode]
    p.Writes (.start .empty) greetingSteps ∧ s.table.size = 1 ∧
      s.tree.readText "./out/messages.properties" = .ok s.table.render ∧
      p.run (.start .empty) greetingSteps = s := by
  intro p s
  have evaluated : messageCount (p.take (.start .empty) (.extract "a.ts" greetingCode)).2 = 1 ∧
      s.table.size = 1 := by decide +kernel
  obtain ⟨o, done, something⟩ := product_of_count (Nat.ne_of_gt (Nat.lt_of_lt_of_eq
    Nat.zero_lt_one evaluated.1.symm))
  obtain ⟨fault, failed⟩ : ∃ fault,
      (p.take s (.extract "b.ts" "(")).2 = some (.error (.unparsed fault)) := by
    have unparsed : (Script.Source.parse "b.ts" "(").toBool = false := by decide +kernel
    cases parsed : Script.Source.parse "b.ts" "(" with
    | error fault => exact ⟨fault, by rw [take_unparsed p s parsed]⟩
    | ok source =>
        rw [parsed] at unparsed
        cases unparsed
  have writes : p.Writes (.start .empty) greetingSteps := by
    intro before step after shape e refused
    match before with
    | [] =>
        cases shape
        cases done.symm.trans refused
    | [_] =>
        cases shape
        cases failed.symm.trans refused
    | _ :: _ :: _ => simp [greetingSteps] at shape
  have mirrors := run_mirrors greetingConfig "." .write Message.canonicalize .empty greetingSteps
    writes
  have first := (mirrors [] _ _ rfl).1.written o "./out/messages.properties" done something rfl
    (by decide)
  have second := (mirrors [.extract "a.ts" greetingCode] _ _ rfl).1.failed _ failed
  exact ⟨writes, evaluated.2, first.2, second⟩

end Build

end MessageCatalog
