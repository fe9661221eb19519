import Mathlib.Data.List.TakeWhile
import MessageCatalog.FileTree

/-!
What has been written can be read. A path leads to the same place in a tree that has got more
nodes, so a text that was written to a path is what the path leads to, unless the path ends with a
step that is no name.
-/

namespace MessageCatalog

theorem splitOn_append_apart (front tail : List Char) (apart : '/' ∉ tail) :
    ∃ before name, (front ++ tail).splitOn '/' = before ++ [name ++ tail] := by
  induction front with
  | nil => exact ⟨[], [], List.splitOn_eq_singleton apart⟩
  | cons c rest ih =>
      obtain ⟨before, name, split⟩ := ih
      rw [List.cons_append, List.splitOn_cons_eq_if_modifyHead, split]
      split
      · exact ⟨[] :: before, name, rfl⟩
      · cases before with
        | nil => exact ⟨[], c :: name, rfl⟩
        | cons first others => exact ⟨(c :: first) :: others, name, rfl⟩

theorem steps_of_toList {path : String} {front tail : List Char}
    (shape : path.toList = front ++ tail) (apart : '/' ∉ tail) :
    ∃ before name, Path.steps path = before ++ [String.ofList (name ++ tail)] := by
  obtain ⟨before, name, split⟩ := splitOn_append_apart front tail apart
  exact ⟨before.map String.ofList, name, by rw [Path.steps, shape, split, List.map_append]; rfl⟩

theorem join_toList (base path : String) :
    ∃ front, (Path.join base path).toList = front ++ path.toList := by
  unfold Path.join
  split
  · exact ⟨[], rfl⟩
  · split
    · exact ⟨base.toList, String.toList_append⟩
    · exact ⟨(base ++ "/").toList, String.toList_append⟩

namespace FileTree

variable {t t' : FileTree} {place next : Place} {node : Node}

theorem lookup_replaced (nodes : List (Place × Node)) (place : Place) (node : Node)
    (other : Place) :
    (nodes.map fun entry => if entry.1 == place then (place, node) else entry).lookup other =
      if other = place then (nodes.lookup place).map fun _ => node else nodes.lookup other := by
  induction nodes with
  | nil => simp
  | cons entry rest ih =>
      obtain ⟨found, old⟩ := entry
      rw [List.map_cons]
      by_cases here : found = place
      · subst here
        by_cases same : other = found
        · simp [same]
        · simp only [BEq.rfl, ↓reduceIte, List.lookup_cons, beq_false_of_ne same, ih, if_neg same]
      · rw [if_neg (by simpa using here), List.lookup_cons, List.lookup_cons, List.lookup_cons, ih]
        by_cases same : other = place
        · simp [same, beq_false_of_ne (Ne.symm here)]
        · simp [same]

theorem lookup_put (t : FileTree) (place : Place) (node : Node) (other : Place) :
    (t.put place node).nodes.lookup other =
      if other = place then some node else t.nodes.lookup other := by
  unfold put
  split
  next present =>
    obtain ⟨old, found⟩ := Option.isSome_iff_exists.mp present
    simp only [lookup_replaced, found, Option.map_some]
  next absent =>
    rw [Option.not_isSome_iff_eq_none] at absent
    rw [List.lookup_append]
    by_cases same : other = place
    · simp [same, absent]
    · simp [List.lookup_cons, same, beq_false_of_ne same]

theorem put_working (t : FileTree) (place : Place) (node : Node) :
    (t.put place node).working = t.working := by
  unfold put
  split <;> rfl

theorem node?_put (free : place <+: t.working → node = .directory) (other : Place) :
    (t.put place node).node? other = if other = place then some node else t.node? other := by
  unfold node?
  rw [lookup_put, put_working]
  by_cases same : other = place
  · rw [same, if_pos rfl, if_pos rfl]
    split
    next around => rw [free (List.isPrefixOf_iff_prefix.mp around)]
    next => rfl
  · rw [if_neg same, if_neg same]

theorem not_around_working (noDirectory : t.node? place ≠ some .directory) :
    ¬place <+: t.working := by
  intro around
  exact noDirectory (if_pos (List.isPrefixOf_iff_prefix.mpr around))

/-- The nodes of a tree are also in the other one, and its directories are directories there. -/
structure Extends (t t' : FileTree) : Prop where
  working : t'.working = t.working
  directory : ∀ place, t.node? place = some .directory → t'.node? place = some .directory
  present : ∀ place, (t.node? place).isSome = true → (t'.node? place).isSome = true

theorem node?_put_of_free (noDirectory : t.node? place ≠ some .directory) (other : Place) :
    (t.put place node).node? other = if other = place then some node else t.node? other :=
  node?_put (fun around => absurd around (not_around_working noDirectory)) other

theorem extends_put (noDirectory : t.node? place ≠ some .directory) :
    t.Extends (t.put place node) := by
  refine ⟨put_working t place node, fun other directory => ?_, fun other present => ?_⟩
  · rw [node?_put_of_free noDirectory]
    split
    next same => exact absurd (same ▸ directory) noDirectory
    next => exact directory
  · rw [node?_put_of_free noDirectory]
    split
    next => rfl
    next => exact present

/-! ### Paths -/

def IsName (step : String) : Prop :=
  step ≠ "" ∧ step ≠ "." ∧ step ≠ ".."

theorem step_of_name (directory : t.node? place = some .directory) {name : String}
    (named : IsName name) :
    t.step place name =
      if name.utf8ByteSize > nameLimit then .error .nameTooLong
      else
        match t.node? (place ++ [name]) with
        | some _ => .ok (place ++ [name])
        | none => .error .notFound := by
  obtain ⟨notEmpty, notDot, notUp⟩ := named
  have stays : ¬(name.isEmpty || name == ".") = true := by
    simp [String.isEmpty_iff, notEmpty, notDot]
  have below : ¬(name == "..") = true := by simpa using notUp
  unfold step
  rw [directory]
  exact (if_neg stays).trans (if_neg below)

theorem step_of_other (directory : t.node? place = some .directory) {name : String}
    (other : ¬IsName name) :
    t.step place name =
      if name.isEmpty || name == "." then .ok place else .ok place.dropLast := by
  unfold step
  rw [directory]
  dsimp only
  split
  · rfl
  · rename_i moves
    rw [Bool.or_eq_true, not_or, String.isEmpty_iff, beq_iff_eq] at moves
    have up : name = ".." :=
      Classical.byContradiction fun notUp => other ⟨moves.1, moves.2, notUp⟩
    rw [if_pos (beq_iff_eq.mpr up)]

theorem directory_of_step {name : String} (found : t.step place name = .ok next) :
    t.node? place = some .directory := by
  unfold step at found
  split at found
  · assumption
  all_goals cases found

theorem Extends.step (ext : t.Extends t') {name : String} (found : t.step place name = .ok next) :
    t'.step place name = .ok next := by
  have directory := directory_of_step found
  by_cases named : IsName name
  · rw [step_of_name directory named] at found
    rw [step_of_name (ext.directory place directory) named]
    split at found
    · cases found
    · rename_i short
      rw [if_neg short]
      split at found
      · rename_i present
        obtain ⟨node, there⟩ := Option.isSome_iff_exists.mp
          (ext.present _ (Option.isSome_of_eq_some present))
        rwa [there]
      · cases found
  · rw [step_of_other directory named] at found
    rw [step_of_other (ext.directory place directory) named, found]

section

variable {α : Type} {f : Place → α → Except AccessError Place}

theorem follow_cons {first : α} {rest : List α} :
    (first :: rest).foldlM f place = .ok next ↔
      ∃ between, f place first = .ok between ∧ rest.foldlM f between = .ok next := by
  rw [List.foldlM_cons]
  cases f place first <;> simp [bind, Except.bind]

theorem follow_append {front back : List α} :
    (front ++ back).foldlM f place = .ok next ↔
      ∃ between, front.foldlM f place = .ok between ∧ back.foldlM f between = .ok next := by
  rw [List.foldlM_append]
  cases front.foldlM f place <;> simp [bind, Except.bind]

end

theorem Extends.follow (ext : t.Extends t') {steps : List String}
    (found : steps.foldlM t.step place = .ok next) : steps.foldlM t'.step place = .ok next := by
  induction steps generalizing place with
  | nil => exact found
  | cons first rest ih =>
      obtain ⟨between, reached, behind⟩ := follow_cons.mp found
      exact follow_cons.mpr ⟨between, ext.step reached, ih behind⟩

theorem follow_last {before : List String} (reached : before.foldlM t.step place = .ok next)
    (name : String) : (before ++ [name]).foldlM t.step place = t.step next name := by
  rw [List.foldlM_append, reached]
  change List.foldlM t.step next [name] = _
  rw [List.foldlM_cons]
  cases t.step next name <;> rfl

theorem next_of_name {name : String} (named : IsName name)
    (found : t.step place name = .ok next) : next = place ++ [name] := by
  rw [step_of_name (directory_of_step found) named] at found
  split at found
  · cases found
  · split at found
    · cases found
      rfl
    · cases found

theorem next_of_names {names : List String} (named : ∀ name ∈ names, IsName name)
    (found : names.foldlM t.step place = .ok next) : next = place ++ names := by
  induction names generalizing place with
  | nil =>
      cases found
      exact (List.append_nil next).symm
  | cons first rest ih =>
      obtain ⟨here, others⟩ := List.forall_mem_cons.mp named
      obtain ⟨between, stepped, behind⟩ := follow_cons.mp found
      obtain rfl := next_of_name here stepped
      rw [ih others behind, List.append_assoc, List.singleton_append]

theorem locate_eq_ok_iff {path : String} :
    t.locate path = .ok place ↔
      path.toList.contains '\x00' = false ∧ path.isEmpty = false ∧
        (Path.steps path).foldlM t.step (t.origin path) = .ok place := by
  unfold locate
  cases path.toList.contains '\x00' <;> cases path.isEmpty <;> simp

theorem Extends.origin (ext : t.Extends t') (path : String) : t'.origin path = t.origin path := by
  rw [FileTree.origin, FileTree.origin, ext.working]

theorem Extends.locate (ext : t.Extends t') {path : String} (found : t.locate path = .ok place) :
    t'.locate path = .ok place := by
  rw [locate_eq_ok_iff] at found ⊢
  rw [ext.origin]
  exact ⟨found.1, found.2.1, ext.follow found.2.2⟩

/-! ### Texts -/

theorem readText_eq_ok_iff {path content : String} :
    t.readText path = .ok content ↔
      ∃ place, t.locate path = .ok place ∧ t.node? place = some (.file (.text content)) := by
  unfold readText
  cases t.locate path with
  | error e => simp [bind, Except.bind]
  | ok place =>
      dsimp only [bind, Except.bind]
      split <;> simp_all [pure, Except.pure]

theorem place_of_names {path : String} {before names : List String}
    (shape : Path.steps path = before ++ names) (named : ∀ name ∈ names, IsName name)
    (found : t.locate path = .ok place) :
    ∃ around, before.foldlM t.step (t.origin path) = .ok around ∧ place = around ++ names := by
  obtain ⟨-, -, followed⟩ := locate_eq_ok_iff.mp found
  rw [shape] at followed
  obtain ⟨around, reached, behind⟩ := follow_append.mp followed
  exact ⟨around, reached, next_of_names named behind⟩

theorem newPlace_eq_ok {path : String} (found : t.newPlace path = .ok place) :
    ∃ before name blanks around, Path.steps path = before ++ name :: blanks ∧
      (∀ blank ∈ blanks, blank = "") ∧ before.foldlM t.step (t.origin path) = .ok around ∧
      t.node? around = some .directory ∧ place = around ++ [name] := by
  have parts : (Path.steps path).reverse.takeWhile String.isEmpty ++
      (Path.steps path).reverse.dropWhile String.isEmpty = (Path.steps path).reverse :=
    List.takeWhile_append_dropWhile
  have blank : ∀ step ∈ (Path.steps path).reverse.takeWhile String.isEmpty, step = "" :=
    fun step member => String.isEmpty_iff.mp (List.mem_takeWhile_imp member)
  unfold newPlace at found
  split at found
  · cases found
  · rename_i name before rest
    cases reached : before.reverse.foldlM t.step (t.origin path) with
    | error e =>
        rw [reached] at found
        cases found
    | ok around =>
        rw [reached] at found
        dsimp only [bind, Except.bind] at found
        split at found
        · cases found
          rw [rest] at parts
          have shape := congrArg List.reverse parts
          rw [List.reverse_reverse, List.reverse_append, List.reverse_cons, List.append_assoc]
            at shape
          refine ⟨before.reverse, name, _, around, shape.symm, ?_, reached, ‹_›, rfl⟩
          simpa using blank
        · cases found
        · cases found

theorem newPlace_of_name {path name : String} {before : List String}
    (shape : Path.steps path = before ++ [name]) (named : IsName name)
    (found : t.newPlace path = .ok place) :
    ∃ around, before.foldlM t.step (t.origin path) = .ok around ∧
      t.node? around = some .directory ∧ place = around ++ [name] := by
  obtain ⟨front, last, blanks, around, shape', blank, reached, directory, rfl⟩ :=
    newPlace_eq_ok found
  have same : before ++ [name] = front ++ last :: blanks := shape.symm.trans shape'
  rcases List.eq_nil_or_concat blanks with rfl | ⟨others, final, rfl⟩
  · obtain ⟨rfl, names⟩ := List.append_inj' same rfl
    obtain rfl := List.singleton_inj.mp names
    exact ⟨around, reached, directory, rfl⟩
  -- behind a name no blank step follows
  · have same' : before ++ [name] = front ++ last :: others ++ [final] := by
      rw [same, List.concat_eq_append, List.append_assoc, List.cons_append]
    obtain ⟨-, names⟩ := List.append_inj' same' rfl
    exact absurd ((List.singleton_inj.mp names).trans (blank final (by simp))) named.1

theorem missing_of_locate {path name : String} {before : List String} {around : Place}
    (shape : Path.steps path = before ++ [name]) (named : IsName name)
    (reached : before.foldlM t.step (t.origin path) = .ok around)
    (directory : t.node? around = some .directory) (filled : path.isEmpty = false)
    (missing : t.locate path = .error .notFound) :
    path.toList.contains '\x00' = false ∧ name.utf8ByteSize ≤ nameLimit ∧
      t.node? (around ++ [name]) = none := by
  unfold locate at missing
  split at missing
  · cases missing
  · rename_i noNul
    rw [filled, if_neg Bool.false_ne_true, shape, follow_last reached,
      step_of_name directory named] at missing
    refine ⟨Bool.eq_false_iff.mpr noNul, ?_⟩
    split at missing
    · cases missing
    · rename_i short
      split at missing
      · cases missing
      · exact ⟨Nat.le_of_not_gt short, ‹_›⟩

theorem writeText_eq_ok {written : FileTree} {path content name : String}
    {before : List String} (shape : Path.steps path = before ++ [name]) (named : IsName name)
    (success : t.writeText path content = .ok written) :
    ∃ around, before.foldlM t.step (t.origin path) = .ok around ∧
      t.node? (around ++ [name]) ≠ some .directory ∧
      written = t.put (around ++ [name]) (.file (.text content)) ∧
      written.locate path = .ok (around ++ [name]) := by
  unfold writeText at success
  split at success
  · rename_i found
    split at success
    -- the file was there, and only its text is another one
    · rename_i file
      cases success
      obtain ⟨around, reached, rfl⟩ := place_of_names shape (by simpa using named) found
      have noDirectory : t.node? (around ++ [name]) ≠ some .directory := by simp [file]
      exact ⟨around, reached, noDirectory, rfl, (extends_put noDirectory).locate found⟩
    · cases success
  · rename_i missing
    split at success
    · cases success
    · rename_i filled
      rw [Bool.not_eq_true] at filled
      split at success
      · cases success
      · cases created : t.newPlace path with
        | error e => simp [created, Except.map] at success
        -- the file is new, so no step in front of the last one sees it
        | ok place =>
            obtain ⟨around, reached, directory, rfl⟩ := newPlace_of_name shape named created
            obtain ⟨noNul, short, free⟩ :=
              missing_of_locate shape named reached directory filled missing
            rw [created] at success
            cases success
            have noDirectory : t.node? (around ++ [name]) ≠ some .directory := by simp [free]
            have ext : t.Extends (t.put (around ++ [name]) (.file (.text content))) :=
              extends_put noDirectory
            refine ⟨around, reached, noDirectory, rfl, locate_eq_ok_iff.mpr ⟨noNul, filled, ?_⟩⟩
            rw [shape, ext.origin, follow_last (ext.follow reached),
              step_of_name (ext.directory _ directory) named, if_neg (Nat.not_lt.mpr short),
              node?_put_of_free noDirectory, if_pos rfl]
  · cases success

theorem readText_writeText {written : FileTree} {path content name : String}
    {before : List String} (shape : Path.steps path = before ++ [name]) (named : IsName name)
    (success : t.writeText path content = .ok written) : written.readText path = .ok content := by
  obtain ⟨around, -, noDirectory, rfl, found⟩ := writeText_eq_ok shape named success
  refine readText_eq_ok_iff.mpr ⟨around ++ [name], found, ?_⟩
  rw [node?_put_of_free noDirectory, if_pos rfl]

end FileTree

end MessageCatalog
