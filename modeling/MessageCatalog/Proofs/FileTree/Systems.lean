import MessageCatalog.Proofs.FileTree.Following
import MessageCatalog.Proofs.Path.Parents

/-!
Systems of files, as far as paths need them, and a tree as one of them. A path leads along its
components to a directory, and to whatever that directory holds under a name below the path.
-/

namespace MessageCatalog

/-- What paths need of a system of files. A directory is known by the names that lead to it from the
top. What `enter` finds for a name may be elsewhere, where the name is a link. Two dots lead out of
a directory, and out of the topmost one to nothing else. -/
structure System where
  working : Place
  root? : Option Place
  enter : Place → String → Option Place
  up : Place → Option Place
  holds : Place → String → Bool
  up_below : ∀ place name, up (place ++ [name]) = some place
  up_top : ∀ place, up [] = some place → place = []

namespace System

variable {s : System} {path above : String} {p q : Place}

def follow (s : System) (place : Place) : PathComponent → Option Place
  | .root => s.root?
  | .here => some place
  | .up => s.up place
  | .name text => s.enter place text

def reach (s : System) (parts : List PathComponent) : Option Place :=
  parts.foldlM s.follow s.working

/-- The directory that a path names; the empty path names the working directory. -/
def directory? (s : System) (path : String) : Option Place :=
  s.reach (Path.components path)

def holdsBelow (s : System) (path name : String) : Bool :=
  (s.directory? path).any fun place => s.holds place name

/-- No name on the way of a path is a link to another place. -/
def Direct (s : System) (path : String) : Prop :=
  ∀ front name behind place next, Path.components path = front ++ .name name :: behind →
    s.reach front = some place → s.enter place name = some next → next = place ++ [name]

theorem holdsBelow_eq_true {name : String} :
    s.holdsBelow path name = true ↔ ∃ q, s.directory? path = some q ∧ s.holds q name = true := by
  rw [holdsBelow, Option.any_eq_true]

theorem holdsBelow_eq_false {name : String} :
    s.holdsBelow path name = false ↔ ∀ q, s.directory? path = some q → s.holds q name = false := by
  rw [holdsBelow, Option.any_eq_false]

/-! ### Up along a path -/

theorem directory?_of_components {part : PathComponent}
    (shape : Path.components path = Path.components above ++ [part]) :
    s.directory? path = (s.directory? above).bind fun place => s.follow place part := by
  rw [directory?, directory?, reach, reach, shape, List.foldlM_append]
  cases (Path.components above).foldlM s.follow s.working with
  | none => rfl
  | some place =>
      change List.foldlM s.follow place [part] = s.follow place part
      rw [List.foldlM_cons]
      cases s.follow place part <;> rfl

theorem Direct.of_components {part : PathComponent} (direct : s.Direct path)
    (shape : Path.components path = Path.components above ++ [part]) : s.Direct above := by
  intro front name behind place next split
  refine direct front name (behind ++ [part]) place next ?_
  rw [shape, split, List.append_assoc]
  rfl

/-- What the last component of a path does: nothing, a step out of a directory, or into one. -/
inductive Turns : PathComponent → Place → Place → Prop
  | stays {part : PathComponent} {place : Place} : Turns part place place
  | leaves {place : Place} {name : String} : Turns .up (place ++ [name]) place
  | enters {place : Place} {name : String} : Turns (.name name) place (place ++ [name])

theorem turns_of_parent (direct : s.Direct path) (found : Path.parent? path = some above)
    (named : s.directory? path = some p) :
    ∃ part around, Path.components path = Path.components above ++ [part] ∧
      s.directory? above = some around ∧ Turns part around p := by
  obtain ⟨part, noRoot, shape⟩ := Path.components_of_parent found
  rw [directory?_of_components shape] at named
  obtain ⟨around, there, last⟩ := Option.bind_eq_some_iff.mp named
  refine ⟨part, around, shape, there, ?_⟩
  cases part with
  | root => exact absurd rfl noRoot
  | here =>
      cases last
      exact .stays
  | up =>
      rcases List.eq_nil_or_concat' around with rfl | ⟨place, name, rfl⟩
      · rw [s.up_top p last]
        exact .stays
      · have same : some place = some p := (s.up_below place name).symm.trans last
        cases same
        exact .leaves
  | name text =>
      rw [direct _ text [] around p shape there last]
      exact .enters

end System

/-! ### Trees -/

namespace FileTree

variable {t : FileTree} {place next q : Place} {path name : String}

def IsSound (name : String) : Prop :=
  '\x00' ∉ name.toList

instance (name : String) : Decidable (IsSound name) :=
  inferInstanceAs (Decidable ('\x00' ∉ name.toList))

/-- A tree as a system. Its root is at the top. -/
def system (t : FileTree) : System where
  working := t.working
  root? := some []
  enter place name :=
    match t.step place name with
    | .ok next => if IsSound name ∧ t.node? next = some .directory then some next else none
    | .error _ => none
  up place := some place.dropLast
  holds place name := (t.node? (place ++ [name])).isSome
  up_below place name := by simp
  up_top place found := (Option.some.inj found).symm

theorem enter_eq_some :
    t.system.enter place name = some next ↔
      t.step place name = .ok next ∧ IsSound name ∧ t.node? next = some .directory := by
  change (match t.step place name with
    | .ok next => if IsSound name ∧ t.node? next = some .directory then some next else none
    | .error _ => none) = some next ↔ _
  cases t.step place name with
  | error e => simp
  | ok other =>
      simp only [Option.ite_none_right_eq_some, Option.some.injEq, Except.ok.injEq]
      constructor
      · rintro ⟨holds, rfl⟩
        exact ⟨rfl, holds⟩
      · rintro ⟨rfl, holds⟩
        exact ⟨holds, rfl⟩

def IsOpen (t : FileTree) (place : Place) : Prop :=
  ∀ around, around <+: place → t.node? around = some .directory

theorem isOpen_origin (t : FileTree) (path : String) : t.IsOpen (t.origin path) := by
  intro around above
  have working : around <+: t.working := by
    unfold origin at above
    split at above
    · rw [List.prefix_nil.mp above]
      exact List.nil_prefix
    · exact above
  exact if_pos (List.isPrefixOf_iff_prefix.mpr working)

theorem IsOpen.concat (opened : t.IsOpen place) {name : String}
    (directory : t.node? (place ++ [name]) = some .directory) : t.IsOpen (place ++ [name]) := by
  intro around above
  rcases List.prefix_concat_iff.mp above with rfl | above
  · exact directory
  · exact opened around above

theorem directory_of_steps {steps : List String} (found : steps.foldlM t.step place = .ok q)
    (directory : t.node? q = some .directory) : t.node? place = some .directory := by
  cases steps with
  | nil =>
      cases found
      exact directory
  | cons first rest =>
      obtain ⟨next, stepped, -⟩ := follow_cons.mp found
      exact directory_of_step stepped

theorem step_kinds (step : String) :
    (¬IsName step ∧ (step.isEmpty || step == ".") = true ∧ Path.ofStep step = none) ∨
      step = ".." ∨ IsName step := by
  by_cases idle : (step.isEmpty || step == ".") = true
  · refine .inl ⟨fun named => ?_, idle, by rw [Path.ofStep, if_pos idle]⟩
    rw [Bool.or_eq_true, String.isEmpty_iff, beq_iff_eq] at idle
    exact idle.elim named.1 named.2.1
  · rw [Bool.or_eq_true, not_or, String.isEmpty_iff, beq_iff_eq] at idle
    by_cases up : step = ".."
    · exact .inr (.inl up)
    · exact .inr (.inr ⟨idle.1, idle.2, up⟩)

theorem reach_steps {steps : List String} (opened : t.IsOpen place)
    (sound : ∀ step ∈ steps, IsSound step) :
    (steps.foldlM t.step place = .ok q ∧ t.node? q = some .directory) ↔
      (steps.filterMap Path.ofStep).foldlM t.system.follow place = some q := by
  have directory := opened place List.prefix_rfl
  induction steps generalizing place with
  | nil =>
      constructor
      · rintro ⟨⟨⟩, _⟩
        rfl
      · rintro ⟨⟩
        exact ⟨rfl, directory⟩
  | cons step rest ih =>
      obtain ⟨soundHere, soundRest⟩ := List.forall_mem_cons.mp sound
      rcases step_kinds step with ⟨other, idle, nothing⟩ | rfl | named
      · rw [List.foldlM_cons, step_of_other directory other, if_pos idle,
          List.filterMap_cons_none nothing]
        exact ih opened soundRest directory
      · have shape : Path.ofStep ".." = some .up := by decide
        rw [List.foldlM_cons, step_of_other directory (by simp [IsName]), if_neg (by decide),
          List.filterMap_cons_some shape, List.foldlM_cons]
        have around : t.IsOpen place.dropLast :=
          fun above front => opened above (front.trans (List.dropLast_prefix place))
        exact ih around soundRest (around _ List.prefix_rfl)
      · rw [List.filterMap_cons_some (Path.ofStep_name named)]
        change _ ↔ (t.system.enter place step >>= _) = some q
        constructor
        · rintro ⟨found, last⟩
          obtain ⟨next, stepped, later⟩ := follow_cons.mp found
          have inside := directory_of_steps later last
          obtain rfl := next_of_name named stepped
          rw [enter_eq_some.mpr ⟨stepped, soundHere, inside⟩]
          exact (ih (opened.concat inside) soundRest inside).mp ⟨later, last⟩
        · intro found
          obtain ⟨next, entered, later⟩ := Option.bind_eq_some_iff.mp found
          obtain ⟨stepped, _, inside⟩ := enter_eq_some.mp entered
          obtain rfl := next_of_name named stepped
          obtain ⟨reached, last⟩ := (ih (opened.concat inside) soundRest inside).mpr later
          exact ⟨follow_cons.mpr ⟨_, stepped, reached⟩, last⟩

theorem mem_splitOn {c : Char} {text : List Char} (visible : c ≠ '/') :
    (∃ part ∈ text.splitOn '/', c ∈ part) ↔ c ∈ text := by
  induction text with
  | nil => simp
  | cons head tail ih =>
      obtain ⟨first, rest, split⟩ := List.exists_cons_of_ne_nil (List.splitOn_ne_nil '/' tail)
      rw [split] at ih
      rw [List.splitOn_cons_eq_if_modifyHead, split, List.mem_cons, ← ih]
      split
      next slash =>
        obtain rfl := beq_iff_eq.mp slash
        simp [visible]
      next => simp [or_assoc]

theorem isSound_iff_steps : IsSound path ↔ ∀ step ∈ Path.steps path, IsSound step := by
  unfold IsSound Path.steps
  rw [← mem_splitOn (by decide : '\x00' ≠ '/')]
  simp

theorem isSound_of_reach {parts : List PathComponent}
    (found : parts.foldlM t.system.follow place = some q) :
    ∀ name ∈ Path.names parts, IsSound name := by
  induction parts generalizing place with
  | nil => simp [Path.names]
  | cons first rest ih =>
      rw [List.foldlM_cons] at found
      obtain ⟨between, stepped, later⟩ := Option.bind_eq_some_iff.mp found
      cases first with
      | name text =>
          exact List.forall_mem_cons.mpr ⟨(enter_eq_some.mp stepped).2.1, ih later⟩
      | _ => exact ih later

theorem mem_steps_of_leading {step : String} (member : step ∈ Path.leading path) :
    step ∈ Path.steps path := by
  unfold Path.leading at member
  split at member
  · cases member
  · split at member
    · exact (List.dropLast_prefix _).subset member
    · exact member

theorem filterMap_leading (path : String) :
    (Path.leading path).filterMap Path.ofStep = (Path.steps path).filterMap Path.ofStep := by
  by_cases present : path = ""
  · rw [present]
    rfl
  · exact (Path.leading_components present []).2

theorem directory?_eq (path : String) :
    t.system.directory? path =
      ((Path.leading path).filterMap Path.ofStep).foldlM t.system.follow (t.origin path) := by
  rw [System.directory?, System.reach, Path.components_eq, filterMap_leading, Path.opening, origin]
  split
  · rfl
  · split <;> rfl

theorem directory?_eq_some :
    t.system.directory? path = some q ↔
      IsSound path ∧ (Path.leading path).foldlM t.step (t.origin path) = .ok q ∧
        t.node? q = some .directory := by
  rw [directory?_eq]
  have opened := isOpen_origin t path
  constructor
  · intro found
    have names := isSound_of_reach found
    have sound : IsSound path := by
      refine isSound_iff_steps.mpr fun step member => ?_
      rcases step_kinds step with ⟨_, idle, _⟩ | rfl | named
      · rw [Bool.or_eq_true, String.isEmpty_iff, beq_iff_eq] at idle
        rcases idle with rfl | rfl <;> decide
      · decide
      · refine names step (Path.mem_names.mpr ?_)
        rw [filterMap_leading]
        exact List.mem_filterMap.mpr ⟨step, member, Path.ofStep_name named⟩
    have steps : ∀ step ∈ Path.leading path, IsSound step :=
      fun step member => isSound_iff_steps.mp sound step (mem_steps_of_leading member)
    exact ⟨sound, (reach_steps opened steps).mpr found⟩
  · rintro ⟨sound, found⟩
    have steps : ∀ step ∈ Path.leading path, IsSound step :=
      fun step member => isSound_iff_steps.mp sound step (mem_steps_of_leading member)
    exact (reach_steps opened steps).mp found

theorem isSound_join {name : String} (relative : Path.isAbsolute name = false)
    (sound : IsSound name) : IsSound (Path.join path name) ↔ IsSound path := by
  unfold IsSound at sound ⊢
  unfold Path.join
  rw [relative, Bool.false_or]
  split
  next empty =>
    obtain rfl := String.isEmpty_iff.mp empty
    simpa using sound
  next =>
    split
    · simp [sound]
    · simp [sound]

theorem exists?_eq_true :
    t.exists? path = true ↔
      ∃ place, t.locate path = .ok place ∧ (t.node? place).isSome = true := by
  unfold exists? find?
  cases t.locate path <;> simp

theorem step_eq_ok_of_name (named : IsName name) (short : name.utf8ByteSize ≤ nameLimit) :
    t.step place name = .ok next ↔
      t.node? place = some .directory ∧ (t.node? (place ++ [name])).isSome = true ∧
        next = place ++ [name] := by
  constructor
  · intro found
    have directory := directory_of_step found
    obtain rfl := next_of_name named found
    rw [step_of_name directory named, if_neg (Nat.not_lt.mpr short)] at found
    refine ⟨directory, ?_, rfl⟩
    split at found
    next present => rw [present]; rfl
    next => cases found
  · rintro ⟨directory, present, rfl⟩
    obtain ⟨node, present⟩ := Option.isSome_iff_exists.mp present
    rw [step_of_name directory named, if_neg (Nat.not_lt.mpr short), present]

theorem locate_join (plain : Path.IsPlain name) (sound : IsSound name) :
    t.locate (Path.join path name) = .ok place ↔
      IsSound path ∧
        ∃ q, (Path.leading path).foldlM t.step (t.origin path) = .ok q ∧
          t.step q name = .ok place := by
  have relative := Path.relative_of_name plain.2
  have filled : (Path.join path name).isEmpty = false := by
    obtain ⟨front, shape⟩ := join_toList path name
    refine Bool.eq_false_iff.mpr fun empty => plain.1.1 ?_
    obtain empty := String.isEmpty_iff.mp empty
    rw [empty] at shape
    simpa using (List.append_eq_nil_iff.mp shape.symm).2
  have clean : (Path.join path name).toList.contains '\x00' = false ↔ IsSound path := by
    rw [← isSound_join relative sound, IsSound, List.contains_eq_mem, decide_eq_false_iff_not]
  have begins : t.origin (Path.join path name) = t.origin path := by
    rw [origin, origin, Path.isAbsolute_join path relative]
  rw [locate_eq_ok_iff, clean, begins, Path.steps_join path relative,
    Path.steps_of_name plain.2, follow_append]
  simp only [List.foldlM_cons, List.foldlM_nil, bind_pure]
  constructor
  · rintro ⟨sound, _, found⟩
    exact ⟨sound, found⟩
  · rintro ⟨sound, found⟩
    exact ⟨sound, filled, found⟩

theorem exists?_join (plain : Path.IsPlain name) (sound : IsSound name)
    (short : name.utf8ByteSize ≤ nameLimit) :
    t.exists? (Path.join path name) = t.system.holdsBelow path name := by
  rw [Bool.eq_iff_iff, exists?_eq_true, System.holdsBelow_eq_true]
  constructor
  · rintro ⟨place, found, _⟩
    obtain ⟨clean, q, reached, last⟩ := (locate_join plain sound).mp found
    obtain ⟨directory, present, _⟩ := (step_eq_ok_of_name plain.1 short).mp last
    exact ⟨q, directory?_eq_some.mpr ⟨clean, reached, directory⟩, present⟩
  · rintro ⟨q, named, present⟩
    obtain ⟨clean, reached, directory⟩ := directory?_eq_some.mp named
    have last := (step_eq_ok_of_name plain.1 short).mpr ⟨directory, present, rfl⟩
    exact ⟨q ++ [name], (locate_join plain sound).mpr ⟨clean, q, reached, last⟩, present⟩

theorem direct_system (t : FileTree) (path : String) : t.system.Direct path := by
  intro front name behind place next shape _ entered
  have member : .name name ∈ Path.components path := by simp [shape]
  have named := (Path.isPlain_of_components member).1
  exact next_of_name named (enter_eq_some.mp entered).1

end FileTree

end MessageCatalog
