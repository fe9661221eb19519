import Mathlib.Data.List.Basic
import MessageCatalog.Proofs.FileTree.Writing

/-!
Joined paths. A path that is joined to a base goes through the steps of the base and on through its
own; so the components of a name below a path are those of the path and the name. Names that are
joined to a path have themselves as its steps, so they can be told from the path.
-/

namespace MessageCatalog.Path

open FileTree (IsName)

variable {base path name : String}

/-- The steps of a base that the steps of a joined path begin with. -/
def leading (base : String) : List String :=
  if base.isEmpty then []
  else if base.toList.getLast? == some '/' then (steps base).dropLast
  else steps base

theorem steps_of_slash {front tail : List Char} (shape : path.toList = front ++ '/' :: tail) :
    steps path = (front.splitOn '/').map String.ofList ++ (tail.splitOn '/').map String.ofList := by
  rw [steps, shape, List.splitOn_append_cons_self, List.map_append]

theorem steps_join (base : String) (relative : isAbsolute path = false) :
    steps (join base path) = leading base ++ steps path := by
  unfold join leading
  rw [relative, Bool.false_or]
  split
  · rfl
  · split
    next slash =>
      rw [beq_iff_eq] at slash
      obtain ⟨front, ends⟩ := List.getLast?_eq_some_iff.mp slash
      have joined : (base ++ path).toList = front ++ '/' :: path.toList := by
        rw [String.toList_append, ends, List.append_assoc]
        rfl
      rw [steps_of_slash joined, steps_of_slash ends]
      exact congrArg (· ++ steps path) List.dropLast_concat.symm
    next =>
      have joined : (base ++ "/" ++ path).toList = base.toList ++ '/' :: path.toList := by
        rw [String.toList_append, String.toList_append, List.append_assoc]
        rfl
      exact steps_of_slash joined

theorem steps_of_absolute (absolute : isAbsolute path = true) :
    ∃ rest, steps path = "" :: rest := by
  obtain ⟨rest, shape⟩ := List.head?_eq_some_iff.mp (beq_iff_eq.mp absolute)
  have slash : path.toList = [] ++ '/' :: rest := shape
  exact ⟨_, steps_of_slash slash⟩

theorem steps_of_name (single : '/' ∉ name.toList) : steps name = [name] := by
  rw [steps, List.splitOn_eq_singleton single]
  exact congrArg (fun text => [text]) String.ofList_toList

theorem relative_of_name (single : '/' ∉ name.toList) : isAbsolute name = false := by
  refine Bool.eq_false_iff.mpr fun absolute => single ?_
  exact List.mem_of_mem_head? (beq_iff_eq.mp absolute)

def opening (path : String) : List PathComponent :=
  if isAbsolute path then [.root]
  else if (steps path).head? = some "." then [.here]
  else []

theorem components_eq (path : String) :
    components path = opening path ++ (steps path).filterMap ofStep := by
  unfold components opening
  split
  · rfl
  · split
    next rest dot =>
      rw [dot, List.head?_cons, if_pos rfl]
      rfl
    next other =>
      rw [if_neg]
      · rfl
      · intro dot
        obtain ⟨rest, shape⟩ := List.head?_eq_some_iff.mp dot
        exact other rest shape

theorem of_mem_opening {part : PathComponent} (member : part ∈ opening path) :
    part = .root ∨ part = .here := by
  unfold opening at member
  split at member
  next => exact .inl (List.mem_singleton.mp member)
  next =>
    split at member
    next => exact .inr (List.mem_singleton.mp member)
    next => cases member

theorem up_not_mem_ofStep {steps : List String} (noUp : ".." ∉ steps) :
    .up ∉ steps.filterMap ofStep := by
  intro member
  obtain ⟨step, among, found⟩ := List.mem_filterMap.mp member
  unfold ofStep at found
  split at found
  next => cases found
  next =>
    split at found
    next up =>
      rw [beq_iff_eq] at up
      exact noUp (up ▸ among)
    next => cases found

theorem ofStep_ne_root {step : String} {part : PathComponent} (found : ofStep step = some part) :
    part ≠ .root := by
  rintro rfl
  unfold ofStep at found
  split at found
  next => cases found
  next => split at found <;> cases found

theorem root_not_mem_ofStep (steps : List String) : .root ∉ steps.filterMap ofStep := by
  intro member
  obtain ⟨step, _, found⟩ := List.mem_filterMap.mp member
  exact ofStep_ne_root found rfl

theorem components_of_absolute (absolute : isAbsolute path = true) :
    components path = .root :: (steps path).filterMap ofStep := by
  rw [components, if_pos absolute]

theorem root_not_mem_components (relative : isAbsolute path = false) : .root ∉ components path := by
  rw [components_eq, opening, relative, if_neg Bool.false_ne_true, List.mem_append, not_or]
  refine ⟨?_, root_not_mem_ofStep _⟩
  split <;> simp

theorem root_head_iff : (components path).head? = some .root ↔ isAbsolute path = true := by
  cases absolute : isAbsolute path with
  | true => simp [components_of_absolute absolute]
  | false =>
      simp only [Bool.false_eq_true, iff_false]
      exact fun head => root_not_mem_components absolute (List.mem_of_mem_head? head)

theorem up_not_mem_components (noUp : ".." ∉ steps path) : .up ∉ components path := by
  rw [components_eq, List.mem_append, not_or]
  refine ⟨fun opened => ?_, up_not_mem_ofStep noUp⟩
  rcases of_mem_opening opened with root | here
  · cases root
  · cases here

theorem steps_ne_nil (path : String) : steps path ≠ [] := by
  simp [steps, List.splitOn_ne_nil]

theorem leading_components (present : base ≠ "") (tail : List String) :
    (leading base ++ tail).head? = (steps base).head? ∧
      (leading base).filterMap ofStep = (steps base).filterMap ofStep := by
  unfold leading
  rw [if_neg (by simpa [String.isEmpty_iff] using present)]
  split
  next slash =>
    rw [beq_iff_eq] at slash
    obtain ⟨front, ends⟩ := List.getLast?_eq_some_iff.mp slash
    obtain ⟨first, rest, shape⟩ :=
      List.exists_cons_of_ne_nil (List.splitOn_ne_nil '/' front)
    have parts : steps base = (first :: rest).map String.ofList ++ [""] := by
      rw [steps_of_slash ends, shape]
      rfl
    have idle : [""].filterMap ofStep = [] := rfl
    rw [parts, List.dropLast_concat, List.filterMap_append, idle, List.append_nil]
    exact ⟨rfl, rfl⟩
  next =>
    obtain ⟨first, rest, shape⟩ := List.exists_cons_of_ne_nil (steps_ne_nil base)
    simp [shape]

theorem join_of_empty (path : String) : join "" path = path := by
  simp [join]

theorem isAbsolute_join (base : String) (relative : isAbsolute path = false) :
    isAbsolute (join base path) = isAbsolute base := by
  by_cases present : base = ""
  · rw [present, join_of_empty, relative]
    rfl
  · have filled : base.toList ≠ [] := by simpa using present
    obtain ⟨first, rest, shape⟩ := List.exists_cons_of_ne_nil filled
    unfold join
    rw [relative, Bool.false_or, if_neg (by simpa [String.isEmpty_iff] using present)]
    split <;> simp [isAbsolute, String.toList_append, shape]

theorem components_join (present : base ≠ "") (relative : isAbsolute path = false) :
    components (join base path) = components base ++ (steps path).filterMap ofStep := by
  obtain ⟨head, inner⟩ := leading_components present (steps path)
  rw [components_eq, components_eq, opening, opening, isAbsolute_join base relative,
    steps_join base relative, head, List.filterMap_append, inner, List.append_assoc]

/-- What can be one component of a path: a name, and not several. -/
def IsPlain (name : String) : Prop :=
  IsName name ∧ '/' ∉ name.toList

theorem ofStep_name (named : IsName name) : ofStep name = some (.name name) := by
  simp [ofStep, String.isEmpty_iff, named.1, named.2.1, named.2.2]

theorem components_join_name (present : base ≠ "") (plain : IsPlain name) :
    components (join base name) = components base ++ [.name name] := by
  have last : [name].filterMap ofStep = [.name name] := by simp [ofStep_name plain.1]
  rw [components_join present (relative_of_name plain.2), steps_of_name plain.2, last]

/-! ### Names -/

def nameOf? : PathComponent → Option String
  | .name text => some text
  | _ => none

def names (parts : List PathComponent) : List String :=
  parts.filterMap nameOf?

theorem ofNames_eq (parts : List PathComponent) :
    ofNames parts = String.intercalate "/" (names parts) :=
  rfl

theorem single_of_splitOn {text part : List Char} (member : part ∈ text.splitOn '/') :
    '/' ∉ part := by
  induction text generalizing part with
  | nil =>
      cases List.mem_singleton.mp member
      exact List.not_mem_nil
  | cons c rest ih =>
      obtain ⟨first, others, shape⟩ := List.exists_cons_of_ne_nil (List.splitOn_ne_nil '/' rest)
      have behind (part : List Char) (among : part ∈ first :: others) : '/' ∉ part :=
        ih (shape ▸ among)
      rw [List.splitOn_cons_eq_if_modifyHead, shape] at member
      split at member
      next =>
        rcases List.mem_cons.mp member with rfl | later
        · exact List.not_mem_nil
        · exact behind part later
      next other =>
        rcases List.mem_cons.mp member with rfl | later
        · rw [List.mem_cons, not_or]
          exact ⟨fun same => other (beq_iff_eq.mpr same.symm), behind first List.mem_cons_self⟩
        · exact behind part (List.mem_cons_of_mem first later)

theorem single_of_steps {step : String} (member : step ∈ steps path) : '/' ∉ step.toList := by
  obtain ⟨part, among, rfl⟩ := List.mem_map.mp member
  rw [String.toList_ofList]
  exact single_of_splitOn among

theorem isName_of_ofStep {step : String} (found : ofStep step = some (.name name)) :
    step = name ∧ IsName name := by
  unfold ofStep at found
  split at found
  next => cases found
  next moves =>
    rw [Bool.or_eq_true, not_or, String.isEmpty_iff, beq_iff_eq] at moves
    split at found
    next => cases found
    next notUp =>
      cases found
      exact ⟨rfl, moves.1, moves.2, fun up => notUp (beq_iff_eq.mpr up)⟩

theorem isPlain_of_components (member : .name name ∈ components path) : IsPlain name := by
  have opened : .name name ∉ opening path := by
    intro opened
    rcases of_mem_opening opened with root | here
    · cases root
    · cases here
  rw [components_eq] at member
  obtain ⟨step, among, found⟩ :=
    List.mem_filterMap.mp ((List.mem_append.mp member).resolve_left opened)
  obtain ⟨rfl, named⟩ := isName_of_ofStep found
  exact ⟨named, single_of_steps among⟩

variable {parts others : List PathComponent}

theorem steps_intercalate {texts : List String} (some : texts ≠ [])
    (single : ∀ text ∈ texts, '/' ∉ text.toList) :
    steps (String.intercalate "/" texts) = texts := by
  have apart : ∀ part ∈ texts.map String.toList, '/' ∉ part := by
    intro part member
    obtain ⟨text, among, rfl⟩ := List.mem_map.mp member
    exact single text among
  rw [steps, String.toList_intercalate]
  change (List.splitOn '/' (List.intercalate ['/'] _)).map String.ofList = _
  rw [List.splitOn_intercalate _ apart (by simpa using some), List.map_map]
  exact List.map_id'' (fun _ => String.ofList_toList) _

theorem steps_ofNames (some : names parts ≠ []) (plain : ∀ name ∈ names parts, IsPlain name) :
    steps (ofNames parts) = names parts :=
  steps_intercalate some fun name among => (plain name among).2

theorem relative_ofNames (plain : ∀ name ∈ names parts, IsPlain name) :
    isAbsolute (ofNames parts) = false := by
  by_cases nothing : names parts = []
  · rw [ofNames_eq, nothing]
    rfl
  · refine Bool.eq_false_iff.mpr fun absolute => ?_
    obtain ⟨rest, shape⟩ := steps_of_absolute absolute
    have empty : "" ∈ names parts := by
      rw [← steps_ofNames nothing plain, shape]
      exact List.mem_cons_self
    exact (plain "" empty).1.1 rfl

theorem components_ofNames (plain : ∀ name ∈ names parts, IsPlain name) :
    components (ofNames parts) = (names parts).map .name := by
  by_cases nothing : names parts = []
  · rw [ofNames_eq, nothing]
    rfl
  · have noDot : (names parts).head? ≠ some "." := by
      intro dot
      exact (plain "." (List.mem_of_mem_head? dot)).1.2.1 rfl
    rw [components_eq, opening, relative_ofNames plain, steps_ofNames nothing plain, if_neg noDot,
      ← List.filterMap_eq_map]
    exact List.filterMap_congr fun name member => ofStep_name (plain name member).1

theorem ofNames_inj (plain : ∀ name ∈ names parts, IsPlain name)
    (plain' : ∀ name ∈ names others, IsPlain name) :
    ofNames parts = ofNames others ↔ names parts = names others := by
  refine ⟨fun same => ?_, fun same => congrArg (String.intercalate "/") same⟩
  have shown := congrArg components same
  rw [components_ofNames plain, components_ofNames plain'] at shown
  exact List.map_injective_iff.mpr (fun _ _ => PathComponent.name.inj) shown

theorem join_inj (base : String) {other : String} (relative : isAbsolute path = false)
    (relative' : isAbsolute other = false) : join base path = join base other ↔ path = other := by
  unfold join
  rw [relative, relative', Bool.false_or]
  split
  next => rfl
  next =>
    split
    next => exact String.append_right_inj base
    next => exact String.append_right_inj (base ++ "/")

end MessageCatalog.Path
