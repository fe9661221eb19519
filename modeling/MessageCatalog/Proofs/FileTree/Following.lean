import MessageCatalog.Proofs.FileTree.Sparing
import MessageCatalog.Proofs.Path.Joining

/-!
Where the components of a path lead. Names lead down, so a path without a step up leads to the place
of its beginning with the names behind it. Paths that go on from one beginning by different names
lead to different files, and a text that is written to one of them leaves the other alone.
-/

namespace MessageCatalog

namespace Path

/-- What stands in front of the components below a base. -/
def componentsAbove (base path : String) : List PathComponent :=
  if startsWith path base then components base else []

theorem above_append_below (base path : String) :
    componentsAbove base path ++ componentsBelow base path = components path := by
  unfold componentsAbove componentsBelow
  split
  next below =>
    obtain ⟨behind, shape⟩ := List.isPrefixOf_iff_prefix.mp below
    rw [← shape, List.drop_left]
  next => rfl

theorem componentsBelow_of_components {base path : String} {behind : List PathComponent}
    (shape : components path = components base ++ behind) :
    startsWith path base = true ∧ componentsBelow base path = behind := by
  have below : startsWith path base = true := by
    rw [startsWith, List.isPrefixOf_iff_prefix, shape]
    exact List.prefix_append _ _
  refine ⟨below, ?_⟩
  rw [componentsBelow, if_pos below, shape, List.drop_left]

theorem mem_componentsBelow {base path : String} {part : PathComponent}
    (member : part ∈ componentsBelow base path) : part ∈ components path := by
  rw [← above_append_below base path]
  exact List.mem_append_right _ member

theorem mem_names {parts : List PathComponent} {name : String} :
    name ∈ names parts ↔ .name name ∈ parts := by
  unfold names
  rw [List.mem_filterMap]
  constructor
  · rintro ⟨part, member, found⟩
    cases part with
    | name text =>
        cases found
        exact member
    | _ => cases found
  · exact fun member => ⟨_, member, rfl⟩

theorem isPlain_of_below {base path name : String}
    (member : name ∈ names (componentsBelow base path)) : IsPlain name :=
  isPlain_of_components (mem_componentsBelow (mem_names.mp member))

end Path

namespace FileTree

open MessageCatalog.Path (IsPlain names componentsAbove componentsBelow)

variable {t : FileTree} {place next : Place} {path base : String}

/-- One component of a path. Where the path begins is known before its first one. -/
def follow (t : FileTree) (place : Place) : PathComponent → Except AccessError Place
  | .root => .ok place
  | .here => .ok place
  | .up => t.step place ".."
  | .name text => t.step place text

theorem step_cases {step : String} (found : t.step place step = .ok next) :
    (Path.ofStep step = none ∧ next = place) ∨
      ∃ part, Path.ofStep step = some part ∧ t.follow place part = .ok next := by
  have directory := directory_of_step found
  unfold Path.ofStep
  split
  next idle =>
    unfold FileTree.step at found
    rw [directory] at found
    dsimp only at found
    rw [if_pos idle] at found
    cases found
    exact .inl ⟨rfl, rfl⟩
  next =>
    split
    next up =>
      rw [beq_iff_eq] at up
      subst up
      exact .inr ⟨.up, rfl, found⟩
    next => exact .inr ⟨.name step, rfl, found⟩

theorem follow_steps {steps : List String} (found : steps.foldlM t.step place = .ok next) :
    (steps.filterMap Path.ofStep).foldlM t.follow place = .ok next := by
  induction steps generalizing place with
  | nil => exact found
  | cons first rest ih =>
      obtain ⟨between, stepped, behind⟩ := follow_cons.mp found
      rcases step_cases stepped with ⟨idle, rfl⟩ | ⟨part, shape, reached⟩
      · rw [List.filterMap_cons_none idle]
        exact ih behind
      · rw [List.filterMap_cons_some shape]
        exact follow_cons.mpr ⟨between, reached, ih behind⟩

theorem follow_components (found : t.locate path = .ok place) :
    (Path.components path).foldlM t.follow (t.origin path) = .ok place := by
  obtain ⟨-, -, followed⟩ := locate_eq_ok_iff.mp found
  have behind := follow_steps followed
  rw [Path.components_eq, Path.opening]
  split
  · exact behind
  · split <;> exact behind

theorem place_of_follow {parts : List PathComponent} (noUp : .up ∉ parts)
    (plain : ∀ name ∈ names parts, IsPlain name)
    (found : parts.foldlM t.follow place = .ok next) : next = place ++ names parts := by
  induction parts generalizing place with
  | nil =>
      cases found
      exact (List.append_nil next).symm
  | cons first rest ih =>
      rw [List.mem_cons, not_or] at noUp
      obtain ⟨between, stepped, behind⟩ := follow_cons.mp found
      cases first with
      | root | here =>
          cases stepped
          exact ih noUp.2 plain behind
      | up => exact absurd rfl noUp.1
      | name text =>
          obtain ⟨here, others⟩ := List.forall_mem_cons.mp plain
          obtain rfl := next_of_name here.1 stepped
          rw [ih noUp.2 others behind, List.append_assoc]
          rfl

theorem place_of_below (noUp : .up ∉ componentsBelow base path)
    (found : t.locate path = .ok place) :
    ∃ above, (componentsAbove base path).foldlM t.follow (t.origin path) = .ok above ∧
      place = above ++ names (componentsBelow base path) := by
  have followed := follow_components found
  rw [← Path.above_append_below base path] at followed
  obtain ⟨above, opened, behind⟩ := follow_append.mp followed
  exact ⟨above, opened, place_of_follow noUp (fun _ => Path.isPlain_of_below) behind⟩

theorem put_of_names {front names : List String} {written : FileTree} {content : String}
    (shape : Path.steps path = front ++ names) (present : names ≠ [])
    (named : ∀ name ∈ names, IsName name) (success : t.writeText path content = .ok written) :
    ∃ above, front.foldlM t.step (t.origin path) = .ok above ∧
      t.node? (above ++ names) ≠ some .directory ∧
      written = t.put (above ++ names) (.file (.text content)) := by
  obtain ⟨before, last, rfl⟩ := (List.eq_nil_or_concat' names).resolve_left present
  rw [← List.append_assoc] at shape
  obtain ⟨around, reached, noDirectory, wrote, -⟩ :=
    writeText_eq_ok shape (named last (by simp)) success
  obtain ⟨above, opened, behind⟩ := follow_append.mp reached
  obtain rfl :=
    next_of_names (fun name among => named name (List.mem_append_left _ among)) behind
  rw [List.append_assoc] at noDirectory wrote
  exact ⟨above, opened, noDirectory, wrote⟩

/-- Two paths that go on from one beginning by different names: what is written to one of them is
not read from the other. -/
theorem readText_apart {front names others : List String} {other content text : String}
    {written : FileTree} (shape : Path.steps path = front ++ names)
    (named : ∀ name ∈ names, IsName name) (shape' : Path.steps other = front ++ others)
    (present : others ≠ []) (named' : ∀ name ∈ others, IsName name) (apart : others ≠ names)
    (begins : Path.isAbsolute path = Path.isAbsolute other)
    (read : t.readText path = .ok text) (success : t.writeText other content = .ok written) :
    written.readText path = .ok text := by
  obtain ⟨above, opened, noDirectory, rfl⟩ := put_of_names shape' present named' success
  have begins : t.origin path = t.origin other := by rw [origin, origin, begins]
  obtain ⟨place, found, file⟩ := readText_eq_ok_iff.mp read
  refine readText_eq_ok_iff.mpr ⟨place, (extends_put noDirectory).locate found, ?_⟩
  -- both paths begin at the same place, so only their names tell the places apart
  obtain ⟨same, reached, rfl⟩ := place_of_names shape named found
  rw [begins, opened] at reached
  obtain rfl := Except.ok.inj reached
  rwa [node?_put_of_free noDirectory, if_neg]
  exact fun alike => apart (List.append_cancel_left alike).symm

end FileTree

end MessageCatalog
