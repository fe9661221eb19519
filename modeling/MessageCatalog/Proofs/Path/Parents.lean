import MessageCatalog.Proofs.Path.Joining

/-!
The parent of a path, as a text. It has all components but the last one, whatever that is: the
parent of a path that ends with a step up is what the step leads out of, and lies below it.
-/

namespace MessageCatalog.Path

variable {path above : String} {relative : Bool} {reversed before : List String} {last : String}

theorem ofStep_idle {step : String} (idle : step = "" ∨ step = ".") : ofStep step = none := by
  rcases idle with rfl | rfl <;> rfl

theorem exists_ofStep {step : String} (present : step ≠ "") (moves : step ≠ ".") :
    ∃ part, ofStep step = some part := by
  unfold ofStep
  rw [if_neg (by simp [String.isEmpty_iff, present, moves])]
  split <;> exact ⟨_, rfl⟩

theorem dropIdle_spec (relative : Bool) (reversed : List String) :
    ∃ idle, reversed = idle ++ dropIdle relative reversed ∧
      ∀ step ∈ idle, ofStep step = none := by
  fun_induction dropIdle relative reversed with
  | case1 => exact ⟨[], rfl, by simp⟩
  | case2 step idle =>
      refine ⟨[step], rfl, ?_⟩
      rw [List.forall_mem_singleton]
      simp only [Bool.or_eq_true, Bool.and_eq_true, String.isEmpty_iff, beq_iff_eq] at idle
      exact ofStep_idle (idle.imp_right And.left)
  | case3 => exact ⟨[], rfl, by simp⟩
  | case4 step rest _ idle ih =>
      obtain ⟨more, shape, holds⟩ := ih
      refine ⟨step :: more, congrArg (step :: ·) shape, ?_⟩
      simp only [Bool.or_eq_true, String.isEmpty_iff, beq_iff_eq] at idle
      exact List.forall_mem_cons.mpr ⟨ofStep_idle idle, holds⟩
  | case5 => exact ⟨[], rfl, by simp⟩

theorem filterMap_dropIdle (relative : Bool) (reversed : List String) :
    (dropIdle relative reversed).reverse.filterMap ofStep =
      reversed.reverse.filterMap ofStep := by
  obtain ⟨idle, shape, holds⟩ := dropIdle_spec relative reversed
  have nothing : idle.reverse.filterMap ofStep = [] :=
    List.filterMap_eq_nil_iff.mpr fun step member => holds step (List.mem_reverse.mp member)
  conv_rhs => rw [shape]
  rw [List.reverse_append, List.filterMap_append, nothing, List.append_nil]

theorem last_of_dropIdle (shape : dropIdle relative reversed = last :: before) :
    (∃ part, ofStep last = some part) ∨ (relative = true ∧ last = "." ∧ before = []) := by
  fun_induction dropIdle relative reversed with
  | case1 => cases shape
  | case2 => cases shape
  | case3 step moves =>
      cases shape
      simp only [Bool.or_eq_true, Bool.and_eq_true, String.isEmpty_iff, beq_iff_eq, not_or] at moves
      by_cases dot : last = "."
      · refine .inr ⟨?_, dot, rfl⟩
        simpa [dot] using moves.2
      · exact .inl (exists_ofStep moves.1 dot)
  | case4 _ _ _ _ ih => exact ih shape
  | case5 step rest _ moves =>
      cases shape
      simp only [Bool.or_eq_true, String.isEmpty_iff, beq_iff_eq, not_or] at moves
      exact .inl (exists_ofStep moves.1 moves.2)

theorem first_of_dropIdle {first : String} (ends : reversed.getLast? = some first)
    (present : first ≠ "") : (dropIdle true reversed).getLast? = some first := by
  fun_induction dropIdle true reversed with
  | case1 => cases ends
  | case2 step idle =>
      rw [List.getLast?_singleton, Option.some.injEq] at ends
      simp [String.isEmpty_iff, ends, present] at idle
  | case3 => exact ends
  | case4 step rest more _ ih =>
      refine ih ?_
      obtain ⟨second, others, rfl⟩ := List.exists_cons_of_ne_nil more
      rwa [List.getLast?_cons_cons] at ends
  | case5 => exact ends

/-! ### Parents -/

theorem single_of_left (within : ∀ step ∈ reversed, '/' ∉ step.toList)
    (left : dropIdle relative reversed = last :: before) :
    ∀ step ∈ (dropIdle relative before).reverse, '/' ∉ step.toList := by
  intro step member
  obtain ⟨idle, shape, _⟩ := dropIdle_spec relative reversed
  obtain ⟨more, inner, _⟩ := dropIdle_spec relative before
  refine within step ?_
  rw [shape, left, inner]
  simp only [List.mem_append, List.mem_cons]
  exact .inr (.inr (.inr (List.mem_reverse.mp member)))

theorem first_of_relative (present : path ≠ "") (relative : isAbsolute path = false) :
    ∃ first rest, steps path = first :: rest ∧ first ≠ "" := by
  have filled : path.toList ≠ [] := by simpa using present
  obtain ⟨c, tail, shape⟩ := List.exists_cons_of_ne_nil filled
  have visible : c ≠ '/' := by simpa [isAbsolute, shape] using relative
  obtain ⟨part, parts, split⟩ := List.exists_cons_of_ne_nil (List.splitOn_ne_nil '/' tail)
  refine ⟨String.ofList (c :: part), parts.map String.ofList, ?_, by simp⟩
  rw [steps, shape, List.splitOn_cons_eq_if_modifyHead, if_neg (by simpa using visible), split]
  rfl

theorem filterMap_intercalate {texts : List String}
    (single : ∀ text ∈ texts, '/' ∉ text.toList) :
    (steps (String.intercalate "/" texts)).filterMap ofStep = texts.filterMap ofStep := by
  by_cases nothing : texts = []
  · rw [nothing]
    rfl
  · rw [steps_intercalate nothing single]

theorem components_of_slash {texts : List String} (single : ∀ text ∈ texts, '/' ∉ text.toList) :
    components ("/" ++ String.intercalate "/" texts) = .root :: texts.filterMap ofStep := by
  have slash : ("/" ++ String.intercalate "/" texts).toList =
      [] ++ '/' :: (String.intercalate "/" texts).toList := by
    rw [String.toList_append]
    rfl
  have parts : steps ("/" ++ String.intercalate "/" texts) =
      "" :: steps (String.intercalate "/" texts) := steps_of_slash slash
  have root : isAbsolute ("/" ++ String.intercalate "/" texts) = true := by
    rw [isAbsolute, slash]
    rfl
  rw [components_of_absolute root, parts, List.filterMap_cons_none (ofStep_idle (.inl rfl)),
    filterMap_intercalate single]

theorem components_of_relative {first : String} (relative : isAbsolute path = false)
    (head : (steps path).head? = some first) :
    components path =
      (if first = "." then [.here] else []) ++ (steps path).filterMap ofStep := by
  rw [components_eq, opening, if_neg (by simp [relative]), head]
  simp only [Option.some.injEq]

theorem components_ne_nil (present : path ≠ "") : components path ≠ [] := by
  cases absolute : isAbsolute path with
  | true => simp [components_of_absolute absolute]
  | false =>
      obtain ⟨first, rest, shape, visible⟩ := first_of_relative present absolute
      rw [components_of_relative absolute (by rw [shape, List.head?_cons]), shape]
      by_cases dot : first = "."
      · simp [dot]
      · obtain ⟨part, found⟩ := exists_ofStep visible dot
        simp [found]

theorem isAbsolute_of_startsWith {base : String} (present : base ≠ "")
    (below : startsWith path base = true) : isAbsolute path = isAbsolute base := by
  obtain ⟨first, rest, shape⟩ := List.exists_cons_of_ne_nil (components_ne_nil present)
  obtain ⟨behind, whole⟩ := List.isPrefixOf_iff_prefix.mp below
  rw [Bool.eq_iff_iff, ← root_head_iff, ← root_head_iff, ← whole, shape, List.cons_append,
    List.head?_cons, List.head?_cons]

theorem components_intercalate {texts : List String} {first : String}
    (single : ∀ text ∈ texts, '/' ∉ text.toList) (head : texts.head? = some first)
    (present : first ≠ "") :
    components (String.intercalate "/" texts) =
      (if first = "." then [.here] else []) ++ texts.filterMap ofStep := by
  have nonempty : texts ≠ [] := by
    rintro rfl
    cases head
  have parts := steps_intercalate nonempty single
  rw [← parts] at head
  have relative : isAbsolute (String.intercalate "/" texts) = false := by
    refine Bool.eq_false_iff.mpr fun absolute => ?_
    obtain ⟨others, slash⟩ := steps_of_absolute absolute
    rw [slash, List.head?_cons, Option.some.injEq] at head
    exact present head.symm
  rw [components_of_relative relative head, parts]

theorem components_of_parent_absolute (absolute : isAbsolute path = true)
    (found : parent? path = some above) :
    ∃ part, part ≠ .root ∧ components path = components above ++ [part] := by
  obtain ⟨body, shape⟩ := steps_of_absolute absolute
  have within : ∀ step ∈ body.reverse, '/' ∉ step.toList := by
    intro step member
    have among : step ∈ steps path := by simp [shape, List.mem_reverse.mp member]
    exact single_of_steps among
  unfold parent? at found
  simp only [absolute, shape, Bool.not_true, Bool.false_eq_true, if_false, List.drop_one,
    List.tail_cons] at found
  split at found
  next => cases found
  next last before left =>
    cases found
    obtain ⟨part, moves⟩ := (last_of_dropIdle left).resolve_right fun ⟨no, _⟩ => by cases no
    have inner := filterMap_dropIdle false body.reverse
    rw [left, List.reverse_reverse, List.reverse_cons, List.filterMap_append,
      List.filterMap_cons_some moves] at inner
    refine ⟨part, ofStep_ne_root moves, ?_⟩
    rw [components_of_absolute absolute, shape, List.filterMap_cons_none (ofStep_idle (.inl rfl)),
      components_of_slash (single_of_left within left), filterMap_dropIdle, ← inner]
    rfl

theorem components_of_parent_relative (relative : isAbsolute path = false)
    (found : parent? path = some above) :
    ∃ part, part ≠ .root ∧ components path = components above ++ [part] := by
  have present : path ≠ "" := by
    rintro rfl
    have top : parent? "" = none := by decide
    rw [top] at found
    cases found
  obtain ⟨first, rest, shape, filled⟩ := first_of_relative present relative
  have head : (steps path).head? = some first := by rw [shape, List.head?_cons]
  have kept := first_of_dropIdle (List.getLast?_reverse.trans head) filled
  have inner := filterMap_dropIdle true (steps path).reverse
  have within : ∀ step ∈ (steps path).reverse, '/' ∉ step.toList :=
    fun step among => single_of_steps (List.mem_reverse.mp among)
  unfold parent? at found
  simp only [relative, Bool.not_false, if_true] at found
  split at found
  next => cases found
  next last before left =>
    cases found
    rw [left, List.reverse_reverse, List.reverse_cons, List.filterMap_append] at inner
    rw [left] at kept
    rw [components_of_relative relative head, ← inner]
    have moves := last_of_dropIdle left
    cases before with
    | nil =>
        obtain rfl : last = first := by simpa using kept
        have top : components (String.intercalate "/" (dropIdle true []).reverse) = [] := by decide
        rw [top]
        by_cases dot : last = "."
        · exact ⟨.here, by simp, by rw [if_pos dot, dot]; rfl⟩
        · obtain ⟨part, moves⟩ := moves.resolve_right fun ⟨_, same, _⟩ => dot same
          refine ⟨part, ofStep_ne_root moves, ?_⟩
          rw [if_neg dot, List.filterMap_cons_some moves]
          rfl
    | cons second more =>
        obtain ⟨part, moves⟩ := moves.resolve_right fun ⟨_, _, no⟩ => by cases no
        rw [List.getLast?_cons_cons] at kept
        have head := List.head?_reverse.trans (first_of_dropIdle kept filled)
        refine ⟨part, ofStep_ne_root moves, ?_⟩
        rw [components_intercalate (single_of_left within left) head filled, filterMap_dropIdle,
          List.filterMap_cons_some moves, List.append_assoc]
        rfl

/-- The parent of a path has the components of the path, but for the last one. No path steps up
from the root. -/
theorem components_of_parent (found : parent? path = some above) :
    ∃ part, part ≠ .root ∧ components path = components above ++ [part] := by
  cases absolute : isAbsolute path with
  | true => exact components_of_parent_absolute absolute found
  | false => exact components_of_parent_relative absolute found

theorem length_splitOn_le (text : List Char) : (text.splitOn '/').length ≤ text.length + 1 := by
  induction text with
  | nil => simp
  | cons c rest ih =>
      rw [List.splitOn_cons_eq_if_modifyHead]
      split
      · simpa using ih
      · simpa using Nat.le_succ_of_le ih

theorem length_components_le (path : String) : (components path).length ≤ path.length + 1 := by
  have split : (steps path).length ≤ path.length + 1 := by
    rw [steps, List.length_map]
    have bounded := length_splitOn_le path.toList
    rwa [String.length_toList] at bounded
  cases absolute : isAbsolute path with
  | true =>
      obtain ⟨body, shape⟩ := steps_of_absolute absolute
      have filtered := List.length_filterMap_le ofStep body
      rw [components_of_absolute absolute, shape, List.filterMap_cons_none (ofStep_idle (.inl rfl))]
      rw [shape] at split
      simp only [List.length_cons] at split ⊢
      omega
  | false =>
      obtain ⟨first, rest, shape⟩ := List.exists_cons_of_ne_nil (steps_ne_nil path)
      have filtered := List.length_filterMap_le ofStep rest
      have bounded := List.length_filterMap_le ofStep (first :: rest)
      rw [components_of_relative absolute (by rw [shape, List.head?_cons]), shape]
      rw [shape] at split
      by_cases dot : first = "."
      · rw [if_pos dot, List.filterMap_cons_none (ofStep_idle (.inr dot))]
        simp only [List.length_cons, List.singleton_append] at split ⊢
        omega
      · rw [if_neg dot]
        simp only [List.length_cons, List.nil_append] at split bounded ⊢
        omega

/-! ### Steps up -/

def ups (path : String) : List String :=
  match _found : parent? path with
  | some above => path :: ups above
  | none => [path]
termination_by (components path).length
decreasing_by
  obtain ⟨part, -, shape⟩ := components_of_parent _found
  rw [shape, List.length_append, List.length_singleton]
  exact Nat.lt_succ_self _

theorem ups_of_parent (found : parent? path = some above) : ups path = path :: ups above := by
  rw [ups]
  split
  next other same =>
    rw [found] at same
    cases same
    rfl
  next top =>
    rw [found] at top
    cases top

theorem ups_of_top (top : parent? path = none) : ups path = [path] := by
  rw [ups]
  split
  next above found =>
    rw [top] at found
    cases found
  next => rfl

theorem length_ups_le (path : String) : (ups path).length ≤ (components path).length + 1 := by
  fun_induction ups path with
  | case1 path above found ih =>
      obtain ⟨part, -, shape⟩ := components_of_parent found
      simp only [shape, List.length_cons, List.length_append, List.length_nil]
      omega
  | case2 path top => simp

theorem components_of_mem_ups {directory : String} (member : directory ∈ ups path) :
    components directory <+: components path := by
  fun_induction ups path with
  | case1 path above found ih =>
      obtain ⟨part, -, shape⟩ := components_of_parent found
      rcases List.mem_cons.mp member with rfl | later
      · exact List.prefix_rfl
      · exact shape ▸ (ih later).trans (List.prefix_append _ _)
  | case2 path top =>
      obtain rfl := List.mem_singleton.mp member
      exact List.prefix_rfl

theorem ups_split {directory : String} {front behind : List String}
    (shape : ups path = front ++ directory :: behind) :
    (front = [] ∧ directory = path) ∨
      ∃ above rest, parent? path = some above ∧ front = path :: rest ∧
        ups above = rest ++ directory :: behind := by
  cases found : parent? path with
  | none =>
      rw [ups_of_top found] at shape
      cases front with
      | nil => exact .inl ⟨rfl, (List.cons.inj shape).1.symm⟩
      | cons first rest => simp at shape
  | some above =>
      rw [ups_of_parent found] at shape
      cases front with
      | nil => exact .inl ⟨rfl, (List.cons.inj shape).1.symm⟩
      | cons first rest =>
          obtain ⟨rfl, later⟩ := List.cons.inj shape
          exact .inr ⟨above, rest, rfl, rfl, later⟩

end MessageCatalog.Path
