import MessageCatalog.Proofs.Edit.Selection
import MessageCatalog.Proofs.Text.Trimming

/-!
Edits whose own range does not lie in the source. A replacement of that kind counts for nothing. A
removal is looked at once it has been widened, and so it still takes something away where its end
lies in the source and its start does not, or where its start is behind its end with blanks only in
between and in front of the end.
-/

namespace MessageCatalog.Edit

open Text (Lies Cuts byteLength byteLength_append eq_nil_of_byteLength)

def Splice.changes (splice : Splice) : Bool :=
  splice.range.start != splice.range.stop || !splice.text.isEmpty

theorem changes_eq_false_iff {splice : Splice} : splice.changes = false ↔
    splice.range.start = splice.range.stop ∧ splice.text = [] := by
  simp [Splice.changes]

variable {cursor : Nat} {front rest : List Char} {all : List Splice}

theorem spliceAll_kept {kept after : List Char} (reached : byteLength front = cursor)
    (lies : ∀ splice ∈ all, Lies (front ++ (kept ++ after)) splice.range)
    (ahead : ∀ splice ∈ all, cursor + byteLength kept ≤ splice.range.start) :
    spliceAll cursor (kept ++ after) all =
      kept ++ spliceAll (cursor + byteLength kept) after all := by
  cases all with
  | nil => rfl
  | cons next later =>
      have far := ahead next List.mem_cons_self
      have here : Lies ((front ++ kept) ++ after) next.range := by
        rw [List.append_assoc]
        exact lies next List.mem_cons_self
      obtain ⟨between, cut, behind, rfl, start, stop⟩ := here.behind (by
        rw [byteLength_append]
        omega)
      rw [byteLength_append] at start
      have whole : next.range.start = cursor + byteLength (kept ++ between) := by
        rw [byteLength_append]
        omega
      rw [spliceAll_cons behind (by omega) stop.symm, ← List.append_assoc,
        spliceAll_cons behind whole stop.symm, List.append_assoc]

theorem spliceAll_filter_changes (reached : byteLength front = cursor)
    (lies : ∀ splice ∈ all, Lies (front ++ rest) splice.range)
    (ordered : all.Pairwise fun first second => first.range.start ≤ second.range.start) :
    spliceAll cursor rest (all.filter Splice.changes) = spliceAll cursor rest all := by
  induction ordered generalizing cursor front rest with
  | nil => rfl
  | @cons next later before _ ih =>
      obtain ⟨here, others⟩ := List.forall_mem_cons.mp lies
      by_cases passed : next.range.start < cursor
      · -- this one is dropped from either list
        rw [spliceAll, if_pos passed, ← ih reached others]
        cases changes : next.changes with
        | true => rw [List.filter_cons_of_pos changes, spliceAll, if_pos passed]
        | false => rw [List.filter_cons_of_neg (by simp [changes])]
      · obtain ⟨kept, cut, after, rfl, start, stop⟩ := here.behind (by omega)
        have gap : next.range.start = cursor + byteLength kept := by omega
        have made : byteLength (front ++ (kept ++ cut)) = next.range.stop := by
          simp only [byteLength_append]
          omega
        have others' : ∀ splice ∈ later, Lies ((front ++ (kept ++ cut)) ++ after) splice.range := by
          simpa only [List.append_assoc] using others
        rw [spliceAll_cons after gap stop.symm, ← ih made others']
        cases changes : next.changes with
        | true => rw [List.filter_cons_of_pos changes, spliceAll_cons after gap stop.symm]
        | false =>
            obtain ⟨empty, text⟩ := changes_eq_false_iff.mp changes
            have nothing : byteLength cut = 0 := by omega
            obtain rfl := eq_nil_of_byteLength nothing
            have filtered : ∀ splice ∈ later.filter Splice.changes,
                Lies (front ++ (kept ++ after)) splice.range ∧
                  cursor + byteLength kept ≤ splice.range.start := by
              intro splice member
              have inLater := List.mem_of_mem_filter member
              have behind := before splice inLater
              exact ⟨by simpa using others splice inLater, by omega⟩
            rw [List.filter_cons_of_neg (by simp [changes]), text, List.nil_append,
              List.nil_append, spliceAll_kept reached (fun splice member => (filtered splice member).1)
                (fun splice member => (filtered splice member).2), ← gap, empty]

theorem split_unique {α : Type} {p : α → Bool} {xs ys xs' ys' : List α}
    (same : xs ++ ys = xs' ++ ys') (front : ∀ x ∈ xs, p x = true) (back : ∀ y ∈ ys, p y = false)
    (front' : ∀ x ∈ xs', p x = true) (back' : ∀ y ∈ ys', p y = false) : xs = xs' ∧ ys = ys' := by
  have left : ∀ {us vs : List α}, (∀ u ∈ us, p u = true) → (∀ v ∈ vs, p v = false) →
      (us ++ vs).filter p = us := by
    intro us vs first second
    rw [List.filter_append, List.filter_eq_self.mpr first,
      List.filter_eq_nil_iff.mpr fun v member => by simp [second v member], List.append_nil]
  have fronts : xs = xs' := by rw [← left front back, same, left front' back']
  subst fronts
  exact ⟨rfl, List.append_cancel_left same⟩

theorem filter_mergeSort {α : Type} {le : α → α → Bool}
    (trans : ∀ a b c, le a b = true → le b c = true → le a c = true)
    (total : ∀ a b, (le a b || le b a) = true) (keep : α → Bool) (all : List α) :
    (all.mergeSort le).filter keep = (all.filter keep).mergeSort le := by
  induction all with
  | nil => simp
  | cons head rest ih =>
      obtain ⟨front, back, sorted, sortedRest, before⟩ := List.mergeSort_cons trans total head rest
      have ordered := List.pairwise_mergeSort trans total (head :: rest)
      rw [sorted, List.pairwise_append, List.pairwise_cons] at ordered
      rw [sorted, List.filter_append]
      rw [sortedRest, List.filter_append] at ih
      cases kept : keep head with
      | false =>
          rw [List.filter_cons_of_neg (by simp [kept]), List.filter_cons_of_neg (by simp [kept]), ih]
      | true =>
          obtain ⟨front', back', sorted', sortedRest', before'⟩ :=
            List.mergeSort_cons trans total head (rest.filter keep)
          have ordered' := List.pairwise_mergeSort trans total (head :: rest.filter keep)
          rw [sorted', List.pairwise_append, List.pairwise_cons] at ordered'
          rw [sortedRest'] at ih
          -- the head stands in front of all that it may stand in front of
          obtain ⟨fronts, backs⟩ := split_unique (p := fun x => !le head x) ih
            (fun x member => before x (List.mem_of_mem_filter member))
            (fun y member => by simp [ordered.2.1.1 y (List.mem_of_mem_filter member)])
            before' (fun y member => by simp [ordered'.2.1.1 y member])
          rw [List.filter_cons_of_pos kept, List.filter_cons_of_pos kept, sorted', fronts, backs]

/-! ### What a list of edits comes to -/

/-- The splices of edits that lie in the source and change it. -/
def effects (source : List Char) (edits : List Edit) : List Splice :=
  (lying source edits).filter Splice.changes

theorem effects_append (source : List Char) (edits others : List Edit) :
    effects source (edits ++ others) = effects source edits ++ effects source others := by
  simp [effects, lying]

theorem effects_cons (source : List Char) (e : Edit) (others : List Edit) :
    effects source (e :: others) = effects source [e] ++ effects source others :=
  effects_append source [e] others

theorem effects_eq_nil_iff {source : List Char} {e : Edit} : effects source [e] = [] ↔
    (Lies source (e.effective source) →
      (e.effective source).start = (e.effective source).stop ∧ e.replacement = []) := by
  rw [effects, List.filter_eq_nil_iff]
  simp [lying, toSplice, Splice.changes]

theorem apply_eq (source : String) (edits : List Edit) :
    apply source edits = String.ofList
      (spliceAll 0 source.toList ((effects source.toList edits).mergeSort Splice.precedes)) := by
  have lies : ∀ splice ∈ splices source.toList edits, Lies ([] ++ source.toList) splice.range := by
    intro splice member
    have inside := (lying_perm source.toList edits).subset member
    exact of_decide_eq_true (List.mem_filter.mp inside).2
  have changing := spliceAll_filter_changes Text.byteLength_nil lies
    (splices_ordered source.toList edits)
  rw [apply, ← changing, splices_eq, filter_mergeSort precedes_trans precedes_total, effects]

theorem apply_nil (source : String) : apply source [] = source := by
  rw [apply_eq, effects, lying, List.map_nil, List.filter_nil, List.filter_nil,
    List.mergeSort_nil, spliceAll, String.ofList_toList]

theorem apply_of_effects {source : String} {e : Edit} (silent : effects source.toList [e] = [])
    (front behind : List Edit) :
    apply source (front ++ e :: behind) = apply source (front ++ behind) := by
  have same : effects source.toList (front ++ e :: behind) =
      effects source.toList (front ++ behind) := by
    rw [effects_append, effects_cons, silent, List.nil_append, effects_append]
  rw [apply_eq, apply_eq, same]

theorem effects_of_apply {source : String} {range : Span}
    (same : apply source [.removeAttribute range] = source) :
    effects source.toList [.removeAttribute range] = [] := by
  rw [effects_eq_nil_iff]
  intro lies
  refine ⟨?_, rfl⟩
  have alone : splices source.toList [.removeAttribute range] =
      [toSplice source.toList (.removeAttribute range)] := by
    rw [splices_of_precede (List.pairwise_singleton ..), lying]
    exact List.filter_eq_self.mpr (by simpa [toSplice] using lies)
  obtain ⟨kept, cut, after, whole, start, stop⟩ := lies
  have made : spliceAll 0 (kept ++ (cut ++ after))
      [toSplice source.toList (.removeAttribute range)] = kept ++ after :=
    spliceAll_cons after (by simpa [toSplice] using start.symm) stop.symm []
  have unchanged := congrArg String.toList same
  rw [apply, String.toList_ofList, alone] at unchanged
  have nothing : cut = [] := by
    rw [← whole, unchanged, whole] at made
    simpa using made
  simpa [nothing] using stop

/-! ### Removals that are widened -/

variable {text : List Char} {range : Span}

/-- How a removal whose own range does not lie in the text still takes something out of it. -/
inductive ReachesBack (text : List Char) (range : Span) : Prop
  /-- Where the start is no place in the text, all in front of the end is removed. -/
  | astray (start : ¬Cuts text range.start) (stop : Cuts text range.stop) (behind : 0 < range.stop)
  /-- Where the start is behind the end, and blanks only are in front of it, those in front of the
  end are removed. -/
  | crossed {before cut gap after : List Char} (whole : text = before ++ (cut ++ (gap ++ after)))
      (start : range.start = byteLength (before ++ (cut ++ gap)))
      (stop : range.stop = byteLength (before ++ cut)) (nonempty : cut ≠ [])
      (blank : ∀ c ∈ cut ++ gap, Text.isBlank c = true)

theorem effective_of_cuts {before after : List Char} (start : byteLength before = range.start) :
    effective (before ++ after) (.removeAttribute range) =
      ⟨byteLength (Text.trimEnd before), range.stop⟩ := by
  have sliced : Text.slice? 0 range.start (before ++ after) = some before :=
    Text.slice?_eq_some_iff.mpr ⟨[], after, rfl, rfl, by omega⟩
  rw [effective, sliced]
  rfl

theorem effective_of_astray (astray : ¬Cuts text range.start) :
    effective text (.removeAttribute range) = ⟨0, range.stop⟩ := by
  have sliced : Text.slice? 0 range.start text = none := by
    refine Option.eq_none_iff_forall_ne_some.mpr fun part found => astray ?_
    obtain ⟨before, after, whole, nothing, long⟩ := Text.slice?_eq_some_iff.mp found
    refine ⟨before ++ part, after, by rw [whole, List.append_assoc], ?_⟩
    rw [byteLength_append]
    omega
  rw [effective, sliced]
  rfl

theorem reachesBack_of_cuts {front behind : List Char} (whole : text = front ++ behind)
    (start : byteLength front = range.start) (stop : Cuts text range.stop)
    (crossed : range.stop < range.start)
    (reaches : byteLength (Text.trimEnd front) < range.stop) : ReachesBack text range := by
  obtain ⟨blanks, split, blank⟩ := Text.trimEnd_blanks front
  obtain ⟨upTo, after, same, long⟩ := stop
  generalize Text.trimEnd front = before at split reaches
  subst split
  rw [whole, List.append_assoc] at same
  rw [byteLength_append] at start
  -- the end stands behind what is left and in front of the start, so it divides the blanks
  rcases List.append_eq_append_iff.mp same with ⟨cut, rfl, shared⟩ | ⟨excess, rfl, _⟩
  · rw [byteLength_append] at long
    rcases List.append_eq_append_iff.mp shared with ⟨excess, rfl, _⟩ | ⟨gap, rfl, rfl⟩
    · rw [byteLength_append] at long
      omega
    · refine .crossed (by simpa using whole) ?_ ?_ ?_ blank
      · rw [byteLength_append]
        exact start.symm
      · rw [byteLength_append]
        exact long.symm
      · rintro rfl
        rw [Text.byteLength_nil] at long
        omega
  · rw [byteLength_append] at reaches
    omega

theorem effects_removal_of_effective {start : Nat}
    (widened : effective text (.removeAttribute range) = ⟨start, range.stop⟩)
    (cuts : Cuts text start) :
    effects text [.removeAttribute range] ≠ [] ↔ Cuts text range.stop ∧ start < range.stop := by
  rw [Ne, effects_eq_nil_iff, widened, Text.lies_iff_cuts]
  constructor
  · intro changes
    obtain ⟨⟨_, stop, ordered⟩, effective⟩ := Classical.not_imp.mp changes
    dsimp only at ordered
    have apart : start ≠ range.stop := fun same => effective ⟨same, rfl⟩
    exact ⟨stop, by omega⟩
  · rintro ⟨stop, ordered⟩ unchanged
    exact Nat.ne_of_lt ordered (unchanged ⟨cuts, stop, ordered.le⟩).1

theorem effects_removal_iff (misplaced : ¬Lies text range) :
    effects text [.removeAttribute range] ≠ [] ↔ ReachesBack text range := by
  by_cases placed : Cuts text range.start
  · obtain ⟨front, behind, rfl, start⟩ := placed
    obtain ⟨blanks, split, _⟩ := Text.trimEnd_blanks front
    have cuts : Cuts (front ++ behind) (byteLength (Text.trimEnd front)) :=
      ⟨Text.trimEnd front, blanks ++ behind, by rw [← List.append_assoc, ← split], rfl⟩
    rw [effects_removal_of_effective (effective_of_cuts start) cuts]
    constructor
    · rintro ⟨stop, reaches⟩
      have crossed : range.stop < range.start := by
        refine Nat.lt_of_not_le fun ordered => misplaced ?_
        exact Text.lies_iff_cuts.mpr ⟨⟨front, behind, rfl, start⟩, stop, ordered⟩
      exact reachesBack_of_cuts rfl start stop crossed reaches
    · rintro (⟨astray, _, _⟩ | @⟨before, cut, gap, after, whole, start', stop, nonempty, blank⟩)
      · exact absurd ⟨front, behind, rfl, start⟩ astray
      · have same : front ++ behind = (before ++ (cut ++ gap)) ++ after := by simpa using whole
        obtain ⟨rfl, rfl⟩ := Text.eq_of_byteLength same (by omega)
        obtain ⟨dropped, parts, _⟩ := Text.trimEnd_blanks before
        have shorter := congrArg byteLength parts
        have positive : byteLength cut ≠ 0 := fun nothing =>
          nonempty (eq_nil_of_byteLength nothing)
        rw [byteLength_append] at shorter stop
        rw [Text.trimEnd_append before blank]
        exact ⟨⟨before ++ cut, gap ++ behind, by simp, by rw [byteLength_append, stop]⟩, by omega⟩
  · rw [effects_removal_of_effective (effective_of_astray placed) ⟨[], text, rfl, rfl⟩]
    constructor
    · rintro ⟨stop, behind⟩
      exact .astray placed stop behind
    · rintro (⟨_, stop, behind⟩ | @⟨before, cut, gap, after, whole, start, _, _, _⟩)
      · exact ⟨stop, behind⟩
      · exact absurd ⟨before ++ (cut ++ gap), after, by simp [whole], start.symm⟩ placed

/-- An edit whose range does not lie in the source can be left out of every list that it stands in,
unless it is a removal that reaches back from there: a replacement never does. -/
theorem misplaced_ignored_iff (source : String) (e : Edit) (misplaced : ¬Lies source.toList e.range) :
    (∀ front behind, apply source (front ++ e :: behind) = apply source (front ++ behind)) ↔
      ∀ range, e = .removeAttribute range → ¬ReachesBack source.toList range := by
  cases e with
  | replaceDescriptor range id message =>
      have silent : effects source.toList [.replaceDescriptor range id message] = [] :=
        effects_eq_nil_iff.mpr fun lies => absurd lies misplaced
      exact ⟨nofun, fun _ => apply_of_effects silent⟩
  | removeAttribute range =>
      change ¬Lies source.toList range at misplaced
      constructor
      · rintro ignored _ ⟨⟩ reaches
        have alone := (ignored [] []).trans (apply_nil source)
        exact (effects_removal_iff misplaced).mpr reaches (effects_of_apply alone)
      · intro stays
        have silent := not_ne_iff.mp fun changes =>
          stays range rfl ((effects_removal_iff misplaced).mp changes)
        exact apply_of_effects silent

/-- A removal that ends within a character. -/
theorem misplaced_ignored_halfway :
    ¬Lies "a é".toList (Edit.removeAttribute ⟨1, 3⟩).range ∧
      ∀ front behind, apply "a é" (front ++ .removeAttribute ⟨1, 3⟩ :: behind) =
        apply "a é" (front ++ behind) := by
  have misplaced : ¬Lies "a é".toList (Edit.removeAttribute ⟨1, 3⟩).range := by decide
  refine ⟨misplaced, (misplaced_ignored_iff "a é" _ misplaced).mpr ?_⟩
  rintro _ ⟨⟩ (⟨astray, _, _⟩ | ⟨_, start, stop, _, _⟩)
  · exact astray ⟨['a'], [' ', 'é'], rfl, rfl⟩
  · simp only [byteLength_append] at start stop
    omega

/-- A removal from behind the end of the source up to a place in it. -/
theorem misplaced_removal_made :
    ¬Lies "const a = 1;".toList (Edit.removeAttribute ⟨20, 6⟩).range ∧
      apply "const a = 1;" [.removeAttribute ⟨20, 6⟩] = "a = 1;" ∧
      apply "const a = 1;" [] = "const a = 1;" := by
  refine ⟨by decide, ?_, apply_nil _⟩
  rw [apply, splices_of_precede (List.pairwise_singleton ..)]
  decide

end MessageCatalog.Edit
