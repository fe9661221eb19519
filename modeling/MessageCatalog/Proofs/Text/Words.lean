import MessageCatalog.Proofs.Text.Collapsing
import MessageCatalog.Proofs.Text.Trimming

/-!
The words of a text, and the collapse of its blanks told by them. A text with single spaces for all
blanks is spelled by its words and by whether a space stands at its ends, so no two such texts agree
in these. The collapse yields the one that agrees with the text it is given.
-/

namespace MessageCatalog.Text

variable {c : Char} {text other rest : List Char}

def words (text : List Char) : List (List Char) :=
  (text.splitOnP isBlank).filter (· ≠ [])

def startsBlank (text : List Char) : Bool :=
  text.head?.any isBlank

def endsBlank (text : List Char) : Bool :=
  text.getLast?.any isBlank

structure IsCollapsed (text : List Char) : Prop where
  spaces : ∀ c ∈ text, isBlank c = true → c = ' '
  single : ¬[' ', ' '] <:+: text

/-- The text `out` has the words of a text with single spaces between them, and a space at each end
where the text has a blank. -/
structure IsCollapseOf (out text : List Char) : Prop extends IsCollapsed out where
  words : words out = words text
  starts : out.head? = some ' ' ↔ startsBlank text = true
  ends : out.getLast? = some ' ' ↔ endsBlank text = true

theorem words_append (blank : isBlank c = true) (before after : List Char) :
    words (before ++ c :: after) = words before ++ words after := by
  rw [words, List.splitOnP_append_cons before after blank, List.filter_append, words, words]

theorem words_blank (blank : isBlank c = true) (rest : List Char) :
    words (c :: rest) = words rest :=
  words_append blank [] rest

theorem words_blanks_append {blanks : List Char} (blank : ∀ c ∈ blanks, isBlank c = true)
    (rest : List Char) : words (blanks ++ rest) = words rest := by
  induction blanks with
  | nil => rfl
  | cons c blanks ih =>
      obtain ⟨first, later⟩ := List.forall_mem_cons.mp blank
      rw [List.cons_append, words_blank first, ih later]

theorem words_append_blanks {blanks : List Char} (blank : ∀ c ∈ blanks, isBlank c = true)
    (text : List Char) : words (text ++ blanks) = words text := by
  cases blanks with
  | nil => rw [List.append_nil]
  | cons c blanks =>
      obtain ⟨first, later⟩ := List.forall_mem_cons.mp blank
      have none : words blanks = [] := by
        rw [← List.append_nil blanks, words_blanks_append later]
        rfl
      rw [words_append first, none, List.append_nil]

theorem words_visible (visible : isBlank c = false) (rest : List Char) :
    words (c :: rest) =
      ((if rest.head?.all isBlank then [[]] else []) ++ words rest).modifyHead (c :: ·) := by
  rw [words, words, List.splitOnP_cons_eq_if_modifyHead, if_neg (by simp [visible])]
  cases rest with
  | nil => rfl
  | cons d rest =>
      rw [List.splitOnP_cons_eq_if_modifyHead]
      cases blank : isBlank d with
      | true => simp [blank]
      | false =>
          obtain ⟨piece, pieces, split⟩ :=
            List.exists_cons_of_ne_nil (List.splitOnP_ne_nil isBlank rest)
          simp [blank, split]

theorem words_trim (text : List Char) : words (trim text) = words text := by
  obtain ⟨behind, split, blank⟩ := trimEnd_blanks (trimStart text)
  calc words (trim text)
    _ = words (trimEnd (trimStart text) ++ behind) := (words_append_blanks blank _).symm
    _ = words (trimStart text) := by rw [← split]
    _ = words (text.takeWhile isBlank ++ trimStart text) :=
        (words_blanks_append (fun _ member => List.mem_takeWhile_imp member) _).symm
    _ = words text := by rw [trimStart, List.takeWhile_append_dropWhile]

theorem IsCollapsed.of_infix (settled : IsCollapsed text) (inside : other <:+: text) :
    IsCollapsed other :=
  ⟨fun c member => settled.spaces c (inside.subset member),
    fun pair => settled.single (pair.trans inside)⟩

theorem pair_cons : [' ', ' '] <:+: c :: rest ↔
    c = ' ' ∧ rest.head? = some ' ' ∨ [' ', ' '] <:+: rest := by
  rw [List.infix_cons_iff, List.cons_prefix_cons, eq_comm]
  cases rest with
  | nil => simp
  | cons d rest => simp [List.cons_prefix_cons, eq_comm]

theorem IsCollapsed.space_iff {place : Option Char} (settled : IsCollapsed text)
    (inside : ∀ c ∈ place, c ∈ text) : place = some ' ' ↔ place.any isBlank = true := by
  cases place with
  | none => simp
  | some c =>
      have blank := settled.spaces c (inside c rfl)
      constructor
      · intro space
        obtain rfl := Option.some.inj space
        rfl
      · intro found
        rw [blank found]

theorem IsCollapsed.starts_iff (settled : IsCollapsed text) :
    text.head? = some ' ' ↔ startsBlank text = true :=
  settled.space_iff fun _ => List.mem_of_head?

theorem IsCollapsed.ends_iff (settled : IsCollapsed text) :
    text.getLast? = some ' ' ↔ endsBlank text = true :=
  settled.space_iff fun _ => List.mem_of_getLast?

theorem IsCollapsed.startsBlank_behind (settled : IsCollapsed (' ' :: rest)) :
    startsBlank rest = false := by
  have behind := settled.of_infix (List.suffix_cons ' ' rest).isInfix
  rw [Bool.eq_false_iff]
  intro starts
  exact settled.single (pair_cons.mpr (.inl ⟨rfl, behind.starts_iff.mpr starts⟩))

def edge (blank : Bool) : List (List Char) :=
  if blank then [[]] else []

theorem intercalate_edge (blank : Bool) : [' '].intercalate (edge blank) = [] := by
  cases blank <;> rfl

theorem intercalate_nil_cons {pieces : List (List Char)} (filled : pieces ≠ []) :
    [' '].intercalate ([] :: pieces) = ' ' :: [' '].intercalate pieces := by
  rw [List.intercalate_cons_of_ne_nil filled]
  rfl

theorem intercalate_modifyHead {pieces : List (List Char)} (filled : pieces ≠ []) (c : Char)
    (behind : List (List Char)) :
    [' '].intercalate (pieces.modifyHead (c :: ·) ++ behind) =
      c :: [' '].intercalate (pieces ++ behind) := by
  obtain ⟨piece, pieces, rfl⟩ := List.exists_cons_of_ne_nil filled
  rw [List.modifyHead_cons, List.cons_append, List.cons_append]
  cases pieces ++ behind with
  | nil => simp
  | cons next pieces => simp [List.intercalate_cons_cons]

theorem endsBlank_cons (filled : rest ≠ []) (c : Char) :
    endsBlank (c :: rest) = endsBlank rest := by
  rw [endsBlank, List.getLast?_cons_of_ne_nil filled, endsBlank]

theorem IsCollapsed.spelled (settled : IsCollapsed text) :
    text = [' '].intercalate (edge (startsBlank text) ++ words text ++ edge (endsBlank text)) := by
  induction text with
  | nil => rfl
  | cons c rest ih =>
      have behind := ih (settled.of_infix (List.suffix_cons c rest).isInfix)
      cases blank : isBlank c with
      | true =>
          obtain rfl := settled.spaces c (by simp) blank
          by_cases nothing : rest = []
          · subst nothing
            rfl
          rw [settled.startsBlank_behind] at behind
          have filled : words rest ++ edge (endsBlank rest) ≠ [] := fun empty =>
            nothing (behind.trans (congrArg _ empty))
          calc ' ' :: rest
            _ = ' ' :: [' '].intercalate (words rest ++ edge (endsBlank rest)) :=
                congrArg (' ' :: ·) behind
            _ = [' '].intercalate ([] :: (words rest ++ edge (endsBlank rest))) :=
                (intercalate_nil_cons filled).symm
            _ = [' '].intercalate (edge (startsBlank (' ' :: rest)) ++ words (' ' :: rest) ++
                  edge (endsBlank (' ' :: rest))) := by
                rw [words_blank blank, endsBlank_cons nothing]
                rfl
      | false =>
          have starts : startsBlank (c :: rest) = false := blank
          rw [starts, words_visible blank]
          by_cases nothing : rest = []
          · subst nothing
            simp [endsBlank, edge, blank, words]
          -- the word that `c` joins is the first piece of the rest, empty if the rest starts blank
          have opens : rest.head?.all isBlank = startsBlank rest := by
            obtain ⟨d, rest, rfl⟩ := List.exists_cons_of_ne_nil nothing
            rfl
          have filled : edge (startsBlank rest) ++ words rest ≠ [] := by
            intro empty
            rw [empty, List.nil_append, intercalate_edge] at behind
            exact nothing behind
          rw [opens, endsBlank_cons nothing]
          exact (congrArg (c :: ·) behind).trans (intercalate_modifyHead filled c _).symm

theorem IsCollapsed.eq_of_words (settled : IsCollapsed text) (settled' : IsCollapsed other)
    (same : words text = words other) (starts : startsBlank text = startsBlank other)
    (ends : endsBlank text = endsBlank other) : text = other := by
  rw [settled.spelled, settled'.spelled, same, starts, ends]

/-! ### The collapse -/

theorem head?_collapseFrom_true (text : List Char) :
    ∀ c ∈ (collapseFrom true text).head?, isBlank c = false := by
  induction text with
  | nil => simp [collapseFrom]
  | cons c rest ih =>
      cases blank : isBlank c with
      | true =>
          rw [collapseFrom, if_pos blank, if_pos rfl]
          exact ih
      | false => simp [collapseFrom_visible, blank]

theorem isCollapsed_collapseFrom (inRun : Bool) (text : List Char) :
    IsCollapsed (collapseFrom inRun text) := by
  refine ⟨fun _ => eq_space_of_mem_collapseFrom, ?_⟩
  induction text generalizing inRun with
  | nil => simp [collapseFrom]
  | cons c rest ih =>
      cases blank : isBlank c with
      | true =>
          rw [collapseFrom, if_pos blank]
          cases inRun with
          | true => exact ih true
          | false =>
              intro pair
              rcases pair_cons.mp pair with ⟨_, second⟩ | later
              · exact absurd (head?_collapseFrom_true rest ' ' second) (by decide)
              · exact ih true later
      | false =>
          rw [collapseFrom_visible blank]
          intro pair
          rcases pair_cons.mp pair with ⟨rfl, _⟩ | later
          · cases blank
          · exact ih false later

theorem head?_collapse (text : List Char) :
    (collapse text).head?.map isBlank = text.head?.map isBlank := by
  unfold collapse
  cases text with
  | nil => rfl
  | cons c rest =>
      cases blank : isBlank c with
      | true =>
          rw [collapseFrom, if_pos blank, if_neg (by decide), List.head?_cons, List.head?_cons,
            Option.map_some, Option.map_some, blank]
          rfl
      | false => rw [collapseFrom_visible blank, List.head?_cons, List.head?_cons]

theorem startsBlank_collapse (text : List Char) :
    startsBlank (collapse text) = startsBlank text := by
  have head := congrArg (Option.any id) (head?_collapse text)
  rwa [Option.any_map, Option.any_map] at head

theorem runBehind_collapseFrom (inRun : Bool) (text : List Char) :
    runBehind inRun (collapseFrom inRun text) = runBehind inRun text := by
  induction text generalizing inRun with
  | nil => rfl
  | cons c rest ih =>
      rw [runBehind_cons]
      cases blank : isBlank c with
      | true =>
          rw [collapseFrom, if_pos blank]
          cases inRun with
          | true => exact ih true
          | false => exact (runBehind_cons false ' ' _).trans (ih true)
      | false => rw [collapseFrom_visible blank, runBehind_cons, blank, ih]

theorem endsBlank_eq_runBehind (text : List Char) : endsBlank text = runBehind false text := by
  unfold endsBlank runBehind
  cases text.getLast? <;> rfl

theorem endsBlank_collapse (text : List Char) : endsBlank (collapse text) = endsBlank text := by
  rw [endsBlank_eq_runBehind, endsBlank_eq_runBehind]
  exact runBehind_collapseFrom false text

theorem words_collapseFrom (inRun : Bool) (text : List Char) :
    words (collapseFrom inRun text) = words text := by
  induction text generalizing inRun with
  | nil => rfl
  | cons c rest ih =>
      cases blank : isBlank c with
      | true =>
          rw [collapseFrom, if_pos blank, words_blank blank]
          cases inRun with
          | true => exact ih true
          | false => exact (words_blank rfl _).trans (ih true)
      | false =>
          have opens : (collapseFrom false rest).head?.all isBlank = rest.head?.all isBlank := by
            have head := congrArg (Option.all id) (head?_collapse rest)
            rwa [Option.all_map, Option.all_map] at head
          rw [collapseFrom_visible blank, words_visible blank, words_visible blank, opens, ih]

theorem isCollapseOf_collapse (text : List Char) : IsCollapseOf (collapse text) text := by
  have settled : IsCollapsed (collapse text) := isCollapsed_collapseFrom false text
  refine ⟨settled, words_collapseFrom false text, ?_, ?_⟩
  · rw [settled.starts_iff, startsBlank_collapse]
  · rw [settled.ends_iff, endsBlank_collapse]

theorem IsCollapseOf.unique {out out' : List Char} (first : IsCollapseOf out text)
    (second : IsCollapseOf out' text) : out = out' := by
  refine first.toIsCollapsed.eq_of_words second.toIsCollapsed
    (first.words.trans second.words.symm) ?_ ?_
  · rw [Bool.eq_iff_iff, ← first.starts_iff, first.starts, ← second.starts, second.starts_iff]
  · rw [Bool.eq_iff_iff, ← first.ends_iff, first.ends, ← second.ends, second.ends_iff]

theorem isCollapseOf_iff {out : List Char} : IsCollapseOf out text ↔ out = collapse text :=
  ⟨fun found => found.unique (isCollapseOf_collapse text),
    fun same => same ▸ isCollapseOf_collapse text⟩

theorem collapse_of_isCollapsed (settled : IsCollapsed text) : collapse text = text :=
  (isCollapseOf_iff.mp ⟨settled, rfl, settled.starts_iff, settled.ends_iff⟩).symm

theorem collapse_collapse (text : List Char) : collapse (collapse text) = collapse text :=
  collapse_of_isCollapsed (isCollapseOf_collapse text).toIsCollapsed

/-! ### Trimming -/

theorem trim_isInfix (text : List Char) : trim text <:+: text := by
  have front : trim text <+: trimStart text := List.rdropWhile_prefix isBlank (trimStart text)
  exact front.isInfix.trans (text.dropWhile_suffix isBlank).isInfix

theorem startsBlank_trim (text : List Char) : startsBlank (trim text) = false := by
  rw [startsBlank, Option.any_eq_false]
  intro c found
  exact head?_trimStart text c (head?_trimEnd found)

theorem endsBlank_trim (text : List Char) : endsBlank (trim text) = false := by
  rw [endsBlank, Option.any_eq_false]
  intro c found
  exact getLast?_trimEnd (trimStart text) c found

theorem trim_collapse (text : List Char) : trim (collapse text) = collapse (trim text) := by
  have before := isCollapseOf_collapse text
  have behind := isCollapseOf_collapse (trim text)
  refine (before.toIsCollapsed.of_infix (trim_isInfix _)).eq_of_words behind.toIsCollapsed ?_ ?_ ?_
  · rw [words_trim, before.words, behind.words, words_trim]
  · rw [startsBlank_trim, startsBlank_collapse, startsBlank_trim]
  · rw [endsBlank_trim, endsBlank_collapse, endsBlank_trim]

theorem collapsed_collapsed (text : String) : collapsed (collapsed text) = collapsed text := by
  rw [collapsed, collapsed, String.toList_ofList, collapse_collapse]

theorem trimmed_collapsed (text : String) :
    trimmed (collapsed text) = collapsed (trimmed text) := by
  rw [trimmed, collapsed, String.toList_ofList, trim_collapse, collapsed, trimmed,
    String.toList_ofList]

end MessageCatalog.Text
