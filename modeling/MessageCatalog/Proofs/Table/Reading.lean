import Mathlib.Data.List.Infix
import MessageCatalog.Proofs.Table.Runs

/-!
Catalog texts read back. A text is cut into its blocks from the front: a comment ends at the first
line break behind it, an id at the first separator, and a value at the first line break. Comments
and values are one line each, but nothing is escaped in an id. As long as no id holds a separator,
two tables with one text are the same; otherwise they may differ.
-/

namespace MessageCatalog.Table

def separator : List Char :=
  [' ', '=', ' ']

/-- In the text with the separator behind it, that separator is the first one. -/
def IsCut (cut text : List Char) : Prop :=
  ¬ cut <:+: text ++ cut.dropLast

/-- An id with no separator in it, nor one that begins in it and ends in the separator behind. -/
def IsKey (id : String) : Prop :=
  IsCut separator id.toList

instance (id : String) : Decidable (IsKey id) :=
  inferInstanceAs (Decidable (¬ separator <:+: id.toList ++ separator.dropLast))

theorem eq_nil_of_isCut {cut text between after rest : List Char}
    (first : IsCut cut (text ++ between))
    (same : cut ++ after = between ++ (cut ++ rest)) : between = [] := by
  by_contra filled
  have long := List.length_pos_iff.mpr filled
  -- the text behind `text` begins with a cut, which ends before the one at its end does
  have begins : cut <+: between ++ cut := by
    refine List.prefix_of_prefix_length_le ⟨after, same⟩ ⟨rest, ?_⟩ ?_
    · rw [List.append_assoc]
    · rw [List.length_append]
      omega
  have inside : cut <+: between ++ cut.dropLast := by
    refine List.prefix_of_prefix_length_le begins ?_ ?_
    · exact (List.prefix_append_right_inj between).mpr cut.dropLast_prefix
    · rw [List.length_append, List.length_dropLast]
      omega
  refine first ?_
  rw [List.append_assoc]
  exact inside.isInfix.trans (List.suffix_append text _).isInfix

theorem cut_inj {cut text other after rest : List Char} (first : IsCut cut text)
    (second : IsCut cut other) (same : text ++ (cut ++ after) = other ++ (cut ++ rest)) :
    text = other ∧ after = rest := by
  rcases List.append_eq_append_iff.mp same with ⟨between, rfl, behind⟩ | ⟨between, rfl, behind⟩
  · obtain rfl := eq_nil_of_isCut second behind
    rw [List.append_nil]
    exact ⟨rfl, List.append_cancel_left behind⟩
  · obtain rfl := eq_nil_of_isCut first behind
    rw [List.append_nil]
    exact ⟨rfl, (List.append_cancel_left behind).symm⟩

theorem isCut_lineBreak {text : List Char} (oneLine : '\n' ∉ text) : IsCut ['\n'] text := by
  intro found
  rw [List.dropLast_singleton, List.append_nil] at found
  exact oneLine (found.subset List.mem_cons_self)

theorem lines_inj {text other after rest : List Char} (oneLine : '\n' ∉ text)
    (oneLine' : '\n' ∉ other) (same : text ++ '\n' :: after = other ++ '\n' :: rest) :
    text = other ∧ after = rest :=
  cut_inj (isCut_lineBreak oneLine) (isCut_lineBreak oneLine') same

structure IsOneLine (entry : Entry) : Prop where
  value : '\n' ∉ entry.value.toList
  comment : '\n' ∉ entry.comment.toList

theorem isOneLine_entryOf (d : Descriptor) : IsOneLine (entryOf d) := by
  have ends := lineBreak_not_mem_entryOf d '\n' (by decide)
  exact ⟨ends.1, ends.2⟩

def commentLine (comment : String) : List Char :=
  if comment.isEmpty then ['#'] else '#' :: ' ' :: comment.toList

theorem commentLine_inj {comment other : String} (same : commentLine comment = commentLine other) :
    comment = other := by
  unfold commentLine at same
  split at same <;> split at same
  · rename_i nothing nothing'
    rw [String.isEmpty_iff.mp nothing, String.isEmpty_iff.mp nothing']
  · cases same
  · cases same
  · exact String.toList_inj.mp (List.cons.inj (List.cons.inj same).2).2

theorem commentLine_oneLine {comment : String} (oneLine : '\n' ∉ comment.toList) :
    '\n' ∉ commentLine comment := by
  unfold commentLine
  split <;> simp [oneLine]

theorem toList_block (id : String) (entry : Entry) :
    (block id entry).toList = commentLine entry.comment ++ '\n' ::
      (id.toList ++ (separator ++ (entry.value.toList ++ ['\n']))) := by
  unfold block commentLine separator
  split <;> simp

def textOf (rows : List (String × Entry)) : List Char :=
  ['\n'].intercalate (rows.map fun row => (block row.1 row.2).toList)

def textBehind : List (String × Entry) → List Char
  | [] => []
  | row :: rest => '\n' :: textOf (row :: rest)

theorem textOf_cons (id : String) (entry : Entry) (rest : List (String × Entry)) :
    textOf ((id, entry) :: rest) = commentLine entry.comment ++ '\n' ::
      (id.toList ++ (separator ++ (entry.value.toList ++ '\n' :: textBehind rest))) := by
  cases rest with
  | nil => simp [textOf, textBehind, toList_block]
  | cons row rest =>
      have several : textOf ((id, entry) :: row :: rest) =
          (block id entry).toList ++ ['\n'] ++ textOf (row :: rest) :=
        List.intercalate_cons_cons
      simp [several, toList_block, textBehind]

theorem textBehind_inj {rows others : List (String × Entry)}
    (same : textBehind rows = textBehind others) : textOf rows = textOf others := by
  cases rows with
  | nil =>
      cases others with
      | nil => rfl
      | cons row rest => cases same
  | cons row rest =>
      cases others with
      | nil => cases same
      | cons other rest => exact (List.cons.inj same).2

theorem toList_render (t : Table) : t.render.toList = textOf t.sorted := by
  rw [render, String.toList_intercalate, List.map_map]
  rfl

structure IsLegible (row : String × Entry) : Prop where
  key : IsKey row.1
  oneLine : IsOneLine row.2

theorem rows_inj {rows others : List (String × Entry)} (legible : ∀ row ∈ rows, IsLegible row)
    (legible' : ∀ row ∈ others, IsLegible row) (same : textOf rows = textOf others) :
    rows = others := by
  induction rows generalizing others with
  | nil =>
      cases others with
      | nil => rfl
      | cons row rest =>
          rw [textOf_cons] at same
          exact absurd same.symm (by simp [textOf])
  | cons row rest ih =>
      obtain ⟨here, later⟩ := List.forall_mem_cons.mp legible
      cases others with
      | nil =>
          rw [textOf_cons] at same
          exact absurd same (by simp [textOf])
      | cons other others =>
          obtain ⟨here', later'⟩ := List.forall_mem_cons.mp legible'
          obtain ⟨id, value, comment⟩ := row
          obtain ⟨id', value', comment'⟩ := other
          rw [textOf_cons, textOf_cons] at same
          obtain ⟨comments, behindComment⟩ := lines_inj (commentLine_oneLine here.oneLine.comment)
            (commentLine_oneLine here'.oneLine.comment) same
          obtain ⟨ids, behindId⟩ := cut_inj here.key here'.key behindComment
          obtain ⟨values, behindValue⟩ :=
            lines_inj here.oneLine.value here'.oneLine.value behindId
          obtain rfl : id = id' := String.toList_inj.mp ids
          obtain rfl : value = value' := String.toList_inj.mp values
          obtain rfl : comment = comment' := commentLine_inj comments
          rw [ih later later' (textBehind_inj behindValue)]

theorem legible_run {actions : List Action} (keys : ∀ row ∈ (run actions).entries, IsKey row.1) :
    ∀ row ∈ (run actions).sorted, IsLegible row := by
  rintro ⟨id, entry⟩ member
  have listed : (id, entry) ∈ (run actions).entries := (sorted_perm _).mem_iff.mp member
  refine ⟨keys _ listed, ?_⟩
  obtain ⟨d, rfl⟩ := exists_entryOf ((mem_entries_iff (distinct_run actions) id entry).mp listed)
  exact isOneLine_entryOf d

/-- Behind any runs that leave no id with a separator in the table, two tables have one catalog text
exactly if they have the same ids with the same values and comments. -/
theorem render_eq_iff (actions others : List Action)
    (keys : ∀ row ∈ (run actions).entries, IsKey row.1)
    (keys' : ∀ row ∈ (run others).entries, IsKey row.1) :
    (run actions).render = (run others).render ↔
      ∀ id, (run actions).get? id = (run others).get? id := by
  have distinct := distinct_run actions
  have distinct' := distinct_run others
  constructor
  · intro same id
    have rows : (run actions).sorted = (run others).sorted := by
      refine rows_inj (legible_run keys) (legible_run keys') ?_
      rw [← toList_render, ← toList_render, same]
    refine Option.ext fun entry => ?_
    rw [← (lists_sorted distinct).complete, ← (lists_sorted distinct').complete, rows]
  · exact render_eq_of_get? distinct distinct'

/-- Signs of equality, and even a line break, do not make an id illegible. -/
theorem render_eq_iff_lineBreak :
    let broken := [.merge [⟨"a\nb", some "c", "d = e"⟩, ⟨"a=", none, " = "⟩] none]
    let other := [.merge [⟨"a\nb", some "c", "d  = e"⟩, ⟨"a=", some "=", " = "⟩] none]
    (∀ row ∈ (run broken).entries, IsKey row.1) ∧ (∀ row ∈ (run other).entries, IsKey row.1) ∧
      (run broken).get? "a=" ≠ (run other).get? "a=" ∧
      (run broken).render ≠ (run other).render := by
  intro broken other
  have keys : ∀ row ∈ (run broken).entries, IsKey row.1 := by decide
  have keys' : ∀ row ∈ (run other).entries, IsKey row.1 := by decide
  have different : (run broken).get? "a=" ≠ (run other).get? "a=" := by decide
  refine ⟨keys, keys', different, fun same => different ?_⟩
  exact (render_eq_iff broken other keys keys').mp same "a="

/-- An id with a separator in it can be mistaken for a shorter one in front of a longer value. -/
theorem render_ambiguous :
    ¬∀ actions others : List Action,
      (∀ action ∈ actions ++ others, ∀ d ∈ action.admitted, d.id ≠ "" ∧ d.defaultMessage ≠ "") →
        (run actions).render = (run others).render →
          ∀ id, (run actions).get? id = (run others).get? id := by
  intro unambiguous
  let spacedId : List Action := [.merge [⟨"a = b", none, "c"⟩] none]
  let spacedValue : List Action := [.merge [⟨"a", none, "b = c"⟩] none]
  have same : (run spacedId).render = (run spacedValue).render := by decide +kernel
  have found := unambiguous spacedId spacedValue (by decide) same "a"
  exact absurd found (by decide)

end MessageCatalog.Table
