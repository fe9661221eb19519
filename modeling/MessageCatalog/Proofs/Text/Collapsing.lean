import MessageCatalog.Text.Characters

/-!
What the collapse of blanks leaves of a text: its visible characters, and spaces for all others. A
text is collapsed part by part, as long as it is known whether a part stands behind a blank.
-/

namespace MessageCatalog.Text

variable {inRun : Bool} {text : List Char}

def runBehind (inRun : Bool) (text : List Char) : Bool :=
  (text.getLast?.map isBlank).getD inRun

theorem runBehind_cons (inRun : Bool) (c : Char) (text : List Char) :
    runBehind inRun (c :: text) = runBehind (isBlank c) text := by
  rw [runBehind, runBehind, List.getLast?_cons]
  cases text.getLast? <;> rfl

theorem runBehind_append (inRun : Bool) (before after : List Char) :
    runBehind inRun (before ++ after) = runBehind (runBehind inRun before) after := by
  induction before generalizing inRun with
  | nil => rfl
  | cons c rest ih => rw [List.cons_append, runBehind_cons, runBehind_cons, ih]

theorem collapseFrom_visible {c : Char} (visible : isBlank c = false) (inRun : Bool)
    (text : List Char) : collapseFrom inRun (c :: text) = c :: collapseFrom false text := by
  rw [collapseFrom, if_neg (by simp [visible])]

theorem collapseFrom_append (inRun : Bool) (before after : List Char) :
    collapseFrom inRun (before ++ after) =
      collapseFrom inRun before ++ collapseFrom (runBehind inRun before) after := by
  induction before generalizing inRun with
  | nil => rfl
  | cons c rest ih =>
      rw [List.cons_append, runBehind_cons]
      cases blank : isBlank c with
      | false => rw [collapseFrom_visible blank, collapseFrom_visible blank, ih, List.cons_append]
      | true =>
          rw [collapseFrom, collapseFrom, if_pos blank, if_pos blank]
          split <;> rw [ih]
          rfl

theorem collapseFrom_of_visible (visible : ∀ c ∈ text, isBlank c = false) :
    collapseFrom inRun text = text := by
  induction text generalizing inRun with
  | nil => rfl
  | cons c rest ih =>
      obtain ⟨first, later⟩ := List.forall_mem_cons.mp visible
      rw [collapseFrom_visible first, ih later]

theorem eq_space_of_mem_collapseFrom {c : Char} (member : c ∈ collapseFrom inRun text)
    (blank : isBlank c = true) : c = ' ' := by
  induction text generalizing inRun with
  | nil => cases member
  | cons first rest ih =>
      cases shown : isBlank first with
      | false =>
          rw [collapseFrom_visible shown, List.mem_cons] at member
          rcases member with rfl | later
          · rw [blank] at shown
            cases shown
          · exact ih later
      | true =>
          rw [collapseFrom, if_pos shown] at member
          split at member
          · exact ih member
          · exact (List.mem_cons.mp member).elim id ih

theorem mem_collapsed {c : Char} {text : String} (member : c ∈ (collapsed text).toList)
    (blank : isBlank c = true) : c = ' ' := by
  rw [collapsed, String.toList_ofList] at member
  exact eq_space_of_mem_collapseFrom member blank

/-- The characters that end a line: line feed, vertical tab, form feed, carriage return, next line,
and the separators of lines and paragraphs. -/
def lineBreaks : List Char :=
  ['\n', '\x0b', '\x0c', '\r', '\u0085', '\u2028', '\u2029']

theorem isBlank_of_mem_lineBreaks : ∀ c ∈ lineBreaks, isBlank c = true := by
  simp [lineBreaks, isBlank]

theorem lineBreak_not_mem_collapsed (text : String) :
    ∀ c ∈ lineBreaks, c ∉ (collapsed text).toList := by
  intro c ending member
  obtain rfl := mem_collapsed member (isBlank_of_mem_lineBreaks c ending)
  exact absurd ending (by decide)

end MessageCatalog.Text
