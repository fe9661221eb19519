import MessageCatalog.Config.Basic
import MessageCatalog.Issue.Report
import MessageCatalog.Proofs.Extraction.Locations
import MessageCatalog.Proofs.Script.Places

/-!
Where the carets of a report stand. A column is the width of what is in front of a node, but a caret
is put behind as many characters of the line. So it stands under the node where each character in
front takes one column; else it is off by the cells of the characters that are left out of the
front, or taken from behind it.
-/

namespace MessageCatalog

open Script (Source)
open Text (IsPaired columnsWidth firstLine inFront openLine textWidth)

def Issue.ofExtraction (options : Extraction.Options) (validate : Message.Validator)
    (source : Source) : List Issue :=
  match Extraction.extract options validate source with
  | .ok found => found.warnings.map (ofWarning (String.ofList source.text))
  | .error failure => [ofFailure (String.ofList source.text) failure]

namespace Report

theorem textWidth_append (front behind : List Char) :
    textWidth (front ++ behind) = textWidth front + textWidth behind := by
  induction front with
  | nil => exact (Nat.zero_add _).symm
  | cons c rest ih =>
      have cons (others : List Char) : textWidth (c :: others) =
          (if Text.isControlCode c then 1 else Text.printedWidth c) + textWidth others := rfl
      rw [List.cons_append, cons, cons, ih, Nat.add_assoc]

theorem columnsWidth_of_plain {text : List Char} (plain : ∀ c ∈ text, Text.columnWidth c = 1) :
    columnsWidth text = text.length := by
  induction text with
  | nil => rfl
  | cons c rest ih =>
      obtain ⟨here, others⟩ := List.forall_mem_cons.mp plain
      rw [Text.columnsWidth_cons, here, ih others, List.length_cons, Nat.add_comm]

/-- How a caret stands on a line that is cut in two in front of a node, measured by the cells of
what is in front or by its columns. -/
structure Caret (before behind : List Char) (line : String) (column : Nat) : Prop where
  parts : line.toList = before ++ behind
  counted : column = columnsWidth before + 1
  /-- It is as many cells too far to the left as those take that are left out in front, and as many
  too far to the right as those take that are added behind. -/
  padding : caretPadding line column + textWidth (before.drop (columnsWidth before)) =
    textWidth before + textWidth (behind.take (columnsWidth before - before.length))
  points_iff : caretPadding line column = textWidth before ↔
    textWidth (before.drop (columnsWidth before)) = 0 ∧
      textWidth (behind.take (columnsWidth before - before.length)) = 0
  columns_iff : caretPadding line column = columnsWidth before ↔
    textWidth (line.toList.take (columnsWidth before)) = columnsWidth before
  plain : (∀ c ∈ before, Text.columnWidth c = 1) → caretPadding line column = textWidth before

theorem caret_of_line {before behind : List Char} {line : String}
    (shape : line.toList = before ++ behind) :
    Caret before behind line (columnsWidth before + 1) := by
  have taken : caretPadding line (columnsWidth before + 1) =
      textWidth (before.take (columnsWidth before)) +
        textWidth (behind.take (columnsWidth before - before.length)) := by
    rw [caretPadding, shape, Nat.add_sub_cancel, List.take_append, textWidth_append]
  have whole : textWidth (before.take (columnsWidth before)) +
      textWidth (before.drop (columnsWidth before)) = textWidth before := by
    rw [← textWidth_append, List.take_append_drop]
  -- either nothing is left out in front, or nothing is added behind
  have one : textWidth (before.drop (columnsWidth before)) = 0 ∨
      textWidth (behind.take (columnsWidth before - before.length)) = 0 := by
    rcases Nat.le_total before.length (columnsWidth before) with short | long
    · rw [List.drop_eq_nil_of_le short]
      exact .inl rfl
    · rw [Nat.sub_eq_zero_of_le long]
      exact .inr rfl
  refine ⟨shape, rfl, by omega, by omega, Iff.rfl, fun plain => ?_⟩
  rw [taken, columnsWidth_of_plain plain, List.take_length, Nat.sub_self]
  rfl

def caretLine (on : Bool) (gutter : Nat) (severity : Severity) (padding : Nat) : String :=
  Text.blanks gutter ++ " " ++ Text.Style.blue.paint on "|" ++ " " ++ Text.blanks padding ++
    (severityStyle severity).paint on "^"

theorem caretLine_mem {issue : Issue} {location : Location} {line : String}
    (spot : issue.spot? = some (location, line)) (on : Bool) (gutter : Nat) :
    caretLine on gutter issue.severity (caretPadding line location.column) ∈
      issueLines on gutter issue := by
  unfold issueLines
  rw [spot]
  simp [frame, caretLine]

def wideLine : String :=
  "const a = <b>日本<FormattedPlural value=\x7b1\x7d /></b>;"

def wideCode : String :=
  "import \x7b FormattedPlural \x7d from \"react-intl\";\n" ++ wideLine ++ "\n"

theorem eq_ok_of_isSome {E A : Type} {result : Except E A} (found : result.toOption.isSome) :
    result = .ok (result.toOption.get found) := by
  cases result with
  | error e => cases found
  | ok a => rfl

theorem wideCode_parses : (Source.parse "./src/a.tsx" wideCode).toOption.isSome := by
  decide +kernel

end Report

end MessageCatalog
