import MessageCatalog.Issue.Basic
import MessageCatalog.Text.Style
import MessageCatalog.Text.Width

/-!
Reports for a terminal: every issue with the line it points at and a caret under its column, and
a summary of a run.
-/

namespace MessageCatalog.Report

open Text (Style)

def severityStyle : Severity → Style
  | .error => .red
  | .warning => .yellow

/-- The digits of the greatest line number, or one where no issue has a line. -/
def gutterWidth (issues : List Issue) : Nat :=
  match (issues.filterMap fun issue => issue.spot?.map fun spot => spot.1.line).max? with
  | some line => (toString line).length
  | none => 1

def caretPadding (line : String) (column : Nat) : Nat :=
  Text.textWidth (line.toList.take (column - 1))

/-- A line of a report that is no source: a mark, a label and a text behind the gutter. -/
def remark (on : Bool) (gutter : Nat) (label : String) (style : Style) (text : String) : String :=
  Text.blanks gutter ++ " " ++ Style.blue.paint on "=" ++ " " ++ style.paint on label ++ " " ++
    text

def frame (on : Bool) (gutter : Nat) (severity : Severity) (location : Location)
    (line : String) : List String :=
  let bar := Style.blue.paint on "|"
  let empty := Text.blanks gutter ++ " " ++ bar
  [empty,
    Style.blue.paint on (Text.alignedRight gutter (toString location.line)) ++ " " ++ bar ++ " " ++
      line,
    empty ++ " " ++ Text.blanks (caretPadding line location.column) ++
      (severityStyle severity).paint on "^"]

def issueLines (on : Bool) (gutter : Nat) (issue : Issue) : List String :=
  let severity := issue.severity
  let title : Style := { severityStyle severity with bold := true }
  let rule : Style := { dimmed := true, colour := some .cyan }
  [title.paint on severity.name ++ ": " ++ issue.message ++ "  " ++ rule.paint on issue.rule,
    "  " ++ Style.blue.paint on "-->" ++ " " ++ issue.place] ++
    (match issue.spot? with
      | some (location, line) => frame on gutter severity location line
      | none => []) ++
    (issue.details?.map (remark on gutter "note:" .strong)).toList ++
    (issue.hint?.map (remark on gutter "hint:" { bold := true, colour := some .cyan })).toList ++
    [""]

def total (on : Bool) (issues : List Issue) : String :=
  let errors := Issue.errorCount issues
  let warnings := Issue.warningCount issues
  Style.red.paint on "✘" ++ " " ++ Text.counted issues.length "problem" "problems" ++
    " (" ++ toString errors ++ " " ++
      Style.red.paint on (if errors == 1 then "error" else "errors") ++ ", " ++
    toString warnings ++ " " ++
      Style.yellow.paint on (if warnings == 1 then "warning" else "warnings") ++ ")"

def ofLines (lines : List String) : String :=
  String.join (lines.map fun line => line ++ "\n")

/-- The report about some issues, in their order; about none there is nothing to say. -/
def text (on : Bool) (issues : List Issue) : String :=
  if issues.isEmpty then ""
  else
    let sorted := Issue.sorted issues
    ofLines (sorted.flatMap (issueLines on (gutterWidth sorted)) ++ [total on sorted])

/-! ### Summaries -/

structure Summary where
  messages : Nat
  sources : Nat
  catalog : Option (String × Nat)
  edited : Nat
  deriving DecidableEq, Repr

def success (on : Bool) (text : String) : String :=
  Style.green.paint on "✓" ++ " " ++ Style.green.paint on text

def Summary.lines (on : Bool) (s : Summary) : List String :=
  [success on ("Extracted " ++ Text.counted s.messages "message" "messages" ++ " from " ++
      toString s.sources ++ " source " ++ if s.sources == 1 then "file" else "files")] ++
    (s.catalog.map fun (path, entries) =>
      "  " ++ Style.strong.paint on "wrote" ++ " " ++ path ++ " (" ++
        Text.counted entries "entry" "entries" ++ ")").toList ++
    if s.edited == 0 then []
    else
      ["  " ++ Style.strong.paint on "rewrote" ++ " " ++ toString s.edited ++ " source " ++
        if s.edited == 1 then "file" else "files"]

def Summary.text (on : Bool) (s : Summary) : String :=
  ofLines (s.lines on)

/-- The hint at files that are no sources, unless their issues are told in full anyway. -/
def unparsedWarning (on : Bool) (count : Nat) (verbose : Bool) : String :=
  if count == 0 || verbose then ""
  else
    let title : Style := { bold := true, colour := some .yellow }
    title.paint on "warning:" ++ " " ++ toString count ++
      " file(s) could not be parsed (use " ++ Style.cyan.paint on "-v" ++ " for details)\n"

end MessageCatalog.Report
