import MessageCatalog.Extraction.Basic
import MessageCatalog.Text.Lines

/-!
Issues: what a run over a project has to say about its sources, in the order in which it is
reported.
-/

namespace MessageCatalog

inductive Severity where
  | error
  | warning
  deriving DecidableEq, Repr

def Severity.name : Severity → String
  | .error => "error"
  | .warning => "warning"

inductive Issue where
  /-- A component whose messages are not extracted; `line` is the line of its use. -/
  | skipped (warning : Extraction.Warning) (line : String)
  /-- The failure that ended the extraction; `line` is the line that it points at. -/
  | failed (failure : Descriptor.Failure) (line : String)
  | unparsed (file : String) (reason : String)
  deriving DecidableEq, Repr

namespace Issue

def ofWarning (source : String) (w : Extraction.Warning) : Issue :=
  .skipped w (Text.lineAt source w.location.line)

def ofFailure (source : String) (f : Descriptor.Failure) : Issue :=
  .failed f (Text.lineAt source f.location.line)

def severity : Issue → Severity
  | .skipped .. => .warning
  | .failed .. => .error
  | .unparsed .. => .error

def rule : Issue → String
  | .skipped .. => "plural-component"
  | .failed f _ => f.fault.code
  | .unparsed .. => "parse-error"

def message : Issue → String
  | .skipped w _ => w.message
  | .failed f _ => f.fault.message
  | .unparsed _ reason => reason

def hint? : Issue → Option String
  | .failed f _ => f.fault.hint
  | _ => none

def details? : Issue → Option String
  | .failed ⟨.missingDescription id, _⟩ _ => some ("message id: " ++ id)
  | _ => none

def spot? : Issue → Option (Location × String)
  | .skipped w line => some (w.location, line)
  | .failed f line => some (f.location, line)
  | .unparsed .. => none

def file : Issue → String
  | .skipped w _ => w.location.file
  | .failed f _ => f.location.file
  | .unparsed file _ => file

def place (issue : Issue) : String :=
  match issue.spot? with
  | some (location, _) => location.render
  | none => issue.file

/-! ### Order -/

def rank : Issue → Nat
  | .skipped .. => 0
  | .failed f _ =>
      match f.fault with
      | .unevaluatable => 1
      | .messageSyntax _ => 2
      | .escapingHint => 3
      | .missingField => 4
      | .duplicateId _ => 5
      | .missingDescription _ => 6
      | .invalidShape _ => 7
  | .unparsed .. => 8

/-- Line and column, which come before all others where there are none. -/
def position (issue : Issue) : Nat × Nat :=
  match issue.spot? with
  | some (location, _) => (location.line, location.column)
  | none => (0, 0)

def order (a b : Issue) : Ordering :=
  (compare a.file b.file).then <|
    (compare a.position.1 b.position.1).then <|
      (compare a.position.2 b.position.2).then <|
        (compare a.rank b.rank).then (compare a.message b.message)

def sorted (issues : List Issue) : List Issue :=
  issues.mergeSort fun a b => (order a b).isLE

def isError (issue : Issue) : Bool :=
  issue.severity == .error

def isUnparsed : Issue → Bool
  | .unparsed .. => true
  | _ => false

def errorCount (issues : List Issue) : Nat :=
  issues.countP isError

def warningCount (issues : List Issue) : Nat :=
  issues.length - errorCount issues

def unparsedCount (issues : List Issue) : Nat :=
  issues.countP isUnparsed

end Issue

end MessageCatalog
