/-!
Places in texts. A text has lines, and offsets that are counted in bytes of its UTF-8 form. A line
ends at a line feed, and one carriage return just before it belongs to the terminator; a carriage
return on its own ends nothing. A byte offset names a place only where it falls between two
characters.
-/

namespace MessageCatalog

/-- A line and a column of a file, both counted from one; columns count display width. -/
structure Location where
  file : String
  line : Nat
  column : Nat
  deriving DecidableEq, Repr, Inhabited

def Location.render (l : Location) : String :=
  l.file ++ ":" ++ toString l.line ++ ":" ++ toString l.column

/-- Bytes from `start` up to but not including `stop`. -/
structure Span where
  start : Nat
  stop : Nat
  deriving DecidableEq, Repr, Inhabited

namespace Text

/-! ### Lines -/

/-- One carriage return at the end belongs to the line feed that followed it. -/
def dropReturn (line : List Char) : List Char :=
  match line.reverse with
  | '\r' :: rest => rest.reverse
  | _ => line

/-- Splits off lines; `line` holds the characters of the open one, last first. -/
def linesFrom (line : List Char) : List Char → List (List Char)
  | [] => if line.isEmpty then [] else [line.reverse]
  | '\n' :: rest => dropReturn line.reverse :: linesFrom [] rest
  | c :: rest => linesFrom (c :: line) rest

def lines (text : List Char) : List (List Char) :=
  linesFrom [] text

/-- The line with the given number, counted from one; empty where there is none. -/
def lineAt (text : String) : Nat → String
  | 0 => ""
  | index + 1 => String.ofList ((lines text.toList)[index]?.getD [])

/-! ### Bytes -/

def byteLength (text : List Char) : Nat :=
  text.foldr (fun c length => c.utf8Size + length) 0

@[simp]
theorem byteLength_nil : byteLength [] = 0 := by
  rfl

@[simp]
theorem byteLength_cons (head : Char) (rest : List Char) :
    byteLength (head :: rest) = head.utf8Size + byteLength rest := by
  rfl

@[simp]
theorem byteLength_append (before after : List Char) :
    byteLength (before ++ after) = byteLength before + byteLength after := by
  induction before with
  | nil => simp
  | cons head rest ih => simp [ih, Nat.add_assoc]

def splitAtByte? : Nat → List Char → Option (List Char × List Char)
  | 0, text => some ([], text)
  | _ + 1, [] => none
  | offset + 1, c :: rest =>
      if c.utf8Size ≤ offset + 1 then
        (splitAtByte? (offset + 1 - c.utf8Size) rest).map fun (before, after) => (c :: before, after)
      else none

def slice? (start stop : Nat) (text : List Char) : Option (List Char) :=
  if start ≤ stop then do
    let (_, after) ← splitAtByte? start text
    let (part, _) ← splitAtByte? (stop - start) after
    return part
  else none

end Text

end MessageCatalog
