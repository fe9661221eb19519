import MessageCatalog.Script.Grammar.Modules
import MessageCatalog.Text.Lines
import MessageCatalog.Text.Width

/-!
Source texts: what they parse to, and where their bytes stand. A line ends at a line feed, at a
carriage return, or at the two together; a column counts the width of what is in front of it.
-/

namespace MessageCatalog.Script

def placeFrom (line column bytes : Nat) : List Char → Nat × Nat
  | [] => (line, column)
  | c :: rest =>
      if bytes == 0 then (line, column)
      else if c == '\n' || (c == '\r' && rest.head? != some '\n') then
        placeFrom (line + 1) 1 (bytes - 1) rest
      else placeFrom line (column + Text.columnWidth c) (bytes - c.utf8Size) rest

def place (text : List Char) (offset : Nat) : Nat × Nat :=
  placeFrom 1 1 offset text

structure Source where
  file : String
  /-- The text without a byte-order mark. -/
  text : List Char
  module : Module

def Source.locate (s : Source) (offset : Nat) : Location :=
  let (line, column) := place s.text offset
  ⟨s.file, line, column⟩

def dropByteOrderMark : List Char → List Char
  | '\ufeff' :: rest => rest
  | text => text

structure SyntaxFault where
  line : Nat
  column : Nat
  deriving DecidableEq, Repr

def SyntaxFault.message (f : SyntaxFault) : String :=
  toString f.line ++ ":" ++ toString f.column ++ ": <syntax error>"

def Source.parse (file content : String) : Except SyntaxFault Source :=
  let text := dropByteOrderMark content.toList
  match Module.parse (Dialect.ofPath file) text with
  | .ok module => .ok ⟨file, text, module⟩
  | .error offset =>
      let (line, column) := place text offset
      .error ⟨line, column⟩

def Expr.parse (dialect : Dialect) (text : String) : Except Nat Expr :=
  Grammar.run Grammar.expression dialect text.toList

def Pattern.parse (dialect : Dialect) (text : String) : Except Nat Pattern :=
  Grammar.run (fun g => g.pattern) dialect text.toList

end MessageCatalog.Script
