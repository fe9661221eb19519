/-!
Styled text for terminals. A style is a list of codes; where styles are off, a text stays as it
is.
-/

namespace MessageCatalog.Text

inductive Colour where
  | red
  | green
  | yellow
  | blue
  | cyan
  deriving DecidableEq, Repr

def Colour.code : Colour → String
  | .red => "31"
  | .green => "32"
  | .yellow => "33"
  | .blue => "34"
  | .cyan => "36"

structure Style where
  bold : Bool := false
  dimmed : Bool := false
  colour : Option Colour := none
  deriving DecidableEq, Repr

namespace Style

def codes (s : Style) : List String :=
  (if s.bold then ["1"] else []) ++ (if s.dimmed then ["2"] else []) ++
    (s.colour.map Colour.code).toList

def paint (s : Style) (on : Bool) (text : String) : String :=
  if on && !s.codes.isEmpty then
    "\x1b[" ++ String.intercalate ";" s.codes ++ "m" ++ text ++ "\x1b[0m"
  else text

def red : Style := { colour := some .red }

def green : Style := { colour := some .green }

def yellow : Style := { colour := some .yellow }

def blue : Style := { colour := some .blue }

def cyan : Style := { colour := some .cyan }

def strong : Style := { bold := true }

end Style

def blanks (count : Nat) : String :=
  String.ofList (List.replicate count ' ')

def alignedRight (width : Nat) (text : String) : String :=
  blanks (width - text.length) ++ text

def counted (count : Nat) (one many : String) : String :=
  toString count ++ " " ++ if count == 1 then one else many

end MessageCatalog.Text
