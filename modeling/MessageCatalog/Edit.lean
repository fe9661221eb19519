import MessageCatalog.Text.Characters
import MessageCatalog.Text.Lines
import MessageCatalog.Text.Quoted

/-!
Edits that extraction asks for, and their application to a source. Of two edits that overlap the
one that starts first is made, and of two that start together the longer one.
-/

namespace MessageCatalog

inductive Edit where
  | removeAttribute (range : Span)
  | replaceDescriptor (range : Span) (id : String) (defaultMessage : String)
  deriving DecidableEq, Repr

namespace Edit

def range : Edit → Span
  | .removeAttribute range => range
  | .replaceDescriptor range _ _ => range

def replacement : Edit → List Char
  | .removeAttribute _ => []
  | .replaceDescriptor _ id message =>
      ("\x7b \"id\": " ++ Text.quote id ++ ", \"defaultMessage\": " ++ Text.quote message ++
        " \x7d").toList

/-- The range that is replaced: a removal reaches back over the blanks in front of it. -/
def effective (source : List Char) : Edit → Span
  | .removeAttribute range =>
      let before := (Text.slice? 0 range.start source).getD []
      ⟨Text.byteLength (Text.trimEnd before), range.stop⟩
  | .replaceDescriptor range _ _ => range

structure Splice where
  range : Span
  text : List Char

def toSplice (source : List Char) (e : Edit) : Splice :=
  ⟨e.effective source, e.replacement⟩

def splices (source : List Char) (edits : List Edit) : List Splice :=
  let valid := (edits.map (toSplice source)).filter fun splice =>
    (Text.slice? splice.range.start splice.range.stop source).isSome
  valid.mergeSort fun a b =>
    a.range.start < b.range.start ||
      (a.range.start == b.range.start && b.range.stop ≤ a.range.stop)

/-- Makes the splices from left to right; `rest` is the source from the byte `cursor` on. A splice
that starts before the cursor is dropped. -/
def spliceAll (cursor : Nat) (rest : List Char) : List Splice → List Char
  | [] => rest
  | next :: later =>
      if next.range.start < cursor then spliceAll cursor rest later
      else
        match Text.splitAtByte? (next.range.start - cursor) rest with
        | none => spliceAll cursor rest later
        | some (kept, after) =>
            match Text.splitAtByte? (next.range.stop - next.range.start) after with
            | none => spliceAll cursor rest later
            | some (_, after) => kept ++ next.text ++ spliceAll next.range.stop after later

def apply (source : String) (edits : List Edit) : String :=
  String.ofList (spliceAll 0 source.toList (splices source.toList edits))

end Edit

end MessageCatalog
