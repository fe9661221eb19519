import MessageCatalog.Script.Token

/-!
The chunks of templates: the text between a template's quotes and holes. A line end inside is
read as a line feed. A chunk with an escape that means nothing has no text.
-/

namespace MessageCatalog.Script

structure Chunk where
  units : List Nat
  /-- The place of the first escape that means nothing. -/
  invalid : Option Nat
  /-- Whether a hole follows; else the template ends here. -/
  opensHole : Bool
  stop : Cursor

def Chunk.text (c : Chunk) : Option String :=
  match c.invalid with
  | none => some (String.ofList (textOfUnits c.units))
  | some _ => none

def Chunk.push (unit? : Option Nat) (c : Chunk) : Chunk :=
  { c with units := unit?.toList ++ c.units }

/-- Reads a chunk; there is none if the text ends before it. The first `pending` characters belong
to an escape or a line end that is decoded already. -/
def chunkFrom? (pending offset : Nat) : List Char → Option Chunk
  | [] => none
  | c :: rest =>
      match pending with
      | pending + 1 => chunkFrom? pending (offset + c.utf8Size) rest
      | 0 =>
          if c == '\x60' then some ⟨[], none, false, ⟨offset + 1, rest⟩⟩
          else if c == '$' && rest.head? == some '\x7b' then
            some ⟨[], none, true, ⟨offset + 2, rest.tail⟩⟩
          else if c == '\\' then
            match escape? true rest with
            | some (unit?, count) => (chunkFrom? count (offset + 1) rest).map (Chunk.push unit?)
            | none =>
                (chunkFrom? 1 (offset + 1) rest).map fun chunk => { chunk with invalid := offset }
          else if c == '\r' then
            let count := if rest.head? == some '\n' then 1 else 0
            (chunkFrom? count (offset + 1) rest).map (Chunk.push (some 0x0A))
          else (chunkFrom? 0 (offset + c.utf8Size) rest).map (Chunk.push (some c.toNat))

def Cursor.chunk? (c : Cursor) : Option Chunk :=
  chunkFrom? 0 c.offset c.rest

end MessageCatalog.Script
