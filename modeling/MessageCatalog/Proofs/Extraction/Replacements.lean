import MessageCatalog.Edit
import MessageCatalog.Proofs.Script.Objects
import MessageCatalog.Proofs.Script.Quoted

/-!
What a descriptor's edit puts in its place, read again: an object of the id and the message.
-/

namespace MessageCatalog.Extraction

open Script Script.Grammar Text

section

variable (text : String) (offset : Nat) (rest : List Char)

theorem ofCursor_quoted :
    State.ofCursor ⟨offset, ' ' :: ((quote text).toList ++ rest)⟩ =
      ⟨⟨offset, ' ' :: ((quote text).toList ++ rest)⟩, ⟨offset + 1, (quote text).toList ++ rest⟩,
        .text text, false, ⟨offset + 1 + byteLength (quote text).toList, rest⟩⟩ := by
  have gap : skipGap .blank false offset (' ' :: ((quote text).toList ++ rest)) =
      (false, ⟨offset + 1, (quote text).toList ++ rest⟩) := by
    rw [toList_quote]
    rfl
  simp only [State.ofCursor, gap, token_quote]

theorem token_quoted :
    (State.ofCursor ⟨offset, ' ' :: ((quote text).toList ++ rest)⟩).token = .text text := by
  rw [ofCursor_quoted]

theorem start_quoted :
    (State.ofCursor ⟨offset, ' ' :: ((quote text).toList ++ rest)⟩).start.offset = offset + 1 := by
  rw [ofCursor_quoted]

theorem advance_quoted :
    (State.ofCursor ⟨offset, ' ' :: ((quote text).toList ++ rest)⟩).advance =
      .ofCursor ⟨offset + 1 + byteLength (quote text).toList, rest⟩ := by
  rw [ofCursor_quoted]
  rfl

/-- The signs of a replacement, but for the last one, in front of which is a blank. -/
inductive IsSign : Char → String → Prop
  | opening : IsSign '\x7b' "\x7b"
  | colon : IsSign ':' ":"
  | comma : IsSign ',' ","

theorem token_sign {c : Char} {name : String} (sign : IsSign c name) :
    (State.ofCursor ⟨offset, c :: rest⟩).token = .sign name := by
  cases sign <;> rfl

theorem advance_sign {c : Char} {name : String} (sign : IsSign c name) :
    (State.ofCursor ⟨offset, c :: rest⟩).advance = .ofCursor ⟨offset + 1, rest⟩ := by
  cases sign <;> rfl

theorem endsValue_comma : EndsValue (.ofCursor ⟨offset, ',' :: rest⟩) :=
  .comma _ ⟨offset + 1, rest⟩ offset false rest

theorem token_closing : (State.ofCursor ⟨offset, ' ' :: '\x7d' :: rest⟩).token = .sign "\x7d" :=
  rfl

theorem advance_closing :
    (State.ofCursor ⟨offset, ' ' :: '\x7d' :: rest⟩).advance = .ofCursor ⟨offset + 2, rest⟩ := rfl

theorem endsValue_closing : EndsValue (.ofCursor ⟨offset, ' ' :: '\x7d' :: rest⟩) :=
  .brace _ ⟨offset + 2, rest⟩ (offset + 1) false rest

end

variable (fuel : Nat) (context : Context)

theorem property_quoted (name text : String) (offset : Nat) (rest : List Char)
    (ends : EndsValue (.ofCursor ⟨offset + 1 + byteLength (quote name).toList + 1 + 1 +
      byteLength (quote text).toList, rest⟩)) :
    ReadsProperty (withFuel (fuel + 5)) context
      (.ofCursor ⟨offset,
        ' ' :: ((quote name).toList ++ ':' :: ' ' :: ((quote text).toList ++ rest))⟩)
      (.keyed (.literal (offset + 1) (.text name))
        (.literal (offset + 1 + byteLength (quote name).toList + 1 + 1) (.text text)))
      (.ofCursor ⟨offset + 1 + byteLength (quote name).toList + 1 + 1 +
        byteLength (quote text).toList, rest⟩) := by
  have read := property_text context fuel
    (token_quoted name offset (':' :: ' ' :: ((quote text).toList ++ rest)))
    (by rw [advance_quoted, token_sign _ _ .colon])
    (by rw [advance_quoted, advance_sign _ _ .colon, token_quoted])
    (by rw [advance_quoted, advance_sign _ _ .colon, advance_quoted]; exact ends)
  rw [advance_quoted, advance_sign _ _ .colon, advance_quoted, start_quoted, start_quoted] at read
  exact read

/-- Where the parts of a replacement begin that stands at an offset. -/
def replacementStarts (offset : Nat) (id : String) : Nat × Nat × Nat × Nat :=
  let length := byteLength (quote id).toList
  (offset + 2, offset + 8, offset + length + 10, offset + length + 28)

/-- The properties that stand in a descriptor's place, wherever their parts begin. -/
def properties (starts : Nat × Nat × Nat × Nat) (id message : String) : List Property :=
  [.keyed (.literal starts.1 (.text "id")) (.literal starts.2.1 (.text id)),
    .keyed (.literal starts.2.2.1 (.text "defaultMessage"))
      (.literal starts.2.2.2 (.text message))]

theorem length_id : byteLength (quote "id").toList = 4 := by
  decide

theorem length_defaultMessage : byteLength (quote "defaultMessage").toList = 16 := by
  decide

theorem replacement_eq (range : Span) (id message : String) (rest : List Char) :
    Edit.replacement (.replaceDescriptor range id message) ++ rest =
      '\x7b' :: ' ' :: ((quote "id").toList ++ ':' :: ' ' :: ((quote id).toList ++
        ',' :: ' ' :: ((quote "defaultMessage").toList ++ ':' :: ' ' :: ((quote message).toList ++
          ' ' :: '\x7d' :: rest)))) := by
  have first : (quote "id").toList = "\"id\"".toList := by decide
  have second : (quote "defaultMessage").toList = "\"defaultMessage\"".toList := by decide
  simp [Edit.replacement, first, second]

theorem length_replacement (range : Span) (id message : String) :
    byteLength (Edit.replacement (.replaceDescriptor range id message)) =
      byteLength (quote id).toList + byteLength (quote message).toList + 30 := by
  have written := replacement_eq range id message []
  rw [List.append_nil] at written
  simp only [written, byteLength_append, byteLength_cons, byteLength_nil, length_id,
    length_defaultMessage]
  change 1 + (1 + (4 + (1 + (1 + (_ + (1 + (1 + (16 + (1 + (1 + (_ + (1 + (1 + 0))))))))))))) = _
  omega

theorem primary_replacement (range : Span) (id message : String) (offset : Nat)
    (rest : List Char) :
    let text := Edit.replacement (.replaceDescriptor range id message)
    primary (withFuel (fuel + 6)) context (.ofCursor ⟨offset, text ++ rest⟩) =
      .ok (.object ⟨offset, offset + byteLength text⟩
          (properties (replacementStarts offset id) id message),
        .ofCursor ⟨offset + byteLength text, rest⟩) := by
  intro text
  have first := property_quoted (fuel + 1) (bracketed context) "id" id (offset + 1)
    (',' :: ' ' :: ((quote "defaultMessage").toList ++ ':' :: ' ' :: ((quote message).toList ++
      ' ' :: '\x7d' :: rest))) (endsValue_comma ..)
  have second := property_quoted (fuel + 1) (bracketed context) "defaultMessage" message
    (offset + 1 + 1 + byteLength (quote "id").toList + 1 + 1 + byteLength (quote id).toList + 1)
    (' ' :: '\x7d' :: rest) (endsValue_closing ..)
  rw [← advance_sign _ _ .opening] at first
  rw [← advance_sign _ _ .comma] at second
  have both := object_two rfl (token_sign _ _ .opening) first (token_sign _ _ .comma) second
    (token_closing ..)
  rw [replacement_eq, length_replacement, primary_object _ (token_sign _ _ .opening), both,
    advance_closing, length_id, length_defaultMessage]
  have sizes : offset + 1 + 1 + 4 + 1 + 1 + byteLength (quote id).toList + 1 + 1 + 16 + 1 + 1 +
      byteLength (quote message).toList + 2 =
    offset + (byteLength (quote id).toList + byteLength (quote message).toList + 30) := by
    omega
  have key : offset + 1 + 1 + 4 + 1 + 1 + byteLength (quote id).toList + 1 + 1 =
      offset + byteLength (quote id).toList + 10 := by
    omega
  have value : offset + byteLength (quote id).toList + 10 + 16 + 1 + 1 =
      offset + byteLength (quote id).toList + 28 := by
    omega
  rw [sizes, key, value]
  rfl

def ReadAt (text : List Char) (value : Expr) : Prop :=
  ∃ fuel context offset rest after,
    primary (withFuel (fuel + 6)) context (.ofCursor ⟨offset, text ++ rest⟩) = .ok (value, after)

theorem readAt_replacement_iff (range : Span) (id message : String) {value : Expr} :
    let text := Edit.replacement (.replaceDescriptor range id message)
    ReadAt text value ↔
      ∃ offset, value = .object ⟨offset, offset + byteLength text⟩
        (properties (replacementStarts offset id) id message) := by
  constructor
  · rintro ⟨fuel, context, offset, rest, after, read⟩
    rw [primary_replacement] at read
    exact ⟨offset, (Prod.mk.inj (Except.ok.inj read)).1.symm⟩
  · rintro ⟨offset, rfl⟩
    exact ⟨0, ⟨.markup, true, false, false, true⟩, offset, [], _, primary_replacement ..⟩

end MessageCatalog.Extraction
