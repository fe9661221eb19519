import MessageCatalog.Proofs.Message.Readers

/-!
Readers do not know where they stand. In front of the same text but some bytes further on, each of
them finds the same, or fails with the same cause, and all positions move along.
-/

namespace MessageCatalog.Message

def SyntaxError.shift (bytes : Nat) (e : SyntaxError) : SyntaxError :=
  ⟨e.offset + bytes, e.cause⟩

def Cursor.shift (bytes : Nat) (c : Cursor) : Cursor :=
  ⟨c.offset + bytes, c.rest⟩

def moveRead {α : Type} (bytes : Nat) : α × Cursor → α × Cursor :=
  fun (found, c) => (found, c.shift bytes)

/-- An outcome some bytes further on; `move` says what becomes of a success. -/
def shifted {α : Type} (move : α → α) (bytes : Nat) : Outcome α → Outcome α
  | .ok found => .ok (move found)
  | .error e => .error (e.shift bytes)

theorem bind_shifted {α β : Type} {move : α → α} {moveNext : β → β} {bytes : Nat}
    {first again : Outcome α} {next nextAgain : α → Outcome β}
    (same : again = shifted move bytes first)
    (later : ∀ found, nextAgain (move found) = shifted moveNext bytes (next found)) :
    again >>= nextAgain = shifted moveNext bytes (first >>= next) := by
  subst same
  cases first with
  | error e => rfl
  | ok found => exact later found

theorem ite_shifted {α : Type} {move : α → α} {bytes : Nat} {condition : Prop}
    [Decidable condition] {yes no yesAgain noAgain : Outcome α}
    (first : yesAgain = shifted move bytes yes) (second : noAgain = shifted move bytes no) :
    (if condition then yesAgain else noAgain) =
      shifted move bytes (if condition then yes else no) := by
  split
  · exact first
  · exact second

namespace Cursor

variable (bytes : Nat) (c : Cursor)

theorem shift_rest : (c.shift bytes).rest = c.rest := by
  rfl

theorem next_shift : (c.shift bytes).next = c.next.shift bytes := by
  obtain ⟨offset, rest⟩ := c
  cases rest with
  | nil => rfl
  | cons head tail => simp only [shift, next, Nat.add_right_comm]

theorem takeRun_shift (accepts : Char → Bool) :
    (c.shift bytes).takeRun accepts = moveRead bytes (c.takeRun accepts) := by
  obtain ⟨offset, rest⟩ := c
  unfold Cursor.takeRun shift
  induction rest generalizing offset with
  | nil => rfl
  | cons head tail ih =>
      have later := ih (offset + head.utf8Size)
      simp only [Message.takeRun] at later ⊢
      by_cases accepted : accepts head = true
      · simp only [accepted, if_true, Nat.add_right_comm offset bytes, later, moveRead]
      · simp only [accepted]
        rfl

theorem skipSpace_shift : (c.shift bytes).skipSpace = c.skipSpace.shift bytes := by
  rw [skipSpace, takeRun_shift]
  rfl

end Cursor

open Cursor

variable (bytes : Nat) (c : Cursor)

theorem expect_shift (wanted : Char) :
    expect wanted (c.shift bytes) = shifted (Cursor.shift bytes) bytes (expect wanted c) := by
  unfold expect
  rw [shift_rest, next_shift]
  split
  · rfl
  · split <;> rfl

theorem escape_shift : escape (c.shift bytes) = shifted (moveRead bytes) bytes (escape c) := by
  obtain ⟨offset, rest⟩ := c
  unfold escape Cursor.shift
  simp only
  split
  case h_5 =>
    split
    · simp only [shifted, moveRead, Cursor.shift, Nat.add_right_comm]
    · rfl
  case h_6 => rfl
  all_goals simp only [shifted, moveRead, Cursor.shift, Nat.add_right_comm]

theorem token_shift (fuel : Nat) :
    token fuel (c.shift bytes) = shifted (moveRead bytes) bytes (token fuel c) := by
  induction fuel generalizing c with
  | zero => rfl
  | succ fuel ih =>
      unfold token
      rw [shift_rest]
      split
      · rfl
      · split
        · rfl
        · split
          · apply bind_shifted (escape_shift bytes c)
            rintro ⟨piece, m⟩
            apply bind_shifted (ih m)
            rintro ⟨found, d⟩
            cases piece <;> rfl
          · split
            · rfl
            · rw [next_shift]
              exact bind_shifted (ih c.next) fun _ => rfl

theorem number_shift : number (c.shift bytes) = shifted (moveRead bytes) bytes (number c) := by
  unfold number
  rw [shift_rest, next_shift, takeRun_shift]
  split
  · rfl
  · obtain ⟨digits, after⟩ := c.takeRun Char.isDigit
    cases digits <;> rfl

theorem pluralOffset_shift :
    pluralOffset (c.shift bytes) = shifted (moveRead bytes) bytes (pluralOffset c) := by
  unfold pluralOffset
  rw [shift_rest]
  split
  · rename_i rest _
    have behind : (⟨(c.shift bytes).offset + 7, rest⟩ : Cursor) =
        Cursor.shift bytes ⟨c.offset + 7, rest⟩ := by
      simp only [Cursor.shift, Nat.add_right_comm]
    rw [behind, skipSpace_shift]
    apply bind_shifted (number_shift bytes _)
    rintro ⟨digits, after⟩
    exact ite_shifted rfl rfl
  · rfl

theorem argumentName_shift :
    argumentName (c.shift bytes) = shifted (moveRead bytes) bytes (argumentName c) := by
  unfold argumentName
  rw [takeRun_shift]
  obtain ⟨name, after⟩ := c.takeRun fun head => !endsName head
  cases name <;> rfl

theorem style_shift : style (c.shift bytes) = shifted (moveRead bytes) bytes (style c) := by
  unfold style
  simp only [skipSpace_shift, shift_rest, next_shift, Cursor.token]
  split
  · apply bind_shifted (token_shift bytes _ _)
    rintro ⟨text, after⟩
    exact ite_shifted rfl rfl
  · rfl

theorem selectorText_shift :
    selectorText (c.shift bytes) = shifted (moveRead bytes) bytes (selectorText c) := by
  unfold selectorText
  rw [shift_rest, next_shift]
  split
  · exact bind_shifted (number_shift bytes c.next) fun _ => rfl
  · exact token_shift bytes c _

theorem selector_shift :
    selector (c.shift bytes) = shifted (moveRead bytes) bytes (selector c) := by
  unfold selector
  apply bind_shifted (selectorText_shift bytes c)
  rintro ⟨text, after⟩
  exact ite_shifted rfl rfl

variable {bytes}

theorem announced_shift {read : Cursor → Outcome (Format × Cursor)}
    (shifts : ∀ d : Cursor, read (d.shift bytes) = shifted (moveRead bytes) bytes (read d)) :
    announced read (c.shift bytes) = shifted (moveRead bytes) bytes (announced read c) := by
  unfold announced
  rw [shift_rest, next_shift, skipSpace_shift]
  split
  · exact bind_shifted (shifts c.next.skipSpace) fun _ => rfl
  · rfl

structure ReadersShift (bytes fuel : Nat) : Prop where
  pieces : ∀ nested (c : Cursor),
    pieces fuel nested (c.shift bytes) = shifted (moveRead bytes) bytes (pieces fuel nested c)
  argument : ∀ c : Cursor,
    argument fuel (c.shift bytes) = shifted (moveRead bytes) bytes (argument fuel c)
  argumentFormat : ∀ c : Cursor,
    argumentFormat fuel (c.shift bytes) = shifted (moveRead bytes) bytes (argumentFormat fuel c)
  choices : ∀ c : Cursor,
    choices fuel (c.shift bytes) = shifted (moveRead bytes) bytes (choices fuel c)
  choice : ∀ c : Cursor,
    choice fuel (c.shift bytes) = shifted (moveRead bytes) bytes (choice fuel c)

variable {fuel : Nat}

theorem pieces_shift (shift : ReadersShift bytes fuel) (nested : Bool) (c : Cursor) :
    pieces (fuel + 1) nested (c.shift bytes) =
      shifted (moveRead bytes) bytes (pieces (fuel + 1) nested c) := by
  unfold pieces
  rw [shift_rest]
  split
  · split <;> rfl
  · split
    · rfl
    · split
      · apply bind_shifted (shift.argument c)
        rintro ⟨element, d⟩
        exact bind_shifted (shift.pieces nested d) fun _ => rfl
      · split
        · apply bind_shifted (escape_shift bytes c)
          rintro ⟨piece, d⟩
          exact bind_shifted (shift.pieces nested d) fun _ => rfl
        · split
          · rfl
          · rw [next_shift]
            exact bind_shifted (shift.pieces nested c.next) fun _ => rfl

theorem argument_shift (shift : ReadersShift bytes fuel) (c : Cursor) :
    argument (fuel + 1) (c.shift bytes) =
      shifted (moveRead bytes) bytes (argument (fuel + 1) c) := by
  unfold argument
  apply bind_shifted (expect_shift bytes c '\x7b')
  intro opened
  rw [skipSpace_shift]
  apply bind_shifted (argumentName_shift bytes opened.skipSpace)
  rintro ⟨name, named⟩
  simp only [moveRead, skipSpace_shift]
  apply bind_shifted (announced_shift named.skipSpace shift.argumentFormat)
  rintro ⟨format, formatted⟩
  simp only [moveRead, skipSpace_shift]
  exact bind_shifted (expect_shift bytes formatted.skipSpace '\x7d') fun _ => rfl

theorem argumentFormat_shift (shift : ReadersShift bytes fuel) (c : Cursor) :
    argumentFormat (fuel + 1) (c.shift bytes) =
      shifted (moveRead bytes) bytes (argumentFormat (fuel + 1) c) := by
  unfold argumentFormat
  simp only [takeRun_shift, moveRead]
  split
  · exact bind_shifted (style_shift bytes _) fun _ => rfl
  · split
    · rw [skipSpace_shift]
      apply bind_shifted (expect_shift bytes _ ',')
      intro comma
      rw [skipSpace_shift]
      apply bind_shifted (pluralOffset_shift bytes comma.skipSpace)
      rintro ⟨offset, begun⟩
      apply bind_shifted (shift.choices begun)
      rintro ⟨options, after⟩
      exact ite_shifted rfl rfl
    · split
      · rw [skipSpace_shift]
        apply bind_shifted (expect_shift bytes _ ',')
        intro comma
        apply bind_shifted (shift.choices comma)
        rintro ⟨options, after⟩
        exact ite_shifted rfl rfl
      · exact ite_shifted rfl rfl

theorem choices_shift (shift : ReadersShift bytes fuel) (c : Cursor) :
    choices (fuel + 1) (c.shift bytes) =
      shifted (moveRead bytes) bytes (choices (fuel + 1) c) := by
  unfold choices
  simp only [skipSpace_shift, shift_rest]
  split
  · rfl
  · rfl
  · apply bind_shifted (shift.choice c.skipSpace)
    rintro ⟨option, after⟩
    exact bind_shifted (shift.choices after) fun _ => rfl

theorem choice_shift (shift : ReadersShift bytes fuel) (c : Cursor) :
    choice (fuel + 1) (c.shift bytes) =
      shifted (moveRead bytes) bytes (choice (fuel + 1) c) := by
  unfold choice
  apply bind_shifted (selector_shift bytes c)
  rintro ⟨text, selected⟩
  simp only [moveRead, skipSpace_shift]
  apply bind_shifted (expect_shift bytes selected.skipSpace '\x7b')
  intro opened
  apply bind_shifted (shift.pieces true opened)
  rintro ⟨body, ended⟩
  exact bind_shifted (expect_shift bytes ended '\x7d') fun _ => rfl

theorem readersShift (bytes fuel : Nat) : ReadersShift bytes fuel := by
  induction fuel with
  | zero => constructor <;> intros <;> rfl
  | succ fuel ih =>
      exact ⟨pieces_shift ih, argument_shift ih, argumentFormat_shift ih, choices_shift ih,
        choice_shift ih⟩

theorem Cursor.pieces_shift (bytes : Nat) (nested : Bool) (c : Cursor) :
    (c.shift bytes).pieces nested = shifted (moveRead bytes) bytes (c.pieces nested) := by
  exact (readersShift bytes _).pieces nested c

end MessageCatalog.Message
