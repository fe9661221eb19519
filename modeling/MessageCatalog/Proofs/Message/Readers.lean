import MessageCatalog.Proofs.Message.Fields

/-!
The mutually recursive readers without their fuel. Every reader moves forward, and those of
arguments and options by at least one character, so fuel for the rest of the text is enough, and
more of it changes nothing. What the readers do is then said by one equation for each.
-/

namespace MessageCatalog.Message

open Cursor

structure MovesForward (fuel : Nat) : Prop where
  pieces : ∀ nested c found d, pieces fuel nested c = .ok (found, d) → c.Reaches d
  argument : ∀ c found d, argument fuel c = .ok (found, d) → c.Reaches d
  argumentFormat : ∀ c found d, argumentFormat fuel c = .ok (found, d) → c.Reaches d
  choices : ∀ c found d, choices fuel c = .ok (found, d) → c.Reaches d
  choice : ∀ c found d, choice fuel c = .ok (found, d) → c.Reaches d

theorem expect_reaches {wanted : Char} {c d : Cursor} (found : expect wanted c = .ok d) :
    c.Reaches d :=
  ⟨_, expect_eq_ok_iff.mp found⟩

theorem escape_reaches {c d : Cursor} {piece : Piece} (found : escape c = .ok (piece, d)) :
    c.Reaches d := by
  obtain ⟨text, _, spans⟩ := escape_spans found
  exact ⟨text, spans⟩

theorem pieces_moves {fuel : Nat} (moves : MovesForward fuel) {nested : Bool} {c d : Cursor}
    {found : List Piece} (read : pieces (fuel + 1) nested c = .ok (found, d)) : c.Reaches d := by
  unfold pieces at read
  split at read
  · split at read
    · simp [Cursor.fail] at read
    · cases read
      exact .refl _
  · split at read
    · cases read
      exact .refl _
    · split at read
      · obtain ⟨⟨element, m⟩, first, read⟩ := bind_eq_ok_iff.mp read
        obtain ⟨⟨rest, e⟩, second, read⟩ := bind_eq_ok_iff.mp read
        cases read
        exact (moves.argument _ _ _ first).trans (moves.pieces _ _ _ _ second)
      · split at read
        · obtain ⟨⟨piece, m⟩, first, read⟩ := bind_eq_ok_iff.mp read
          obtain ⟨⟨rest, e⟩, second, read⟩ := bind_eq_ok_iff.mp read
          cases read
          exact (escape_reaches first).trans (moves.pieces _ _ _ _ second)
        · split at read
          · simp [Cursor.fail] at read
          · obtain ⟨⟨rest, e⟩, second, read⟩ := bind_eq_ok_iff.mp read
            cases read
            exact (reaches_next c).trans (moves.pieces _ _ _ _ second)

theorem argument_moves {fuel : Nat} (moves : MovesForward fuel) {c d : Cursor} {found : Element}
    (read : argument (fuel + 1) c = .ok (found, d)) :
    c.Reaches d ∧ d.rest.length < c.rest.length := by
  unfold argument at read
  obtain ⟨opened, first, read⟩ := bind_eq_ok_iff.mp read
  obtain ⟨⟨name, named⟩, second, read⟩ := bind_eq_ok_iff.mp read
  obtain ⟨⟨format, formatted⟩, third, read⟩ := bind_eq_ok_iff.mp read
  obtain ⟨closed, fourth, read⟩ := bind_eq_ok_iff.mp read
  cases read
  have toName : opened.Reaches named :=
    (reaches_skipSpace opened).trans ⟨_, (argumentName_eq_ok_iff.mp second).1⟩
  have toFormat : named.Reaches formatted := by
    unfold announced at third
    split at third
    · obtain ⟨⟨format, after⟩, inner, third⟩ := bind_eq_ok_iff.mp third
      cases third
      exact (reaches_skipSpace named).trans ((reaches_next _).trans
        ((reaches_skipSpace _).trans (moves.argumentFormat _ _ _ inner)))
    · cases third
      exact reaches_skipSpace named
  have later : opened.Reaches d :=
    toName.trans (toFormat.trans ((reaches_skipSpace formatted).trans (expect_reaches fourth)))
  have step := (expect_eq_ok_iff.mp first).length_eq
  have length := later.length_le
  simp only [List.length_singleton] at step
  exact ⟨(expect_reaches first).trans later, by omega⟩

theorem argumentFormat_moves {fuel : Nat} (moves : MovesForward fuel) {c d : Cursor}
    {found : Format} (read : argumentFormat (fuel + 1) c = .ok (found, d)) : c.Reaches d := by
  unfold argumentFormat at read
  have keyword := reaches_takeRun Char.isAlphanum c
  simp only at read
  split at read
  · obtain ⟨⟨style, after⟩, first, read⟩ := bind_eq_ok_iff.mp read
    cases read
    exact keyword.trans (style_reaches first)
  · split at read
    · obtain ⟨comma, first, read⟩ := bind_eq_ok_iff.mp read
      obtain ⟨⟨offset, begun⟩, second, read⟩ := bind_eq_ok_iff.mp read
      obtain ⟨⟨options, after⟩, third, read⟩ := bind_eq_ok_iff.mp read
      simp only at read
      split at read
      · simp [Cursor.fail] at read
      · cases read
        exact keyword.trans ((reaches_skipSpace _).trans ((expect_reaches first).trans
          ((reaches_skipSpace _).trans ((pluralOffset_reaches second).trans
            (moves.choices _ _ _ third)))))
    · split at read
      · obtain ⟨comma, first, read⟩ := bind_eq_ok_iff.mp read
        obtain ⟨⟨options, after⟩, second, read⟩ := bind_eq_ok_iff.mp read
        simp only at read
        split at read
        · simp [Cursor.fail] at read
        · cases read
          exact keyword.trans ((reaches_skipSpace _).trans ((expect_reaches first).trans
            (moves.choices _ _ _ second)))
      · split at read
        · simp [Cursor.fail] at read
        · simp [Cursor.fail] at read

theorem choices_moves {fuel : Nat} (moves : MovesForward fuel) {c d : Cursor}
    {found : List Choice} (read : choices (fuel + 1) c = .ok (found, d)) : c.Reaches d := by
  unfold choices at read
  simp only at read
  split at read
  · cases read
    exact reaches_skipSpace c
  · cases read
    exact reaches_skipSpace c
  · obtain ⟨⟨option, after⟩, first, read⟩ := bind_eq_ok_iff.mp read
    obtain ⟨⟨rest, e⟩, second, read⟩ := bind_eq_ok_iff.mp read
    cases read
    exact (reaches_skipSpace c).trans ((moves.choice _ _ _ first).trans (moves.choices _ _ _ second))

theorem choice_moves {fuel : Nat} (moves : MovesForward fuel) {c d : Cursor} {found : Choice}
    (read : choice (fuel + 1) c = .ok (found, d)) :
    c.Reaches d ∧ d.rest.length < c.rest.length := by
  unfold choice at read
  obtain ⟨⟨text, selected⟩, first, read⟩ := bind_eq_ok_iff.mp read
  obtain ⟨opened, second, read⟩ := bind_eq_ok_iff.mp read
  obtain ⟨⟨body, ended⟩, third, read⟩ := bind_eq_ok_iff.mp read
  obtain ⟨closed, fourth, read⟩ := bind_eq_ok_iff.mp read
  cases read
  obtain ⟨toSelected, shorter⟩ := selector_reaches first
  have later : selected.Reaches d :=
    (reaches_skipSpace selected).trans ((expect_reaches second).trans
      ((moves.pieces _ _ _ _ third).trans (expect_reaches fourth)))
  have length := later.length_le
  exact ⟨toSelected.trans later, by omega⟩

theorem movesForward (fuel : Nat) : MovesForward fuel := by
  induction fuel with
  | zero =>
      refine ⟨?_, ?_, ?_, ?_, ?_⟩
      · intro nested c found d read
        cases read
        exact .refl _
      · intro c found d read
        cases read
        exact .refl _
      · intro c found d read
        simp [argumentFormat, Cursor.fail] at read
      · intro c found d read
        cases read
        exact .refl _
      · intro c found d read
        simp [choice, Cursor.fail] at read
  | succ fuel ih =>
      exact ⟨fun _ _ _ _ => pieces_moves ih, fun _ _ _ read => (argument_moves ih read).1,
        fun _ _ _ => argumentFormat_moves ih, fun _ _ _ => choices_moves ih,
        fun _ _ _ read => (choice_moves ih read).1⟩

/-- Two amounts of fuel that are both enough for the rest of a text give the same answers. -/
structure FuelAgrees (first second : Nat) : Prop where
  pieces : ∀ nested (c : Cursor), c.rest.length + 2 ≤ first → c.rest.length + 2 ≤ second →
    pieces first nested c = pieces second nested c
  argument : ∀ c : Cursor, c.rest.length + 1 ≤ first → c.rest.length + 1 ≤ second →
    argument first c = argument second c
  argumentFormat : ∀ c : Cursor, c.rest.length + 3 ≤ first → c.rest.length + 3 ≤ second →
    argumentFormat first c = argumentFormat second c
  choices : ∀ c : Cursor, c.rest.length + 2 ≤ first → c.rest.length + 2 ≤ second →
    choices first c = choices second c
  choice : ∀ c : Cursor, c.rest.length + 1 ≤ first → c.rest.length + 1 ≤ second →
    choice first c = choice second c

theorem bind_congr_ok {α β ε : Type} {first second : Except ε α} {next other : α → Except ε β}
    (same : first = second) (later : ∀ found, second = .ok found → next found = other found) :
    first >>= next = second >>= other := by
  subst same
  cases first with
  | error e => rfl
  | ok found => exact later found rfl

theorem pieces_agree {first second : Nat} (agrees : FuelAgrees first second) (nested : Bool)
    (c : Cursor) (firstEnough : c.rest.length + 2 ≤ first + 1)
    (secondEnough : c.rest.length + 2 ≤ second + 1) :
    pieces (first + 1) nested c = pieces (second + 1) nested c := by
  unfold pieces
  split
  · rfl
  · rename_i head tail shown
    have step := (Spans.next shown).length_eq
    simp only [List.length_singleton] at step
    split
    · rfl
    · split
      · apply bind_congr_ok (agrees.argument c (by omega) (by omega))
        rintro ⟨element, m⟩ found
        obtain ⟨fuel, rfl⟩ : ∃ fuel, second = fuel + 1 := ⟨second - 1, by omega⟩
        have shorter := (argument_moves (movesForward fuel) found).2
        exact bind_congr_ok (agrees.pieces nested m (by omega) (by omega)) (fun _ _ => rfl)
      · split
        · apply bind_congr_ok rfl
          rintro ⟨piece, m⟩ found
          have shorter := escape_length found
          exact bind_congr_ok (agrees.pieces nested m (by omega) (by omega)) (fun _ _ => rfl)
        · split
          · rfl
          · exact bind_congr_ok (agrees.pieces nested c.next (by omega) (by omega))
              (fun _ _ => rfl)

theorem announced_comma (read : Cursor → Outcome (Format × Cursor)) {c : Cursor} {tail : List Char}
    (comma : c.rest = ',' :: tail) :
    announced read c = (do
      let (format, after) ← read c.next.skipSpace
      return (some format, after)) := by
  rw [announced, comma]
  rfl

theorem announced_agree {first second : Cursor → Outcome (Format × Cursor)} {c : Cursor}
    (same : ∀ m : Cursor, m.rest.length < c.rest.length → first m = second m) :
    announced first c = announced second c := by
  unfold announced
  split
  · rename_i tail shown
    have step := (Spans.next shown).length_eq
    have skipped := (reaches_skipSpace c.next).length_le
    simp only [List.length_singleton] at step
    exact bind_congr_ok (same c.next.skipSpace (by omega)) (fun _ _ => rfl)
  · rfl

theorem length_after_name {c opened named : Cursor} {name : String}
    (brace : expect '\x7b' c = .ok opened)
    (found : argumentName opened.skipSpace = .ok (name, named)) :
    named.skipSpace.rest.length + 2 ≤ c.rest.length := by
  have step := (expect_eq_ok_iff.mp brace).length_eq
  have skipped := (reaches_skipSpace opened).length_le
  obtain ⟨spans, isName, _⟩ := argumentName_eq_ok_iff.mp found
  have length := spans.length_eq
  have nonempty : 0 < name.toList.length := by
    apply List.length_pos_iff.mpr
    intro empty
    simp [Message.isName, empty] at isName
  have after := (reaches_skipSpace named).length_le
  simp only [List.length_singleton] at step
  omega

theorem length_after_selector {c selected opened : Cursor} {text : String}
    (found : selector c = .ok (text, selected))
    (brace : expect '\x7b' selected.skipSpace = .ok opened) :
    opened.rest.length + 2 ≤ c.rest.length := by
  have shorter := (selector_reaches found).2
  have skipped := (reaches_skipSpace selected).length_le
  have step := (expect_eq_ok_iff.mp brace).length_eq
  simp only [List.length_singleton] at step
  omega

theorem argument_agree {first second : Nat} (agrees : FuelAgrees first second) (c : Cursor)
    (firstEnough : c.rest.length + 1 ≤ first + 1) (secondEnough : c.rest.length + 1 ≤ second + 1) :
    argument (first + 1) c = argument (second + 1) c := by
  unfold argument
  apply bind_congr_ok rfl
  intro opened brace
  apply bind_congr_ok rfl
  rintro ⟨name, named⟩ found
  have length := length_after_name brace found
  refine bind_congr_ok (announced_agree ?_) (fun _ _ => rfl)
  intro m shorter
  exact agrees.argumentFormat m (by omega) (by omega)

theorem argumentFormat_agree {first second : Nat} (agrees : FuelAgrees first second) (c : Cursor)
    (firstEnough : c.rest.length + 3 ≤ first + 1) (secondEnough : c.rest.length + 3 ≤ second + 1) :
    argumentFormat (first + 1) c = argumentFormat (second + 1) c := by
  have keyword := (reaches_takeRun Char.isAlphanum c).length_le
  unfold argumentFormat
  simp only
  split
  · rfl
  · split
    · apply bind_congr_ok rfl
      intro comma found
      apply bind_congr_ok rfl
      rintro ⟨offset, begun⟩ offsetFound
      have length := ((reaches_skipSpace _).trans ((expect_reaches found).trans
        ((reaches_skipSpace _).trans (pluralOffset_reaches offsetFound)))).length_le
      exact bind_congr_ok (agrees.choices begun (by omega) (by omega)) (fun _ _ => rfl)
    · split
      · apply bind_congr_ok rfl
        intro comma found
        have length := ((reaches_skipSpace _).trans (expect_reaches found)).length_le
        exact bind_congr_ok (agrees.choices comma (by omega) (by omega)) (fun _ _ => rfl)
      · rfl

theorem choices_agree {first second : Nat} (agrees : FuelAgrees first second) (c : Cursor)
    (firstEnough : c.rest.length + 2 ≤ first + 1) (secondEnough : c.rest.length + 2 ≤ second + 1) :
    choices (first + 1) c = choices (second + 1) c := by
  have skipped := (reaches_skipSpace c).length_le
  unfold choices
  simp only
  split
  · rfl
  · rfl
  · apply bind_congr_ok (agrees.choice _ (by omega) (by omega))
    rintro ⟨option, after⟩ found
    obtain ⟨fuel, rfl⟩ : ∃ fuel, second = fuel + 1 := ⟨second - 1, by omega⟩
    have shorter := (choice_moves (movesForward fuel) found).2
    exact bind_congr_ok (agrees.choices after (by omega) (by omega)) (fun _ _ => rfl)

theorem choice_agree {first second : Nat} (agrees : FuelAgrees first second) (c : Cursor)
    (firstEnough : c.rest.length + 1 ≤ first + 1) (secondEnough : c.rest.length + 1 ≤ second + 1) :
    choice (first + 1) c = choice (second + 1) c := by
  unfold choice
  apply bind_congr_ok rfl
  rintro ⟨text, selected⟩ found
  apply bind_congr_ok rfl
  intro opened brace
  have length := length_after_selector found brace
  exact bind_congr_ok (agrees.pieces true opened (by omega) (by omega)) (fun _ _ => rfl)

theorem fuelAgrees (first second : Nat) : FuelAgrees first second := by
  induction first generalizing second with
  | zero => constructor <;> intros <;> omega
  | succ first ih =>
      cases second with
      | zero => constructor <;> intros <;> omega
      | succ second =>
          exact ⟨pieces_agree (ih second), argument_agree (ih second),
            argumentFormat_agree (ih second), choices_agree (ih second), choice_agree (ih second)⟩

namespace Cursor

def pieces (nested : Bool) (c : Cursor) : Outcome (List Piece × Cursor) :=
  Message.pieces (c.rest.length + 2) nested c

def argument (c : Cursor) : Outcome (Element × Cursor) :=
  Message.argument (c.rest.length + 1) c

def format (c : Cursor) : Outcome (Format × Cursor) :=
  Message.argumentFormat (c.rest.length + 3) c

def choices (c : Cursor) : Outcome (List Choice × Cursor) :=
  Message.choices (c.rest.length + 2) c

def choice (c : Cursor) : Outcome (Choice × Cursor) :=
  Message.choice (c.rest.length + 1) c

end Cursor

theorem pieces_fuel {fuel : Nat} {nested : Bool} {c : Cursor} (enough : c.rest.length + 2 ≤ fuel) :
    pieces fuel nested c = c.pieces nested :=
  (fuelAgrees fuel _).pieces nested c enough (Nat.le_refl _)

theorem argument_fuel {fuel : Nat} {c : Cursor} (enough : c.rest.length + 1 ≤ fuel) :
    argument fuel c = c.argument :=
  (fuelAgrees fuel _).argument c enough (Nat.le_refl _)

theorem argumentFormat_fuel {fuel : Nat} {c : Cursor} (enough : c.rest.length + 3 ≤ fuel) :
    argumentFormat fuel c = c.format :=
  (fuelAgrees fuel _).argumentFormat c enough (Nat.le_refl _)

theorem choices_fuel {fuel : Nat} {c : Cursor} (enough : c.rest.length + 2 ≤ fuel) :
    choices fuel c = c.choices :=
  (fuelAgrees fuel _).choices c enough (Nat.le_refl _)

theorem choice_fuel {fuel : Nat} {c : Cursor} (enough : c.rest.length + 1 ≤ fuel) :
    choice fuel c = c.choice :=
  (fuelAgrees fuel _).choice c enough (Nat.le_refl _)

namespace Cursor

variable {c : Cursor} {nested : Bool} {head : Char} {tail : List Char}

theorem pieces_end (rest : c.rest = []) :
    c.pieces nested = if nested then c.fail (.expected '\x7d' none) else .ok ([], c) := by
  unfold Cursor.pieces Message.pieces
  simp only [rest]

theorem pieces_close (rest : c.rest = '\x7d' :: tail) : c.pieces nested = .ok ([], c) := by
  unfold Cursor.pieces Message.pieces
  simp [rest]

theorem pieces_open (rest : c.rest = '\x7b' :: tail) :
    c.pieces nested = (do
      let (element, d) ← c.argument
      let (found, e) ← d.pieces nested
      return (.whole element :: found, e)) := by
  have step := (Spans.next rest).length_eq
  simp only [List.length_singleton] at step
  unfold Cursor.pieces Message.pieces
  split
  · rename_i shown
    simp [shown] at rest
  rename_i x more shown
  obtain rfl : x = '\x7b' := (List.cons.inj (shown.symm.trans rest)).1
  apply bind_congr_ok (argument_fuel (by omega))
  rintro ⟨element, d⟩ found
  have shorter := (argument_moves (movesForward _) found).2
  exact bind_congr_ok (pieces_fuel (c := d) (by omega)) (fun _ _ => rfl)

theorem pieces_escape (rest : c.rest = '\\' :: tail) :
    c.pieces nested = (do
      let (piece, d) ← escape c
      let (found, e) ← d.pieces nested
      return (piece :: found, e)) := by
  unfold Cursor.pieces Message.pieces
  simp only [rest]
  apply bind_congr_ok rfl
  rintro ⟨piece, d⟩ found
  have shorter := escape_length found
  simp only [rest, List.length_cons] at shorter
  exact bind_congr_ok (pieces_fuel (by simp only [List.length_cons]; omega)) (fun _ _ => rfl)

theorem pieces_char (rest : c.rest = head :: tail) (inside : head ≠ '\x7d' ∧ head ≠ '\x7b')
    (notEscape : head ≠ '\\') :
    c.pieces nested =
      if isControl head then c.fail (.controlCharacter head)
      else do
        let (found, e) ← c.next.pieces nested
        return (.char head :: found, e) := by
  have step := (Spans.next rest).length_eq
  simp only [List.length_singleton] at step
  rw [Cursor.pieces, Message.pieces]
  simp only [rest, beq_iff_eq, inside, notEscape, if_false]
  split
  · rfl
  · exact bind_congr_ok (pieces_fuel (by simp only [rest] at step; omega)) (fun _ _ => rfl)

theorem argument_eq (c : Cursor) :
    c.argument = (do
      let opened ← expect '\x7b' c
      let (name, named) ← argumentName opened.skipSpace
      let (format, formatted) ← announced Cursor.format named.skipSpace
      let closed ← expect '\x7d' formatted.skipSpace
      return (.argument name format, closed)) := by
  unfold Cursor.argument Message.argument
  apply bind_congr_ok rfl
  intro opened brace
  apply bind_congr_ok rfl
  rintro ⟨name, named⟩ found
  have length := length_after_name brace found
  refine bind_congr_ok (announced_agree ?_) (fun _ _ => rfl)
  intro m shorter
  exact argumentFormat_fuel (by omega)

theorem choices_stop (rest : ∀ head ∈ c.skipSpace.rest.head?, head = '\x7d') :
    c.choices = .ok ([], c.skipSpace) := by
  unfold Cursor.choices Message.choices
  simp only
  split
  · rfl
  · rfl
  · rename_i notEnd notClose
    cases shown : c.skipSpace.rest with
    | nil => exact absurd shown notEnd
    | cons head tail =>
        have same : head = '\x7d' := rest head (by simp [shown])
        exact absurd (same ▸ shown) (notClose tail)

theorem choices_more (rest : c.skipSpace.rest = head :: tail) (more : head ≠ '\x7d') :
    c.choices = (do
      let (option, d) ← c.skipSpace.choice
      let (found, e) ← d.choices
      return (option :: found, e)) := by
  have skipped := (reaches_skipSpace c).length_le
  unfold Cursor.choices Message.choices
  simp only
  split
  · rename_i shown
    simp [shown] at rest
  · rename_i shown
    exact absurd (List.cons.inj (rest.symm.trans shown)).1 more
  · apply bind_congr_ok (choice_fuel (by omega))
    rintro ⟨option, d⟩ found
    have shorter := (choice_moves (movesForward _) found).2
    exact bind_congr_ok (choices_fuel (c := d) (by omega)) (fun _ _ => rfl)

theorem choice_eq (c : Cursor) :
    c.choice = (do
      let (text, selected) ← selector c
      let opened ← expect '\x7b' selected.skipSpace
      let (body, ended) ← opened.pieces true
      let closed ← expect '\x7d' ended
      return (.mk text (trimBody (joinPieces body)), closed)) := by
  unfold Cursor.choice Message.choice
  apply bind_congr_ok rfl
  rintro ⟨text, selected⟩ found
  apply bind_congr_ok rfl
  intro opened brace
  have length := length_after_selector found brace
  exact bind_congr_ok (pieces_fuel (by omega)) (fun _ _ => rfl)

variable {letters : List Char} {after : Cursor}

theorem format_simple {kind : SimpleKind} (run : c.takeRun Char.isAlphanum = (letters, after))
    (known : SimpleKind.ofKeyword? (String.ofList letters) = some kind) :
    c.format = (do
      let (style, d) ← style after
      return (.simple kind style, d)) := by
  unfold Cursor.format argumentFormat
  simp only [run, known]

theorem format_plural {ordinal : Bool} (run : c.takeRun Char.isAlphanum = (letters, after))
    (keyword : String.ofList letters = if ordinal then "selectordinal" else "plural") :
    c.format = (do
      let comma ← expect ',' after.skipSpace
      let (offset, begun) ← pluralOffset comma.skipSpace
      let (options, d) ← begun.choices
      if options.isEmpty then d.fail .missingOption
      else return (.plural ordinal offset options, d)) := by
  have unknown : SimpleKind.ofKeyword? (String.ofList letters) = none := by
    rw [keyword]
    cases ordinal <;> decide
  have plural : (String.ofList letters == "plural" ||
      String.ofList letters == "selectordinal") = true := by
    rw [keyword]
    cases ordinal <;> decide
  have sort : (String.ofList letters == "selectordinal") = ordinal := by
    rw [keyword]
    cases ordinal <;> decide
  have length := (reaches_takeRun Char.isAlphanum c).length_le
  simp only [run] at length
  unfold Cursor.format argumentFormat
  simp only [run, unknown, plural, if_true]
  simp only [sort]
  apply bind_congr_ok rfl
  intro comma found
  apply bind_congr_ok rfl
  rintro ⟨offset, begun⟩ offsetFound
  have later := ((reaches_skipSpace _).trans ((expect_reaches found).trans
    ((reaches_skipSpace _).trans (pluralOffset_reaches offsetFound)))).length_le
  exact bind_congr_ok (choices_fuel (c := begun) (by omega)) (fun _ _ => rfl)

theorem format_select (run : c.takeRun Char.isAlphanum = (letters, after))
    (keyword : String.ofList letters = "select") :
    c.format = (do
      let comma ← expect ',' after.skipSpace
      let (options, d) ← comma.choices
      if options.isEmpty then d.fail .missingOption
      else return (.select options, d)) := by
  have unknown : SimpleKind.ofKeyword? (String.ofList letters) = none := by
    rw [keyword]
    decide
  have plural : (String.ofList letters == "plural" ||
      String.ofList letters == "selectordinal") = false := by
    rw [keyword]
    decide
  have select : (String.ofList letters == "select") = true := by
    rw [keyword]
    decide
  have length := (reaches_takeRun Char.isAlphanum c).length_le
  simp only [run] at length
  unfold Cursor.format argumentFormat
  simp only [run, unknown, plural, select, if_true, Bool.false_eq_true, if_false]
  apply bind_congr_ok rfl
  intro comma found
  have later := ((reaches_skipSpace _).trans (expect_reaches found)).length_le
  exact bind_congr_ok (choices_fuel (by omega)) (fun _ _ => rfl)

end Cursor

theorem parse_eq (text : String) :
    parse text = (do
      let (found, after) ← (⟨0, text.toList⟩ : Cursor).pieces false
      match after.rest with
      | [] => return joinPieces found
      | _ => after.fail .strayBrace) := by
  unfold parse
  exact bind_congr_ok (pieces_fuel (by simp only [fuelFor]; omega)) (fun _ _ => rfl)

theorem parse_of_pieces {text : String} {d : Cursor} {found : List Piece}
    (read : (⟨0, text.toList⟩ : Cursor).pieces false = .ok (found, d)) (ended : d.rest = []) :
    parse text = .ok (joinPieces found) := by
  rw [parse_eq, read, ok_bind]
  simp only [ended]
  rfl

end MessageCatalog.Message
