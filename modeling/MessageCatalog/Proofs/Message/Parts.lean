import MessageCatalog.Proofs.Message.Grammar
import MessageCatalog.Proofs.Message.ReadBack

/-!
The readers of what has no message inside: white space, escapes, selectors, styles, offsets and the
word of a format. Each accepts exactly what the grammar derives for it, as soon as the text behind
is one where the reader has to stop.
-/

namespace MessageCatalog.Message

open Cursor

variable {c d : Cursor} {text chars tail : List Char}

theorem skipSpace_rest (c : Cursor) : c.skipSpace.rest = c.rest.dropWhile isSpace := by
  obtain ⟨spans, spaces, stops⟩ := takeRun_spec isSpace c
  rw [spans.rest, List.dropWhile_append_of_pos spaces]
  cases shown : (c.takeRun isSpace).2.rest with
  | nil => exact shown
  | cons head tail =>
      have visible : isSpace head = false := stops head (by simp [shown])
      rw [List.dropWhile_cons_of_neg (by simp [visible])]
      exact shown

theorem skipSpace_blank (c : Cursor) : ∃ gap, IsBlank gap ∧ c.Spans gap c.skipSpace := by
  obtain ⟨spans, spaces, _⟩ := takeRun_spec isSpace c
  exact ⟨_, spaces, spans⟩

theorem skipSpace_eq {gap : List Char} (blank : IsBlank gap) (spans : c.Spans gap d)
    (stops : d.StopsRun isSpace) : c.skipSpace = d := by
  rw [skipSpace_of_spaces spans blank, skipSpace_of_stops stops]

theorem expect_blank {gap : List Char} {wanted : Char} (blank : IsBlank gap)
    (visible : isSpace wanted = false) (spans : c.Spans (gap ++ [wanted]) d) :
    expect wanted c.skipSpace = .ok d := by
  obtain ⟨m, before, found⟩ := spans.split
  rw [skipSpace_of_spaces before blank]
  exact expect_of_spans visible found

theorem spans_of_expect {wanted : Char} (found : expect wanted c.skipSpace = .ok d) :
    ∃ gap, IsBlank gap ∧ c.Spans (gap ++ [wanted]) d := by
  obtain ⟨gap, blank, spans⟩ := skipSpace_blank c
  exact ⟨gap, blank, spans.trans (expect_eq_ok_iff.mp found)⟩

theorem stopsRun_of_skipSpace {accepts : Char → Bool} {head : Char}
    (spaces : ∀ x, isSpace x = true → accepts x = false) (refused : accepts head = false)
    (shown : c.skipSpace.rest = head :: tail) : c.StopsRun accepts := by
  intro first member
  obtain ⟨rest, found⟩ := List.head?_eq_some_iff.mp (Option.mem_def.mp member)
  cases space : isSpace first with
  | true => exact spaces first space
  | false =>
      rw [skipSpace_of_head found space, found] at shown
      rw [(List.cons.inj shown).1]
      exact refused

/-! ### Escapes -/

theorem charOfCode?_eq_some_iff {code : Nat} {x : Char} :
    charOfCode? code = some x ↔ code = x.toNat := by
  unfold charOfCode?
  constructor
  · intro found
    split at found
    · rename_i valid
      cases found
      rw [Char.ofNat, dif_pos valid]
      rfl
    · cases found
  · rintro rfl
    have valid : x.toNat.isValidChar := x.valid
    rw [if_pos valid, Char.ofNat_toNat]

theorem hexNumber?_four {a b c d : Char} {code : Nat} :
    Text.hexNumber? [a, b, c, d] = some code ↔
      ∃ first second third fourth, Text.digitValue? a = some first ∧
        Text.digitValue? b = some second ∧ Text.digitValue? c = some third ∧
        Text.digitValue? d = some fourth ∧
        (first * 16 + second) * 256 + (third * 16 + fourth) = code := by
  simp only [Text.hexNumber?, List.foldlM_cons, List.foldlM_nil, Option.bind_eq_bind,
    Option.bind_eq_some_iff, Option.map_eq_some_iff, Option.pure_def, Option.some.injEq]
  constructor
  · rintro ⟨_, ⟨first, firstValue, rfl⟩, _, ⟨second, secondValue, rfl⟩, _,
      ⟨third, thirdValue, rfl⟩, _, ⟨fourth, fourthValue, rfl⟩, rfl⟩
    exact ⟨first, second, third, fourth, firstValue, secondValue, thirdValue, fourthValue,
      by omega⟩
  · rintro ⟨first, second, third, fourth, firstValue, secondValue, thirdValue, fourthValue, rfl⟩
    exact ⟨_, ⟨first, firstValue, rfl⟩, _, ⟨second, secondValue, rfl⟩, _,
      ⟨third, thirdValue, rfl⟩, _, ⟨fourth, fourthValue, rfl⟩, by omega⟩

theorem eq_of_length_four {digits : List Char} (four : digits.length = 4) :
    ∃ a b c d, digits = [a, b, c, d] := by
  obtain ⟨a, rest, rfl⟩ := List.exists_cons_of_length_eq_add_one four
  obtain ⟨b, c, d, rfl⟩ := List.length_eq_three.mp (Nat.succ.inj four)
  exact ⟨a, b, c, d, rfl⟩

theorem hexEscape?_eq_some_iff {x : Char} {after : List Char} :
    hexEscape? text = some (x, after) ↔
      ∃ digits, digits.length = 4 ∧ Text.hexNumber? digits = some x.toNat ∧
        text = digits ++ after := by
  constructor
  · intro found
    unfold hexEscape? at found
    split at found
    · rename_i a b c d rest
      simp only [Option.bind_eq_bind, Option.bind_eq_some_iff, Option.pure_def,
        Option.some.injEq, Prod.mk.injEq, charOfCode?_eq_some_iff] at found
      obtain ⟨first, firstValue, second, secondValue, third, thirdValue, fourth, fourthValue,
        _, code, rfl, rfl⟩ := found
      refine ⟨[a, b, c, d], rfl, ?_, rfl⟩
      exact hexNumber?_four.mpr ⟨first, second, third, fourth, firstValue, secondValue,
        thirdValue, fourthValue, code⟩
    · cases found
  · rintro ⟨digits, four, value, rfl⟩
    obtain ⟨a, b, c, d, rfl⟩ := eq_of_length_four four
    obtain ⟨first, second, third, fourth, firstValue, secondValue, thirdValue, fourthValue,
      code⟩ := hexNumber?_four.mp value
    simp [hexEscape?, firstValue, secondValue, thirdValue, fourthValue,
      charOfCode?_eq_some_iff.mpr code]

theorem byteLength_code {digits : List Char} {code : Nat} (four : digits.length = 4)
    (value : Text.hexNumber? digits = some code) :
    Text.byteLength ('\\' :: 'u' :: digits) = 6 := by
  have holds : ∀ digit ∈ digits, (Text.digitValue? digit).isSome := by
    obtain ⟨a, b, c, d, rfl⟩ := eq_of_length_four four
    obtain ⟨_, _, _, _, firstValue, secondValue, thirdValue, fourthValue, _⟩ :=
      hexNumber?_four.mp value
    simp [firstValue, secondValue, thirdValue, fourthValue]
  rw [Text.byteLength_cons, Text.byteLength_cons, byteLength_of_digits holds, four]
  rfl

theorem escape_eq_ok_iff {piece : Piece} :
    escape c = .ok (piece, d) ↔ ∃ text, DerivesEscape text piece ∧ c.Spans text d := by
  constructor
  · intro found
    unfold escape at found
    split at found
    case h_5 tail shown =>
      split at found
      · rename_i x after decoded
        simp only [Except.ok.injEq, Prod.mk.injEq] at found
        obtain ⟨rfl, rfl⟩ := found
        obtain ⟨digits, four, value, rfl⟩ := hexEscape?_eq_some_iff.mp decoded
        refine ⟨'\\' :: 'u' :: digits, .code four value, shown, ?_⟩
        rw [byteLength_code four value]
      · simp [Cursor.fail] at found
    case h_6 => simp [Cursor.fail] at found
    all_goals
      rename_i tail shown
      simp only [Except.ok.injEq, Prod.mk.injEq] at found
      obtain ⟨rfl, rfl⟩ := found
    · exact ⟨_, .hash, shown, rfl⟩
    · exact ⟨_, .char (by simp), shown, rfl⟩
    · exact ⟨_, .char (by simp), shown, rfl⟩
    · exact ⟨_, .char (by simp), shown, rfl⟩
  · rintro ⟨text, escaped, spans⟩
    cases escaped with
    | hash => exact escape_of_hash spans
    | char special => exact escape_of_char spans special
    | @code digits x four value =>
        have shown : c.rest = '\\' :: 'u' :: (digits ++ d.rest) := spans.rest
        have decoded : hexEscape? (digits ++ d.rest) = some (x, d.rest) :=
          hexEscape?_eq_some_iff.mpr ⟨digits, four, value, rfl⟩
        have same : (⟨c.offset + 6, d.rest⟩ : Cursor) = d := by
          apply Cursor.ext
          · rw [spans.offset, byteLength_code four value]
          · rfl
        unfold escape
        rw [shown]
        simp only [decoded, same]

theorem DerivesEscape.proper {piece : Piece} (escaped : DerivesEscape text piece) :
    piece.IsProper := by
  cases escaped with
  | hash => rfl
  | char _ => trivial
  | code _ _ => trivial

theorem DerivesEscape.head {piece : Piece} (escaped : DerivesEscape text piece) :
    ∃ tail, text = '\\' :: tail := by
  cases escaped with
  | hash => exact ⟨_, rfl⟩
  | char _ => exact ⟨_, rfl⟩
  | code _ _ => exact ⟨_, rfl⟩

/-! ### Runs, selectors and offsets -/

theorem token_derives (fuel : Nat) (found : token fuel c = .ok (chars, d)) :
    ∃ text, DerivesToken text chars ∧ c.Spans text d := by
  induction fuel generalizing c chars with
  | zero =>
      cases found
      exact ⟨[], .nil, .refl _⟩
  | succ fuel ih =>
      unfold token at found
      split at found
      · cases found
        exact ⟨[], .nil, .refl _⟩
      · rename_i head tail shown
        split at found
        · cases found
          exact ⟨[], .nil, .refl _⟩
        · rename_i inside
          split at found
          · obtain ⟨⟨piece, m⟩, first, found⟩ := bind_eq_ok_iff.mp found
            obtain ⟨⟨later, e⟩, second, found⟩ := bind_eq_ok_iff.mp found
            obtain ⟨source, escaped, spans⟩ := escape_eq_ok_iff.mp first
            obtain ⟨same, rfl⟩ : piece.decoded :: later = chars ∧ e = d := by
              cases piece <;> simpa [pure, Except.pure, Piece.decoded] using found
            obtain ⟨rest, derived, restSpans⟩ := ih second
            exact ⟨_, same ▸ .escape escaped derived, spans.trans restSpans⟩
          · rename_i notEscape
            split at found
            · simp [Cursor.fail] at found
            · rename_i visible
              obtain ⟨⟨later, e⟩, second, found⟩ := bind_eq_ok_iff.mp found
              cases found
              obtain ⟨rest, derived, spans⟩ := ih second
              have plain : isTokenChar head = true := by
                simp_all [isTokenChar, endsToken]
              exact ⟨_, .plain plain derived, (Spans.next shown).trans spans⟩

theorem DerivesToken.read (derived : DerivesToken text chars) (spans : c.Spans text d)
    (stops : d.StopsRun fun x => !endsToken x) : c.token = .ok (chars, d) := by
  induction derived generalizing c with
  | nil =>
      rw [spans.eq_of_nil] at stops ⊢
      exact token_of_stops stops
  | plain plain _ ih =>
      obtain ⟨shown, later⟩ := spans.cons
      rw [token_plain shown plain, ih later]
      rfl
  | @escape source rest chars piece escaped _ ih =>
      obtain ⟨m, first, later⟩ := spans.split
      obtain ⟨more, rfl⟩ := escaped.head
      rw [token_escape first.rest, escape_eq_ok_iff.mpr ⟨_, escaped, first⟩, ok_bind]
      dsimp only
      rw [ih later, ok_bind]
      cases piece <;> rfl

theorem selector_derives {shown : String} (found : selector c = .ok (shown, d)) :
    ∃ text, DerivesSelector text shown.toList ∧ c.Spans text d := by
  obtain ⟨read, filled⟩ := selector_eq_ok found
  by_cases equals : c.rest.head? = some '='
  · obtain ⟨tail, rest⟩ := List.head?_eq_some_iff.mp equals
    rw [selectorText_of_equals rest] at read
    obtain ⟨⟨digits, after⟩, first, read⟩ := bind_eq_ok_iff.mp read
    simp only [pure, Except.pure, Except.ok.injEq, Prod.mk.injEq] at read
    obtain ⟨same, rfl⟩ := read
    obtain ⟨spans, number, _⟩ := number_eq_ok_iff.mp first
    rw [← same]
    exact ⟨_, .number number, (Spans.next rest).trans spans⟩
  · rw [selectorText_of_other equals] at read
    obtain ⟨text, derived, spans⟩ := token_derives _ read
    refine ⟨text, .token ?_ derived filled, spans⟩
    intro starts
    obtain ⟨tail, rfl⟩ := List.head?_eq_some_iff.mp starts
    rw [spans.rest] at equals
    simp at equals

theorem DerivesSelector.read (derived : DerivesSelector text chars) (spans : c.Spans text d)
    (brace : d.skipSpace.rest = '\x7b' :: tail) : selector c = .ok (String.ofList chars, d) := by
  apply selector_of_text
  · rw [String.toList_ofList]
    cases derived with
    | @number digits number =>
        have stops : d.StopsRun Char.isDigit := by
          apply stopsRun_of_skipSpace _ (by decide) brace
          intro x space
          cases digit : x.isDigit with
          | false => rfl
          | true => simp [not_isSpace_of_isDigit digit] at space
        rw [selectorText_of_equals spans.rest,
          number_eq_ok_iff.mpr ⟨spans.cons.2, number, .inr stops⟩, ok_bind]
        rfl
    | token other token filled =>
        have stops : d.StopsRun fun x => !endsToken x := by
          apply stopsRun_of_skipSpace _ (by decide) brace
          intro x space
          simp [endsToken, space]
        have notEquals : c.rest.head? ≠ some '=' := by
          cases token with
          | nil => exact absurd rfl filled
          | plain _ _ => simpa [spans.rest] using other
          | escape escaped _ =>
              obtain ⟨more, rfl⟩ := escaped.head
              simp [spans.rest]
        rw [selectorText_of_other notEquals]
        exact token.read spans stops
  · rw [String.toList_ofList]
    cases derived with
    | number _ => simp
    | token _ _ filled => exact filled

theorem DerivesToken.head (derived : DerivesToken text chars) (filled : chars ≠ []) :
    ∃ head tail, text = head :: tail ∧ isSpace head = false ∧ head ≠ '\x7d' := by
  cases derived with
  | nil => exact absurd rfl filled
  | plain plain _ =>
      refine ⟨_, _, rfl, not_isSpace_of_isTokenChar plain, ?_⟩
      rintro rfl
      exact absurd plain (by decide)
  | escape escaped _ =>
      obtain ⟨more, rfl⟩ := escaped.head
      exact ⟨_, _, rfl, by decide, by decide⟩

theorem DerivesSelector.head (derived : DerivesSelector text chars) :
    ∃ head tail, text = head :: tail ∧ isSpace head = false ∧ head ≠ '\x7d' := by
  cases derived with
  | number _ => exact ⟨_, _, rfl, by decide, by decide⟩
  | token _ token filled => exact token.head filled

theorem style_derives {found : Option String} (read : style c = .ok (found, d)) :
    found = none ∧ d = c.skipSpace ∨
      ∃ gap inner text chars, IsBlank gap ∧ IsBlank inner ∧ DerivesToken text chars ∧ chars ≠ [] ∧
        found = some (String.ofList chars) ∧ c.Spans (gap ++ ',' :: (inner ++ text)) d := by
  obtain ⟨gap, blank, spans⟩ := skipSpace_blank c
  by_cases comma : c.skipSpace.rest.head? = some ','
  · obtain ⟨tail, shown⟩ := List.head?_eq_some_iff.mp comma
    rw [style_of_comma shown] at read
    obtain ⟨⟨chars, after⟩, first, read⟩ := bind_eq_ok_iff.mp read
    simp only at read
    split at read
    · simp [Cursor.fail] at read
    · rename_i filled
      cases read
      obtain ⟨inner, blankInner, innerSpans⟩ := skipSpace_blank c.skipSpace.next
      obtain ⟨text, derived, textSpans⟩ := token_derives _ first
      have whole := spans.trans ((Spans.next shown).trans (innerSpans.trans textSpans))
      exact .inr ⟨gap, inner, text, chars, blank, blankInner, derived, by simpa using filled, rfl,
        whole⟩
  · unfold style at read
    simp only at read
    split at read
    · rename_i shown
      simp [shown] at comma
    · cases read
      exact .inl ⟨rfl, rfl⟩

theorem offset_derives {offset : Nat} (read : pluralOffset c.skipSpace = .ok (offset, d))
    (ahead : d.rest = text ++ tail) (filled : text ≠ []) :
    ∃ gap mark, IsBlank gap ∧ DerivesOffset mark offset text ∧ c.Spans (gap ++ mark) d := by
  obtain ⟨gap, blank, spans⟩ := skipSpace_blank c
  obtain ⟨head, more, rfl⟩ := List.exists_cons_of_ne_nil filled
  rcases pluralOffset_eq_ok read with
    ⟨unmarked, rfl, rfl⟩ | ⟨m, digits, mark, number, rfl, small⟩
  · refine ⟨gap, [], blank, .none ?_, by simpa using spans⟩
    intro marked
    have visible : isSpace head = false := by
      have stops := (takeRun_spec isSpace c).2.2
      exact stops head (by rw [← Cursor.skipSpace, ahead]; rfl)
    rw [List.dropWhile_cons_of_neg (by simp [visible])] at marked
    rw [ahead, List.isPrefixOf_iff_prefix.mpr (marked.trans (List.prefix_append _ _))] at unmarked
    cases unmarked
  · obtain ⟨inner, blankInner, innerSpans⟩ := skipSpace_blank m
    obtain ⟨digitSpans, isNumber, ends⟩ := number_eq_ok_iff.mp number
    refine ⟨gap, offsetMark ++ inner ++ digits, blank, .some blankInner isNumber ?_ small, ?_⟩
    · refine ends.imp_right fun stops => ?_
      intro x member
      exact stops x (by simpa [ahead] using member)
    · have whole := spans.trans (mark.trans (innerSpans.trans digitSpans))
      simpa using whole

theorem ofKeyword?_eq_some {word : String} {kind : SimpleKind}
    (known : SimpleKind.ofKeyword? word = some kind) : word = kind.keyword := by
  have same := List.find?_some known
  exact (beq_iff_eq.mp same).symm

theorem ofKeyword?_keyword (kind : SimpleKind) :
    SimpleKind.ofKeyword? kind.keyword = some kind := by
  cases kind <;> decide

theorem format_cases {format : Format} (read : c.format = .ok (format, d)) :
    ∃ word m, c.Spans word.toList m ∧
      ((∃ kind style, word = SimpleKind.keyword kind ∧ Message.style m = .ok (style, d) ∧
          format = .simple kind style) ∨
        (∃ (ordinal : Bool) (comma begun : Cursor) (offset : Nat) (options : List Choice),
          word = (if ordinal then "selectordinal" else "plural") ∧
          expect ',' m.skipSpace = .ok comma ∧ pluralOffset comma.skipSpace = .ok (offset, begun) ∧
          begun.choices = .ok (options, d) ∧ options ≠ [] ∧
          format = .plural ordinal offset options) ∨
        (∃ comma options, word = "select" ∧ expect ',' m.skipSpace = .ok comma ∧
          comma.choices = .ok (options, d) ∧ options ≠ [] ∧ format = .select options)) := by
  obtain ⟨spans, _, _⟩ := takeRun_spec Char.isAlphanum c
  generalize run : c.takeRun Char.isAlphanum = found at spans
  obtain ⟨letters, m⟩ := found
  refine ⟨String.ofList letters, m, by simpa using spans, ?_⟩
  cases known : SimpleKind.ofKeyword? (String.ofList letters) with
  | some kind =>
      rw [format_simple run known] at read
      obtain ⟨⟨style, after⟩, first, read⟩ := bind_eq_ok_iff.mp read
      cases read
      exact .inl ⟨kind, style, ofKeyword?_eq_some known, first, rfl⟩
  | none =>
      by_cases plural : ∃ ordinal : Bool,
          String.ofList letters = if ordinal then "selectordinal" else "plural"
      · obtain ⟨ordinal, word⟩ := plural
        rw [format_plural run word] at read
        obtain ⟨comma, first, read⟩ := bind_eq_ok_iff.mp read
        obtain ⟨⟨offset, begun⟩, second, read⟩ := bind_eq_ok_iff.mp read
        obtain ⟨⟨options, after⟩, third, read⟩ := bind_eq_ok_iff.mp read
        simp only at read
        split at read
        · simp [Cursor.fail] at read
        · rename_i filled
          cases read
          exact .inr (.inl ⟨ordinal, comma, begun, offset, options, word, first, second, third,
            by simpa using filled, rfl⟩)
      · by_cases select : String.ofList letters = "select"
        · rw [format_select run select] at read
          obtain ⟨comma, first, read⟩ := bind_eq_ok_iff.mp read
          obtain ⟨⟨options, after⟩, second, read⟩ := bind_eq_ok_iff.mp read
          simp only at read
          split at read
          · simp [Cursor.fail] at read
          · rename_i filled
            cases read
            exact .inr (.inr ⟨comma, options, select, first, second, by simpa using filled, rfl⟩)
        · -- no other word is a keyword
          have notPlural : String.ofList letters ≠ "plural" := fun word => plural ⟨false, word⟩
          have notOrdinal : String.ofList letters ≠ "selectordinal" :=
            fun word => plural ⟨true, word⟩
          unfold Cursor.format argumentFormat at read
          simp only [run, known, beq_iff_eq, notPlural, notOrdinal, select, Bool.or_eq_true,
            or_self, if_false] at read
          split at read
          · simp [Cursor.fail] at read
          · simp [Cursor.fail] at read

theorem isNumber_head {digits : List Char} (isNumber : isNumber digits = true) :
    ∃ head rest, digits = head :: rest ∧ isSpace head = false := by
  simp only [Message.isNumber, Bool.or_eq_true, beq_iff_eq, Bool.and_eq_true, List.all_eq_true]
    at isNumber
  rcases isNumber with rfl | ⟨⟨filled, isDigit⟩, _⟩
  · exact ⟨'0', [], rfl, by decide⟩
  · cases digits with
    | nil => simp at filled
    | cons head rest => exact ⟨head, rest, rfl, not_isSpace_of_isDigit (isDigit head (by simp))⟩

theorem DerivesOffset.read {offset : Nat} {mark gap : List Char}
    (derived : DerivesOffset mark offset text) (blank : IsBlank gap)
    (brace : ∃ before after, text.dropWhile isSpace = before ++ '\x7b' :: after)
    (spans : c.Spans (gap ++ mark) d) (ahead : d.rest = text ++ tail) :
    ∃ begun, pluralOffset c.skipSpace = .ok (offset, begun) ∧ begun.skipSpace = d.skipSpace := by
  obtain ⟨before, after, shape⟩ := brace
  cases derived with
  | none unmarked =>
      rw [List.append_nil] at spans
      refine ⟨c.skipSpace, pluralOffset_of_other ?_, ?_⟩
      · -- a mark that begins in the options ends in front of their first brace
        have whole : c.skipSpace.rest = before ++ '\x7b' :: (after ++ tail) := by
          rw [skipSpace_of_spaces spans blank, skipSpace_rest, ahead, List.dropWhile_append, shape]
          simp
        rw [whole, isPrefixOf_append_cons (by decide)]
        rw [shape] at unmarked
        cases found : offsetMark.isPrefixOf before with
        | false => rfl
        | true =>
            have marked : offsetMark <+: before := List.isPrefixOf_iff_prefix.mp found
            exact absurd (marked.trans (List.prefix_append _ _)) unmarked
      · rw [skipSpace_skipSpace, skipSpace_of_spaces spans blank]
  | @some inner digits _ blankInner isNumber whole small =>
      obtain ⟨m, toMark, later⟩ := spans.split
      rw [List.append_assoc] at later
      obtain ⟨k, markSpans, later⟩ := later.split
      obtain ⟨n, toDigits, digitSpans⟩ := later.split
      have atMark : c.skipSpace = m :=
        skipSpace_eq blank toMark (stopsRun_cons markSpans.rest (by decide))
      have atDigits : k.skipSpace = n := by
        obtain ⟨head, rest, rfl, visible⟩ := isNumber_head isNumber
        exact skipSpace_eq blankInner toDigits (stopsRun_cons digitSpans.rest visible)
      have ends : digits = ['0'] ∨ d.StopsRun Char.isDigit := by
        refine whole.imp_right fun stops x member => stops x ?_
        cases text with
        | nil => simp at shape
        | cons head rest => simpa [ahead] using member
      refine ⟨d, ?_, rfl⟩
      rw [atMark, pluralOffset_of_mark markSpans, atDigits,
        number_eq_ok_iff.mpr ⟨digitSpans, isNumber, ends⟩, ok_bind]
      dsimp only
      rw [if_pos small]
      rfl

theorem skipSpace_shown {gap rest : List Char} {head : Char} (blank : IsBlank gap)
    (visible : isSpace head = false) (spans : c.Spans (gap ++ head :: rest) d) :
    c.skipSpace.rest = head :: (rest ++ d.rest) := by
  obtain ⟨m, before, later⟩ := spans.split
  rw [skipSpace_eq blank before (stopsRun_cons later.rest visible), later.rest]
  rfl

theorem stopsRun_isAlphanum {head : Char} (refused : head.isAlphanum = false)
    (shown : c.skipSpace.rest = head :: tail) : c.StopsRun Char.isAlphanum := by
  apply stopsRun_of_skipSpace _ refused shown
  intro x space
  cases letter : x.isAlphanum with
  | false => rfl
  | true => simp [not_isSpace_of_isAlphanum letter] at space

theorem style_missing (close : c.skipSpace.rest = '\x7d' :: tail) :
    style c = .ok (none, c.skipSpace) := by
  unfold style
  simp only [close]
  rfl

theorem DerivesToken.style {gap inner : List Char} (derived : DerivesToken text chars)
    (filled : chars ≠ []) (blank : IsBlank gap) (blankInner : IsBlank inner)
    (spans : c.Spans (gap ++ ',' :: (inner ++ text)) d)
    (close : d.skipSpace.rest = '\x7d' :: tail) :
    Message.style c = .ok (some (String.ofList chars), d) := by
  obtain ⟨m, toComma, later⟩ := spans.split
  obtain ⟨k, toText, textSpans⟩ := later.cons.2.split
  have atComma : c.skipSpace = m :=
    skipSpace_eq blank toComma (stopsRun_cons later.rest (by decide))
  have atText : m.next.skipSpace = k := by
    obtain ⟨head, rest, rfl, visible, _⟩ := derived.head filled
    exact skipSpace_eq blankInner toText (stopsRun_cons textSpans.rest visible)
  have stops : d.StopsRun fun x => !endsToken x := by
    apply stopsRun_of_skipSpace _ (by decide) close
    intro x space
    simp [endsToken, space]
  have comma : c.skipSpace.rest = ',' :: (inner ++ text ++ d.rest) := by
    rw [atComma]
    exact later.rest
  rw [style_of_comma comma, atComma, atText, derived.read textSpans stops, ok_bind]
  simp only [List.isEmpty_iff, filled, if_false]
  rfl

end MessageCatalog.Message
