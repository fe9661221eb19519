import MessageCatalog.Proofs.Message.Parts

/-!
The readers accept exactly what the grammar derives. A reader that succeeds has moved over a text
with a derivation of what it found, and a reader in front of a derived text finds what is derived
from it, as soon as the text behind it is one where the reader has to stop.
-/

namespace MessageCatalog.Message

open Cursor

variable {c d : Cursor} {text tail : List Char}

/-! ### What is read is derived -/

theorem DerivesOptions.nonempty {options : List Choice} (derived : DerivesOptions text options)
    (filled : options ≠ []) : text ≠ [] := by
  cases derived with
  | blank _ => exact absurd rfl filled
  | cons _ first _ =>
      cases first with
      | mk _ _ _ _ => simp

theorem next_length {head : Char} (shown : c.rest = head :: tail) :
    c.next.rest.length < c.rest.length := by
  have length := (Spans.next shown).length_eq
  simp only [List.length_singleton] at length
  omega

theorem expect_length {wanted : Char} (found : expect wanted c.skipSpace = .ok d) :
    d.rest.length < c.rest.length := by
  have skipped := (reaches_skipSpace c).length_le
  have length := (expect_eq_ok_iff.mp found).length_eq
  simp only [List.length_singleton] at length
  omega

theorem choice_length {option : Choice} (read : c.choice = .ok (option, d)) :
    d.rest.length < c.rest.length :=
  (choice_moves (movesForward _) read).2

theorem announced_cases {format : Option Format}
    (read : announced Cursor.format c = .ok (format, d)) :
    format = none ∧ d = c ∨
      ∃ inner rest, format = some inner ∧ c.rest = ',' :: rest ∧
        c.next.skipSpace.format = .ok (inner, d) := by
  unfold announced at read
  split at read
  · rename_i tail shown
    obtain ⟨⟨inner, after⟩, first, read⟩ := bind_eq_ok_iff.mp read
    cases read
    exact .inr ⟨inner, tail, rfl, shown, first⟩
  · cases read
    exact .inl ⟨rfl, rfl⟩

mutual

theorem pieces_derives (c : Cursor) {d : Cursor} {nested : Bool} {found : List Piece}
    (read : c.pieces nested = .ok (found, d)) :
    ∃ text, DerivesPieces text found ∧ c.Spans text d := by
  cases shown : c.rest with
  | nil =>
      rw [pieces_end shown] at read
      split at read
      · simp [Cursor.fail] at read
      · cases read
        exact ⟨[], .nil, .refl _⟩
  | cons head tail =>
      have step := Spans.next shown
      have shorter := next_length shown
      by_cases close : head = '\x7d'
      · rw [pieces_close (close ▸ shown)] at read
        cases read
        exact ⟨[], .nil, .refl _⟩
      by_cases brace : head = '\x7b'
      · rw [pieces_open (brace ▸ shown)] at read
        obtain ⟨⟨element, m⟩, first, read⟩ := bind_eq_ok_iff.mp read
        obtain ⟨⟨rest, e⟩, second, read⟩ := bind_eq_ok_iff.mp read
        cases read
        have length := argument_length first
        obtain ⟨text, argument, spans⟩ := argument_derives c first
        obtain ⟨later, others, laterSpans⟩ := pieces_derives m second
        exact ⟨_, .argument argument others, spans.trans laterSpans⟩
      by_cases slash : head = '\\'
      · rw [pieces_escape (slash ▸ shown)] at read
        obtain ⟨⟨piece, m⟩, first, read⟩ := bind_eq_ok_iff.mp read
        obtain ⟨⟨rest, e⟩, second, read⟩ := bind_eq_ok_iff.mp read
        cases read
        have length := escape_length first
        obtain ⟨text, escaped, spans⟩ := escape_eq_ok_iff.mp first
        obtain ⟨later, others, laterSpans⟩ := pieces_derives m second
        exact ⟨_, .escape escaped others, spans.trans laterSpans⟩
      · rw [pieces_char shown ⟨close, brace⟩ slash] at read
        split at read
        · simp [Cursor.fail] at read
        · rename_i visible
          obtain ⟨⟨rest, e⟩, second, read⟩ := bind_eq_ok_iff.mp read
          cases read
          have raw : isRaw head = true := by simp [isRaw, close, brace, slash, visible]
          obtain ⟨later, others, laterSpans⟩ := pieces_derives c.next second
          exact ⟨_, .raw raw others, step.trans laterSpans⟩
termination_by 2 * c.rest.length + 1

theorem argument_derives (c : Cursor) {d : Cursor} {element : Element}
    (read : c.argument = .ok (element, d)) :
    ∃ text, DerivesArgument text element ∧ c.Spans text d := by
  rw [argument_eq] at read
  obtain ⟨opened, brace, read⟩ := bind_eq_ok_iff.mp read
  obtain ⟨⟨name, named⟩, found, read⟩ := bind_eq_ok_iff.mp read
  obtain ⟨⟨format, formatted⟩, third, read⟩ := bind_eq_ok_iff.mp read
  obtain ⟨closed, fourth, read⟩ := bind_eq_ok_iff.mp read
  cases read
  have length := length_after_name brace found
  obtain ⟨before, blankBefore, toName⟩ := skipSpace_blank opened
  obtain ⟨nameSpans, isName, _⟩ := argumentName_eq_ok_iff.mp found
  obtain ⟨gap, blankGap, toComma⟩ := skipSpace_blank named
  obtain ⟨after, blankAfter, toClose⟩ := spans_of_expect fourth
  have front := (expect_eq_ok_iff.mp brace).trans (toName.trans nameSpans)
  rcases announced_cases third with ⟨rfl, rfl⟩ | ⟨inner, rest, rfl, comma, inside⟩
  · have closing : named.skipSpace.skipSpace = named.skipSpace := skipSpace_skipSpace named
    rw [closing] at fourth
    have whole := front.trans (toComma.trans (expect_eq_ok_iff.mp fourth))
    have derived := DerivesArgument.plain blankBefore isName blankGap
    rw [String.ofList_toList] at derived
    exact ⟨_, derived, by simpa using whole⟩
  · have step := next_length comma
    obtain ⟨innerGap, blankInner, toFormat⟩ := skipSpace_blank named.skipSpace.next
    have skipped := (reaches_skipSpace named.skipSpace.next).length_le
    obtain ⟨text, extra, formatDerived, blankExtra, formatSpans⟩ :=
      format_derives named.skipSpace.next.skipSpace inside
    have blank : IsBlank (extra ++ after) := by
      intro x member
      exact (List.mem_append.mp member).elim (blankExtra x) (blankAfter x)
    have whole := front.trans (toComma.trans ((Spans.next comma).trans (toFormat.trans
      (formatSpans.trans toClose))))
    have derived := DerivesArgument.formatted blankBefore isName blankGap blankInner formatDerived
      blank
    rw [String.ofList_toList] at derived
    exact ⟨_, derived, by simpa using whole⟩
termination_by 2 * c.rest.length

theorem format_derives (c : Cursor) {d : Cursor} {format : Format}
    (read : c.format = .ok (format, d)) :
    ∃ text gap, DerivesFormat text format ∧ IsBlank gap ∧ c.Spans (text ++ gap) d := by
  obtain ⟨word, m, wordSpans, found⟩ := format_cases read
  have toWord := (Reaches.length_le ⟨_, wordSpans⟩ : m.rest.length ≤ c.rest.length)
  rcases found with ⟨kind, style, rfl, styleRead, rfl⟩ |
    ⟨ordinal, comma, begun, offset, options, rfl, commaRead, offsetRead, optionsRead, filled, rfl⟩ |
    ⟨comma, options, rfl, commaRead, optionsRead, filled, rfl⟩
  · rcases style_derives styleRead with
      ⟨rfl, rfl⟩ | ⟨gap, inner, text, chars, blank, blankInner, token, filled, rfl, spans⟩
    · obtain ⟨gap, blank, spans⟩ := skipSpace_blank m
      exact ⟨_, gap, .simple kind, blank, wordSpans.trans spans⟩
    · exact ⟨_, [], .styled kind blank blankInner token filled, by simp [IsBlank],
        by simpa using wordSpans.trans spans⟩
  · obtain ⟨gap, blank, toComma⟩ := spans_of_expect commaRead
    have commaLength := expect_length commaRead
    have offsetLength := ((reaches_skipSpace comma).trans
      (pluralOffset_reaches offsetRead)).length_le
    obtain ⟨text, derived, spans⟩ := choices_derives begun optionsRead
    have nonempty := derived.nonempty filled
    obtain ⟨inner, mark, blankInner, offsetDerived, toOptions⟩ :=
      offset_derives offsetRead spans.rest nonempty
    have whole := wordSpans.trans (toComma.trans (toOptions.trans spans))
    exact ⟨_, [], .plural ordinal blank blankInner offsetDerived derived filled,
      by simp [IsBlank], by simpa using whole⟩
  · obtain ⟨gap, blank, toComma⟩ := spans_of_expect commaRead
    have commaLength := expect_length commaRead
    obtain ⟨text, derived, spans⟩ := choices_derives comma optionsRead
    have whole := wordSpans.trans (toComma.trans spans)
    exact ⟨_, [], .select blank derived filled, by simp [IsBlank], by simpa using whole⟩
termination_by 2 * c.rest.length

theorem choices_derives (c : Cursor) {d : Cursor} {options : List Choice}
    (read : c.choices = .ok (options, d)) :
    ∃ text, DerivesOptions text options ∧ c.Spans text d := by
  obtain ⟨gap, blank, spans⟩ := skipSpace_blank c
  have skipped := (reaches_skipSpace c).length_le
  by_cases more : ∃ head tail, c.skipSpace.rest = head :: tail ∧ head ≠ '\x7d'
  · obtain ⟨head, tail, shown, notClose⟩ := more
    rw [choices_more shown notClose] at read
    obtain ⟨⟨option, m⟩, first, read⟩ := bind_eq_ok_iff.mp read
    obtain ⟨⟨others, e⟩, second, read⟩ := bind_eq_ok_iff.mp read
    cases read
    have shorter := choice_length first
    obtain ⟨text, derived, optionSpans⟩ := choice_derives c.skipSpace first
    obtain ⟨later, laterDerived, laterSpans⟩ := choices_derives m second
    exact ⟨_, .cons blank derived laterDerived,
      by simpa using spans.trans (optionSpans.trans laterSpans)⟩
  · have stop : ∀ head ∈ c.skipSpace.rest.head?, head = '\x7d' := by
      intro head member
      obtain ⟨tail, shown⟩ := List.head?_eq_some_iff.mp (Option.mem_def.mp member)
      by_contra notClose
      exact more ⟨head, tail, shown, notClose⟩
    rw [choices_stop stop] at read
    cases read
    exact ⟨gap, .blank blank, spans⟩
termination_by 2 * c.rest.length + 1

theorem choice_derives (c : Cursor) {d : Cursor} {option : Choice}
    (read : c.choice = .ok (option, d)) :
    ∃ text, DerivesOption text option ∧ c.Spans text d := by
  rw [choice_eq] at read
  obtain ⟨⟨shown, selected⟩, first, read⟩ := bind_eq_ok_iff.mp read
  obtain ⟨opened, second, read⟩ := bind_eq_ok_iff.mp read
  obtain ⟨⟨found, ended⟩, third, read⟩ := bind_eq_ok_iff.mp read
  obtain ⟨closed, fourth, read⟩ := bind_eq_ok_iff.mp read
  cases read
  have length := length_after_selector first second
  obtain ⟨spelled, selects, selectorSpans⟩ := selector_derives first
  obtain ⟨gap, blank, toBrace⟩ := spans_of_expect second
  obtain ⟨text, inside, spans⟩ := pieces_derives opened third
  have joined := joins_trimBody (joins_joinPieces found (pieces_proper third))
  have derived := DerivesOption.mk selects blank inside joined
  rw [String.ofList_toList] at derived
  have whole := selectorSpans.trans (toBrace.trans (spans.trans (expect_eq_ok_iff.mp fourth)))
  exact ⟨_, derived, by simpa using whole⟩
termination_by 2 * c.rest.length

end

/-! ### What is derived is read -/

theorem DerivesPieces.proper {text : List Char} {found : List Piece}
    (derived : DerivesPieces text found) : ∀ piece ∈ found, piece.IsProper := by
  match derived with
  | .nil => simp
  | .raw _ later => exact List.forall_mem_cons.mpr ⟨trivial, later.proper⟩
  | .escape escaped later => exact List.forall_mem_cons.mpr ⟨escaped.proper, later.proper⟩
  | .argument first later =>
      refine List.forall_mem_cons.mpr ⟨?_, later.proper⟩
      cases first <;> rfl

theorem DerivesPieces.trimBody_eq {found : List Piece} {body : List Element}
    (derived : DerivesPieces text found) (joined : Joins (trimPieces found) body) :
    trimBody (joinPieces found) = body :=
  (joins_trimBody (joins_joinPieces found derived.proper)).joinPieces_eq.symm.trans
    joined.joinPieces_eq

theorem DerivesOptions.brace {options : List Choice} (derived : DerivesOptions text options)
    (filled : options ≠ []) :
    ∃ before after, text.dropWhile isSpace = before ++ '\x7b' :: after := by
  have inside : '\x7b' ∈ text := by
    cases derived with
    | blank _ => exact absurd rfl filled
    | cons _ first _ =>
        cases first with
        | mk _ _ _ _ => simp
  apply List.append_of_mem
  rw [← List.takeWhile_append_dropWhile (p := isSpace) (l := text), List.mem_append] at inside
  refine inside.resolve_left fun space => ?_
  exact absurd (List.mem_takeWhile_imp space) (by decide)

theorem DerivesOption.head {option : Choice} (derived : DerivesOption text option) :
    ∃ head tail, text = head :: tail ∧ isSpace head = false ∧ head ≠ '\x7d' := by
  cases derived with
  | mk selects _ _ _ =>
      obtain ⟨head, tail, rfl, visible, notClose⟩ := selects.head
      exact ⟨head, _, rfl, visible, notClose⟩

theorem DerivesFormat.head {format : Format} (derived : DerivesFormat text format) :
    ∃ head tail, text = head :: tail ∧ isSpace head = false := by
  obtain ⟨rest, shape⟩ : ∃ rest, text = format.keyword.toList ++ rest := by
    cases derived with
    | simple _ => exact ⟨[], (List.append_nil _).symm⟩
    | styled _ _ _ _ _ => exact ⟨_, rfl⟩
    | plural ordinal _ _ _ _ _ => cases ordinal <;> exact ⟨_, rfl⟩
    | select _ _ _ => exact ⟨_, rfl⟩
  obtain ⟨head, tail, letters, visible⟩ := keyword_head format
  exact ⟨head, tail ++ rest, by rw [shape, letters, List.cons_append], visible⟩

theorem argument_of_blank {before name gap rest : List Char} {next : Char}
    (blankBefore : IsBlank before) (named : isName name = true) (blankGap : IsBlank gap)
    (ends : endsName next = true) (visible : isSpace next = false)
    (spans : c.Spans ('\x7b' :: (before ++ name ++ gap ++ next :: rest)) d) :
    ∃ m : Cursor, m.Spans (next :: rest) d ∧
      c.argument = (do
        let (format, formatted) ← announced Cursor.format m
        let closed ← expect '\x7d' formatted.skipSpace
        return (.argument (String.ofList name) format, closed)) := by
  rw [← List.singleton_append] at spans
  obtain ⟨opened, brace, later⟩ := spans.split
  obtain ⟨k, front, nextSpans⟩ := later.split
  obtain ⟨n, front, gapSpans⟩ := front.split
  obtain ⟨m, beforeSpans, nameSpans⟩ := front.split
  have atName : opened.skipSpace = m := by
    obtain ⟨head, tail, rfl, visibleHead⟩ := isName_head named
    exact skipSpace_eq blankBefore beforeSpans (stopsRun_cons nameSpans.rest visibleHead)
  have atNext : n.skipSpace = k :=
    skipSpace_eq blankGap gapSpans (stopsRun_cons nextSpans.rest visible)
  have stops : n.StopsRun fun x => !endsName x := by
    apply stopsRun_of_skipSpace _ (by simp [ends]) (atNext ▸ nextSpans.rest)
    intro x space
    simp [endsName, space]
  have found : argumentName m = .ok (String.ofList name, n) := by
    apply argumentName_eq_ok_iff.mpr
    rw [String.toList_ofList]
    exact ⟨nameSpans, named, stops⟩
  refine ⟨k, nextSpans, ?_⟩
  rw [argument_eq, expect_eq_ok_iff.mpr brace, ok_bind, atName, found, ok_bind]
  dsimp only
  rw [atNext]

mutual

theorem DerivesPieces.read {text : List Char} {found later : List Piece} {c d e : Cursor}
    {nested : Bool} (derived : DerivesPieces text found) (spans : c.Spans text d)
    (behind : d.pieces nested = .ok (later, e)) : c.pieces nested = .ok (found ++ later, e) := by
  match derived with
  | .nil =>
      rw [← spans.eq_of_nil]
      exact behind
  | .raw raw others =>
      obtain ⟨shown, laterSpans⟩ := spans.cons
      simp only [isRaw, Bool.and_eq_true, bne_iff_ne, ne_eq, Bool.not_eq_true'] at raw
      rw [pieces_char shown ⟨raw.1.1.2, raw.1.1.1⟩ raw.1.2, others.read laterSpans behind]
      simp only [raw.2]
      rfl
  | .escape escaped others =>
      obtain ⟨m, first, laterSpans⟩ := spans.split
      obtain ⟨more, rfl⟩ := escaped.head
      rw [pieces_escape first.rest, escape_eq_ok_iff.mpr ⟨_, escaped, first⟩, ok_bind]
      dsimp only
      rw [others.read laterSpans behind]
      rfl
  | .argument argument others =>
      obtain ⟨m, first, laterSpans⟩ := spans.split
      obtain ⟨more, shown⟩ : ∃ more, c.rest = '\x7b' :: more := by
        cases argument <;> exact ⟨_, first.rest⟩
      rw [pieces_open shown, argument.read first, ok_bind]
      dsimp only
      rw [others.read laterSpans behind]
      rfl

theorem DerivesArgument.read {text : List Char} {element : Element} {c d : Cursor}
    (derived : DerivesArgument text element) (spans : c.Spans text d) :
    c.argument = .ok (element, d) := by
  match derived with
  | .plain blankBefore named blankAfter =>
      obtain ⟨m, close, equation⟩ :=
        argument_of_blank blankBefore named blankAfter (by decide) (by decide) spans
      have nothing : announced Cursor.format m = .ok (none, m) := by
        unfold announced
        rw [close.rest]
        rfl
      rw [equation, nothing, ok_bind]
      dsimp only
      rw [expect_of_spans (by decide) close]
      rfl
  | .formatted blankBefore named blankGap blankInner formatted blankAfter =>
      obtain ⟨m, comma, equation⟩ :=
        argument_of_blank blankBefore named blankGap (by decide) (by decide) spans
      rw [List.append_assoc, List.append_assoc] at comma
      obtain ⟨k, inner, later⟩ := comma.cons.2.split
      obtain ⟨n, formatSpans, close⟩ := later.split
      have atFormat : m.next.skipSpace = k := by
        obtain ⟨head, rest, shape, visible⟩ := formatted.head
        rw [shape] at formatSpans
        exact skipSpace_eq blankInner inner (stopsRun_cons formatSpans.rest visible)
      obtain ⟨behind, read, same⟩ :=
        formatted.read formatSpans (skipSpace_shown blankAfter (by decide) close)
      rw [equation, announced_comma Cursor.format comma.rest, atFormat, read]
      simp only [ok_bind, pure, Except.pure]
      rw [same, expect_blank blankAfter (by decide) close]
      rfl

theorem DerivesFormat.read {text tail : List Char} {format : Format} {c d : Cursor}
    (derived : DerivesFormat text format) (spans : c.Spans text d)
    (close : d.skipSpace.rest = '\x7d' :: tail) :
    ∃ e, c.format = .ok (format, e) ∧ e.skipSpace = d.skipSpace := by
  match derived with
  | .simple kind =>
      have run := takeRun_eq spans (keyword_letters (.simple kind none)).2
        (stopsRun_isAlphanum (by decide) close)
      rw [format_simple run (by rw [String.ofList_toList, ofKeyword?_keyword]),
        style_missing close, ok_bind]
      exact ⟨d.skipSpace, rfl, skipSpace_skipSpace d⟩
  | .styled kind blankGap blankInner token filled =>
      obtain ⟨m, word, later⟩ := spans.split
      have comma := skipSpace_shown blankGap (by decide) later
      have run := takeRun_eq word (keyword_letters (.simple kind none)).2
        (stopsRun_isAlphanum (by decide) comma)
      rw [format_simple run (by rw [String.ofList_toList, ofKeyword?_keyword]),
        token.style filled blankGap blankInner later close, ok_bind]
      exact ⟨d, rfl, rfl⟩
  | .plural ordinal blankGap blankInner offset several filled =>
      obtain ⟨m, word, later⟩ := spans.split
      have comma := skipSpace_shown blankGap (by decide) later
      have letters : ∀ x ∈ (if ordinal then "selectordinal" else "plural").toList,
          x.isAlphanum = true := by
        cases ordinal with
        | false => exact (keyword_letters (.plural false 0 [])).2
        | true => exact (keyword_letters (.plural true 0 [])).2
      have run := takeRun_eq word letters (stopsRun_isAlphanum (by decide) comma)
      rw [← List.singleton_append, ← List.append_assoc] at later
      obtain ⟨k, toComma, later⟩ := later.split
      rw [← List.append_assoc] at later
      obtain ⟨n, toOptions, optionSpans⟩ := later.split
      obtain ⟨begun, offsetRead, same⟩ :=
        offset.read blankInner (several.brace filled) toOptions optionSpans.rest
      rw [format_plural run (String.ofList_toList), expect_blank blankGap (by decide) toComma,
        ok_bind, offsetRead, ok_bind]
      dsimp only
      rw [choices_congr same, several.read optionSpans close, ok_bind]
      simp only [List.isEmpty_iff, filled, if_false]
      exact ⟨d.skipSpace, rfl, skipSpace_skipSpace d⟩
  | .select blankGap several filled =>
      obtain ⟨m, word, later⟩ := spans.split
      have comma := skipSpace_shown blankGap (by decide) later
      have run := takeRun_eq word (keyword_letters (.select [])).2
        (stopsRun_isAlphanum (by decide) comma)
      rw [← List.singleton_append, ← List.append_assoc] at later
      obtain ⟨k, toComma, optionSpans⟩ := later.split
      rw [format_select run (String.ofList_toList), expect_blank blankGap (by decide) toComma,
        ok_bind, several.read optionSpans close, ok_bind]
      simp only [List.isEmpty_iff, filled, if_false]
      exact ⟨d.skipSpace, rfl, skipSpace_skipSpace d⟩

theorem DerivesOptions.read {text tail : List Char} {options : List Choice} {c d : Cursor}
    (derived : DerivesOptions text options) (spans : c.Spans text d)
    (close : d.skipSpace.rest = '\x7d' :: tail) : c.choices = .ok (options, d.skipSpace) := by
  match derived with
  | .blank blank =>
      have same := skipSpace_of_spaces spans blank
      rw [choices_stop (by simp [same, close]), same]
  | .cons blank first later =>
      obtain ⟨m, front, laterSpans⟩ := spans.split
      obtain ⟨k, before, optionSpans⟩ := front.split
      obtain ⟨head, rest, shape, visible, notClose⟩ := first.head
      have shown : k.rest = head :: (rest ++ m.rest) := by
        rw [optionSpans.rest, shape, List.cons_append]
      have same : c.skipSpace = k := skipSpace_eq blank before (stopsRun_cons shown visible)
      rw [choices_more (same ▸ shown) notClose, same, first.read optionSpans, ok_bind]
      dsimp only
      rw [later.read laterSpans close]
      rfl

theorem DerivesOption.read {text : List Char} {option : Choice} {c d : Cursor}
    (derived : DerivesOption text option) (spans : c.Spans text d) :
    c.choice = .ok (option, d) := by
  match derived with
  | .mk selects blank inside joined =>
      obtain ⟨m, selectorSpans, later⟩ := spans.split
      have brace := skipSpace_shown blank (by decide) later
      rw [← List.singleton_append, ← List.append_assoc] at later
      obtain ⟨k, toBrace, later⟩ := later.split
      obtain ⟨n, bodySpans, close⟩ := later.split
      rw [choice_eq, selects.read selectorSpans brace, ok_bind]
      dsimp only
      rw [expect_blank blank (by decide) toBrace, ok_bind,
        inside.read bodySpans (pieces_close close.rest), List.append_nil, ok_bind]
      dsimp only
      rw [expect_eq_ok_iff.mpr close, ok_bind, inside.trimBody_eq joined]
      rfl

end

/-- A text is accepted exactly if it is a spelling of a message in the grammar, and then it is read
as that message: no text is a spelling of two. -/
theorem parse_eq_ok_iff_derives (text : String) (elements : List Element) :
    parse text = .ok elements ↔ Derives text elements := by
  constructor
  · intro read
    rw [parse_eq] at read
    obtain ⟨⟨found, ended⟩, first, read⟩ := bind_eq_ok_iff.mp read
    simp only at read
    split at read
    · rename_i nothing
      cases read
      obtain ⟨spelled, derived, spans⟩ := pieces_derives _ first
      have whole : text.toList = spelled := by simpa [nothing] using spans.rest
      exact ⟨found, whole ▸ derived, joins_joinPieces found (pieces_proper first)⟩
    · simp [Cursor.fail] at read
  · rintro ⟨found, derived, joined⟩
    have spans : Cursor.Spans ⟨0, text.toList⟩ text.toList ⟨Text.byteLength text.toList, []⟩ :=
      ⟨by simp, by simp⟩
    have read : Cursor.pieces false ⟨0, text.toList⟩ =
        .ok (found ++ [], ⟨Text.byteLength text.toList, []⟩) :=
      derived.read spans (pieces_end rfl)
    rw [parse_of_pieces read rfl, List.append_nil, joined.joinPieces_eq]

end MessageCatalog.Message
