import MessageCatalog.Message.Validator
import MessageCatalog.Proofs.Message.RoundTrip

/-!
A message that is read from its printed text as it was is canonical. The arguments of the message
tell which argument is read where, so each of them is read from its own text, and a reader that
misses a separator or an escape would have to answer with another tree.
-/

namespace MessageCatalog.Message

open Cursor

theorem escape_proper {c d : Cursor} {piece : Piece} (found : escape c = .ok (piece, d)) :
    piece.IsProper := by
  obtain ⟨text, escaped, _⟩ := escape_spans found
  cases escaped with
  | hash => rfl
  | char _ => trivial
  | code _ _ => trivial

theorem argument_length {c d : Cursor} {element : Element} (read : c.argument = .ok (element, d)) :
    d.rest.length < c.rest.length :=
  (argument_moves (movesForward _) read).2

theorem pieces_proper {nested : Bool} {c d : Cursor} {found : List Piece}
    (read : c.pieces nested = .ok (found, d)) : ∀ piece ∈ found, piece.IsProper := by
  generalize size : c.rest.length = length
  induction length using Nat.strongRecOn generalizing c found with
  | ind length ih =>
      cases shown : c.rest with
      | nil =>
          rw [pieces_end shown] at read
          cases nested with
          | true => simp [Cursor.fail] at read
          | false =>
              cases read
              simp
      | cons head tail =>
          have step := (Spans.next shown).length_eq
          simp only [List.length_singleton] at step
          by_cases close : head = '\x7d'
          · rw [pieces_close (close ▸ shown)] at read
            cases read
            simp
          by_cases brace : head = '\x7b'
          · rw [pieces_open (brace ▸ shown)] at read
            obtain ⟨⟨element, m⟩, first, read⟩ := bind_eq_ok_iff.mp read
            obtain ⟨⟨rest, e⟩, second, read⟩ := bind_eq_ok_iff.mp read
            cases read
            have shorter := argument_length first
            obtain ⟨name, format, rfl, _⟩ := argument_shape first
            exact List.forall_mem_cons.mpr ⟨rfl, ih m.rest.length (by omega) second rfl⟩
          by_cases slash : head = '\\'
          · rw [pieces_escape (slash ▸ shown)] at read
            obtain ⟨⟨piece, m⟩, first, read⟩ := bind_eq_ok_iff.mp read
            obtain ⟨⟨rest, e⟩, second, read⟩ := bind_eq_ok_iff.mp read
            cases read
            have shorter := escape_length first
            exact List.forall_mem_cons.mpr
              ⟨escape_proper first, ih m.rest.length (by omega) second rfl⟩
          · rw [pieces_char shown ⟨close, brace⟩ slash] at read
            split at read
            · simp [Cursor.fail] at read
            · obtain ⟨⟨rest, e⟩, second, read⟩ := bind_eq_ok_iff.mp read
              cases read
              exact List.forall_mem_cons.mpr ⟨trivial, ih c.next.rest.length (by omega) second rfl⟩

theorem choices_first {c d : Cursor} {first : Choice} {rest : List Choice}
    (read : c.choices = .ok (first :: rest, d)) :
    ∃ m, c.skipSpace.choice = .ok (first, m) ∧ m.choices = .ok (rest, d) := by
  cases shown : c.skipSpace.rest with
  | nil =>
      rw [choices_stop (by simp [shown])] at read
      simp at read
  | cons head tail =>
      by_cases close : head = '\x7d'
      · rw [choices_stop (by simp [shown, close])] at read
        simp at read
      · rw [choices_more shown close] at read
        obtain ⟨⟨option, m⟩, one, read⟩ := bind_eq_ok_iff.mp read
        obtain ⟨⟨found, e⟩, two, read⟩ := bind_eq_ok_iff.mp read
        cases read
        exact ⟨m, one, two⟩

theorem selector_of_choice {c d : Cursor} {option : Choice} (read : c.choice = .ok (option, d)) :
    ∃ m, selector c = .ok (option.selector, m) := by
  rw [choice_eq] at read
  obtain ⟨⟨text, selected⟩, first, read⟩ := bind_eq_ok_iff.mp read
  obtain ⟨opened, _, read⟩ := bind_eq_ok_iff.mp read
  obtain ⟨⟨body, ended⟩, _, read⟩ := bind_eq_ok_iff.mp read
  obtain ⟨closed, _, read⟩ := bind_eq_ok_iff.mp read
  cases read
  exact ⟨selected, first⟩

theorem selector_of_choices {c d e : Cursor} {first : Choice} {rest : List Choice}
    {before printed tail : List Char} (read : c.choices = .ok (first :: rest, e))
    (spans : c.Spans printed d) (shown : d.rest = ' ' :: '\x7b' :: tail)
    (shape : first.selector.toList = before ++ printed) (noBrace : NoBrace before) :
    isSelector first.selector.toList = true ∧ (before = [] ∨ before.head? = some '=') := by
  obtain ⟨m, option, _⟩ := choices_first read
  obtain ⟨n, selects⟩ := selector_of_choice option
  exact selector_readBack spans shown selects shape noBrace

theorem digitsValue_ge (digits : List Char) (start : Nat) :
    start ≤ digits.foldl (fun value x => value * 10 + (x.toNat - 48)) start := by
  induction digits generalizing start with
  | nil => exact Nat.le_refl _
  | cons digit rest ih =>
      have later := ih (start * 10 + (digit.toNat - 48))
      simp only [List.foldl_cons]
      omega

theorem digits_of_zero {digits : List Char} (number : isNumber digits = true)
    (zero : digitsValue digits = 0) : digits = ['0'] := by
  simp only [isNumber, Bool.or_eq_true, beq_iff_eq, Bool.and_eq_true, bne_iff_ne, ne_eq] at number
  rcases number with same | ⟨⟨nonempty, holds⟩, leading⟩
  · exact same
  · cases digits with
    | nil => simp at nonempty
    | cons head rest =>
        have least := digitsValue_ge rest (0 * 10 + (head.toNat - 48))
        simp only [digitsValue, List.foldl_cons] at zero
        have digit : head.isDigit = true := by simp_all
        have lower : 48 ≤ head.toNat := (Char.isDigit_iff_toNat.mp digit).1
        have same : head = '0' := Char.toNat_inj.mp (show head.toNat = 48 by omega)
        simp [same] at leading

/-- Where no offset was printed, a zero read as one is a part of the first selector, and the options
cannot have been read behind it. -/
theorem offset_unmistaken {c d m begun e : Cursor} {options : List Choice} {digits : List Char}
    (spans : c.Spans (printOptions options) d) (filled : options ≠ [])
    (mark : c.skipSpace.Spans offsetMark m) (read : number m.skipSpace = .ok (digits, begun))
    (zero : digitsValue digits = 0) (later : begun.choices = .ok (options, e)) : False := by
  obtain ⟨first, rest, rfl⟩ := List.exists_cons_of_ne_nil filled
  obtain ⟨n, tail, selects, shown⟩ := selector_spans spans
  obtain ⟨digitSpans, isNumber, _⟩ := number_eq_ok_iff.mp read
  obtain rfl := digits_of_zero isNumber zero
  rcases skipSpace_printed selects with ⟨_, same⟩ | ⟨spaces, head, kept, shape, blank, _, keptSpans⟩
  · have brace := skipSpace_brace shown
    rw [← same, mark.rest] at brace
    simp [offsetMark] at brace
  have found : offsetMark.isPrefixOf (head :: kept) = true := by
    have long : offsetMark.isPrefixOf (head :: kept ++ ' ' :: '\x7b' :: tail) = true := by
      rw [← shown, ← keptSpans.rest, List.isPrefixOf_iff_prefix]
      exact ⟨m.rest, mark.rest.symm⟩
    rwa [isPrefixOf_append_cons (by decide)] at long
  obtain ⟨behind, offsetShape⟩ := List.isPrefixOf_iff_prefix.mp found
  rw [← offsetShape] at keptSpans
  obtain ⟨k, markSpans, behindSpans⟩ := keptSpans.split
  obtain rfl := Spans.unique mark markSpans
  rcases skipSpace_printed behindSpans with ⟨_, same⟩ | ⟨more, digit, last, lastShape, moreBlank, _, lastSpans⟩
  · have brace := skipSpace_brace shown
    rw [← same, digitSpans.rest] at brace
    simp at brace
  · have same : digit = '0' := (List.cons.inj (lastSpans.rest.symm.trans digitSpans.rest)).1
    subst same
    have lastRead : begun.Spans last n := by
      rw [Spans.unique digitSpans (.next lastSpans.rest)]
      exact lastSpans.cons.2
    have whole : first.selector.toList = (spaces ++ offsetMark ++ more ++ ['0']) ++ last := by
      rw [shape, ← offsetShape, lastShape]
      simp
    have noBrace : NoBrace (spaces ++ offsetMark ++ more ++ ['0']) := by
      refine .append (.append (.append (noBrace_of_spaces blank) ?_) (noBrace_of_spaces moreBlank)) ?_
      · simp [NoBrace, offsetMark]
      · simp [NoBrace]
    rcases (selector_of_choices later lastRead shown whole noBrace).2 with impossible | equals
    · simp at impossible
    · cases spaces with
      | nil => simp [offsetMark] at equals
      | cons x spaces =>
          simp only [List.cons_append, List.head?_cons, Option.some.injEq] at equals
          exact absurd (blank x (by simp)) (by rw [equals]; decide)

theorem offset_readBack {c d begun e : Cursor} {offset : Nat} {options : List Choice}
    (spans : c.Spans (printOffset offset ++ printOptions options) d) (filled : options ≠ [])
    (read : pluralOffset c.skipSpace = .ok (offset, begun))
    (later : begun.choices = .ok (options, e)) :
    offset < UInt64.size ∧ (0 < offset ∨ c.skipSpace = c ∧ readsAsOffset options = false) := by
  by_cases positive : 0 < offset
  · rcases pluralOffset_eq_ok read with ⟨_, rfl, _⟩ | ⟨_, _, _, _, _, small⟩
    · exact absurd positive (Nat.lt_irrefl 0)
    · exact ⟨small, .inl positive⟩
  · obtain rfl : offset = 0 := by omega
    rw [printOffset, if_neg positive, List.nil_append] at spans
    refine ⟨by decide, .inr ?_⟩
    rcases pluralOffset_eq_ok read with ⟨other, _, rfl⟩ | ⟨m, digits, mark, number, zero, _⟩
    · rw [choices_congr (skipSpace_skipSpace c)] at later
      obtain ⟨first, rest, rfl⟩ := List.exists_cons_of_ne_nil filled
      obtain ⟨n, tail, selects, shown⟩ := selector_spans spans
      have canonical := (selector_of_choices later selects shown (List.nil_append _).symm
        (by simp [NoBrace])).1
      have visible := (choices_of_selector spans canonical).1
      rw [visible] at other
      exact ⟨visible, (isPrefixOf_printOptions (by simp) spans).symm.trans other⟩
    · exact (offset_unmistaken spans filled mark number zero.symm later).elim

theorem text_readBack {nested : Bool} {c d e : Cursor} {text : List Char} {found : List Piece}
    (spans : c.Spans (text.flatMap escapeChar) d) (read : c.pieces nested = .ok (found, e)) :
    text.all (fun x => !isControl x) = true ∧
      ∃ later, d.pieces nested = .ok (later, e) ∧ found = text.map .char ++ later := by
  induction text generalizing c found with
  | nil =>
      rw [← spans.eq_of_nil] at read
      exact ⟨rfl, found, read, rfl⟩
  | cons head rest ih =>
      rw [List.flatMap_cons] at spans
      obtain ⟨m, first, second⟩ := spans.split
      rw [pieces_of_printedChar first] at read
      split at read
      · simp [Cursor.fail] at read
      · rename_i visible
        obtain ⟨⟨more, k⟩, inner, read⟩ := bind_eq_ok_iff.mp read
        cases read
        obtain ⟨plain, later, ended, rfl⟩ := ih second inner
        exact ⟨by simp [visible, plain], later, ended, rfl⟩

mutual

theorem element_readBack (element : Element) {nested : Bool} {c d e : Cursor}
    {found : List Piece} {others : List Element} (spans : c.Spans element.print d)
    (read : c.pieces nested = .ok (found, e)) (same : wholes found = wholes element.pieces ++ others) :
    element.isReadable = true ∧
      ∃ later, d.pieces nested = .ok (later, e) ∧ found = element.pieces ++ later := by
  match element with
  | .text content => exact text_readBack spans read
  | .escapedHash =>
      rw [pieces_of_hash spans] at read
      obtain ⟨⟨later, k⟩, inner, read⟩ := bind_eq_ok_iff.mp read
      cases read
      exact ⟨rfl, later, inner, rfl⟩
  | .argument name none =>
      rw [pieces_open spans.rest] at read
      obtain ⟨⟨first, m⟩, argument, read⟩ := bind_eq_ok_iff.mp read
      obtain ⟨⟨later, k⟩, inner, read⟩ := bind_eq_ok_iff.mp read
      cases read
      obtain rfl : first = .argument name none := (List.cons.inj same).1
      have named := isName_of_argument argument
      rw [argument_plain_printed spans named] at argument
      cases argument
      exact ⟨named, later, inner, rfl⟩
  | .argument name (some format) =>
      rw [pieces_open spans.rest] at read
      obtain ⟨⟨first, m⟩, argument, read⟩ := bind_eq_ok_iff.mp read
      obtain ⟨⟨later, k⟩, inner, read⟩ := bind_eq_ok_iff.mp read
      cases read
      obtain rfl : first = .argument name (some format) := (List.cons.inj same).1
      have named := isName_of_argument argument
      obtain ⟨f, g, formatSpans, close, reads, readFrom⟩ := argument_format_printed spans named
      obtain ⟨after, formatRead⟩ := readFrom format m argument
      have canonical := format_readBack format formatSpans close formatRead
      rw [reads (format_printed format canonical formatSpans close)] at argument
      cases argument
      refine ⟨?_, later, inner, rfl⟩
      simp only [Element.isReadable, Element.isCanonical, named, canonical, Bool.and_true]

theorem elements_readBack (elements : List Element) {nested : Bool} {c d e : Cursor}
    {found : List Piece} (spans : c.Spans (printElements elements) d)
    (read : c.pieces nested = .ok (found, e)) (same : wholes found = wholes (piecesOf elements)) :
    (∀ x ∈ elements, x.isReadable = true) ∧
      ∃ later, d.pieces nested = .ok (later, e) ∧ found = piecesOf elements ++ later := by
  match elements with
  | [] =>
      rw [← spans.eq_of_nil] at read
      exact ⟨by simp, found, read, rfl⟩
  | first :: rest =>
      obtain ⟨m, before, after⟩ := spans.split
      rw [piecesOf_cons, wholes_append] at same
      obtain ⟨readable, middle, inner, rfl⟩ := element_readBack first before read same
      rw [wholes_append] at same
      obtain ⟨restReadable, later, ended, rfl⟩ :=
        elements_readBack rest after inner (List.append_cancel_left same)
      refine ⟨List.forall_mem_cons.mpr ⟨readable, restReadable⟩, later, ended, ?_⟩
      rw [piecesOf_cons, List.append_assoc]

theorem format_readBack (format : Format) {c d e : Cursor} {tail : List Char}
    (spans : c.Spans format.print d) (rest : d.rest = '\x7d' :: tail)
    (read : c.format = .ok (format, e)) : format.isCanonical = true := by
  match format with
  | .simple kind none => rfl
  | .simple kind (some style) =>
      obtain ⟨m, later, equation⟩ := simple_printed spans rest
      rw [equation] at read
      obtain ⟨⟨text, after⟩, inner, read⟩ := bind_eq_ok_iff.mp read
      cases read
      exact style_readBack later rest inner
  | .plural ordinal offset options =>
      obtain ⟨m, later, equation⟩ := plural_printed spans rest
      rw [equation] at read
      obtain ⟨⟨offsetFound, begun⟩, offsetRead, read⟩ := bind_eq_ok_iff.mp read
      obtain ⟨⟨optionsFound, after⟩, optionsRead, read⟩ := bind_eq_ok_iff.mp read
      simp only at read
      split at read
      · simp [Cursor.fail] at read
      · rename_i nonempty
        cases read
        have filled : options ≠ [] := by simpa using nonempty
        obtain ⟨small, plain⟩ := offset_readBack later filled offsetRead optionsRead
        obtain ⟨again, n, inner, same, offsetAgain⟩ := offset_printed later small filled plain
        rw [offsetRead] at offsetAgain
        cases offsetAgain
        rw [same] at optionsRead
        have canonical := options_readBack options inner rest optionsRead
        have unmistaken : offset ≠ 0 ∨ readsAsOffset options = false := by
          rcases plain with positive | ⟨_, other⟩
          · exact .inl (by omega)
          · exact .inr other
        simp only [Format.isCanonical, Bool.and_eq_true, decide_eq_true_eq, Bool.not_eq_true',
          Bool.or_eq_true, bne_iff_ne]
        exact ⟨⟨⟨small, by simpa using nonempty⟩, unmistaken⟩, canonical⟩
  | .select options =>
      obtain ⟨m, later, equation⟩ := select_printed spans rest
      rw [equation] at read
      obtain ⟨⟨found, after⟩, inner, read⟩ := bind_eq_ok_iff.mp read
      simp only at read
      split at read
      · simp [Cursor.fail] at read
      · rename_i nonempty
        cases read
        have canonical := options_readBack options later rest inner
        simp only [Format.isCanonical, Bool.and_eq_true, Bool.not_eq_true']
        exact ⟨by simpa using nonempty, canonical⟩

theorem choice_readBack (option : Choice) {c d e : Cursor} (spans : c.Spans option.print d)
    (selects : isSelector option.selector.toList = true)
    (read : c.choice = .ok (option, e)) : option.isCanonical = true := by
  match option with
  | .mk selector body =>
      obtain ⟨m, n, inner, close, equation⟩ := choice_printed spans selects
      rw [equation] at read
      obtain ⟨⟨found, ended⟩, bodyRead, read⟩ := bind_eq_ok_iff.mp read
      obtain ⟨closed, _, read⟩ := bind_eq_ok_iff.mp read
      have trimmed : trimBody (joinPieces found) = body := by
        cases read
        rfl
      have same : wholes found = wholes (piecesOf body) := by
        rw [← trimmed, wholes_trimBody, piecesOf_joinPieces found (pieces_proper bodyRead)]
      obtain ⟨readable, later, atClose, rfl⟩ := elements_readBack body inner bodyRead same
      rw [pieces_close close.rest] at atClose
      cases atClose
      rw [List.append_nil] at trimmed
      obtain ⟨joined, starts, ends⟩ := trimBody_eq_iff.mp trimmed
      simp only [Choice.isCanonical, Bool.and_eq_true, Bool.not_eq_true']
      exact ⟨⟨⟨selects, areCanonical_iff.mpr ⟨joined, readable⟩⟩, starts⟩, ends⟩

theorem options_readBack (options : List Choice) {c d e : Cursor} {tail : List Char}
    (spans : c.Spans (printOptions options) d) (rest : d.rest = '\x7d' :: tail)
    (read : c.choices = .ok (options, e)) : areCanonicalOptions options = true := by
  match options with
  | [] => rfl
  | first :: others =>
      obtain ⟨m, n, before, same, after⟩ := printOptions_spans spans
      obtain ⟨k, printed, selectorSpans, shown⟩ := selector_spans spans
      have selects := (selector_of_choices read selectorSpans shown (List.nil_append _).symm
        (by simp [NoBrace])).1
      have visible := (choices_of_selector spans selects).1
      obtain ⟨l, firstRead, othersRead⟩ := choices_first read
      rw [visible] at firstRead
      have canonical := choice_readBack first before selects firstRead
      rw [choice_read first canonical before] at firstRead
      cases firstRead
      rw [same] at othersRead
      simp only [areCanonicalOptions, canonical, Bool.true_and]
      exact options_readBack others after rest othersRead

end

theorem canonical_of_parse {elements : List Element} (read : parse (print elements) = .ok elements) :
    Canonical elements := by
  rw [parse_eq] at read
  obtain ⟨⟨found, ended⟩, inner, read⟩ := bind_eq_ok_iff.mp read
  have joined : joinPieces found = elements := by
    simp only at read
    split at read
    · cases read
      rfl
    · simp [Cursor.fail] at read
  have same : wholes found = wholes (piecesOf elements) := by
    rw [← joined, piecesOf_joinPieces found (pieces_proper inner)]
  obtain ⟨readable, later, atEnd, rfl⟩ :=
    elements_readBack elements (print_spans elements) inner same
  rw [pieces_end rfl] at atEnd
  cases atEnd
  rw [List.append_nil] at joined
  exact areCanonical_iff.mpr ⟨joined, readable⟩

theorem readsBack_iff {elements : List Element} :
    parse (print elements) = .ok elements ↔ Canonical elements := by
  refine ⟨canonical_of_parse, ?_⟩
  intro canonical
  obtain ⟨d, ended, read⟩ := pieces_of_print canonical
  rw [parse_of_pieces read ended, (areCanonical_iff.mp canonical).1]

/-- The canonical spelling of an accepted text is read as the same message exactly if the message is
canonical. Canonical messages keep their spelling, and only equal ones share it. -/
theorem canonicalize_preserves_iff {text : String} {elements : List Element}
    (accepted : parse text = .ok elements) :
    canonicalize text = .ok (print elements) ∧
      (parse (print elements) = .ok elements ↔ Canonical elements) ∧
      (Canonical elements → canonicalize (print elements) = .ok (print elements) ∧
        ∀ other others, parse other = .ok others → Canonical others →
          (canonicalize text = canonicalize other ↔ elements = others)) := by
  have spelling : canonicalize text = .ok (print elements) := by
    rw [canonicalize, accepted]
    rfl
  refine ⟨spelling, readsBack_iff, ?_⟩
  intro canonical
  have again := readsBack_iff.mpr canonical
  refine ⟨by rw [canonicalize, again]; rfl, ?_⟩
  intro other others otherAccepted otherCanonical
  have otherSpelling : canonicalize other = .ok (print others) := by
    rw [canonicalize, otherAccepted]
    rfl
  rw [spelling, otherSpelling]
  constructor
  · intro same
    rw [Except.ok.inj same, readsBack_iff.mpr otherCanonical] at again
    exact (Except.ok.inj again).symm
  · rintro rfl
    rfl

theorem canonicalize_preserves_styled :
    parse "\x7bn , number,compact\x7d" =
        .ok [.argument "n" (some (.simple .number (some "compact")))] ∧
      canonicalize "\x7bn , number,compact\x7d" =
        .ok (print [.argument "n" (some (.simple .number (some "compact")))]) := by
  have accepted : parse "\x7bn , number,compact\x7d" =
      .ok [.argument "n" (some (.simple .number (some "compact")))] := by
    rw [parse, String.toList_ofList]
    rfl
  exact ⟨accepted, (canonicalize_preserves_iff accepted).1⟩

/-- A style whose escapes were decoded is printed without them: the canonical spelling of the text is
read as another message, and has another canonical spelling in turn. -/
theorem canonicalize_loses_escapes :
    parse "\x7bn, number, a\\\\\\\\b\x7d" =
        .ok [.argument "n" (some (.simple .number (some "a\\\\b")))] ∧
      canonicalize "\x7bn, number, a\\\\\\\\b\x7d" = .ok "\x7bn, number, a\\\\b\x7d" ∧
      parse "\x7bn, number, a\\\\b\x7d" =
        .ok [.argument "n" (some (.simple .number (some "a\\b")))] ∧
      canonicalize "\x7bn, number, a\\\\b\x7d" = .ok "\x7bn, number, a\\b\x7d" := by
  have first : parse "\x7bn, number, a\\\\\\\\b\x7d" =
      .ok [.argument "n" (some (.simple .number (some "a\\\\b")))] := by
    rw [parse, String.toList_ofList]
    rfl
  have second : parse "\x7bn, number, a\\\\b\x7d" =
      .ok [.argument "n" (some (.simple .number (some "a\\b")))] := by
    rw [parse, String.toList_ofList]
    rfl
  refine ⟨first, ?_, second, ?_⟩
  · rw [canonicalize, first]
    rfl
  · rw [canonicalize, second]
    rfl

end MessageCatalog.Message
