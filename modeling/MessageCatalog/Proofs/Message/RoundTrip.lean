import MessageCatalog.Proofs.Message.Printed

/-!
A canonical message is read from its printed text as it was. Each reader in front of a printed tree
finds that tree and stops behind its text, whatever stands there.
-/

namespace MessageCatalog.Message

open Cursor

variable {nested : Bool} {c d e : Cursor} {found : List Piece} {tail : List Char}

theorem text_printed {text : List Char} (plain : text.all (fun x => !isControl x) = true)
    (spans : c.Spans (text.flatMap escapeChar) d) (later : d.pieces nested = .ok (found, e)) :
    c.pieces nested = .ok (text.map .char ++ found, e) := by
  induction text generalizing c with
  | nil =>
      rw [← spans.eq_of_nil]
      exact later
  | cons head rest ih =>
      rw [List.flatMap_cons] at spans
      obtain ⟨m, first, second⟩ := spans.split
      simp only [List.all_cons, Bool.and_eq_true, Bool.not_eq_true'] at plain
      rw [pieces_of_printedChar first, ih (by simpa using plain.2) second]
      simp only [plain.1]
      rfl

theorem isSelector_of_canonical {option : Choice} (canonical : option.isCanonical = true) :
    isSelector option.selector.toList = true := by
  cases option with
  | mk selector body =>
      simp only [Choice.isCanonical, Bool.and_eq_true] at canonical
      exact canonical.1.1.1

theorem options_visible {options : List Choice} (spans : c.Spans (printOptions options) d)
    (filled : options ≠ []) (canonical : areCanonicalOptions options = true) : c.skipSpace = c := by
  obtain ⟨first, rest, rfl⟩ := List.exists_cons_of_ne_nil filled
  simp only [areCanonicalOptions, Bool.and_eq_true] at canonical
  exact (choices_of_selector spans (isSelector_of_canonical canonical.1)).1

mutual

theorem element_printed (element : Element) {nested : Bool} {c d e : Cursor} {found : List Piece}
    (readable : element.isReadable = true) (spans : c.Spans element.print d)
    (later : d.pieces nested = .ok (found, e)) :
    c.pieces nested = .ok (element.pieces ++ found, e) := by
  match element with
  | .text content => exact text_printed readable spans later
  | .escapedHash =>
      rw [pieces_of_hash spans, later]
      rfl
  | .argument name none =>
      have read := argument_plain_printed spans readable
      rw [pieces_open spans.rest, read, ok_bind]
      dsimp only
      rw [later]
      rfl
  | .argument name (some format) =>
      simp only [Element.isReadable, Element.isCanonical, Bool.and_eq_true] at readable
      obtain ⟨m, n, inner, close, reads, _⟩ := argument_format_printed spans readable.1
      have read := reads (format_printed format readable.2 inner close)
      rw [pieces_open spans.rest, read, ok_bind]
      dsimp only
      rw [later]
      rfl

theorem elements_printed (elements : List Element) {nested : Bool} {c d e : Cursor}
    {found : List Piece} (readable : ∀ x ∈ elements, x.isReadable = true)
    (spans : c.Spans (printElements elements) d) (later : d.pieces nested = .ok (found, e)) :
    c.pieces nested = .ok (piecesOf elements ++ found, e) := by
  match elements with
  | [] =>
      rw [← spans.eq_of_nil]
      exact later
  | first :: rest =>
      obtain ⟨m, before, after⟩ := spans.split
      have second := elements_printed rest (fun x member => readable x (by simp [member])) after later
      rw [element_printed first (readable first (by simp)) before second, piecesOf_cons,
        List.append_assoc]

theorem format_printed (format : Format) {c d : Cursor} {tail : List Char}
    (canonical : format.isCanonical = true) (spans : c.Spans format.print d)
    (rest : d.rest = '\x7d' :: tail) : c.format = .ok (format, d) := by
  match format with
  | .simple kind none =>
      obtain ⟨m, later, equation⟩ := simple_printed spans rest
      obtain rfl : d = m := later.eq_of_nil
      rw [equation, style_of_other (stopsRun_cons rest (by decide)) (by simp [rest])]
      rfl
  | .simple kind (some style) =>
      obtain ⟨m, later, equation⟩ := simple_printed spans rest
      rw [equation, style_printed later canonical rest]
      rfl
  | .plural ordinal offset options =>
      simp only [Format.isCanonical, Bool.and_eq_true, decide_eq_true_eq, Bool.not_eq_true',
        Bool.or_eq_true, bne_iff_ne] at canonical
      obtain ⟨⟨⟨small, nonempty⟩, unmistaken⟩, canonical⟩ := canonical
      have filled : options ≠ [] := by simpa using nonempty
      obtain ⟨m, later, equation⟩ := plural_printed spans rest
      have plain : 0 < offset ∨ m.skipSpace = m ∧ readsAsOffset options = false := by
        by_cases positive : 0 < offset
        · exact .inl positive
        · obtain rfl : offset = 0 := by omega
          exact .inr ⟨options_visible later filled canonical, unmistaken.resolve_left (by simp)⟩
      obtain ⟨begun, n, inner, same, read⟩ := offset_printed later small filled plain
      rw [equation, read, ok_bind]
      dsimp only
      rw [same, options_printed options canonical inner rest, ok_bind]
      simp only [nonempty]
      rfl
  | .select options =>
      simp only [Format.isCanonical, Bool.and_eq_true, Bool.not_eq_true'] at canonical
      obtain ⟨m, later, equation⟩ := select_printed spans rest
      rw [equation, options_printed options canonical.2 later rest, ok_bind]
      simp only [canonical.1]
      rfl

theorem choice_read (option : Choice) {c d : Cursor} (canonical : option.isCanonical = true)
    (spans : c.Spans option.print d) : c.choice = .ok (option, d) := by
  match option with
  | .mk selector body =>
      simp only [Choice.isCanonical, Bool.and_eq_true, Bool.not_eq_true'] at canonical
      obtain ⟨⟨⟨selects, inside⟩, starts⟩, ends⟩ := canonical
      obtain ⟨joined, readable⟩ := areCanonical_iff.mp inside
      obtain ⟨m, n, inner, close, equation⟩ := choice_printed spans selects
      have ended : n.pieces true = .ok ([], n) := pieces_close close.rest
      have read := elements_printed body readable inner ended
      rw [equation, read, List.append_nil, ok_bind]
      dsimp only
      rw [expect_eq_ok_iff.mpr close, ok_bind, trimBody_eq_iff.mpr ⟨joined, starts, ends⟩]
      rfl

theorem options_printed (options : List Choice) {c d : Cursor} {tail : List Char}
    (canonical : areCanonicalOptions options = true) (spans : c.Spans (printOptions options) d)
    (rest : d.rest = '\x7d' :: tail) : c.choices = .ok (options, d) := by
  match options with
  | [] =>
      obtain rfl : d = c := spans.eq_of_nil
      have visible := skipSpace_of_head rest (by decide)
      rw [choices_stop (by simp [visible, rest]), visible]
  | first :: others =>
      simp only [areCanonicalOptions, Bool.and_eq_true] at canonical
      obtain ⟨m, n, before, same, after⟩ := printOptions_spans spans
      have more := (choices_of_selector spans (isSelector_of_canonical canonical.1)).2
      rw [more, choice_read first canonical.1 before, ok_bind]
      dsimp only
      rw [same, options_printed others canonical.2 after rest]
      rfl

end

theorem print_spans (elements : List Element) :
    Cursor.Spans ⟨0, (print elements).toList⟩ (printElements elements)
      ⟨Text.byteLength (printElements elements), []⟩ := by
  refine ⟨?_, ?_⟩
  · simp [print]
  · simp

theorem pieces_of_print {elements : List Element} (canonical : Canonical elements) :
    ∃ d : Cursor, d.rest = [] ∧
      Cursor.pieces false ⟨0, (print elements).toList⟩ = .ok (piecesOf elements, d) := by
  have ended : Cursor.pieces false ⟨Text.byteLength (printElements elements), []⟩ = .ok ([], _) :=
    pieces_end rfl
  have read := elements_printed elements (areCanonical_iff.mp canonical).2 (print_spans elements) ended
  rw [List.append_nil] at read
  exact ⟨_, rfl, read⟩

/-- A canonical message is read from its printed text as it was. -/
theorem parse_print {elements : List Element} (canonical : Canonical elements) :
    parse (print elements) = .ok elements := by
  obtain ⟨d, ended, read⟩ := pieces_of_print canonical
  rw [parse_of_pieces read ended, (areCanonical_iff.mp canonical).1]

def mailMessage : List Element :=
  [.text "You have ",
    .argument "count" (some (.plural false 1
      [.mk "=0" [.text "no mail"],
        .mk "other" [.argument "n" (some (.simple .number (some "compact"))), .escapedHash,
          .text " mails \x7bnew\x7d"]]))]

theorem parse_print_mailMessage :
    Canonical mailMessage ∧ parse (print mailMessage) = .ok mailMessage := by
  have canonical : Canonical mailMessage := by decide
  exact ⟨canonical, parse_print canonical⟩

end MessageCatalog.Message
