import MessageCatalog.Message.Validator
import MessageCatalog.Proofs.Message.Joined
import MessageCatalog.Proofs.Message.Readers

/-!
The readers in front of printed text. Each separator that is printed is passed over by the reader
that expects it, so a reader in front of a printed tree goes on in front of the trees inside it.
-/

namespace MessageCatalog.Message

open Cursor

theorem expect_of_spans {c d : Cursor} {wanted : Char} (visible : isSpace wanted = false)
    (spans : c.Spans [wanted] d) : expect wanted c.skipSpace = .ok d := by
  rw [skipSpace_of_head spans.rest visible]
  exact expect_eq_ok_iff.mpr spans

theorem escape_of_char {c d : Cursor} {x : Char} (spans : c.Spans ['\\', x] d)
    (escaped : x = '\\' ∨ x = '\x7b' ∨ x = '\x7d') : escape c = .ok (.char x, d) := by
  have shown : c.rest = '\\' :: x :: d.rest := spans.rest
  have same : (⟨c.offset + 2, d.rest⟩ : Cursor) = d := by
    apply Cursor.ext
    · rw [spans.offset]
      rcases escaped with rfl | rfl | rfl <;> rfl
    · rfl
  rcases escaped with rfl | rfl | rfl
  · simp only [escape, shown, same]
  · simp only [escape, shown, same]
  · simp only [escape, shown, same]

theorem escape_of_hash {c d : Cursor} (spans : c.Spans ['\\', '#'] d) :
    escape c = .ok (.whole .escapedHash, d) := by
  have shown : c.rest = '\\' :: '#' :: d.rest := spans.rest
  have same : (⟨c.offset + 2, d.rest⟩ : Cursor) = d := Cursor.ext spans.offset.symm rfl
  simp only [escape, shown, same]

theorem pieces_of_printedChar {c d : Cursor} {nested : Bool} {x : Char}
    (spans : c.Spans (escapeChar x) d) :
    c.pieces nested =
      if isControl x then c.fail (.controlCharacter x)
      else do
        let (found, e) ← d.pieces nested
        return (.char x :: found, e) := by
  unfold escapeChar at spans
  split at spans
  · rename_i special
    simp only [Bool.or_eq_true, beq_iff_eq, or_assoc] at special
    have visible : isControl x = false := by
      rcases special with rfl | rfl | rfl <;> decide
    rw [pieces_escape spans.rest, escape_of_char spans special, ok_bind]
    simp [visible]
  · rename_i plain
    simp only [Bool.or_eq_true, beq_iff_eq, not_or] at plain
    rw [pieces_char spans.rest ⟨plain.2, plain.1.2⟩ plain.1.1, Spans.unique (.next spans.rest) spans]

theorem pieces_of_hash {c d : Cursor} {nested : Bool} (spans : c.Spans ['\\', '#'] d) :
    c.pieces nested = (do
      let (found, e) ← d.pieces nested
      return (.whole .escapedHash :: found, e)) := by
  rw [pieces_escape spans.rest, escape_of_hash spans, ok_bind]

/-! Arguments and their formats. -/

theorem isName_head {name : List Char} (named : isName name = true) :
    ∃ head tail, name = head :: tail ∧ isSpace head = false := by
  cases name with
  | nil => simp [isName] at named
  | cons head tail =>
      refine ⟨head, tail, rfl, ?_⟩
      simp only [isName, endsName, List.all_cons, Bool.and_eq_true, Bool.not_eq_true',
        Bool.or_eq_false_iff] at named
      exact named.2.1.1.1.1.1.1.1.1

theorem argument_shape {c d : Cursor} {element : Element} (read : c.argument = .ok (element, d)) :
    ∃ name format, element = .argument name format ∧ isName name.toList = true := by
  rw [argument_eq] at read
  obtain ⟨opened, _, read⟩ := bind_eq_ok_iff.mp read
  obtain ⟨⟨name, named⟩, second, read⟩ := bind_eq_ok_iff.mp read
  obtain ⟨⟨format, formatted⟩, _, read⟩ := bind_eq_ok_iff.mp read
  obtain ⟨closed, _, read⟩ := bind_eq_ok_iff.mp read
  cases read
  exact ⟨name, format, rfl, (argumentName_eq_ok_iff.mp second).2.1⟩

theorem isName_of_argument {c d : Cursor} {name : String} {format : Option Format}
    (read : c.argument = .ok (.argument name format, d)) : isName name.toList = true := by
  obtain ⟨found, _, same, named⟩ := argument_shape read
  rwa [(Element.argument.inj same).1]

theorem argument_of_name {c d : Cursor} {name : String} {next : Char} {printed : List Char}
    (spans : c.Spans ('\x7b' :: name.toList ++ next :: printed) d) (named : isName name.toList = true)
    (ends : endsName next = true) (visible : isSpace next = false) :
    ∃ m : Cursor, m.Spans (next :: printed) d ∧
      c.argument = (do
        let (format, formatted) ← announced Cursor.format m
        let closed ← expect '\x7d' formatted.skipSpace
        return (.argument name format, closed)) := by
  rw [List.cons_append, ← List.singleton_append] at spans
  obtain ⟨opened, brace, later⟩ := spans.split
  obtain ⟨m, nameSpans, later⟩ := later.split
  refine ⟨m, later, ?_⟩
  obtain ⟨head, tail, shape, visibleHead⟩ := isName_head named
  have atName : opened.skipSpace = opened := by
    rw [shape] at nameSpans
    exact skipSpace_of_head nameSpans.rest visibleHead
  have found : argumentName opened = .ok (name, m) :=
    argumentName_eq_ok_iff.mpr ⟨nameSpans, named, stopsRun_cons later.rest (by simp [ends])⟩
  rw [argument_eq, expect_eq_ok_iff.mpr brace, ok_bind, atName, found, ok_bind]
  dsimp only
  rw [skipSpace_of_head later.rest visible]

theorem argument_plain_printed {c d : Cursor} {name : String}
    (spans : c.Spans (Element.argument name none).print d) (named : isName name.toList = true) :
    c.argument = .ok (.argument name none, d) := by
  have shape : (Element.argument name none).print = '\x7b' :: name.toList ++ '\x7d' :: [] := by
    rw [Element.print]
  rw [shape] at spans
  obtain ⟨m, later, equation⟩ := argument_of_name spans named (by decide) (by decide)
  have nothing : announced Cursor.format m = .ok (none, m) := by
    unfold announced
    rw [later.rest]
    rfl
  rw [equation, nothing, ok_bind]
  dsimp only
  rw [expect_of_spans (by decide) later, ok_bind]
  rfl

def Format.keyword : Format → String
  | .simple kind _ => kind.keyword
  | .plural true _ _ => "selectordinal"
  | .plural false _ _ => "plural"
  | .select _ => "select"

def printStyle : Option String → List Char
  | none => []
  | some style => ',' :: ' ' :: style.toList

def printOffset (offset : Nat) : List Char :=
  if offset > 0 then offsetMark ++ Nat.toDigits 10 offset ++ [' '] else []

def Format.printTail : Format → List Char
  | .simple _ style => printStyle style
  | .plural _ offset options => ',' :: ' ' :: (printOffset offset ++ printOptions options)
  | .select options => ',' :: ' ' :: printOptions options

theorem printOffset_eq (offset : Nat) :
    (if offset > 0 then ("offset:" ++ toString offset ++ " ").toList else []) =
      printOffset offset := by
  unfold printOffset
  split
  · simp only [String.toList_append, Nat.toString_eq_repr, Nat.toList_repr]
    rfl
  · rfl

theorem print_eq_keyword (format : Format) :
    format.print = format.keyword.toList ++ format.printTail := by
  cases format with
  | simple kind style =>
      cases style with
      | none => exact (List.append_nil _).symm
      | some style => exact List.append_assoc _ _ _
  | plural ordinal offset options =>
      have shape : (Format.plural ordinal offset options).print =
          (if ordinal then "selectordinal, " else "plural, ").toList ++
            (if offset > 0 then ("offset:" ++ toString offset ++ " ").toList else []) ++
            printOptions options := rfl
      rw [shape, printOffset_eq, List.append_assoc, Format.printTail]
      cases ordinal <;> simp [Format.keyword]
  | select options =>
      have shape : (Format.select options).print = "select, ".toList ++ printOptions options := rfl
      simp [shape, Format.keyword, Format.printTail]

def keywords : List String :=
  ["number", "date", "time", "plural", "selectordinal", "select"]

theorem keyword_mem (format : Format) : format.keyword ∈ keywords := by
  cases format with
  | simple kind style => cases kind <;> simp [Format.keyword, SimpleKind.keyword, keywords]
  | plural ordinal offset options => cases ordinal <;> simp [Format.keyword, keywords]
  | select options => simp [Format.keyword, keywords]

theorem keyword_letters (format : Format) :
    format.keyword.toList ≠ [] ∧ ∀ x ∈ format.keyword.toList, x.isAlphanum = true := by
  have known : ∀ word ∈ keywords, word.toList ≠ [] ∧ word.toList.all Char.isAlphanum = true := by
    decide
  have letters := known format.keyword (keyword_mem format)
  exact ⟨letters.1, List.all_eq_true.mp letters.2⟩

theorem keyword_head (format : Format) :
    ∃ head tail, format.keyword.toList = head :: tail ∧ isSpace head = false := by
  obtain ⟨nonempty, letters⟩ := keyword_letters format
  obtain ⟨head, tail, shape⟩ := List.exists_cons_of_ne_nil nonempty
  exact ⟨head, tail, shape, not_isSpace_of_isAlphanum (letters head (by simp [shape]))⟩

theorem printTail_head (format : Format) :
    format.printTail = [] ∨ ∃ printed, format.printTail = ',' :: ' ' :: printed := by
  cases format with
  | simple kind style =>
      cases style with
      | none => exact .inl rfl
      | some style => exact .inr ⟨_, rfl⟩
  | plural ordinal offset options => exact .inr ⟨_, rfl⟩
  | select options => exact .inr ⟨_, rfl⟩

theorem keyword_printed {c d : Cursor} {format : Format} {tail : List Char}
    (spans : c.Spans format.print d) (rest : d.rest = '\x7d' :: tail) :
    ∃ m : Cursor, m.Spans format.printTail d ∧
      c.takeRun Char.isAlphanum = (format.keyword.toList, m) := by
  rw [print_eq_keyword] at spans
  obtain ⟨m, keyword, later⟩ := spans.split
  refine ⟨m, later, takeRun_eq keyword (keyword_letters format).2 ?_⟩
  rcases printTail_head format with nothing | ⟨printed, shape⟩
  · rw [nothing] at later
    rw [← later.eq_of_nil]
    exact stopsRun_cons rest (by decide)
  · rw [shape] at later
    exact stopsRun_cons later.rest (by decide)

theorem argument_format_printed {c d : Cursor} {name : String} {format : Format}
    (spans : c.Spans (Element.argument name (some format)).print d)
    (named : isName name.toList = true) :
    ∃ m n : Cursor, m.Spans format.print n ∧ n.rest = '\x7d' :: d.rest ∧
      (m.format = .ok (format, n) → c.argument = .ok (.argument name (some format), d)) ∧
      ∀ found e, c.argument = .ok (.argument name (some found), e) →
        ∃ after, m.format = .ok (found, after) := by
  have shape : (Element.argument name (some format)).print =
      '\x7b' :: name.toList ++ ',' :: (' ' :: (format.print ++ ['\x7d'])) := by
    simp [Element.print]
  rw [shape] at spans
  obtain ⟨k, later, equation⟩ := argument_of_name spans named (by decide) (by decide)
  obtain ⟨m, inner, same⟩ := spans_next_skipSpace later
  obtain ⟨n, formatSpans, close⟩ := inner.split
  have atFormat : m.skipSpace = m := by
    obtain ⟨head, letters, keyword, visible⟩ := keyword_head format
    have printed := formatSpans
    rw [print_eq_keyword, keyword] at printed
    exact skipSpace_of_head printed.rest visible
  rw [announced_comma Cursor.format later.rest, same, atFormat] at equation
  refine ⟨m, n, formatSpans, close.rest, ?_, ?_⟩
  · intro read
    rw [equation, read]
    simp only [ok_bind, pure, Except.pure]
    rw [expect_of_spans (by decide) close]
    rfl
  · intro found e read
    rw [equation] at read
    obtain ⟨⟨announcedFormat, formatted⟩, first, read⟩ := bind_eq_ok_iff.mp read
    obtain ⟨⟨inner, after⟩, second, first⟩ := bind_eq_ok_iff.mp first
    obtain ⟨closed, _, read⟩ := bind_eq_ok_iff.mp read
    cases first
    cases read
    exact ⟨_, second⟩

theorem choices_congr {c m : Cursor} (same : c.skipSpace = m.skipSpace) : c.choices = m.choices := by
  cases shown : m.skipSpace.rest with
  | nil =>
      rw [choices_stop (c := m) (by simp [shown]), choices_stop (c := c) (by simp [same, shown]), same]
  | cons head tail =>
      by_cases close : head = '\x7d'
      · rw [choices_stop (c := m) (by simp [shown, close]),
          choices_stop (c := c) (by simp [same, shown, close]), same]
      · rw [choices_more shown close, choices_more (same ▸ shown) close, same]

theorem simple_printed {c d : Cursor} {kind : SimpleKind} {style : Option String} {tail : List Char}
    (spans : c.Spans (Format.simple kind style).print d) (rest : d.rest = '\x7d' :: tail) :
    ∃ m : Cursor, m.Spans (printStyle style) d ∧
      c.format = (do
        let (style, after) ← Message.style m
        return (.simple kind style, after)) := by
  obtain ⟨m, later, run⟩ := keyword_printed spans rest
  refine ⟨m, later, format_simple run ?_⟩
  rw [String.ofList_toList, Format.keyword]
  cases kind <;> decide

theorem plural_printed {c d : Cursor} {ordinal : Bool} {offset : Nat} {options : List Choice}
    {tail : List Char} (spans : c.Spans (Format.plural ordinal offset options).print d)
    (rest : d.rest = '\x7d' :: tail) :
    ∃ m : Cursor, m.Spans (printOffset offset ++ printOptions options) d ∧
      c.format = (do
        let (offset, begun) ← pluralOffset m.skipSpace
        let (options, after) ← begun.choices
        if options.isEmpty then after.fail .missingOption
        else return (.plural ordinal offset options, after)) := by
  obtain ⟨k, later, run⟩ := keyword_printed spans rest
  obtain ⟨m, inner, same⟩ := spans_next_skipSpace later
  refine ⟨m, inner, ?_⟩
  have comma : k.skipSpace = k := skipSpace_of_head later.rest (by decide)
  have word : String.ofList (Format.plural ordinal offset options).keyword.toList =
      if ordinal then "selectordinal" else "plural" := by
    cases ordinal <;> simp [Format.keyword]
  rw [format_plural run word, comma, expect_eq_ok_iff.mpr (.next later.rest), ok_bind, same]

theorem select_printed {c d : Cursor} {options : List Choice} {tail : List Char}
    (spans : c.Spans (Format.select options).print d) (rest : d.rest = '\x7d' :: tail) :
    ∃ m : Cursor, m.Spans (printOptions options) d ∧
      c.format = (do
        let (options, after) ← m.choices
        if options.isEmpty then after.fail .missingOption
        else return (.select options, after)) := by
  obtain ⟨k, later, run⟩ := keyword_printed spans rest
  obtain ⟨m, inner, same⟩ := spans_next_skipSpace later
  refine ⟨m, inner, ?_⟩
  have comma : k.skipSpace = k := skipSpace_of_head later.rest (by decide)
  rw [format_select run (by simp [Format.keyword]), comma,
    expect_eq_ok_iff.mpr (.next later.rest), ok_bind, choices_congr same]

/-! Options. -/

theorem printOptions_spans {c d : Cursor} {first : Choice} {rest : List Choice}
    (spans : c.Spans (printOptions (first :: rest)) d) :
    ∃ m n : Cursor, c.Spans first.print m ∧ m.choices = n.choices ∧
      n.Spans (printOptions rest) d := by
  cases rest with
  | nil => exact ⟨d, d, spans, rfl, .refl d⟩
  | cons second rest =>
      have shape : printOptions (first :: second :: rest) =
          first.print ++ ([' '] ++ printOptions (second :: rest)) := rfl
      rw [shape] at spans
      obtain ⟨m, before, later⟩ := spans.split
      obtain ⟨n, space, later⟩ := later.split
      exact ⟨m, n, before, choices_congr (skipSpace_of_spaces space (by simp [isSpace])), later⟩

theorem print_selector (option : Choice) :
    ∃ printed, option.print = option.selector.toList ++ ' ' :: '\x7b' :: printed := by
  cases option with
  | mk selector body =>
      exact ⟨printElements body ++ ['\x7d'], by simp [Choice.print, Choice.selector]⟩

theorem selector_spans {c d : Cursor} {first : Choice} {rest : List Choice}
    (spans : c.Spans (printOptions (first :: rest)) d) :
    ∃ (m : Cursor) (printed : List Char), c.Spans first.selector.toList m ∧
      m.rest = ' ' :: '\x7b' :: printed := by
  obtain ⟨k, _, firstSpans, _, _⟩ := printOptions_spans spans
  obtain ⟨printed, shape⟩ := print_selector first
  rw [shape] at firstSpans
  obtain ⟨m, before, later⟩ := firstSpans.split
  exact ⟨m, _, before, later.rest⟩

theorem isPrefixOf_append_cons {mark text more : List Char} {x : Char} (absent : x ∉ mark) :
    mark.isPrefixOf (text ++ x :: more) = mark.isPrefixOf text := by
  induction mark generalizing text with
  | nil => simp
  | cons first mark ih =>
      simp only [List.mem_cons, not_or] at absent
      cases text with
      | nil => simp [List.isPrefixOf_cons_cons, Ne.symm absent.1]
      | cons head tail => simp [List.isPrefixOf_cons_cons, ih absent.2]

theorem isPrefixOf_printOptions {c d : Cursor} {options : List Choice} (nonempty : options ≠ [])
    (spans : c.Spans (printOptions options) d) :
    offsetMark.isPrefixOf c.rest = readsAsOffset options := by
  obtain ⟨first, rest, rfl⟩ := List.exists_cons_of_ne_nil nonempty
  obtain ⟨k, printed, selects, shown⟩ := selector_spans spans
  rw [selects.rest, shown, isPrefixOf_append_cons (by decide)]
  rfl

theorem choices_of_selector {c d : Cursor} {first : Choice} {rest : List Choice}
    (spans : c.Spans (printOptions (first :: rest)) d)
    (selects : isSelector first.selector.toList = true) :
    c.skipSpace = c ∧
      c.choices = (do
        let (option, after) ← c.choice
        let (found, e) ← after.choices
        return (option :: found, e)) := by
  obtain ⟨m, printed, before, _⟩ := selector_spans spans
  obtain ⟨head, tail, shape, visible, notClose⟩ := isSelector_head selects
  rw [shape] at before
  have same : c.skipSpace = c := skipSpace_of_head before.rest visible
  have more := choices_more (c := c) (same ▸ before.rest) notClose
  rw [same] at more
  exact ⟨same, more⟩

theorem choice_printed {c d : Cursor} {selector : String} {body : List Element}
    (spans : c.Spans (Choice.mk selector body).print d)
    (selects : isSelector selector.toList = true) :
    ∃ m n : Cursor, m.Spans (printElements body) n ∧ n.Spans ['\x7d'] d ∧
      c.choice = (do
        let (found, ended) ← m.pieces true
        let closed ← expect '\x7d' ended
        return (.mk selector (trimBody (joinPieces found)), closed)) := by
  have shape : (Choice.mk selector body).print =
      selector.toList ++ ([' '] ++ (['\x7b'] ++ (printElements body ++ ['\x7d']))) := by
    simp [Choice.print]
  rw [shape] at spans
  obtain ⟨selected, before, later⟩ := spans.split
  have read := selector_printed before selects later.rest
  obtain ⟨k, space, later⟩ := later.split
  obtain ⟨m, brace, later⟩ := later.split
  obtain ⟨n, inner, close⟩ := later.split
  refine ⟨m, n, inner, close, ?_⟩
  have atBrace : selected.skipSpace = k := by
    rw [skipSpace_of_spaces space (by simp [isSpace])]
    exact skipSpace_of_head brace.rest (by decide)
  rw [choice_eq, read, ok_bind]
  dsimp only
  rw [atBrace, expect_eq_ok_iff.mpr brace, ok_bind]

theorem offset_printed {c d : Cursor} {offset : Nat} {options : List Choice}
    (spans : c.Spans (printOffset offset ++ printOptions options) d) (small : offset < UInt64.size)
    (nonempty : options ≠ [])
    (unmistaken : 0 < offset ∨ c.skipSpace = c ∧ readsAsOffset options = false) :
    ∃ m n : Cursor, n.Spans (printOptions options) d ∧ m.choices = n.choices ∧
      pluralOffset c.skipSpace = .ok (offset, m) := by
  by_cases positive : 0 < offset
  · rw [printOffset, if_pos positive, List.append_assoc] at spans
    obtain ⟨m, before, later⟩ := spans.split
    obtain ⟨n, space, later⟩ := later.split
    refine ⟨m, n, later, choices_congr (skipSpace_of_spaces space (by simp [isSpace])), ?_⟩
    rw [skipSpace_of_head before.rest (by decide)]
    exact pluralOffset_printed positive small before space.rest
  · obtain rfl : offset = 0 := by omega
    rw [printOffset, if_neg positive, List.nil_append] at spans
    refine ⟨c, c, spans, rfl, ?_⟩
    obtain ⟨visible, unmistaken⟩ := unmistaken.resolve_left positive
    rw [visible]
    apply pluralOffset_of_other
    rw [isPrefixOf_printOptions nonempty spans]
    exact unmistaken

end MessageCatalog.Message
