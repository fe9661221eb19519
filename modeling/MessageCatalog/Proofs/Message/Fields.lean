import MessageCatalog.Proofs.Message.Canonical

/-!
The fields of an argument: its name, numbers, the offset of a plural, styles and selectors. Each is
read as it was printed exactly if it is canonical.
-/

namespace MessageCatalog.Message

open Cursor

theorem not_isSpace_of_isTokenChar {x : Char} (plain : isTokenChar x = true) :
    isSpace x = false := by
  cases space : isSpace x with
  | false => rfl
  | true => simp [isTokenChar, endsToken, space] at plain

theorem argumentName_eq_ok_iff {c d : Cursor} {name : String} :
    argumentName c = .ok (name, d) ↔
      c.Spans name.toList d ∧ isName name.toList = true ∧ d.StopsRun (fun x => !endsName x) := by
  obtain ⟨spans, holds, stops⟩ := takeRun_spec (fun x => !endsName x) c
  constructor
  · intro found
    unfold argumentName at found
    split at found
    · simp [Cursor.fail] at found
    · rename_i run after inside shown
      simp only [shown] at spans holds stops
      simp only [Except.ok.injEq, Prod.mk.injEq] at found
      obtain ⟨rfl, rfl⟩ := found
      simp only [String.toList_ofList]
      refine ⟨spans, ?_, stops⟩
      have nonempty : run ≠ [] := fun empty => inside empty
      simpa [isName, nonempty] using holds
  · rintro ⟨nameSpans, named, nameStops⟩
    simp only [isName, Bool.and_eq_true, List.all_eq_true] at named
    have run := takeRun_eq nameSpans named.2 nameStops
    unfold argumentName
    rw [run]
    cases shown : name.toList with
    | nil => simp [shown] at named
    | cons head tail =>
        simp only [Except.ok.injEq, Prod.mk.injEq, and_true]
        rw [← shown, String.ofList_toList]

theorem number_eq_ok_iff {c d : Cursor} {digits : List Char} :
    number c = .ok (digits, d) ↔
      c.Spans digits d ∧ isNumber digits = true ∧ (digits = ['0'] ∨ d.StopsRun Char.isDigit) := by
  obtain ⟨spans, holds, stops⟩ := takeRun_spec Char.isDigit c
  constructor
  · intro found
    unfold number at found
    split at found
    · rename_i tail shown
      simp only [Except.ok.injEq, Prod.mk.injEq] at found
      obtain ⟨rfl, rfl⟩ := found
      exact ⟨.next shown, rfl, .inl rfl⟩
    · rename_i notZero
      split at found
      · simp [Cursor.fail] at found
      · rename_i run after inside shown
        simp only [shown] at spans holds stops
        simp only [Except.ok.injEq, Prod.mk.injEq] at found
        obtain ⟨rfl, rfl⟩ := found
        refine ⟨spans, ?_, .inr stops⟩
        have nonempty : run ≠ [] := fun empty => inside empty
        have leading : run.head? ≠ some '0' := by
          intro zero
          obtain ⟨rest, rfl⟩ := List.head?_eq_some_iff.mp zero
          exact notZero _ spans.rest
        simpa [isNumber, nonempty, leading] using .inr holds
  · rintro ⟨digitSpans, isNumber, ends⟩
    simp only [Message.isNumber, Bool.or_eq_true, beq_iff_eq, Bool.and_eq_true, bne_iff_ne, ne_eq,
      List.all_eq_true] at isNumber
    unfold number
    by_cases zero : digits = ['0']
    · subst zero
      have shown : c.rest = '0' :: d.rest := digitSpans.rest
      simp [shown, Spans.unique digitSpans (.next shown)]
    · obtain ⟨⟨nonempty, allDigits⟩, leading⟩ := isNumber.resolve_left zero
      have run := takeRun_eq digitSpans allDigits (ends.resolve_left zero)
      cases digits with
      | nil => simp at nonempty
      | cons head tail =>
          split
          · rename_i rest shown
            have same := (digitSpans.rest.symm.trans shown)
            simp only [List.cons_append, List.cons.injEq] at same
            simp [same.1] at leading
          · rw [run]

theorem number_reaches {c d : Cursor} {digits : List Char} (found : number c = .ok (digits, d)) :
    c.Reaches d :=
  ⟨digits, (number_eq_ok_iff.mp found).1⟩

theorem not_isSpace_of_isAlphanum {x : Char} (letter : x.isAlphanum = true) : isSpace x = false := by
  cases space : isSpace x with
  | false => rfl
  | true =>
      simp only [isSpace, Bool.or_eq_true, beq_iff_eq] at space
      rcases space with ((rfl | rfl) | rfl) | rfl <;> exact absurd letter (by decide)

theorem not_isSpace_of_isDigit {x : Char} (digit : x.isDigit = true) : isSpace x = false :=
  not_isSpace_of_isAlphanum (by simp [Char.isAlphanum, digit])

theorem digitsValue_toDigits (n : Nat) : digitsValue (Nat.toDigits 10 n) = n := by
  have same : digitsValue (Nat.toDigits 10 n) = Nat.ofDigitChars 10 (Nat.toDigits 10 n) 0 := by
    simp [digitsValue, Nat.ofDigitChars, Nat.mul_comm]
  rw [same, Nat.ofDigitChars_ten_toDigits]

theorem head?_toDigits_ne_zero (n : Nat) (positive : 0 < n) :
    (Nat.toDigits 10 n).head? ≠ some '0' := by
  induction n using Nat.strongRecOn with
  | ind n ih =>
      by_cases small : n < 10
      · rw [Nat.toDigits_of_lt_base small]
        intro zero
        simp only [List.head?_cons, Option.some.injEq] at zero
        have value := Nat.toNat_digitChar_sub_48_of_lt_ten small
        rw [zero] at value
        simp at value
        omega
      · rw [Nat.toDigits_of_base_le (by omega) (by omega), List.head?_append]
        have shorter := ih (n / 10) (by omega) (by omega)
        cases shown : (Nat.toDigits 10 (n / 10)).head? with
        | none => simp [Nat.toDigits_ne_nil] at shown
        | some digit => simpa [shown] using shorter

theorem isNumber_toDigits (n : Nat) (positive : 0 < n) : isNumber (Nat.toDigits 10 n) = true := by
  have digits : ∀ x ∈ Nat.toDigits 10 n, x.isDigit = true := fun x member =>
    Nat.isDigit_of_mem_toDigits (by omega) (by omega) member
  simpa [isNumber, Nat.toDigits_ne_nil, head?_toDigits_ne_zero n positive] using .inr digits

theorem spans_next_skipSpace {c d : Cursor} {wanted : Char} {text : List Char}
    (spans : c.Spans (wanted :: ' ' :: text) d) :
    ∃ m : Cursor, m.Spans text d ∧ c.next.skipSpace = m.skipSpace := by
  have later : c.next.Spans ([' '] ++ text) d := spans.cons.2
  obtain ⟨m, first, second⟩ := later.split
  exact ⟨m, second, skipSpace_of_spaces first (by simp [isSpace])⟩

theorem pluralOffset_of_mark {c m : Cursor} (spans : c.Spans offsetMark m) :
    pluralOffset c = (do
      let (digits, after) ← number m.skipSpace
      if digitsValue digits < UInt64.size then return (digitsValue digits, after)
      else after.fail .offsetRange) := by
  have shown : c.rest = offsetMark ++ m.rest := spans.rest
  have same : m = ⟨c.offset + 7, m.rest⟩ := Cursor.ext spans.offset rfl
  unfold pluralOffset
  split
  · rename_i rest found
    have tail : m.rest = rest := by simpa [offsetMark] using shown.symm.trans found
    rw [same, tail]
  · rename_i notMark
    exact absurd shown (notMark m.rest)

theorem pluralOffset_of_other {c : Cursor} (other : offsetMark.isPrefixOf c.rest = false) :
    pluralOffset c = .ok (0, c) := by
  unfold pluralOffset
  split
  · rename_i rest found
    simp [found, offsetMark] at other
  · rfl

theorem spans_of_isPrefixOf {c : Cursor} {mark : List Char}
    (found : mark.isPrefixOf c.rest = true) : ∃ m, c.Spans mark m := by
  obtain ⟨tail, shown⟩ := List.isPrefixOf_iff_prefix.mp found
  exact ⟨⟨_, tail⟩, shown.symm, rfl⟩

theorem pluralOffset_eq_ok {c d : Cursor} {offset : Nat}
    (found : pluralOffset c = .ok (offset, d)) :
    (offsetMark.isPrefixOf c.rest = false ∧ offset = 0 ∧ d = c) ∨
      ∃ m digits, c.Spans offsetMark m ∧ number m.skipSpace = .ok (digits, d) ∧
        offset = digitsValue digits ∧ offset < UInt64.size := by
  cases mark : offsetMark.isPrefixOf c.rest with
  | false =>
      rw [pluralOffset_of_other mark] at found
      cases found
      exact .inl ⟨rfl, rfl, rfl⟩
  | true =>
      obtain ⟨m, spans⟩ := spans_of_isPrefixOf mark
      rw [pluralOffset_of_mark spans] at found
      obtain ⟨⟨digits, after⟩, first, found⟩ := bind_eq_ok_iff.mp found
      simp only at found
      split at found
      · rename_i small
        cases found
        exact .inr ⟨m, digits, spans, first, rfl, small⟩
      · simp [Cursor.fail] at found

theorem pluralOffset_reaches {c d : Cursor} {offset : Nat}
    (found : pluralOffset c = .ok (offset, d)) : c.Reaches d := by
  rcases pluralOffset_eq_ok found with ⟨_, _, rfl⟩ | ⟨m, digits, spans, first, _, _⟩
  · exact .refl _
  · exact .trans ⟨_, spans⟩ (.trans (reaches_skipSpace m) (number_reaches first))

theorem pluralOffset_printed {c d : Cursor} {offset : Nat} {tail : List Char}
    (positive : 0 < offset) (small : offset < UInt64.size)
    (spans : c.Spans (offsetMark ++ Nat.toDigits 10 offset) d) (rest : d.rest = ' ' :: tail) :
    pluralOffset c = .ok (offset, d) := by
  obtain ⟨m, first, second⟩ := spans.split
  have isNumber := isNumber_toDigits offset positive
  have stops : m.StopsRun isSpace := by
    cases shown : Nat.toDigits 10 offset with
    | nil => exact absurd shown Nat.toDigits_ne_nil
    | cons head digits =>
        have digit : head.isDigit = true :=
          Nat.isDigit_of_mem_toDigits (by omega) (by omega) (n := offset) (b := 10) (by simp [shown])
        rw [shown] at second
        exact stopsRun_cons second.rest (not_isSpace_of_isDigit digit)
  have found : number m.skipSpace = .ok (Nat.toDigits 10 offset, d) := by
    rw [skipSpace_of_stops stops]
    exact number_eq_ok_iff.mpr ⟨second, isNumber, .inr (stopsRun_cons rest (by decide))⟩
  rw [pluralOffset_of_mark first, found, ok_bind]
  simp only [digitsValue_toDigits, small, if_true]
  rfl

theorem token_reaches {c d : Cursor} {text : List Char} (found : c.token = .ok (text, d)) :
    c.Reaches d :=
  (token_reads found).reaches

theorem style_of_other {c : Cursor} (stops : c.StopsRun isSpace) (other : c.rest.head? ≠ some ',') :
    style c = .ok (none, c) := by
  unfold style
  rw [skipSpace_of_stops stops]
  dsimp only
  split
  · rename_i shown
    simp [shown] at other
  · rfl

theorem style_of_comma {c : Cursor} {tail : List Char} (rest : c.skipSpace.rest = ',' :: tail) :
    style c = (do
      let (text, after) ← c.skipSpace.next.skipSpace.token
      if text.isEmpty then after.fail .missingStyle
      else return (some (String.ofList text), after)) := by
  unfold style
  simp only [rest]

theorem style_reaches {c d : Cursor} {found : Option String} (read : style c = .ok (found, d)) :
    c.Reaches d := by
  unfold style at read
  simp only at read
  split at read
  · obtain ⟨⟨text, after⟩, first, read⟩ := bind_eq_ok_iff.mp read
    simp only at read
    split at read
    · simp [Cursor.fail] at read
    · cases read
      exact .trans (reaches_skipSpace c) (.trans (reaches_next _)
        (.trans (reaches_skipSpace _) (token_reaches first)))
  · cases read
    exact reaches_skipSpace c

theorem stopsRun_of_ends {d : Cursor} {x : Char} {tail : List Char} (rest : d.rest = x :: tail)
    (ends : EndsPrinted x) : d.StopsRun (fun y => !endsToken y) := by
  apply stopsRun_cons rest
  rcases ends with rfl | rfl <;> decide

theorem isToken_iff {text : List Char} :
    isToken text = true ↔ text ≠ [] ∧ ∀ x ∈ text, isTokenChar x = true := by
  simp [isToken]

theorem skipSpace_printed {c d : Cursor} {printed : List Char} (spans : c.Spans printed d) :
    (∀ x ∈ printed, isSpace x = true) ∧ c.skipSpace = d.skipSpace ∨
      ∃ spaces head kept, printed = spaces ++ head :: kept ∧ (∀ x ∈ spaces, isSpace x = true) ∧
        isSpace head = false ∧ c.skipSpace.Spans (head :: kept) d := by
  have whole := List.takeWhile_append_dropWhile (p := isSpace) (l := printed)
  have spaces : ∀ x ∈ printed.takeWhile isSpace, isSpace x = true :=
    List.all_eq_true.mp List.all_takeWhile
  cases shown : printed.dropWhile isSpace with
  | nil =>
      rw [shown, List.append_nil] at whole
      rw [whole] at spaces
      exact .inl ⟨spaces, skipSpace_of_spaces spans spaces⟩
  | cons head kept =>
      have visible : isSpace head = false := by
        have first := List.head?_dropWhile_not isSpace printed
        simpa [shown] using first
      rw [shown] at whole
      rw [← whole] at spans
      obtain ⟨m, first, second⟩ := spans.split
      have same : c.skipSpace = m := by
        rw [skipSpace_of_spaces first spaces]
        exact skipSpace_of_head second.rest visible
      exact .inr ⟨_, head, kept, whole.symm, spaces, visible, same ▸ second⟩

theorem noBrace_of_spaces {text : List Char} (spaces : ∀ x ∈ text, isSpace x = true) :
    NoBrace text := by
  intro x member
  have space := spaces x member
  constructor
  · rintro rfl
    exact absurd space (by decide)
  · rintro rfl
    exact absurd space (by decide)

theorem NoBrace.append {first second : List Char} (left : NoBrace first) (right : NoBrace second) :
    NoBrace (first ++ second) := by
  intro x member
  rcases List.mem_append.mp member with inFirst | inSecond
  · exact left x inFirst
  · exact right x inSecond

theorem style_printed {c d : Cursor} {text : String} {tail : List Char}
    (spans : c.Spans (',' :: ' ' :: text.toList) d) (isToken : isToken text.toList = true)
    (rest : d.rest = '\x7d' :: tail) : style c = .ok (some text, d) := by
  obtain ⟨nonempty, plain⟩ := isToken_iff.mp isToken
  obtain ⟨m, later, same⟩ := spans_next_skipSpace spans
  have stops : m.StopsRun isSpace := by
    cases shown : text.toList with
    | nil => exact absurd shown nonempty
    | cons head kept =>
        rw [shown] at later
        exact stopsRun_cons later.rest (not_isSpace_of_isTokenChar (plain head (by simp [shown])))
  have comma : c.skipSpace = c := skipSpace_of_head spans.rest (by decide)
  have shown : c.skipSpace.rest = ',' :: (' ' :: text.toList ++ d.rest) := by
    rw [comma]
    exact spans.rest
  rw [style_of_comma shown, comma, same, skipSpace_of_stops stops,
    token_eq later plain (stopsRun_of_ends rest (.inr rfl)), ok_bind]
  simp only [List.isEmpty_iff, nonempty, if_false, String.ofList_toList]
  rfl

theorem style_readBack {c d e : Cursor} {text : String} {tail : List Char}
    (spans : c.Spans (',' :: ' ' :: text.toList) d) (rest : d.rest = '\x7d' :: tail)
    (read : style c = .ok (some text, e)) : isToken text.toList = true := by
  obtain ⟨m, later, same⟩ := spans_next_skipSpace spans
  have comma : c.skipSpace = c := skipSpace_of_head spans.rest (by decide)
  have shown : c.skipSpace.rest = ',' :: (' ' :: text.toList ++ d.rest) := by
    rw [comma]
    exact spans.rest
  rw [style_of_comma shown, comma, same] at read
  obtain ⟨⟨found, after⟩, first, read⟩ := bind_eq_ok_iff.mp read
  simp only at read
  split at read
  · simp [Cursor.fail] at read
  · rename_i nonempty
    cases read
    simp only [String.toList_ofList] at later ⊢
    rcases skipSpace_printed later with ⟨_, skipped⟩ | ⟨spaces, head, kept, shape, blank, _, spans⟩
    · rw [skipped, skipSpace_of_head rest (by decide),
        token_of_stops (stopsRun_of_ends rest (.inr rfl))] at first
      cases first
      simp at nonempty
    · obtain ⟨rfl, plain⟩ := (token_reads first).readBack spans rest (.inr rfl) shape
        (noBrace_of_spaces blank)
      rw [shape]
      exact isToken_iff.mpr ⟨by simp, plain⟩

theorem selectorText_of_equals {c : Cursor} {tail : List Char} (rest : c.rest = '=' :: tail) :
    selectorText c = (do
      let (digits, after) ← number c.next
      return ('=' :: digits, after)) := by
  unfold selectorText
  simp only [rest]

theorem selectorText_of_other {c : Cursor} (other : c.rest.head? ≠ some '=') :
    selectorText c = c.token := by
  unfold selectorText
  split
  · rename_i shown
    simp [shown] at other
  · rfl

theorem selector_eq_ok {c d : Cursor} {text : String} (found : selector c = .ok (text, d)) :
    selectorText c = .ok (text.toList, d) ∧ text.toList ≠ [] := by
  unfold selector at found
  obtain ⟨⟨read, after⟩, first, found⟩ := bind_eq_ok_iff.mp found
  simp only at found
  split at found
  · simp [Cursor.fail] at found
  · rename_i nonempty
    cases found
    simp only [String.toList_ofList]
    exact ⟨first, by simpa using nonempty⟩

theorem selectorText_reaches {c d : Cursor} {text : List Char}
    (read : selectorText c = .ok (text, d)) :
    c.Reaches d ∧ text.length + d.rest.length ≤ c.rest.length := by
  by_cases equals : c.rest.head? = some '='
  · obtain ⟨tail, shown⟩ := List.head?_eq_some_iff.mp equals
    rw [selectorText_of_equals shown] at read
    obtain ⟨⟨digits, after⟩, first, read⟩ := bind_eq_ok_iff.mp read
    cases read
    have spans := (Spans.next shown).trans (number_eq_ok_iff.mp first).1
    exact ⟨⟨_, spans⟩, Nat.le_of_eq spans.length_eq.symm⟩
  · rw [selectorText_of_other equals] at read
    have reads := token_reads read
    exact ⟨reads.reaches, reads.length_le⟩

theorem selector_reaches {c d : Cursor} {text : String} (found : selector c = .ok (text, d)) :
    c.Reaches d ∧ d.rest.length < c.rest.length := by
  obtain ⟨read, nonempty⟩ := selector_eq_ok found
  obtain ⟨reached, length⟩ := selectorText_reaches read
  have positive : 0 < text.toList.length := List.length_pos_iff.mpr nonempty
  exact ⟨reached, by omega⟩

theorem isSelector_of_isToken {head : Char} {text : List Char} (other : head ≠ '=')
    (token : isToken (head :: text) = true) : isSelector (head :: text) = true := by
  unfold isSelector
  split
  · rename_i shown
    exact absurd (List.cons.inj shown).1 other
  · exact token

theorem isSelector_head {text : List Char} (canonical : isSelector text = true) :
    ∃ head tail, text = head :: tail ∧ isSpace head = false ∧ head ≠ '\x7d' := by
  cases text with
  | nil => simp [isSelector, isToken] at canonical
  | cons head tail =>
      refine ⟨head, tail, rfl, ?_⟩
      unfold isSelector at canonical
      split at canonical
      · rename_i shown
        rw [(List.cons.inj shown).1]
        decide
      · have plain := (isToken_iff.mp canonical).2 head (by simp)
        refine ⟨not_isSpace_of_isTokenChar plain, ?_⟩
        rintro rfl
        exact absurd plain (by decide)

theorem selector_of_text {c d : Cursor} {text : String}
    (read : selectorText c = .ok (text.toList, d)) (nonempty : text.toList ≠ []) :
    selector c = .ok (text, d) := by
  unfold selector
  rw [read, ok_bind]
  simp only [List.isEmpty_iff, nonempty, if_false, String.ofList_toList]
  rfl

theorem selector_printed {c d : Cursor} {text : String} {tail : List Char}
    (spans : c.Spans text.toList d) (canonical : isSelector text.toList = true)
    (rest : d.rest = ' ' :: tail) : selector c = .ok (text, d) := by
  obtain ⟨head, kept, shape, _⟩ := isSelector_head canonical
  apply selector_of_text _ (by simp [shape])
  rw [shape] at spans canonical ⊢
  by_cases equals : head = '='
  · subst head
    have read : number c.next = .ok (kept, d) :=
      number_eq_ok_iff.mpr ⟨spans.cons.2, canonical, .inr (stopsRun_cons rest (by decide))⟩
    rw [selectorText_of_equals spans.rest, read, ok_bind]
    rfl
  · have other : c.rest.head? ≠ some '=' := by simp [spans.rest, equals]
    have isToken : isToken (head :: kept) = true := by
      unfold isSelector at canonical
      split at canonical
      · rename_i shown
        exact absurd (List.cons.inj shown).1 equals
      · exact canonical
    rw [selectorText_of_other other]
    exact token_eq spans (isToken_iff.mp isToken).2 (stopsRun_of_ends rest (.inl rfl))

theorem skipSpace_brace {c : Cursor} {tail : List Char} (shown : c.rest = ' ' :: '\x7b' :: tail) :
    c.skipSpace.rest = '\x7b' :: tail := by
  have step := Spans.next shown
  have brace : c.next.rest = '\x7b' :: tail := (List.cons.inj (step.rest.symm.trans shown)).2
  rw [skipSpace_of_spaces step (by simp [isSpace]), skipSpace_of_head brace (by decide)]
  exact brace

/-- A selector that is read back as it was printed is canonical. Where the reading began behind
some of its characters, they can only have been those in front of a number. -/
theorem selector_readBack {c d e : Cursor} {text : String} {before printed tail : List Char}
    (spans : c.Spans printed d) (rest : d.rest = ' ' :: '\x7b' :: tail)
    (read : selector c.skipSpace = .ok (text, e)) (shape : text.toList = before ++ printed)
    (noBrace : NoBrace before) :
    isSelector text.toList = true ∧ (before = [] ∨ before.head? = some '=') := by
  obtain ⟨first, nonempty⟩ := selector_eq_ok read
  by_cases equals : c.skipSpace.rest.head? = some '='
  · obtain ⟨more, shown⟩ := List.head?_eq_some_iff.mp equals
    rw [selectorText_of_equals shown] at first
    obtain ⟨⟨digits, after⟩, numeric, first⟩ := bind_eq_ok_iff.mp first
    simp only [pure, Except.pure, Except.ok.injEq, Prod.mk.injEq] at first
    rw [← first.1] at shape ⊢
    refine ⟨(number_eq_ok_iff.mp numeric).2.1, ?_⟩
    cases before with
    | nil => exact .inl rfl
    | cons q before => exact .inr (by rw [List.head?_cons, (List.cons.inj shape).1])
  · rw [selectorText_of_other equals] at first
    rcases skipSpace_printed spans with
      ⟨_, skipped⟩ | ⟨spaces, head, kept, printedShape, blank, _, keptSpans⟩
    · rw [skipped, token_of_stops (stopsRun_cons (skipSpace_brace rest) (by decide))] at first
      simp only [Except.ok.injEq, Prod.mk.injEq] at first
      exact absurd first.1.symm nonempty
    · have longer : text.toList = (before ++ spaces) ++ (head :: kept) := by
        rw [shape, printedShape, List.append_assoc]
      obtain ⟨nothing, plain⟩ := (token_reads first).readBack keptSpans rest (.inl rfl) longer
        (noBrace.append (noBrace_of_spaces blank))
      obtain ⟨rfl, rfl⟩ := List.append_eq_nil_iff.mp nothing
      have other : head ≠ '=' := by simpa [keptSpans.rest] using equals
      rw [shape, printedShape]
      exact ⟨isSelector_of_isToken other (isToken_iff.mpr ⟨by simp, plain⟩), .inl rfl⟩

end MessageCatalog.Message
