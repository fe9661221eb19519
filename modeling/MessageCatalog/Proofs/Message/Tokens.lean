import MessageCatalog.Proofs.Message.Spans

/-!
The readers of single tokens: expected characters, escapes, and runs of characters with their
escapes decoded. A run without escapes is read as it is written; a run with an escape never is.
-/

namespace MessageCatalog.Message

def endsToken (c : Char) : Bool :=
  isSpace c || c == '\x7b' || c == '\x7d'

def isTokenChar (c : Char) : Bool :=
  !endsToken c && c != '\\' && !isControl c

theorem expect_eq_ok_iff {wanted : Char} {c d : Cursor} :
    expect wanted c = .ok d ↔ c.Spans [wanted] d := by
  constructor
  · intro found
    cases shown : c.rest with
    | nil => simp [expect, shown, Cursor.fail] at found
    | cons head tail =>
        by_cases same : head = wanted
        · subst head
          simp only [expect, shown, BEq.rfl, if_true, Except.ok.injEq] at found
          rw [← found]
          exact .next shown
        · simp [expect, shown, same, Cursor.fail] at found
  · intro spans
    have shown : c.rest = wanted :: d.rest := spans.rest
    simp [expect, shown, Cursor.Spans.unique spans (.next shown)]

theorem digitValue?_utf8Size {x : Char} (found : (Text.digitValue? x).isSome) :
    x.utf8Size = 1 := by
  apply Char.utf8Size_eq_one_iff.mpr
  simp only [Text.digitValue?, Bool.and_eq_true, decide_eq_true_eq, Char.le_def] at found
  split at found
  next range => exact UInt32.le_trans range.2 (by decide)
  next =>
    split at found
    next range => exact UInt32.le_trans range.2 (by decide)
    next =>
      split at found
      next range => exact UInt32.le_trans range.2 (by decide)
      next => simp at found

theorem hexEscape?_some {text after : List Char} {x : Char}
    (found : hexEscape? text = some (x, after)) :
    ∃ digits, digits.length = 4 ∧ (∀ digit ∈ digits, (Text.digitValue? digit).isSome) ∧
      text = digits ++ after := by
  match text, found with
  | a :: b :: c :: d :: rest, found =>
      simp only [hexEscape?, Option.bind_eq_bind, Option.bind_eq_some_iff, Option.pure_def,
        Option.some.injEq, Prod.mk.injEq] at found
      obtain ⟨first, firstValue, second, secondValue, third, thirdValue, fourth, fourthValue,
        code, _, _, rfl⟩ := found
      refine ⟨[a, b, c, d], rfl, ?_, rfl⟩
      intro digit member
      simp only [List.mem_cons, List.not_mem_nil, or_false] at member
      rcases member with rfl | rfl | rfl | rfl
      · simp [firstValue]
      · simp [secondValue]
      · simp [thirdValue]
      · simp [fourthValue]

inductive IsEscape : List Char → Piece → Prop
  | hash : IsEscape ['\\', '#'] (.whole .escapedHash)
  | char {x : Char} : x = '\x7b' ∨ x = '\x7d' ∨ x = '\\' → IsEscape ['\\', x] (.char x)
  | code {digits : List Char} {x : Char} : digits.length = 4 →
      (∀ digit ∈ digits, (Text.digitValue? digit).isSome) →
      IsEscape ('\\' :: 'u' :: digits) (.char x)

theorem byteLength_of_digits {digits : List Char}
    (holds : ∀ digit ∈ digits, (Text.digitValue? digit).isSome) :
    Text.byteLength digits = digits.length := by
  induction digits with
  | nil => rfl
  | cons digit rest ih =>
      have first := digitValue?_utf8Size (holds digit (by simp))
      have later := ih (fun x member => holds x (by simp [member]))
      rw [Text.byteLength_cons, first, later, List.length_cons, Nat.add_comm]

theorem escape_spans {c d : Cursor} {piece : Piece} (found : escape c = .ok (piece, d)) :
    ∃ text, IsEscape text piece ∧ c.Spans text d := by
  unfold escape at found
  split at found
  · rename_i tail shown
    simp only [Except.ok.injEq, Prod.mk.injEq] at found
    obtain ⟨rfl, rfl⟩ := found
    exact ⟨['\\', '#'], .hash, shown, rfl⟩
  · rename_i tail shown
    simp only [Except.ok.injEq, Prod.mk.injEq] at found
    obtain ⟨rfl, rfl⟩ := found
    exact ⟨['\\', '\x7b'], .char (by simp), shown, rfl⟩
  · rename_i tail shown
    simp only [Except.ok.injEq, Prod.mk.injEq] at found
    obtain ⟨rfl, rfl⟩ := found
    exact ⟨['\\', '\x7d'], .char (by simp), shown, rfl⟩
  · rename_i tail shown
    simp only [Except.ok.injEq, Prod.mk.injEq] at found
    obtain ⟨rfl, rfl⟩ := found
    exact ⟨['\\', '\\'], .char (by simp), shown, rfl⟩
  · rename_i tail shown
    split at found
    · rename_i x after decoded
      simp only [Except.ok.injEq, Prod.mk.injEq] at found
      obtain ⟨rfl, rfl⟩ := found
      obtain ⟨digits, four, holds, rfl⟩ := hexEscape?_some decoded
      refine ⟨'\\' :: 'u' :: digits, .code four holds, shown, ?_⟩
      rw [Text.byteLength_cons, Text.byteLength_cons, byteLength_of_digits holds, four]
      rfl
    · simp [Cursor.fail] at found
  · simp [Cursor.fail] at found

theorem IsEscape.length_ge {text : List Char} {piece : Piece} (escaped : IsEscape text piece) :
    2 ≤ text.length := by
  cases escaped with
  | hash => simp
  | char _ => simp
  | code _ _ => simp

theorem escape_length {c d : Cursor} {piece : Piece} (found : escape c = .ok (piece, d)) :
    d.rest.length + 2 ≤ c.rest.length := by
  obtain ⟨text, escaped, spans⟩ := escape_spans found
  have length := spans.length_eq
  have short := escaped.length_ge
  omega

theorem token_fuel (fuel : Nat) (c : Cursor) (enough : c.rest.length ≤ fuel) :
    token fuel c = c.token := by
  have irrelevant : ∀ (first second : Nat) (c : Cursor), c.rest.length ≤ first →
      c.rest.length ≤ second → token first c = token second c := by
    intro first
    induction first with
    | zero =>
        intro second c firstEnough _
        have empty : c.rest = [] := List.length_eq_zero_iff.mp (by omega)
        cases second with
        | zero => rfl
        | succ second => simp [token, empty]
    | succ first ih =>
        intro second c firstEnough secondEnough
        cases second with
        | zero =>
            have empty : c.rest = [] := List.length_eq_zero_iff.mp (by omega)
            simp [token, empty]
        | succ second =>
            cases shown : c.rest with
            | nil => simp [token, shown]
            | cons head tail =>
                have step := (Cursor.Spans.next shown).length_eq
                simp only [List.length_singleton] at step
                simp only [token, shown]
                rw [ih second c.next (by omega) (by omega)]
                split
                · rfl
                · split
                  · cases escaped : escape c with
                    | error e => rfl
                    | ok found =>
                        obtain ⟨piece, after⟩ := found
                        have shorter := escape_length escaped
                        simp only [ok_bind]
                        rw [ih second after (by omega) (by omega)]
                  · rfl
  exact irrelevant fuel c.rest.length c enough (Nat.le_refl _)

namespace Cursor

theorem token_of_stops {c : Cursor} (stops : c.StopsRun (fun x => !endsToken x)) :
    c.token = .ok ([], c) := by
  unfold Cursor.token
  cases shown : c.rest with
  | nil => simp [Message.token]
  | cons head tail =>
      have ends : endsToken head = true := by
        simpa using stops head (by simp [shown])
      simp only [endsToken] at ends
      simp [Message.token, shown, ends]

theorem token_plain {c : Cursor} {head : Char} {tail : List Char} (rest : c.rest = head :: tail)
    (plain : isTokenChar head = true) :
    c.token = (do let (text, d) ← c.next.token; return (head :: text, d)) := by
  have step := (Spans.next rest).length_eq
  simp only [List.length_singleton] at step
  simp only [isTokenChar, endsToken, Bool.and_eq_true, Bool.not_eq_true', bne_iff_ne, ne_eq] at plain
  rw [← token_fuel c.rest.length c (Nat.le_refl _), step, Nat.add_comm]
  simp only [Message.token, rest, plain, beq_iff_eq]
  rw [token_fuel _ c.next (Nat.le_refl _)]
  rfl

theorem token_escape {c : Cursor} {tail : List Char} (rest : c.rest = '\\' :: tail) :
    c.token = (do
      let (piece, d) ← escape c
      let (text, e) ← d.token
      match piece with
      | .char x => return (x :: text, e)
      | .whole _ => return ('#' :: text, e)) := by
  have step := (Spans.next rest).length_eq
  simp only [List.length_singleton] at step
  rw [← token_fuel c.rest.length c (Nat.le_refl _), step, Nat.add_comm]
  simp only [Message.token, rest]
  cases escaped : escape c with
  | error e => rfl
  | ok found =>
      obtain ⟨piece, after⟩ := found
      have shorter := escape_length escaped
      simp only [ok_bind]
      rw [token_fuel _ after (by omega)]
      rfl

theorem token_control {c : Cursor} {head : Char} {tail : List Char}
    (rest : c.rest = head :: tail) (inside : endsToken head = false) (notEscape : head ≠ '\\')
    (control : isControl head = true) : c.token = c.fail (.controlCharacter head) := by
  have step := (Spans.next rest).length_eq
  simp only [List.length_singleton] at step
  simp only [endsToken] at inside
  rw [← token_fuel c.rest.length c (Nat.le_refl _), step, Nat.add_comm]
  simp [Message.token, rest, inside, notEscape, control]

end Cursor

def Piece.decoded : Piece → Char
  | .char x => x
  | .whole _ => '#'

inductive ReadsToken : Cursor → List Char → Cursor → Prop
  | stop {c} : c.StopsRun (fun x => !endsToken x) → ReadsToken c [] c
  | plain {c m d head text} : c.Spans [head] m → isTokenChar head = true →
      ReadsToken m text d → ReadsToken c (head :: text) d
  | escape {c m d source piece text} : IsEscape source piece → c.Spans source m →
      ReadsToken m text d → ReadsToken c (piece.decoded :: text) d

theorem token_reads {c d : Cursor} {text : List Char} (found : c.token = .ok (text, d)) :
    ReadsToken c text d := by
  generalize size : c.rest.length = length
  induction length using Nat.strongRecOn generalizing c text with
  | ind length ih =>
      cases shown : c.rest with
      | nil =>
          have stops : c.StopsRun (fun x => !endsToken x) := by simp [Cursor.StopsRun, shown]
          rw [Cursor.token_of_stops stops] at found
          cases found
          exact .stop stops
      | cons head tail =>
          have step := Cursor.Spans.next shown
          have shorter := step.length_eq
          simp only [List.length_singleton] at shorter
          cases ends : endsToken head with
          | true =>
              have stops : c.StopsRun (fun x => !endsToken x) :=
                Cursor.stopsRun_cons shown (by simp [ends])
              rw [Cursor.token_of_stops stops] at found
              cases found
              exact .stop stops
          | false =>
              by_cases escaped : head = '\\'
              · subst head
                rw [Cursor.token_escape shown] at found
                obtain ⟨⟨piece, m⟩, first, found⟩ := bind_eq_ok_iff.mp found
                obtain ⟨⟨later, e⟩, second, found⟩ := bind_eq_ok_iff.mp found
                obtain ⟨source, isEscape, spans⟩ := escape_spans first
                have length := escape_length first
                cases piece with
                | char x =>
                    cases found
                    exact .escape isEscape spans (ih m.rest.length (by omega) second rfl)
                | whole element =>
                    cases found
                    exact .escape isEscape spans (ih m.rest.length (by omega) second rfl)
              · cases control : isControl head with
                | true => simp [Cursor.token_control shown ends escaped control, Cursor.fail] at found
                | false =>
                    have plain : isTokenChar head = true := by
                      simp [isTokenChar, ends, escaped, control]
                    rw [Cursor.token_plain shown plain] at found
                    obtain ⟨⟨later, e⟩, second, found⟩ := bind_eq_ok_iff.mp found
                    cases found
                    exact .plain step plain (ih c.next.rest.length (by omega) second rfl)

theorem ReadsToken.reaches {c d : Cursor} {text : List Char} (reads : ReadsToken c text d) :
    c.Reaches d := by
  induction reads with
  | stop _ => exact .refl _
  | plain spans _ _ ih => exact .trans ⟨_, spans⟩ ih
  | escape _ spans _ ih => exact .trans ⟨_, spans⟩ ih

theorem ReadsToken.length_le {c d : Cursor} {text : List Char} (reads : ReadsToken c text d) :
    text.length + d.rest.length ≤ c.rest.length := by
  induction reads with
  | stop _ => simp
  | plain spans _ _ ih =>
      have step := spans.length_eq
      simp only [List.length_singleton] at step
      simp only [List.length_cons]
      omega
  | escape isEscape spans _ ih =>
      have step := spans.length_eq
      have short := isEscape.length_ge
      simp only [List.length_cons]
      omega

theorem token_eq {c d : Cursor} {text : List Char} (spans : c.Spans text d)
    (plain : ∀ x ∈ text, isTokenChar x = true) (stops : d.StopsRun (fun x => !endsToken x)) :
    c.token = .ok (text, d) := by
  induction text generalizing c with
  | nil =>
      rw [spans.eq_of_nil] at stops ⊢
      exact Cursor.token_of_stops stops
  | cons head tail ih =>
      obtain ⟨shown, later⟩ := spans.cons
      rw [Cursor.token_plain shown (plain head (by simp)),
        ih later (fun x member => plain x (by simp [member]))]
      rfl

def NoBrace (text : List Char) : Prop :=
  ∀ x ∈ text, x ≠ '\x7b' ∧ x ≠ '\x7d'

def EndsPrinted (x : Char) : Prop :=
  x = ' ' ∨ x = '\x7d'

theorem IsEscape.noBrace {source : List Char} {piece : Piece} (escaped : IsEscape source piece)
    (decoded : piece.decoded ≠ '\x7b' ∧ piece.decoded ≠ '\x7d') : NoBrace source := by
  intro x member
  cases escaped with
  | hash =>
      simp only [List.mem_cons, List.not_mem_nil, or_false] at member
      rcases member with rfl | rfl <;> decide
  | char _ =>
      simp only [List.mem_cons, List.not_mem_nil, or_false] at member
      rcases member with rfl | rfl
      · decide
      · exact decoded
  | code _ holds =>
      simp only [List.mem_cons] at member
      rcases member with rfl | rfl | digit
      · decide
      · decide
      · have value := holds x digit
        constructor
        · rintro rfl
          exact absurd value (by decide)
        · rintro rfl
          exact absurd value (by decide)

theorem IsEscape.decoded_of_swallowed {source before after : List Char} {piece : Piece} {x : Char}
    (escaped : IsEscape source piece) (ends : EndsPrinted x) (shape : source = before ++ x :: after) :
    piece.decoded = '\x7d' := by
  have member : x ∈ source := by simp [shape]
  cases escaped with
  | hash =>
      simp only [List.mem_cons, List.not_mem_nil, or_false] at member
      rcases ends with rfl | rfl <;> simp at member
  | char _ =>
      simp only [List.mem_cons, List.not_mem_nil, or_false] at member
      rcases ends with rfl | rfl
      · rcases member with impossible | rfl
        · simp at impossible
        · simp_all
      · rcases member with impossible | rfl
        · simp at impossible
        · rfl
  | code _ holds =>
      simp only [List.mem_cons] at member
      rcases member with rfl | rfl | digit
      · rcases ends with impossible | impossible <;> simp at impossible
      · rcases ends with impossible | impossible <;> simp at impossible
      · have value := holds x digit
        rcases ends with rfl | rfl
        · exact absurd value (by decide)
        · exact absurd value (by decide)

theorem IsEscape.lags {source after text before printed tail : List Char} {piece : Piece} {x : Char}
    (escaped : IsEscape source piece) (overlap : source ++ after = printed ++ x :: tail)
    (ends : EndsPrinted x) (shape : piece.decoded :: text = before ++ printed)
    (noBrace : NoBrace before) (inside : printed ≠ []) :
    ∃ later lag, printed = source ++ later ∧ text = lag ++ later ∧ lag ≠ [] ∧ NoBrace lag := by
  obtain ⟨first, rest, rfl⟩ : ∃ first rest, printed = first :: rest :=
    List.exists_cons_of_ne_nil inside
  have slash : first = '\\' := by
    cases escaped <;> exact (List.cons.inj overlap).1.symm
  subst slash
  have decoded : piece.decoded ≠ '\x7b' ∧ piece.decoded ≠ '\x7d' := by
    cases before with
    | nil =>
        simp only [List.nil_append, List.cons.injEq] at shape
        rw [shape.1]
        decide
    | cons q before =>
        simp only [List.cons_append, List.cons.injEq] at shape
        exact shape.1 ▸ noBrace q (by simp)
  have clear := escaped.noBrace decoded
  obtain ⟨later, shown⟩ : ∃ later, '\\' :: rest = source ++ later := by
    rcases List.append_eq_append_iff.mp overlap with ⟨later, shown, _⟩ | ⟨extra, shown, reached⟩
    · exact ⟨later, shown⟩
    · cases extra with
      | nil => exact ⟨[], by simpa using shown.symm⟩
      | cons y extra =>
          -- the escape would reach over the end of what was printed
          rw [← (List.cons.inj reached).1] at shown
          exact absurd (escaped.decoded_of_swallowed ends shown) decoded.2
  obtain ⟨more, rfl⟩ : ∃ more, source = '\\' :: more := by
    cases escaped <;> exact ⟨_, rfl⟩
  have nonempty : more ≠ [] := by
    have length := escaped.length_ge
    rintro rfl
    simp at length
  refine ⟨later, ?_⟩
  cases before with
  | nil =>
      simp only [List.nil_append, shown, List.cons_append, List.cons.injEq] at shape
      exact ⟨more, shown, shape.2, nonempty, fun y member => clear y (by simp [member])⟩
  | cons q before =>
      simp only [shown, List.cons_append, List.cons.injEq] at shape
      refine ⟨before ++ '\\' :: more, shown, by simp [shape.2], by simp, ?_⟩
      intro y member
      rcases List.mem_append.mp member with first | second
      · exact noBrace y (by simp [first])
      · exact clear y second

/-- A run that is read back as it was printed, from behind some of its characters at most, has no
character that needs an escape: every escape makes what is read shorter than what stands there. -/
theorem ReadsToken.readBack {c d e : Cursor} {text before printed tail : List Char} {x : Char}
    (reads : ReadsToken c text d) (spans : c.Spans printed e) (rest : e.rest = x :: tail)
    (ends : EndsPrinted x) (shape : text = before ++ printed) (noBrace : NoBrace before) :
    before = [] ∧ ∀ y ∈ printed, isTokenChar y = true := by
  induction reads generalizing printed before with
  | stop _ =>
      obtain ⟨rfl, rfl⟩ := List.append_eq_nil_iff.mp shape.symm
      exact ⟨rfl, by simp⟩
  | @plain c m d head text step plain _ ih =>
      cases printed with
      | nil =>
          -- the run would go on with the character that ends it
          have same : x = head := by
            have shown := step.rest
            rw [← spans.eq_of_nil, rest] at shown
            exact (List.cons.inj shown).1
          subst same
          rcases ends with rfl | rfl <;> exact absurd plain (by decide)
      | cons first printed =>
          obtain ⟨shown, later⟩ := spans.cons
          have same : head = first := by
            rw [step.rest] at shown
            exact (List.cons.inj shown).1
          subst same
          rw [← Cursor.Spans.unique step (.next shown)] at later
          cases before with
          | nil =>
              have rest : text = [] ++ printed := (List.cons.inj shape).2
              obtain ⟨_, holds⟩ := ih later rest noBrace
              refine ⟨rfl, ?_⟩
              intro y member
              rcases List.mem_cons.mp member with rfl | member
              · exact plain
              · exact holds y member
          | cons q before =>
              simp only [List.cons_append, List.cons.injEq] at shape
              obtain ⟨rfl, shape⟩ := shape
              have longer : text = (before ++ [head]) ++ printed := by simp [shape]
              have still : NoBrace (before ++ [head]) := by
                intro y member
                apply noBrace y
                simpa [or_comm] using member
              obtain ⟨impossible, _⟩ := ih later longer still
              simp at impossible
  | @escape c m d source piece text isEscape step _ ih =>
      cases printed with
      | nil =>
          have shown := step.rest
          rw [← spans.eq_of_nil, rest] at shown
          have slash : x = '\\' := by
            cases isEscape <;> exact (List.cons.inj shown).1
          subst slash
          rcases ends with impossible | impossible <;> simp at impossible
      | cons first printed =>
          have overlap := step.rest.symm.trans spans.rest
          rw [rest] at overlap
          obtain ⟨later, lag, shown, shape, nonempty, still⟩ :=
            isEscape.lags overlap ends shape noBrace (by simp)
          rw [shown] at spans
          obtain ⟨n, first, second⟩ := spans.split
          rw [← Cursor.Spans.unique step first] at second
          exact absurd (ih second shape still).1 nonempty

end MessageCatalog.Message
