import MessageCatalog.Message.Validator
import MessageCatalog.Proofs.Message.Derivation
import MessageCatalog.Proofs.Message.Shifting

/-!
Texts put behind each other. A text that is accepted is complete, so what stands behind it is read
as if it stood alone: the messages are put behind each other as well, their canonical spellings too,
and an error in the second text is the same error as many bytes further on as the first one takes.
-/

namespace MessageCatalog.Message

open Cursor

/-- Messages behind each other; where two texts meet they become one. -/
def joinMessages : List Element → List Element → List Element
  | [], later => later
  | [.text last], .text first :: later => .text (last ++ first) :: later
  | element :: rest, later => element :: joinMessages rest later

theorem joinMessages_more (element second : Element) (rest later : List Element) :
    joinMessages (element :: second :: rest) later =
      element :: joinMessages (second :: rest) later := by
  cases element <;> rfl

theorem joinMessages_apart {element : Element} (other : element.isText = false)
    (later : List Element) : joinMessages [element] later = element :: later := by
  cases element with
  | text content => cases other
  | escapedHash => rfl
  | argument name format => rfl

def prependChar (x : Char) : List Element → List Element
  | .text content :: elements => .text (String.ofList (x :: content.toList)) :: elements
  | elements => .text (String.ofList [x]) :: elements

theorem joinPieces_char (x : Char) (rest : List Piece) :
    joinPieces (.char x :: rest) = prependChar x (joinPieces rest) := by
  rw [joinPieces]
  split
  · rename_i joined
    rw [joined, prependChar]
  · rename_i apart
    rw [prependChar]
    exact apart

theorem ofList_cons_append (x : Char) (content later : String) :
    String.ofList (x :: content.toList) ++ later =
      String.ofList (x :: (content ++ later).toList) := by
  apply String.toList_inj.mp
  simp

theorem joinMessages_prependChar (x : Char) (first later : List Element) :
    joinMessages (prependChar x first) later = prependChar x (joinMessages first later) := by
  cases first with
  | nil =>
      cases later with
      | nil => rfl
      | cons head later =>
          cases head with
          | text content =>
              exact congrArg (fun text => .text text :: later) (ofList_cons_append x "" content)
          | escapedHash => rfl
          | argument name format => rfl
  | cons element rest =>
      cases rest with
      | nil =>
          cases element with
          | text content =>
              cases later with
              | nil => rfl
              | cons head later =>
                  cases head with
                  | text begun =>
                      exact congrArg (fun text => .text text :: later)
                        (ofList_cons_append x content begun)
                  | escapedHash => rfl
                  | argument name format => rfl
          | escapedHash => rfl
          | argument name format => rfl
      | cons second rest => cases element <;> simp only [prependChar, joinMessages_more]

theorem joinPieces_append {first : List Piece} (proper : ∀ piece ∈ first, piece.IsProper)
    (second : List Piece) :
    joinPieces (first ++ second) = joinMessages (joinPieces first) (joinPieces second) := by
  induction first with
  | nil => rfl
  | cons piece rest ih =>
      have later := ih fun other member => proper other (List.mem_cons_of_mem piece member)
      cases piece with
      | char x =>
          rw [List.cons_append, joinPieces_char, joinPieces_char, later, joinMessages_prependChar]
      | whole element =>
          have other : element.isText = false := proper (.whole element) List.mem_cons_self
          rw [List.cons_append, joinPieces, joinPieces, later]
          cases joinPieces rest with
          | nil => exact (joinMessages_apart other _).symm
          | cons next elements => rw [joinMessages_more]

def ReadsPiece (text : List Char) (piece : Piece) : Prop :=
  ∀ (c d : Cursor) (nested : Bool), c.Spans text d →
    c.pieces nested = (d.pieces nested).map (Prod.map (piece :: ·) id)

theorem readsPiece_raw {x : Char} (raw : isRaw x = true) : ReadsPiece [x] (.char x) := by
  intro c d nested spans
  obtain ⟨shown, behind⟩ := spans.cons
  obtain rfl := behind.eq_of_nil
  simp only [isRaw, Bool.and_eq_true, bne_iff_ne, ne_eq, Bool.not_eq_true'] at raw
  rw [pieces_char shown ⟨raw.1.1.2, raw.1.1.1⟩ raw.1.2, if_neg (by simp [raw.2])]
  cases c.next.pieces nested <;> rfl

theorem readsPiece_escape {text : List Char} {piece : Piece}
    (escaped : DerivesEscape text piece) : ReadsPiece text piece := by
  intro c d nested spans
  obtain ⟨more, rfl⟩ := escaped.head
  rw [pieces_escape spans.rest, escape_eq_ok_iff.mpr ⟨_, escaped, spans⟩, ok_bind]
  dsimp only
  cases d.pieces nested <;> rfl

theorem readsPiece_argument {text : List Char} {element : Element}
    (argument : DerivesArgument text element) : ReadsPiece text (.whole element) := by
  intro c d nested spans
  obtain ⟨more, shown⟩ : ∃ more, c.rest = '\x7b' :: more := by
    cases argument <;> exact ⟨_, spans.rest⟩
  rw [pieces_open shown, argument.read spans, ok_bind]
  dsimp only
  cases d.pieces nested <;> rfl

theorem pieces_continue {text : List Char} {found : List Piece} {c d : Cursor} (nested : Bool)
    (derived : DerivesPieces text found) (spans : c.Spans text d) :
    c.pieces nested = (d.pieces nested).map (Prod.map (found ++ ·) id) := by
  have joined (first : Piece) (later : List Piece) :
      (d.pieces nested).map (Prod.map (first :: later ++ ·) id) =
        ((d.pieces nested).map (Prod.map (later ++ ·) id)).map (Prod.map (first :: ·) id) := by
    cases d.pieces nested <;> rfl
  induction found generalizing text c with
  | nil =>
      cases derived
      rw [← spans.eq_of_nil]
      cases d.pieces nested <;> rfl
  | cons piece found ih =>
      obtain ⟨source, rest, rfl, reads, others⟩ : ∃ source rest, text = source ++ rest ∧
          ReadsPiece source piece ∧ DerivesPieces rest found := by
        cases derived with
        | raw raw others => exact ⟨[_], _, rfl, readsPiece_raw raw, others⟩
        | escape escaped others => exact ⟨_, _, rfl, readsPiece_escape escaped, others⟩
        | argument argument others => exact ⟨_, _, rfl, readsPiece_argument argument, others⟩
      obtain ⟨m, first, later⟩ := spans.split
      rw [reads c m nested first, ih others later, joined]

theorem printElements_joinMessages (first later : List Element) :
    printElements (joinMessages first later) = printElements first ++ printElements later := by
  fun_induction joinMessages first later with
  | case1 later => rfl
  | case2 last begun later => simp [printElements, Element.print]
  | case3 element rest later _ ih => rw [printElements, printElements, ih, List.append_assoc]

theorem print_joinMessages (first later : List Element) :
    print (joinMessages first later) = print first ++ print later := by
  apply String.toList_inj.mp
  simp [print, printElements_joinMessages]

theorem parse_behind {first : String} {elements : List Element}
    (accepted : parse first = .ok elements) (second : String) :
    parse (first ++ second) =
      shifted (joinMessages elements) (Text.byteLength first.toList) (parse second) := by
  obtain ⟨found, derived, joined⟩ := (parse_eq_ok_iff_derives first elements).mp accepted
  have spans : Cursor.Spans ⟨0, (first ++ second).toList⟩ first.toList
      (Cursor.shift (Text.byteLength first.toList) ⟨0, second.toList⟩) :=
    ⟨String.toList_append, rfl⟩
  have read := pieces_continue false derived spans
  rw [Cursor.pieces_shift] at read
  rw [parse_eq, parse_eq, read]
  cases outcome : (⟨0, second.toList⟩ : Cursor).pieces false with
  | error e => rfl
  | ok result =>
      obtain ⟨later, ended⟩ := result
      have message : joinPieces (found ++ later) = joinMessages elements (joinPieces later) := by
        rw [joinPieces_append derived.proper, joined.joinPieces_eq]
      simp only [shifted, moveRead, ok_bind, pure, Except.pure, Except.map, Prod.map, id_eq,
        Cursor.shift_rest]
      split
      · rw [message]
      · rfl

/-- Behind an accepted text any other one is read as it is read alone: the two messages are joined,
or the error of the second text shows as many bytes further on as the first one has. Canonical
spellings are put behind each other in the same way. -/
theorem parse_append {first : String} {elements : List Element}
    (accepted : parse first = .ok elements) (second : String) :
    (∀ whole, parse (first ++ second) = .ok whole ↔
      ∃ later, parse second = .ok later ∧ whole = joinMessages elements later) ∧
    (∀ e, parse (first ++ second) = .error e ↔
      ∃ own, parse second = .error own ∧
        e = ⟨own.offset + Text.byteLength first.toList, own.cause⟩) ∧
    ∀ spelled, canonicalize (first ++ second) = .ok spelled ↔
      ∃ before after, canonicalize first = .ok before ∧ canonicalize second = .ok after ∧
        spelled = before ++ after := by
  have read := parse_behind accepted second
  have spelling : canonicalize first = .ok (print elements) := by
    rw [canonicalize, accepted]
    rfl
  rw [spelling, canonicalize, canonicalize, read]
  cases parse second with
  | error own =>
      refine ⟨?_, ?_, ?_⟩
      · intro whole
        simp [shifted]
      · intro e
        simp [shifted, SyntaxError.shift, eq_comm]
      · intro spelled
        simp [shifted, Except.map]
  | ok later =>
      refine ⟨?_, ?_, ?_⟩
      · intro whole
        simp [shifted, eq_comm]
      · intro e
        simp [shifted]
      · intro spelled
        simp [shifted, Except.map, print_joinMessages, eq_comm]

theorem parse_append_greeting :
    parse "né \x7bname\x7d, " = .ok [.text "né ", .argument "name" none, .text ", "] ∧
      parse ("né \x7bname\x7d, " ++ "hi \\#") =
        .ok [.text "né ", .argument "name" none, .text ", hi ", .escapedHash] ∧
      parse ("né \x7bname\x7d, " ++ "hi \x7d") = .error ⟨15, .strayBrace⟩ := by
  have accepted : parse "né \x7bname\x7d, " =
      .ok [.text "né ", .argument "name" none, .text ", "] := by
    rw [parse, String.toList_ofList]
    rfl
  have second : parse "hi \\#" = .ok [.text "hi ", .escapedHash] := by
    rw [parse, String.toList_ofList]
    rfl
  have stray : parse "hi \x7d" = .error ⟨3, .strayBrace⟩ := by
    rw [parse, String.toList_ofList]
    rfl
  refine ⟨accepted, ?_, ?_⟩
  · exact ((parse_append accepted "hi \\#").1 _).mpr ⟨_, second, rfl⟩
  · exact ((parse_append accepted "hi \x7d").2.1 _).mpr ⟨_, stray, rfl⟩

end MessageCatalog.Message
