import Mathlib.Data.List.Chain
import Mathlib.Data.List.DropRight
import MessageCatalog.Proofs.Message.Printed

/-!
The grammar of message texts, told apart from the readers. The characters, escapes and arguments of
a text are the pieces of its message, and the message joins the text characters among them to texts
as long as they can be. White space may stand between the tokens of an argument and around options,
and is dropped at both ends of an option's message, where it does not matter how it was spelled.

A mark `offset:` in front of a plural's options always begins an offset, and the number behind it
takes all the digits there are. Everything else is determined by what has to follow.
-/

namespace MessageCatalog.Message

def IsBlank (text : List Char) : Prop :=
  ∀ x ∈ text, isSpace x = true

def isRaw (c : Char) : Bool :=
  c != '\x7b' && c != '\x7d' && c != '\\' && !isControl c

/-- An escape and its piece. Four hexadecimal digits are the code of a character, so they name no
surrogate. -/
inductive DerivesEscape : List Char → Piece → Prop
  | hash : DerivesEscape ['\\', '#'] (.whole .escapedHash)
  | char {x : Char} (special : x = '\\' ∨ x = '\x7b' ∨ x = '\x7d') :
      DerivesEscape ['\\', x] (.char x)
  | code {digits : List Char} {x : Char} (four : digits.length = 4)
      (value : Text.hexNumber? digits = some x.toNat) :
      DerivesEscape ('\\' :: 'u' :: digits) (.char x)

inductive DerivesToken : List Char → List Char → Prop
  | nil : DerivesToken [] []
  | plain {x : Char} {rest chars : List Char} (plain : isTokenChar x = true)
      (later : DerivesToken rest chars) : DerivesToken (x :: rest) (x :: chars)
  | escape {source rest chars : List Char} {piece : Piece} (escaped : DerivesEscape source piece)
      (later : DerivesToken rest chars) : DerivesToken (source ++ rest) (piece.decoded :: chars)

inductive DerivesSelector : List Char → List Char → Prop
  | number {digits : List Char} (number : isNumber digits = true) :
      DerivesSelector ('=' :: digits) ('=' :: digits)
  | token {text chars : List Char} (other : text.head? ≠ some '=')
      (token : DerivesToken text chars) (filled : chars ≠ []) : DerivesSelector text chars

/-- The text of an offset in front of the text of a plural's options, which comes last. -/
inductive DerivesOffset : List Char → Nat → List Char → Prop
  | none {options : List Char} (unmarked : ¬ offsetMark <+: options.dropWhile isSpace) :
      DerivesOffset [] 0 options
  | some {gap digits options : List Char} (blank : IsBlank gap) (number : isNumber digits = true)
      (whole : digits = ['0'] ∨ ∀ x ∈ options.head?, x.isDigit = false)
      (small : digitsValue digits < UInt64.size) :
      DerivesOffset (offsetMark ++ gap ++ digits) (digitsValue digits) options

/-! ### Messages -/

/-- The message of some pieces: its texts are not empty, and no two of them stand side by side. -/
structure Joins (found : List Piece) (elements : List Element) : Prop where
  pieces : piecesOf elements = found
  filled : ∀ element ∈ elements, element.isEmptyText = false
  apart : elements.IsChain fun first second => ¬ (first.isText = true ∧ second.isText = true)

def Piece.isBlank : Piece → Bool
  | .char x => isSpace x
  | .whole _ => false

def trimPieces (found : List Piece) : List Piece :=
  (found.dropWhile Piece.isBlank).rdropWhile Piece.isBlank

mutual

inductive DerivesPieces : List Char → List Piece → Prop
  | nil : DerivesPieces [] []
  | raw {x : Char} {rest : List Char} {found : List Piece} (raw : isRaw x = true)
      (later : DerivesPieces rest found) : DerivesPieces (x :: rest) (.char x :: found)
  | escape {source rest : List Char} {piece : Piece} {found : List Piece}
      (escaped : DerivesEscape source piece) (later : DerivesPieces rest found) :
      DerivesPieces (source ++ rest) (piece :: found)
  | argument {text rest : List Char} {element : Element} {found : List Piece}
      (first : DerivesArgument text element) (later : DerivesPieces rest found) :
      DerivesPieces (text ++ rest) (.whole element :: found)

inductive DerivesArgument : List Char → Element → Prop
  | plain {before name after : List Char} (blankBefore : IsBlank before)
      (named : isName name = true) (blankAfter : IsBlank after) :
      DerivesArgument ('\x7b' :: (before ++ name ++ after ++ ['\x7d']))
        (.argument (String.ofList name) none)
  | formatted {before name gap inner text after : List Char} {format : Format}
      (blankBefore : IsBlank before) (named : isName name = true) (blankGap : IsBlank gap)
      (blankInner : IsBlank inner) (formatted : DerivesFormat text format)
      (blankAfter : IsBlank after) :
      DerivesArgument
        ('\x7b' :: (before ++ name ++ gap ++ ',' :: (inner ++ text ++ after ++ ['\x7d'])))
        (.argument (String.ofList name) (some format))

inductive DerivesFormat : List Char → Format → Prop
  | simple (kind : SimpleKind) : DerivesFormat kind.keyword.toList (.simple kind none)
  | styled (kind : SimpleKind) {gap inner text chars : List Char} (blankGap : IsBlank gap)
      (blankInner : IsBlank inner) (token : DerivesToken text chars) (filled : chars ≠ []) :
      DerivesFormat (kind.keyword.toList ++ (gap ++ ',' :: (inner ++ text)))
        (.simple kind (some (String.ofList chars)))
  | plural (ordinal : Bool) {gap inner mark text : List Char} {offset : Nat}
      {options : List Choice} (blankGap : IsBlank gap) (blankInner : IsBlank inner)
      (begun : DerivesOffset mark offset text) (several : DerivesOptions text options)
      (filled : options ≠ []) :
      DerivesFormat
        ((if ordinal then "selectordinal" else "plural").toList ++
          (gap ++ ',' :: (inner ++ (mark ++ text))))
        (.plural ordinal offset options)
  | select {gap text : List Char} {options : List Choice} (blankGap : IsBlank gap)
      (several : DerivesOptions text options) (filled : options ≠ []) :
      DerivesFormat ("select".toList ++ (gap ++ ',' :: text)) (.select options)

inductive DerivesOptions : List Char → List Choice → Prop
  | blank {text : List Char} (blank : IsBlank text) : DerivesOptions text []
  | cons {before text rest : List Char} {option : Choice} {options : List Choice}
      (blank : IsBlank before) (first : DerivesOption text option)
      (later : DerivesOptions rest options) :
      DerivesOptions (before ++ text ++ rest) (option :: options)

inductive DerivesOption : List Char → Choice → Prop
  | mk {spelled chars gap text : List Char} {found : List Piece} {body : List Element}
      (selects : DerivesSelector spelled chars) (blank : IsBlank gap)
      (inside : DerivesPieces text found) (joined : Joins (trimPieces found) body) :
      DerivesOption (spelled ++ (gap ++ '\x7b' :: (text ++ ['\x7d'])))
        (.mk (String.ofList chars) body)

end

/-- The text is a spelling of the message. -/
def Derives (text : String) (elements : List Element) : Prop :=
  ∃ found, DerivesPieces text.toList found ∧ Joins found elements

/-! ### Joining -/

variable {found : List Piece} {elements : List Element}

theorem Joins.joinPieces_eq (joined : Joins found elements) : joinPieces found = elements := by
  obtain ⟨rfl, filled, apart⟩ := joined
  induction elements with
  | nil => rfl
  | cons first rest ih =>
      have later := ih (fun element member => filled element (by simp [member])) apart.tail
      rw [piecesOf_cons]
      cases isText : first.isText with
      | false => rw [pieces_of_not_text isText, List.singleton_append, joinPieces, later]
      | true =>
          cases first with
          | escapedHash => simp [Element.isText] at isText
          | argument name format => simp [Element.isText] at isText
          | text content =>
              have nonempty : content.toList ≠ [] := by
                simpa [Element.isEmptyText] using filled (.text content) (by simp)
              have other : (joinPieces (piecesOf rest)).head?.any Element.isText = false := by
                rw [later]
                cases rest with
                | nil => rfl
                | cons second rest => simpa [isText] using (List.isChain_cons_cons.mp apart).1
              rw [Element.pieces, joinPieces_chars_other nonempty other, later,
                String.ofList_toList]

theorem joinPieces_apart (found : List Piece) (proper : ∀ piece ∈ found, piece.IsProper) :
    (joinPieces found).IsChain fun first second =>
      ¬ (first.isText = true ∧ second.isText = true) := by
  induction found with
  | nil => exact .nil
  | cons piece rest ih =>
      have later := ih (fun other member => proper other (by simp [member]))
      cases piece with
      | whole element =>
          have other : element.isText = false := proper (.whole element) (by simp)
          rw [joinPieces]
          exact List.isChain_cons.mpr ⟨by simp [other], later⟩
      | char x =>
          cases shown : (joinPieces rest).head?.any Element.isText with
          | false =>
              rw [joinPieces_char_other shown]
              refine List.isChain_cons.mpr ⟨?_, later⟩
              intro second member
              simp only [Option.mem_def.mp member, Option.any_some] at shown
              simp [shown]
          | true =>
              obtain ⟨content, elements, joined⟩ := exists_text_of_head shown
              rw [joined] at later
              rw [joinPieces_char_text joined]
              exact List.isChain_cons.mpr (List.isChain_cons.mp later)

theorem joins_joinPieces (found : List Piece) (proper : ∀ piece ∈ found, piece.IsProper) :
    Joins found (joinPieces found) :=
  ⟨piecesOf_joinPieces found proper, joinPieces_nonempty proper, joinPieces_apart found proper⟩

theorem dropWhile_chars (text : List Char) :
    (text.map Piece.char).dropWhile Piece.isBlank = (text.dropWhile isSpace).map .char := by
  rw [List.dropWhile_map]
  rfl

theorem rdropWhile_append (p : Piece → Bool) (before after : List Piece) :
    (before ++ after).rdropWhile p =
      if (after.rdropWhile p).isEmpty then before.rdropWhile p
      else before ++ after.rdropWhile p := by
  simp only [List.rdropWhile, List.reverse_append, List.dropWhile_append, List.isEmpty_reverse]
  split <;> simp

theorem rdropWhile_text (content : String) :
    (Element.text content).pieces.rdropWhile Piece.isBlank =
      piecesOf (trimLast [.text content]) := by
  simp only [Element.pieces, List.rdropWhile, ← List.map_reverse, dropWhile_chars, trimLast,
    piecesOf_cons, String.toList_ofList]
  exact (List.append_nil _).symm

theorem rdropWhile_other {element : Element} (other : element.isText = false) :
    element.pieces.rdropWhile Piece.isBlank = element.pieces := by
  rw [pieces_of_not_text other]
  rfl

theorem piecesOf_trimHead (joined : Joins found elements) :
    piecesOf (trimHead elements) = found.dropWhile Piece.isBlank := by
  obtain ⟨rfl, _, apart⟩ := joined
  cases elements with
  | nil => rfl
  | cons first rest =>
      cases isText : first.isText with
      | false =>
          have same : trimHead (first :: rest) = first :: rest := by
            cases first with
            | text content => simp [Element.isText] at isText
            | escapedHash => rfl
            | argument name format => rfl
          rw [same, piecesOf_cons, pieces_of_not_text isText]
          rfl
      | true =>
          cases first with
          | escapedHash => simp [Element.isText] at isText
          | argument name format => simp [Element.isText] at isText
          | text content =>
              -- behind a text of spaces stands no other text, so nothing more is dropped
              have kept : (piecesOf rest).dropWhile Piece.isBlank = piecesOf rest := by
                cases rest with
                | nil => rfl
                | cons second rest =>
                    have other : second.isText = false := by
                      simpa [isText] using (List.isChain_cons_cons.mp apart).1
                    rw [piecesOf_cons, pieces_of_not_text other]
                    rfl
              rw [trimHead, piecesOf_cons, piecesOf_cons, Element.pieces, Element.pieces,
                String.toList_ofList, List.dropWhile_append, dropWhile_chars, kept]
              split
              · rename_i empty
                rw [List.isEmpty_iff.mp empty, List.nil_append]
              · rfl

theorem piecesOf_trimLast
    (apart : elements.IsChain fun first second => ¬ (first.isText = true ∧ second.isText = true)) :
    piecesOf (trimLast elements) = (piecesOf elements).rdropWhile Piece.isBlank := by
  induction elements with
  | nil => rfl
  | cons first rest ih =>
      cases rest with
      | nil =>
          cases first with
          | text content =>
              rw [← rdropWhile_text, piecesOf_cons]
              simp [piecesOf]
          | escapedHash => rfl
          | argument name format => rfl
      | cons second rest =>
          obtain ⟨beside, later⟩ := List.isChain_cons_cons.mp apart
          rw [trimLast_cons_cons, piecesOf_cons, ih later, piecesOf_cons first,
            rdropWhile_append]
          split
          · rename_i empty
            -- only texts are dropped, and in front of a text stands none
            have last : first.isText = false := by
              cases isText : second.isText with
              | true => simpa [isText] using beside
              | false =>
                  rw [piecesOf_cons, pieces_of_not_text isText, List.isEmpty_iff,
                    List.rdropWhile_eq_nil_iff] at empty
                  exact absurd (empty (.whole second) (by simp)) (by simp [Piece.isBlank])
            rw [List.isEmpty_iff.mp empty, List.append_nil, rdropWhile_other last]
          · rfl

theorem isText_trimHead (elements : List Element) :
    (trimHead elements).map Element.isText = elements.map Element.isText := by
  unfold trimHead
  split
  · rfl
  · rfl

theorem isText_trimLast (elements : List Element) :
    (trimLast elements).map Element.isText = elements.map Element.isText := by
  induction elements with
  | nil => rfl
  | cons first rest ih =>
      cases rest with
      | nil => cases first <;> rfl
      | cons second rest =>
          rw [trimLast_cons_cons, List.map_cons, ih]
          rfl

theorem apart_congr {first second : List Element}
    (same : first.map Element.isText = second.map Element.isText)
    (apart : second.IsChain fun a b => ¬ (a.isText = true ∧ b.isText = true)) :
    first.IsChain fun a b => ¬ (a.isText = true ∧ b.isText = true) := by
  have mapped : (second.map Element.isText).IsChain fun a b => ¬ (a = true ∧ b = true) :=
    (List.isChain_map _).mpr apart
  rw [← same] at mapped
  exact (List.isChain_map _).mp mapped

theorem filter_trimLast_only (only : Element) :
    (trimLast [only]).filter (fun element => !element.isEmptyText) <+: trimLast [only] := by
  obtain ⟨last, shape⟩ : ∃ last, trimLast [only] = [last] := by
    cases only <;> exact ⟨_, rfl⟩
  rw [shape, List.filter_cons]
  split
  · exact List.prefix_rfl
  · exact List.nil_prefix

theorem filter_trimLast_kept (filled : ∀ element ∈ elements, element.isEmptyText = false) :
    (trimLast elements).filter (fun element => !element.isEmptyText) <+: trimLast elements := by
  induction elements with
  | nil => exact List.prefix_rfl
  | cons first rest ih =>
      obtain ⟨present, later⟩ := List.forall_mem_cons.mp filled
      cases rest with
      | nil => exact filter_trimLast_only first
      | cons second rest =>
          rw [trimLast_cons_cons, List.filter_cons_of_pos (by simp [present])]
          exact (List.prefix_cons_inj first).mpr (ih later)

theorem trimBody_within (filled : ∀ element ∈ elements, element.isEmptyText = false) :
    trimBody elements <:+: trimLast (trimHead elements) := by
  have headed : ∃ first rest, trimHead elements = first ++ rest ∧ first.length ≤ 1 ∧
      ∀ element ∈ rest, element.isEmptyText = false := by
    cases elements with
    | nil => exact ⟨[], [], rfl, by simp, by simp⟩
    | cons first rest =>
        have later := (List.forall_mem_cons.mp filled).2
        cases first with
        | text content => exact ⟨[_], rest, rfl, by simp, later⟩
        | escapedHash => exact ⟨[_], rest, rfl, by simp, later⟩
        | argument name format => exact ⟨[_], rest, rfl, by simp, later⟩
  obtain ⟨first, rest, shape, short, later⟩ := headed
  rw [trimBody, shape]
  have behind := filter_trimLast_kept later
  rcases first with _ | ⟨only, _ | ⟨_, _⟩⟩
  · exact behind.isInfix
  · cases rest with
    | nil => exact (filter_trimLast_only only).isInfix
    | cons second rest =>
        rw [List.singleton_append, trimLast_cons_cons, List.filter_cons]
        split
        · exact ((List.prefix_cons_inj only).mpr behind).isInfix
        · exact behind.isInfix.trans (List.infix_cons List.infix_rfl)
  · simp at short

theorem joins_trimBody (joined : Joins found elements) :
    Joins (trimPieces found) (trimBody elements) := by
  have apart := apart_congr (isText_trimHead elements) joined.apart
  refine ⟨?_, ?_, ?_⟩
  · rw [trimBody, piecesOf_filter_nonempty, piecesOf_trimLast apart, piecesOf_trimHead joined]
    rfl
  · intro element member
    simpa using (List.mem_filter.mp member).2
  · exact List.IsChain.infix (apart_congr (isText_trimLast _) apart) (trimBody_within joined.filled)

end MessageCatalog.Message
