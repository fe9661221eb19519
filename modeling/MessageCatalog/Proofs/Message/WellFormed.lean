import MessageCatalog.Proofs.Message.Derivation
import MessageCatalog.Proofs.Message.Tidy
import MessageCatalog.Text.Quoted

/-!
Well-formed messages, as they come out of the readers. Unlike a canonical message, a well-formed one
may have any character in its texts, styles and selectors, since escapes are decoded: what is asked
is that nothing is empty that has to say something, that texts are as long as they can be, and that
options were trimmed. Each rule of the grammar builds a well-formed tree from well-formed ones; and
with an escape for each character that does not stand for itself, every well-formed tree has a
spelling.
-/

namespace MessageCatalog.Message

mutual

def Element.isWellFormed : Element → Bool
  | .text content => !content.toList.isEmpty
  | .escapedHash => true
  | .argument name none => isName name.toList
  | .argument name (some format) => isName name.toList && format.isWellFormed

def Format.isWellFormed : Format → Bool
  | .simple _ none => true
  | .simple _ (some style) => !style.toList.isEmpty
  | .plural _ offset options =>
      decide (offset < UInt64.size) && !options.isEmpty && areWellFormedOptions options
  | .select options => !options.isEmpty && areWellFormedOptions options

def Choice.isWellFormed : Choice → Bool
  | .mk selector body =>
      !selector.toList.isEmpty && areWellFormed body && !startsWithSpace body &&
        !endsWithSpace body

def areWellFormed : List Element → Bool
  | [] => true
  | first :: rest =>
      first.isWellFormed && !(first.isText && rest.head?.any Element.isText) && areWellFormed rest

def areWellFormedOptions : List Choice → Bool
  | [] => true
  | first :: rest => first.isWellFormed && areWellFormedOptions rest

end

/-- At every depth: texts, styles and selectors are not empty, texts are apart, names are names,
offsets have 64 bits, there are options where options belong, and no white space stands at the ends
of an option's message. -/
def WellFormed (elements : List Element) : Prop :=
  areWellFormed elements = true

instance (elements : List Element) : Decidable (WellFormed elements) :=
  inferInstanceAs (Decidable (areWellFormed elements = true))

variable {found : List Piece} {elements body : List Element} {text : List Char}

theorem areWellFormed_iff :
    areWellFormed elements = true ↔
      (∀ element ∈ elements, element.isWellFormed = true) ∧
        elements.IsChain fun first second => ¬ (first.isText = true ∧ second.isText = true) := by
  induction elements with
  | nil => simp [areWellFormed]
  | cons first rest ih =>
      have apart : (!(first.isText && rest.head?.any Element.isText)) = true ↔
          ∀ second ∈ rest.head?, ¬ (first.isText = true ∧ second.isText = true) := by
        cases rest with
        | nil => simp
        | cons second rest => cases first.isText <;> simp
      rw [areWellFormed, Bool.and_eq_true, Bool.and_eq_true, ih, apart, List.forall_mem_cons,
        List.isChain_cons]
      tauto

theorem Joins.isWellFormed (joined : Joins found elements)
    (whole : ∀ element, .whole element ∈ found → element.isWellFormed = true) :
    areWellFormed elements = true := by
  obtain ⟨rfl, filled, apart⟩ := joined
  refine areWellFormed_iff.mpr ⟨fun element member => ?_, apart⟩
  cases isText : element.isText with
  | false =>
      apply whole
      exact List.mem_flatMap.mpr ⟨element, member, by simp [pieces_of_not_text isText]⟩
  | true =>
      cases element with
      | text content => simpa [Element.isEmptyText, Element.isWellFormed] using filled _ member
      | escapedHash => simp [Element.isText] at isText
      | argument name format => simp [Element.isText] at isText

theorem mem_of_mem_trimPieces {piece : Piece} (member : piece ∈ trimPieces found) :
    piece ∈ found :=
  (List.dropWhile_sublist _).mem ((List.rdropWhile_prefix _ _).sublist.mem member)

theorem trimPieces_trimPieces (found : List Piece) :
    trimPieces (trimPieces found) = trimPieces found := by
  unfold trimPieces
  rw [dropWhile_rdropWhile, List.dropWhile_idempotent, List.rdropWhile_idempotent]

/-- A trimmed message has no white space at its ends, since trimming it again leaves it as it is. -/
theorem Joins.trimmed (joined : Joins (trimPieces found) body) :
    startsWithSpace body = false ∧ endsWithSpace body = false := by
  have again := joins_trimBody joined
  rw [trimPieces_trimPieces] at again
  have same : trimBody (joinPieces (piecesOf body)) = body := by
    rw [joined.pieces, joined.joinPieces_eq]
    exact again.joinPieces_eq.symm.trans joined.joinPieces_eq
  exact (trimBody_eq_iff.mp same).2

/-! ### Derivations -/

theorem DerivesSelector.filled {chars : List Char} (derived : DerivesSelector text chars) :
    chars ≠ [] := by
  cases derived with
  | number _ => simp
  | token _ _ filled => exact filled

theorem DerivesOffset.small {mark : List Char} {offset : Nat}
    (derived : DerivesOffset mark offset text) : offset < UInt64.size := by
  cases derived with
  | none _ => decide
  | some _ _ _ small => exact small

theorem DerivesEscape.isWellFormed {element : Element}
    (derived : DerivesEscape text (.whole element)) : element.isWellFormed = true := by
  cases derived
  rfl

mutual

theorem DerivesPieces.isWellFormed {text : List Char} {found : List Piece} {element : Element}
    (derived : DerivesPieces text found) (member : .whole element ∈ found) :
    element.isWellFormed = true := by
  match derived with
  | .nil => cases member
  | .raw _ later =>
      rcases List.mem_cons.mp member with here | behind
      · cases here
      · exact later.isWellFormed behind
  | .escape escaped later =>
      rcases List.mem_cons.mp member with here | behind
      · exact (here ▸ escaped).isWellFormed
      · exact later.isWellFormed behind
  | .argument first later =>
      rcases List.mem_cons.mp member with here | behind
      · rw [Piece.whole.inj here]
        exact first.isWellFormed
      · exact later.isWellFormed behind

theorem DerivesArgument.isWellFormed {text : List Char} {element : Element}
    (derived : DerivesArgument text element) : element.isWellFormed = true := by
  match derived with
  | .plain _ named _ =>
      rw [Element.isWellFormed, String.toList_ofList]
      exact named
  | .formatted _ named _ _ formatted _ =>
      rw [Element.isWellFormed, String.toList_ofList, named, formatted.isWellFormed]
      rfl

theorem DerivesFormat.isWellFormed {text : List Char} {format : Format}
    (derived : DerivesFormat text format) : format.isWellFormed = true := by
  match derived with
  | .simple _ => rfl
  | .styled _ _ _ _ filled => simpa [Format.isWellFormed] using filled
  | .plural _ _ _ begun several filled =>
      simpa [Format.isWellFormed, several.isWellFormed, begun.small] using filled
  | .select _ several filled => simpa [Format.isWellFormed, several.isWellFormed] using filled

theorem DerivesOptions.isWellFormed {text : List Char} {options : List Choice}
    (derived : DerivesOptions text options) : areWellFormedOptions options = true := by
  match derived with
  | .blank _ => rfl
  | .cons _ first later =>
      rw [areWellFormedOptions, first.isWellFormed, later.isWellFormed]
      rfl

theorem DerivesOption.isWellFormed {text : List Char} {option : Choice}
    (derived : DerivesOption text option) : option.isWellFormed = true := by
  match derived with
  | .mk selects _ inside joined =>
      have body := joined.isWellFormed fun element member =>
        inside.isWellFormed (mem_of_mem_trimPieces member)
      obtain ⟨starts, ends⟩ := joined.trimmed
      simpa [Choice.isWellFormed, body, starts, ends] using selects.filled

end

/-! ### Spellings -/

/-- A character by itself where that is possible in a token, and as an escape elsewhere. -/
def spell (c : Char) : List Char :=
  if isTokenChar c then [c]
  else ['\\', 'u', '0', '0', Text.hexDigit (c.toNat / 16), Text.hexDigit (c.toNat % 16)]

theorem toNat_of_not_isTokenChar {c : Char} (other : isTokenChar c = false) : c.toNat < 128 := by
  have kinds : (endsToken c = true ∨ c = '\\') ∨ isControl c = true := by
    simpa [isTokenChar, Classical.or_iff_not_imp_left] using other
  rcases kinds with (ends | rfl) | control
  · simp only [endsToken, isSpace, Bool.or_eq_true, beq_iff_eq, or_assoc] at ends
    rcases ends with rfl | rfl | rfl | rfl | rfl | rfl <;> decide
  · decide
  · simp only [isControl, Bool.or_eq_true, Bool.and_eq_true, decide_eq_true_eq, beq_iff_eq]
      at control
    omega

theorem derivesEscape_spell {c : Char} (other : isTokenChar c = false) :
    DerivesEscape (spell c) (.char c) := by
  rw [spell, if_neg (by simp [other])]
  exact .code rfl (Text.hexNumber?_byte ((toNat_of_not_isTokenChar other).trans (by decide)))

theorem derivesToken_spell (chars : List Char) : DerivesToken (chars.flatMap spell) chars := by
  induction chars with
  | nil => exact .nil
  | cons c rest ih =>
      rw [List.flatMap_cons]
      cases plain : isTokenChar c with
      | false => exact .escape (derivesEscape_spell plain) ih
      | true =>
          rw [spell, if_pos plain]
          exact .plain plain ih

/-- In front of a number an escape tells a selector that is no number from one. -/
theorem exists_derivesSelector {chars : List Char} (filled : chars ≠ []) :
    ∃ text, DerivesSelector text chars := by
  obtain ⟨first, rest, rfl⟩ := List.exists_cons_of_ne_nil filled
  by_cases equals : first = '='
  · have code : DerivesEscape ['\\', 'u', '0', '0', '3', 'd'] (.char first) :=
      .code rfl (by rw [equals]; decide)
    exact ⟨_, .token (by simp) (.escape code (derivesToken_spell rest)) filled⟩
  · refine ⟨_, .token ?_ (derivesToken_spell (first :: rest)) filled⟩
    rw [List.flatMap_cons, spell]
    split
    next => simpa using equals
    next => simp

theorem isRaw_of_isTokenChar {c : Char} (plain : isTokenChar c = true) : isRaw c = true := by
  simp only [isTokenChar, endsToken, Bool.and_eq_true, Bool.not_eq_true', Bool.or_eq_false_iff,
    beq_eq_false_iff_ne, bne_iff_ne] at plain
  simp [isRaw, plain]

theorem derivesPieces_spell (chars : List Char) {found : List Piece}
    (later : DerivesPieces text found) :
    DerivesPieces (chars.flatMap spell ++ text) (chars.map .char ++ found) := by
  induction chars with
  | nil => exact later
  | cons c rest ih =>
      rw [List.flatMap_cons, List.append_assoc]
      cases plain : isTokenChar c with
      | false => exact .escape (derivesEscape_spell plain) ih
      | true =>
          rw [spell, if_pos plain]
          exact .raw (isRaw_of_isTokenChar plain) ih

theorem exists_derivesOffset {offset : Nat} (small : offset < UInt64.size) (text : List Char) :
    ∃ mark, DerivesOffset mark offset (' ' :: text) := by
  obtain ⟨digits, number, value⟩ :
      ∃ digits, isNumber digits = true ∧ digitsValue digits = offset := by
    by_cases zero : offset = 0
    · exact ⟨['0'], rfl, zero ▸ rfl⟩
    · have positive := Nat.pos_of_ne_zero zero
      exact ⟨_, isNumber_toDigits offset positive, digitsValue_toDigits offset⟩
  subst value
  exact ⟨_, .some (show IsBlank [] by simp [IsBlank]) number (.inr (by simp)) small⟩

theorem joins_of_areWellFormed (wellFormed : areWellFormed elements = true) :
    Joins (piecesOf elements) elements := by
  obtain ⟨each, apart⟩ := areWellFormed_iff.mp wellFormed
  refine ⟨rfl, fun element member => ?_, apart⟩
  have present := each element member
  cases element with
  | text content => simpa [Element.isEmptyText, Element.isWellFormed] using present
  | escapedHash => rfl
  | argument name format => rfl

theorem joins_of_choice {selector : String}
    (wellFormed : (Choice.mk selector body).isWellFormed = true) :
    Joins (trimPieces (piecesOf body)) body := by
  simp only [Choice.isWellFormed, Bool.and_eq_true, Bool.not_eq_true'] at wellFormed
  obtain ⟨⟨⟨_, inside⟩, starts⟩, ends⟩ := wellFormed
  have joined := joins_of_areWellFormed inside
  have trimmed := joins_trimBody joined
  have same := trimBody_eq_iff.mpr ⟨joined.joinPieces_eq, starts, ends⟩
  rw [joined.joinPieces_eq] at same
  rwa [same] at trimmed

mutual

theorem exists_derivesPieces (elements : List Element)
    (wellFormed : ∀ element ∈ elements, element.isWellFormed = true) :
    ∃ text, DerivesPieces text (piecesOf elements) := by
  match elements with
  | [] => exact ⟨[], .nil⟩
  | first :: rest =>
      obtain ⟨here, behind⟩ := List.forall_mem_cons.mp wellFormed
      obtain ⟨later, derived⟩ := exists_derivesPieces rest behind
      match first with
      | .text content => exact ⟨_, derivesPieces_spell content.toList derived⟩
      | .escapedHash => exact ⟨_, .escape .hash derived⟩
      | .argument name format =>
          obtain ⟨text, argument⟩ := exists_derivesArgument name format here
          exact ⟨_, .argument argument derived⟩

theorem exists_derivesArgument (name : String) (format : Option Format)
    (wellFormed : (Element.argument name format).isWellFormed = true) :
    ∃ text, DerivesArgument text (.argument name format) := by
  have blank : IsBlank [] := by simp [IsBlank]
  match format with
  | none =>
      have derived := DerivesArgument.plain blank wellFormed blank
      rw [String.ofList_toList] at derived
      exact ⟨_, derived⟩
  | some format =>
      simp only [Element.isWellFormed, Bool.and_eq_true] at wellFormed
      obtain ⟨text, inside⟩ := exists_derivesFormat format wellFormed.2
      have derived := DerivesArgument.formatted blank wellFormed.1 blank blank inside blank
      rw [String.ofList_toList] at derived
      exact ⟨_, derived⟩

theorem exists_derivesFormat (format : Format) (wellFormed : format.isWellFormed = true) :
    ∃ text, DerivesFormat text format := by
  have blank : IsBlank [] := by simp [IsBlank]
  match format with
  | .simple kind none => exact ⟨_, .simple kind⟩
  | .simple kind (some style) =>
      have filled : style.toList ≠ [] := by simpa [Format.isWellFormed] using wellFormed
      have derived := DerivesFormat.styled kind blank blank (derivesToken_spell style.toList) filled
      rw [String.ofList_toList] at derived
      exact ⟨_, derived⟩
  | .plural ordinal offset options =>
      simp only [Format.isWellFormed, Bool.and_eq_true, decide_eq_true_eq, Bool.not_eq_true',
        List.isEmpty_eq_false_iff] at wellFormed
      obtain ⟨⟨small, filled⟩, inside⟩ := wellFormed
      obtain ⟨text, several⟩ := exists_derivesOptions options inside
      obtain ⟨mark, begun⟩ := exists_derivesOffset small text
      exact ⟨_, .plural ordinal blank blank begun several filled⟩
  | .select options =>
      simp only [Format.isWellFormed, Bool.and_eq_true, Bool.not_eq_true',
        List.isEmpty_eq_false_iff] at wellFormed
      obtain ⟨text, several⟩ := exists_derivesOptions options wellFormed.2
      exact ⟨_, .select blank several wellFormed.1⟩

theorem exists_derivesOptions (options : List Choice)
    (wellFormed : areWellFormedOptions options = true) :
    ∃ text, DerivesOptions (' ' :: text) options := by
  have space : IsBlank [' '] := by simp [IsBlank, isSpace]
  match options with
  | [] => exact ⟨[], .blank space⟩
  | first :: rest =>
      simp only [areWellFormedOptions, Bool.and_eq_true] at wellFormed
      obtain ⟨text, option⟩ := exists_derivesOption first wellFormed.1
      obtain ⟨later, others⟩ := exists_derivesOptions rest wellFormed.2
      exact ⟨text ++ ' ' :: later, .cons space option others⟩

theorem exists_derivesOption (option : Choice) (wellFormed : option.isWellFormed = true) :
    ∃ text, DerivesOption text option := by
  match option with
  | .mk selector body =>
      have joined := joins_of_choice wellFormed
      simp only [Choice.isWellFormed, Bool.and_eq_true, Bool.not_eq_true',
        List.isEmpty_eq_false_iff] at wellFormed
      obtain ⟨spelled, selects⟩ := exists_derivesSelector wellFormed.1.1.1
      obtain ⟨text, inside⟩ :=
        exists_derivesPieces body (areWellFormed_iff.mp wellFormed.1.1.2).1
      have derived := DerivesOption.mk selects (show IsBlank [] by simp [IsBlank]) inside joined
      rw [String.ofList_toList] at derived
      exact ⟨_, derived⟩

end

/-- The messages that are read from some text are exactly the well-formed ones. -/
theorem exists_parse_iff_wellFormed (elements : List Element) :
    (∃ text, parse text = .ok elements) ↔ WellFormed elements := by
  constructor
  · rintro ⟨text, read⟩
    obtain ⟨found, derived, joined⟩ := (parse_eq_ok_iff_derives text elements).mp read
    exact joined.isWellFormed fun element member => derived.isWellFormed member
  · intro wellFormed
    obtain ⟨text, derived⟩ := exists_derivesPieces elements (areWellFormed_iff.mp wellFormed).1
    refine ⟨String.ofList text, (parse_eq_ok_iff_derives _ elements).mpr ?_⟩
    refine ⟨piecesOf elements, ?_, joins_of_areWellFormed wellFormed⟩
    rwa [String.toList_ofList]

end MessageCatalog.Message
