import MessageCatalog.Proofs.Message.Derivation
import MessageCatalog.Text.Characters

/-!
Where the characters of a message text stand. Braces open arguments and the messages of options in
turn, so a character stands in literal text if an even number of them is open. A derived text leaves
as many open as it has found.
-/

namespace MessageCatalog.Message

/-- Unicode white space that is not white space between the tokens of a message. -/
def isForeign (c : Char) : Bool :=
  Text.isBlank c && !isSpace c

inductive Mode where
  | plain
  /-- In the name of an argument, where a backslash begins no escape. -/
  | name
  /-- Behind a backslash that begins an escape. -/
  | escape
  deriving DecidableEq, Repr

structure Spot where
  depth : Nat
  mode : Mode
  deriving DecidableEq, Repr

namespace Spot

def isText (s : Spot) : Bool :=
  s.depth % 2 == 0

def step (s : Spot) (c : Char) : Spot :=
  match s.mode with
  | .escape => ⟨s.depth, .plain⟩
  | .name =>
      if c == '\x7d' then ⟨s.depth - 1, .plain⟩
      else if c == ',' then ⟨s.depth, .plain⟩
      else s
  | .plain =>
      if c == '\\' then ⟨s.depth, .escape⟩
      else if c == '\x7b' then ⟨s.depth + 1, if s.isText then .name else .plain⟩
      else if c == '\x7d' then ⟨s.depth - 1, .plain⟩
      else s

def behind (s : Spot) (text : List Char) : Spot :=
  text.foldl step s

def admits : Spot → List Char → Bool
  | _, [] => true
  | s, c :: rest => (s.isText || !isForeign c) && (s.step c).admits rest

end Spot

/-- No argument name, style or selector is spelled with foreign white space. -/
def IsPlain (text : String) : Prop :=
  (⟨0, .plain⟩ : Spot).admits text.toList = true

instance (text : String) : Decidable (IsPlain text) :=
  inferInstanceAs (Decidable (_ = true))

namespace Spot

variable {s : Spot} {n : Nat} {text : List Char}

@[simp]
theorem behind_nil (s : Spot) : s.behind [] = s := rfl

@[simp]
theorem behind_cons (s : Spot) (c : Char) (text : List Char) :
    s.behind (c :: text) = (s.step c).behind text := rfl

@[simp]
theorem behind_append (s : Spot) (before after : List Char) :
    s.behind (before ++ after) = (s.behind before).behind after :=
  List.foldl_append

theorem admits_append (s : Spot) (before after : List Char) :
    s.admits (before ++ after) = (s.admits before && (s.behind before).admits after) := by
  induction before generalizing s with
  | nil => rfl
  | cons c rest ih => rw [List.cons_append, admits, admits, ih, Bool.and_assoc, behind_cons]

theorem visible_of_admits (admitted : s.admits text = true) (odd : s.isText = false)
    (stays : ∀ c ∈ text, s.step c = s) : ∀ c ∈ text, isForeign c = false := by
  induction text with
  | nil => nofun
  | cons c rest ih =>
      obtain ⟨first, later⟩ := List.forall_mem_cons.mp stays
      rw [admits, first, odd, Bool.false_or, Bool.and_eq_true, Bool.not_eq_true'] at admitted
      exact List.forall_mem_cons.mpr ⟨admitted.1, ih admitted.2 later⟩

theorem behind_of_stays (stays : ∀ c ∈ text, s.step c = s) : s.behind text = s := by
  induction text with
  | nil => rfl
  | cons c rest ih =>
      obtain ⟨first, later⟩ := List.forall_mem_cons.mp stays
      rw [behind_cons, first, ih later]

theorem step_plain {c : Char} (escape : c ≠ '\\') (opens : c ≠ '\x7b') (closes : c ≠ '\x7d') :
    (⟨n, .plain⟩ : Spot).step c = ⟨n, .plain⟩ := by
  simp [step, escape, opens, closes]

theorem step_name {c : Char} (comma : c ≠ ',') (closes : c ≠ '\x7d') :
    (⟨n, .name⟩ : Spot).step c = ⟨n, .name⟩ := by
  simp [step, comma, closes]

theorem step_space {c : Char} (space : isSpace c = true) :
    (⟨n, .plain⟩ : Spot).step c = ⟨n, .plain⟩ ∧ (⟨n, .name⟩ : Spot).step c = ⟨n, .name⟩ := by
  have other (x : Char) (visible : isSpace x = false) : c ≠ x := by
    rintro rfl
    rw [space] at visible
    cases visible
  exact ⟨step_plain (other _ (by decide)) (other _ (by decide)) (other _ (by decide)),
    step_name (other _ (by decide)) (other _ (by decide))⟩

theorem step_open_text (even : n % 2 = 0) :
    (⟨n, .plain⟩ : Spot).step '\x7b' = ⟨n + 1, .name⟩ := by
  simp [step, isText, even]

theorem step_open_option (odd : n % 2 = 1) :
    (⟨n, .plain⟩ : Spot).step '\x7b' = ⟨n + 1, .plain⟩ := by
  simp [step, isText, odd]

theorem step_close : (⟨n + 1, .plain⟩ : Spot).step '\x7d' = ⟨n, .plain⟩ := by
  simp [step]

theorem step_close_name : (⟨n + 1, .name⟩ : Spot).step '\x7d' = ⟨n, .plain⟩ := by
  simp [step]

theorem step_comma : (⟨n, .plain⟩ : Spot).step ',' = ⟨n, .plain⟩ := by
  simp [step]

theorem step_comma_name : (⟨n, .name⟩ : Spot).step ',' = ⟨n, .plain⟩ := by
  simp [step]

end Spot

variable {n : Nat} {text : List Char}

theorem isAlphanum_iff {x : Char} : x.isAlphanum = true ↔
    65 ≤ x.toNat ∧ x.toNat ≤ 90 ∨ 97 ≤ x.toNat ∧ x.toNat ≤ 122 ∨ 48 ≤ x.toNat ∧ x.toNat ≤ 57 := by
  change ((decide ('A'.val ≤ x.val ∧ x.val ≤ 'Z'.val) ||
    ('a'.val ≤ x.val && x.val ≤ 'z'.val)) || x.isDigit) = true ↔ _
  simp [UInt32.le_iff_toNat_le, Char.isDigit_iff_toNat, or_assoc]

theorem isAlphanum_of_digitValue {x : Char} (digit : (Text.digitValue? x).isSome) :
    x.isAlphanum = true := by
  simp only [Text.digitValue?, Bool.and_eq_true, decide_eq_true_eq, Char.le_def,
    UInt32.le_iff_toNat_le] at digit
  rw [isAlphanum_iff]
  split at digit
  next range => exact .inr (.inr range)
  next =>
    split at digit
    next range => exact .inr (.inl ⟨range.1, range.2.trans (by decide)⟩)
    next =>
      split at digit
      next range => exact .inl ⟨range.1, range.2.trans (by decide)⟩
      next => cases digit

theorem isBlank_of_isAlphanum {x : Char} (letter : x.isAlphanum = true) :
    Text.isBlank x = false := by
  rw [isAlphanum_iff] at letter
  simp only [Text.isBlank, Bool.or_eq_false_iff, Bool.and_eq_false_iff, beq_eq_false_iff_ne,
    decide_eq_false_iff_not, ne_eq]
  omega

theorem visible_of_letters (letters : ∀ c ∈ text, c.isAlphanum = true) :
    ∀ c ∈ text, Text.isBlank c = false :=
  fun c member => isBlank_of_isAlphanum (letters c member)

theorem stays_of_letters (letters : ∀ c ∈ text, c.isAlphanum = true) (n : Nat) :
    ∀ c ∈ text, (⟨n, .plain⟩ : Spot).step c = ⟨n, .plain⟩ := by
  intro c member
  have letter := letters c member
  apply Spot.step_plain <;>
    · rintro rfl
      exact absurd letter (by decide)

theorem letters_behind (letters : ∀ c ∈ text, c.isAlphanum = true) (n : Nat) :
    (⟨n, .plain⟩ : Spot).behind text = ⟨n, .plain⟩ :=
  Spot.behind_of_stays (stays_of_letters letters n)

theorem letters_of_isNumber {digits : List Char} (number : isNumber digits = true) :
    ∀ c ∈ digits, c.isAlphanum = true := by
  intro c member
  simp only [isNumber, Bool.or_eq_true, beq_iff_eq, Bool.and_eq_true, List.all_eq_true] at number
  rcases number with rfl | ⟨⟨_, digit⟩, _⟩
  · obtain rfl := List.mem_singleton.mp member
    decide
  · simp [Char.isAlphanum, digit c member]

theorem letters_of_code {digits : List Char} {code : Nat} (four : digits.length = 4)
    (value : Text.hexNumber? digits = some code) : ∀ c ∈ digits, c.isAlphanum = true := by
  obtain ⟨a, b, c, d, rfl⟩ := eq_of_length_four four
  obtain ⟨_, _, _, _, first, second, third, fourth, _⟩ := hexNumber?_four.mp value
  simp [isAlphanum_of_digitValue, first, second, third, fourth]

/-! ### Tokens -/

theorem isBlank_of_isForeign {c : Char} (near : isForeign c = false) (visible : isSpace c = false) :
    Text.isBlank c = false := by
  simpa [isForeign, visible] using near

theorem IsBlank.behind {gap : List Char} (blank : IsBlank gap) (n : Nat) :
    (⟨n, .plain⟩ : Spot).behind gap = ⟨n, .plain⟩ :=
  Spot.behind_of_stays fun c member => (Spot.step_space (blank c member)).1

theorem IsBlank.behind_name {gap : List Char} (blank : IsBlank gap) (n : Nat) :
    (⟨n, .name⟩ : Spot).behind gap = ⟨n, .name⟩ :=
  Spot.behind_of_stays fun c member => (Spot.step_space (blank c member)).2

theorem stays_of_isName {name : List Char} (named : isName name = true) (n : Nat) :
    ∀ c ∈ name, (⟨n, .name⟩ : Spot).step c = ⟨n, .name⟩ := by
  intro c member
  simp only [isName, Bool.and_eq_true, List.all_eq_true, Bool.not_eq_true'] at named
  have inside := named.2 c member
  apply Spot.step_name <;>
    · rintro rfl
      exact absurd inside (by decide)

theorem name_behind {name : List Char} (named : isName name = true) (n : Nat) :
    (⟨n, .name⟩ : Spot).behind name = ⟨n, .name⟩ :=
  Spot.behind_of_stays (stays_of_isName named n)

theorem visible_of_isName {name : List Char} (named : isName name = true) (odd : n % 2 = 1)
    (admitted : (⟨n, .name⟩ : Spot).admits name = true) : ∀ c ∈ name, Text.isBlank c = false := by
  intro c member
  refine isBlank_of_isForeign (Spot.visible_of_admits admitted (by simp [Spot.isText, odd])
    (stays_of_isName named n) c member) ?_
  simp only [isName, Bool.and_eq_true, List.all_eq_true, Bool.not_eq_true'] at named
  cases space : isSpace c with
  | false => rfl
  | true => simpa [endsName, space] using named.2 c member

theorem DerivesEscape.behind {piece : Piece} (escaped : DerivesEscape text piece) (n : Nat) :
    (⟨n, .plain⟩ : Spot).behind text = ⟨n, .plain⟩ := by
  cases escaped with
  | hash => rfl
  | char special => rfl
  | @code digits x four value =>
      rw [Spot.behind_cons, Spot.behind_cons]
      exact letters_behind (letters_of_code four value) n

theorem DerivesEscape.visible {piece : Piece} (escaped : DerivesEscape text piece) :
    ∀ c ∈ text, Text.isBlank c = false := by
  cases escaped with
  | hash => simp [Text.isBlank]
  | char special => rcases special with rfl | rfl | rfl <;> simp [Text.isBlank]
  | @code digits x four value =>
      refine List.forall_mem_cons.mpr ⟨by decide, List.forall_mem_cons.mpr ⟨by decide, ?_⟩⟩
      exact visible_of_letters (letters_of_code four value)

theorem stays_of_isTokenChar {x : Char} (plain : isTokenChar x = true) (n : Nat) :
    (⟨n, .plain⟩ : Spot).step x = ⟨n, .plain⟩ := by
  apply Spot.step_plain <;>
    · rintro rfl
      exact absurd plain (by decide)

theorem DerivesToken.behind {chars : List Char} (derived : DerivesToken text chars) (n : Nat) :
    (⟨n, .plain⟩ : Spot).behind text = ⟨n, .plain⟩ := by
  induction derived with
  | nil => rfl
  | plain plain _ ih => rw [Spot.behind_cons, stays_of_isTokenChar plain, ih]
  | escape escaped _ ih => rw [Spot.behind_append, escaped.behind, ih]

theorem DerivesToken.visible {chars : List Char} (derived : DerivesToken text chars)
    (odd : n % 2 = 1) (admitted : (⟨n, .plain⟩ : Spot).admits text = true) :
    ∀ c ∈ text, Text.isBlank c = false := by
  induction derived with
  | nil => nofun
  | plain plain _ ih =>
      rw [Spot.admits, stays_of_isTokenChar plain, Bool.and_eq_true] at admitted
      refine List.forall_mem_cons.mpr ⟨?_, ih admitted.2⟩
      exact isBlank_of_isForeign (by simpa [Spot.isText, odd] using admitted.1)
        (not_isSpace_of_isTokenChar plain)
  | escape escaped _ ih =>
      rw [Spot.admits_append, escaped.behind, Bool.and_eq_true] at admitted
      exact List.forall_mem_append.mpr ⟨escaped.visible, ih admitted.2⟩

theorem DerivesSelector.behind {chars : List Char} (derived : DerivesSelector text chars)
    (n : Nat) : (⟨n, .plain⟩ : Spot).behind text = ⟨n, .plain⟩ := by
  cases derived with
  | number number => exact letters_behind (letters_of_isNumber number) n
  | token _ token _ => exact token.behind n

theorem DerivesSelector.visible {chars : List Char} (derived : DerivesSelector text chars)
    (odd : n % 2 = 1) (admitted : (⟨n, .plain⟩ : Spot).admits text = true) :
    ∀ c ∈ text, Text.isBlank c = false := by
  cases derived with
  | number number =>
      exact List.forall_mem_cons.mpr ⟨by decide, visible_of_letters (letters_of_isNumber number)⟩
  | token _ token _ => exact token.visible odd admitted

theorem DerivesOffset.behind {mark : List Char} {offset : Nat}
    (begun : DerivesOffset mark offset text) (n : Nat) :
    (⟨n, .plain⟩ : Spot).behind mark = ⟨n, .plain⟩ := by
  cases begun with
  | none _ => rfl
  | some blank number _ _ =>
      have word : (⟨n, .plain⟩ : Spot).behind offsetMark = ⟨n, .plain⟩ := rfl
      rw [Spot.behind_append, Spot.behind_append, word, blank.behind,
        letters_behind (letters_of_isNumber number)]

/-! ### Messages -/

mutual

theorem DerivesPieces.behind {text : List Char} {found : List Piece} {n : Nat}
    (derived : DerivesPieces text found) (even : n % 2 = 0) :
    (⟨n, .plain⟩ : Spot).behind text = ⟨n, .plain⟩ := by
  match derived with
  | .nil => rfl
  | .raw raw later =>
      simp only [isRaw, Bool.and_eq_true, bne_iff_ne, ne_eq] at raw
      rw [Spot.behind_cons, Spot.step_plain raw.1.2 raw.1.1.1 raw.1.1.2, later.behind even]
  | .escape escaped later => rw [Spot.behind_append, escaped.behind, later.behind even]
  | .argument first later => rw [Spot.behind_append, first.behind even, later.behind even]

theorem DerivesArgument.behind {text : List Char} {element : Element} {n : Nat}
    (derived : DerivesArgument text element) (even : n % 2 = 0) :
    (⟨n, .plain⟩ : Spot).behind text = ⟨n, .plain⟩ := by
  match derived with
  | .plain blankBefore named blankAfter =>
      simp only [Spot.behind_cons, Spot.behind_append, Spot.step_open_text even,
        blankBefore.behind_name, name_behind named, blankAfter.behind_name, Spot.step_close_name,
        Spot.behind_nil]
  | .formatted blankBefore named blankGap blankInner formatted blankAfter =>
      have inside := formatted.behind (show (n + 1) % 2 = 1 by omega)
      simp only [Spot.behind_cons, Spot.behind_append, Spot.step_open_text even,
        blankBefore.behind_name, name_behind named, blankGap.behind_name, Spot.step_comma_name,
        blankInner.behind, inside, blankAfter.behind, Spot.step_close, Spot.behind_nil]

theorem DerivesFormat.behind {text : List Char} {format : Format} {n : Nat}
    (derived : DerivesFormat text format) (odd : n % 2 = 1) :
    (⟨n, .plain⟩ : Spot).behind text = ⟨n, .plain⟩ := by
  match derived with
  | .simple kind => exact letters_behind (keyword_letters (.simple kind none)).2 n
  | .styled kind blankGap blankInner token filled =>
      have word : (⟨n, .plain⟩ : Spot).behind kind.keyword.toList = ⟨n, .plain⟩ :=
        letters_behind (keyword_letters (.simple kind none)).2 n
      simp only [Spot.behind_cons, Spot.behind_append, word, blankGap.behind, Spot.step_comma,
        blankInner.behind, token.behind]
  | .plural ordinal blankGap blankInner begun several filled =>
      have word : (⟨n, .plain⟩ : Spot).behind
          (if ordinal then "selectordinal" else "plural").toList = ⟨n, .plain⟩ := by
        cases ordinal <;> rfl
      simp only [Spot.behind_cons, Spot.behind_append, word, blankGap.behind, Spot.step_comma,
        blankInner.behind, begun.behind, several.behind odd]
  | .select blankGap several filled =>
      have word : (⟨n, .plain⟩ : Spot).behind "select".toList = ⟨n, .plain⟩ := rfl
      simp only [Spot.behind_cons, Spot.behind_append, word, blankGap.behind, Spot.step_comma,
        several.behind odd]

theorem DerivesOptions.behind {text : List Char} {options : List Choice} {n : Nat}
    (derived : DerivesOptions text options) (odd : n % 2 = 1) :
    (⟨n, .plain⟩ : Spot).behind text = ⟨n, .plain⟩ := by
  match derived with
  | .blank blank => exact blank.behind n
  | .cons blank first later =>
      simp only [Spot.behind_append, blank.behind, first.behind odd, later.behind odd]

theorem DerivesOption.behind {text : List Char} {option : Choice} {n : Nat}
    (derived : DerivesOption text option) (odd : n % 2 = 1) :
    (⟨n, .plain⟩ : Spot).behind text = ⟨n, .plain⟩ := by
  match derived with
  | .mk selects blank inside joined =>
      have body := inside.behind (show (n + 1) % 2 = 0 by omega)
      simp only [Spot.behind_cons, Spot.behind_append, selects.behind, blank.behind,
        Spot.step_open_option odd, body, Spot.step_close, Spot.behind_nil]

end

end MessageCatalog.Message
