import MessageCatalog.Json.Parser
import MessageCatalog.Text.Quoted

/-!
JSON texts of values, read back. A quoted text is read as the text that was quoted, whatever
characters it has; and the blanks that a text is laid out with make no difference to its reader, so
a value of texts, truth values and nulls is read back from its text.
-/

namespace MessageCatalog.Json

open Text (escapeChar)

variable {fuel level : Nat} {rest input blanks : List Char}

theorem textUnits_short {c unit : Char} (short : textUnits.escapes.lookup c = some unit)
    (rest : List Char) :
    textUnits ('\\' :: c :: rest) =
      (textUnits rest).map fun (units, after) => (unit.toNat :: units, after) := by
  have other : c ≠ 'u' := by
    rintro rfl
    cases short
  rw [textUnits]
  · rw [short]
    cases textUnits rest <;> rfl
  · exact fun _ _ _ _ _ same => absurd same other

theorem textUnits_plain {c : Char} (quote : c ≠ '"') (backslash : c ≠ '\\')
    (plain : ¬c.toNat < 0x20) (rest : List Char) :
    textUnits (c :: rest) =
      (textUnits rest).map fun (units, after) => (c.toNat :: units, after) := by
  rw [textUnits]
  · rw [if_neg (by simp [plain, backslash])]
    cases textUnits rest <;> rfl
  · exact quote
  · exact fun _ _ _ _ _ same _ => backslash same
  · exact fun _ _ same _ => backslash same

theorem textUnits_escapeChar (c : Char) (rest : List Char) :
    textUnits (escapeChar c ++ rest) =
      (textUnits rest).map fun (units, after) => (c.toNat :: units, after) := by
  fun_cases escapeChar c with
  | case1 => exact textUnits_short rfl rest
  | case2 => exact textUnits_short rfl rest
  | case3 => exact textUnits_short rfl rest
  | case4 => exact textUnits_short rfl rest
  | case5 => exact textUnits_short rfl rest
  | case6 => exact textUnits_short rfl rest
  | case7 => exact textUnits_short rfl rest
  | case8 =>
      rename_i control
      have unit := Text.hexNumber?_byte (Nat.lt_trans control (by decide : 32 < 256))
      simp only [List.cons_append, List.nil_append, textUnits, unit]
      cases textUnits rest <;> rfl
  | case9 _ quote backslash _ _ _ _ _ plain => exact textUnits_plain quote backslash plain rest

theorem textUnits_quoted (text rest : List Char) :
    textUnits (text.flatMap escapeChar ++ '"' :: rest) = some (text.map Char.toNat, rest) := by
  induction text with
  | nil => rw [List.flatMap_nil, List.nil_append, textUnits, List.map_nil]
  | cons c text ih =>
      rw [List.flatMap_cons, List.append_assoc, textUnits_escapeChar, ih]
      rfl

theorem pairedText?_map (text : List Char) : pairedText? (text.map Char.toNat) = some text := by
  induction text with
  | nil => rfl
  | cons c text ih =>
      have valid : c.toNat.isValidChar := c.valid
      cases text with
      | nil => rw [List.map_cons, List.map_nil, pairedText?, if_pos valid, Char.ofNat_toNat]
      | cons d text =>
          have single := Text.not_surrogate c
          rw [List.map_cons, List.map_cons, pairedText?, if_neg, if_pos valid, ← List.map_cons, ih,
            Char.ofNat_toNat]
          · rfl
          · simp only [Bool.and_eq_true, decide_eq_true_eq]
            exact fun pair => single pair.1.1

theorem key?_quoted (text : String) (rest : List Char) :
    key? (text.toList.flatMap escapeChar ++ '"' :: rest) = some (text, rest) := by
  rw [key?, textUnits_quoted]
  simp [pairedText?_map]

theorem textValue?_quoted (text : String) (rest : List Char) :
    textValue? (text.toList.flatMap escapeChar ++ '"' :: rest) = some (.text text, rest) := by
  rw [textValue?, textUnits_quoted]
  simp [pairedText?_map]

def AreBlank (blanks : List Char) : Prop :=
  ∀ c ∈ blanks, isJsonBlank c = true

theorem skipBlanks_append (blank : AreBlank blanks) (input : List Char) :
    skipBlanks (blanks ++ input) = skipBlanks input :=
  List.dropWhile_append_of_pos blank

theorem skipBlanks_cons {c : Char} (visible : isJsonBlank c = false) (rest : List Char) :
    skipBlanks (c :: rest) = c :: rest :=
  List.dropWhile_cons_of_neg (by simp [visible])

theorem value?_blanks (blank : AreBlank blanks) (input : List Char) :
    value? fuel (blanks ++ input) = value? fuel input := by
  cases fuel with
  | zero => rfl
  | succ fuel => rw [value?, value?, skipBlanks_append blank]

def gap (level : Nat) : List Char :=
  '\n' :: List.replicate (2 * level) ' '

theorem areBlank_gap (level : Nat) : AreBlank (gap level) := by
  intro c member
  rcases List.mem_cons.mp member with rfl | spaces
  · rfl
  · rw [List.eq_of_mem_replicate spaces]
    rfl

def laid (level : Nat) : List String → List Char
  | [] => []
  | [line] => gap level ++ line.toList
  | line :: lines => gap level ++ line.toList ++ ',' :: laid level lines

theorem gap_append_intercalate (level : Nat) (line : String) (lines : List String) :
    gap level ++ (String.intercalate (",\n" ++ Value.indentation level) (line :: lines)).toList =
      laid level (line :: lines) := by
  have separator : (",\n" ++ Value.indentation level).toList = ',' :: gap level := by
    simp [Value.indentation, gap]
  rw [String.toList_intercalate, separator]
  induction lines generalizing line with
  | nil => simp [laid, List.intercalate]
  | cons next lines ih =>
      rw [laid, ← ih next]
      · simp [List.intercalate]
      · nofun

theorem toList_bracketed (left right line : String) (lines : List String) :
    (Value.bracketed level left right (line :: lines)).toList =
      left.toList ++ (laid (level + 1) (line :: lines) ++ (gap level ++ right.toList)) := by
  rw [← gap_append_intercalate]
  simp [Value.bracketed, Value.indentation, gap]

/-- The characters of some lines, and one more for each line. -/
def fuelOf : List String → Nat
  | [] => 0
  | line :: lines => line.toList.length + 1 + fuelOf lines

theorem fuelOf_le_length_laid (level : Nat) (lines : List String) :
    fuelOf lines ≤ (laid level lines).length := by
  induction lines with
  | nil => exact Nat.le_refl _
  | cons line lines ih =>
      cases lines with
      | nil =>
          simp only [laid, gap, fuelOf, List.length_append, List.length_cons]
          omega
      | cons next lines =>
          rw [laid, fuelOf]
          · simp only [List.length_append, List.length_cons, gap]
            omega
          · nofun

/-! ### Values that hold others -/

theorem value?_array {c : Char} {body tail after : List Char} {items : List Value}
    (first : skipBlanks body = c :: tail) (more : c ≠ ']')
    (read : items? fuel body = some (items, after)) :
    value? (fuel + 1) ('[' :: body) = some (.array items, after) := by
  rw [value?, skipBlanks_cons rfl]
  simp only [first, read]
  split
  next same => exact absurd (List.cons.inj same).1 more
  next => rfl

theorem value?_object {c : Char} {body tail after : List Char} {fields : List (String × Value)}
    (first : skipBlanks body = c :: tail) (more : c ≠ '\x7d')
    (read : fields? fuel body = some (fields, after)) :
    value? (fuel + 1) ('\x7b' :: body) = some (.object fields, after) := by
  rw [value?, skipBlanks_cons rfl]
  simp only [first, read]
  split
  next same => exact absurd (List.cons.inj same).1 more
  next => rfl

theorem items?_last {item : Value} (blank : AreBlank blanks)
    (read : value? fuel input = some (item, blanks ++ ']' :: rest)) :
    items? (fuel + 1) input = some ([item], rest) := by
  rw [items?, read]
  simp [skipBlanks_append blank, skipBlanks_cons (rfl : isJsonBlank ']' = false)]

theorem items?_more {item : Value} {items : List Value} {later : List Char}
    (read : value? fuel input = some (item, ',' :: later))
    (behind : items? fuel later = some (items, rest)) :
    items? (fuel + 1) input = some (item :: items, rest) := by
  rw [items?, read]
  simp [skipBlanks_cons (rfl : isJsonBlank ',' = false), behind]

def field (key value : String) : String :=
  Text.quote key ++ ": " ++ value

theorem toList_field (key value : String) :
    (field key value).toList =
      '"' :: (key.toList.flatMap escapeChar ++ '"' :: ':' :: ' ' :: value.toList) := by
  simp [field, Text.toList_quote]

theorem fields?_field (key text : String) (input : List Char) :
    fields? (fuel + 1) (gap level ++ ((field key text).toList ++ input)) = (do
      let (first, rest) ← value? fuel (text.toList ++ input)
      match skipBlanks rest with
      | ',' :: after => do
          let (fields, after) ← fields? fuel after
          return ((key, first) :: fields, after)
      | '\x7d' :: after => return ([(key, first)], after)
      | _ => none) := by
  have space : AreBlank [' '] := by simp [AreBlank, isJsonBlank]
  have spaced : value? fuel (' ' :: (text.toList ++ input)) = value? fuel (text.toList ++ input) :=
    value?_blanks space _
  rw [fields?, skipBlanks_append (areBlank_gap level), toList_field, List.cons_append,
    skipBlanks_cons rfl, List.append_assoc]
  simp only [List.cons_append, key?_quoted, Option.bind_eq_bind, Option.bind_some,
    skipBlanks_cons (rfl : isJsonBlank ':' = false)]
  exact congrArg (· >>= _) spaced

theorem fields?_last {key text : String} {value : Value} (blank : AreBlank blanks)
    (read : value? fuel (text.toList ++ input) = some (value, blanks ++ '\x7d' :: rest)) :
    fields? (fuel + 1) (gap level ++ ((field key text).toList ++ input)) =
      some ([(key, value)], rest) := by
  rw [fields?_field, read]
  simp [skipBlanks_append blank, skipBlanks_cons (rfl : isJsonBlank '\x7d' = false)]

theorem fields?_more {key text : String} {value : Value} {fields : List (String × Value)}
    {later : List Char} (read : value? fuel (text.toList ++ input) = some (value, ',' :: later))
    (behind : fields? fuel later = some (fields, rest)) :
    fields? (fuel + 1) (gap level ++ ((field key text).toList ++ input)) =
      some ((key, value) :: fields, rest) := by
  rw [fields?_field, read]
  simp [skipBlanks_cons (rfl : isJsonBlank ',' = false), behind]

/-! ### Reading back -/

namespace Value

mutual

/-- A value without numbers, whose texts have a content. -/
def isPlain : Value → Bool
  | .null => true
  | .bool _ => true
  | .integer _ => false
  | .decimal _ => false
  | .text _ => true
  | .brokenText => false
  | .array items => arePlain items
  | .object fields => arePlainFields fields

def arePlain : List Value → Bool
  | [] => true
  | first :: rest => first.isPlain && arePlain rest

def arePlainFields : List (String × Value) → Bool
  | [] => true
  | (_, first) :: rest => first.isPlain && arePlainFields rest

end

@[simp]
theorem toList_null (level : Nat) : (null.prettyAt level).toList = ['n', 'u', 'l', 'l'] := by
  simp [prettyAt, scalarText]

@[simp]
theorem toList_false (level : Nat) :
    ((bool false).prettyAt level).toList = ['f', 'a', 'l', 's', 'e'] := by
  simp [prettyAt, scalarText]

@[simp]
theorem toList_true (level : Nat) : ((bool true).prettyAt level).toList = ['t', 'r', 'u', 'e'] := by
  simp [prettyAt, scalarText]

@[simp]
theorem toList_text (level : Nat) (content : String) :
    ((text content).prettyAt level).toList =
      '"' :: (content.toList.flatMap escapeChar ++ ['"']) := by
  simp [prettyAt, scalarText, Text.toList_quote]

@[simp]
theorem toList_array_nil (level : Nat) : ((array []).prettyAt level).toList = ['[', ']'] := by
  simp [prettyAt, prettyItems, bracketed]

@[simp]
theorem toList_object_nil (level : Nat) :
    ((object []).prettyAt level).toList = ['\x7b', '\x7d'] := by
  simp [prettyAt, prettyFields, bracketed]

theorem head_prettyAt (level : Nat) {j : Value} (plain : j.isPlain = true) :
    ∃ c tail, (j.prettyAt level).toList = c :: tail ∧ isJsonBlank c = false ∧ c ≠ ']' := by
  cases j with
  | null => exact ⟨_, _, toList_null level, rfl, by decide⟩
  | bool value =>
      cases value with
      | false => exact ⟨_, _, toList_false level, rfl, by decide⟩
      | true => exact ⟨_, _, toList_true level, rfl, by decide⟩
  | integer _ => cases plain
  | decimal _ => cases plain
  | brokenText => cases plain
  | text content => exact ⟨_, _, toList_text level content, rfl, by decide⟩
  | array items =>
      cases items with
      | nil => exact ⟨_, _, toList_array_nil level, rfl, by decide⟩
      | cons first rest => exact ⟨'[', _, toList_bracketed "[" "]" _ _, rfl, by decide⟩
  | object fields =>
      cases fields with
      | nil => exact ⟨_, _, toList_object_nil level, rfl, by decide⟩
      | cons first rest =>
          exact ⟨'\x7b', _, toList_bracketed "\x7b" "\x7d" _ _, rfl, by decide⟩

end Value

theorem skipBlanks_laid {line : String} {c : Char} {tail : List Char}
    (head : line.toList = c :: tail) (visible : isJsonBlank c = false) (level : Nat)
    (lines : List String) (input : List Char) :
    ∃ more, skipBlanks (laid level (line :: lines) ++ input) = c :: more := by
  cases lines with
  | nil =>
      refine ⟨tail ++ input, ?_⟩
      rw [laid, List.append_assoc, skipBlanks_append (areBlank_gap level), head, List.cons_append,
        skipBlanks_cons visible]
  | cons next lines =>
      refine ⟨tail ++ (',' :: laid level (next :: lines) ++ input), ?_⟩
      rw [laid]
      · rw [List.append_assoc, List.append_assoc, skipBlanks_append (areBlank_gap level), head,
          List.cons_append, skipBlanks_cons visible]
      · nofun

theorem fuelOf_of_bracketed {left right line : String} {lines : List String}
    (one : left.toList.length = 1)
    (enough : (Value.bracketed level left right (line :: lines)).toList.length ≤ fuel + 1) :
    fuelOf (line :: lines) ≤ fuel := by
  have laid := fuelOf_le_length_laid (level + 1) (line :: lines)
  rw [toList_bracketed] at enough
  simp only [List.length_append, one] at enough
  omega

open Value

theorem prettyAt_items (level : Nat) (first : Value) (rest : List Value) :
    (array (first :: rest)).prettyAt level =
      bracketed level "[" "]" (first.prettyAt (level + 1) :: prettyItems (level + 1) rest) := by
  rw [prettyAt, prettyItems]

theorem prettyFields_cons (level : Nat) (key : String) (first : Value)
    (rest : List (String × Value)) :
    prettyFields level ((key, first) :: rest) =
      field key (first.prettyAt level) :: prettyFields level rest := by
  rw [prettyFields]
  rfl

theorem prettyAt_fields (level : Nat) (key : String) (first : Value)
    (rest : List (String × Value)) :
    (object ((key, first) :: rest)).prettyAt level =
      bracketed level "\x7b" "\x7d"
        (field key (first.prettyAt (level + 1)) :: prettyFields (level + 1) rest) := by
  rw [prettyAt, prettyFields_cons]

/-- The mutually recursive readers, with some amount of fuel, on what is laid out by the printer. -/
structure ReadsBack (fuel : Nat) : Prop where
  value : ∀ (level : Nat) (j : Value) (rest : List Char), j.isPlain = true →
    (j.prettyAt level).toList.length ≤ fuel →
      value? fuel ((j.prettyAt level).toList ++ rest) = some (j, rest)
  items : ∀ (level : Nat) (first : Value) (items : List Value) (closing rest : List Char),
    AreBlank closing → arePlain (first :: items) = true →
      fuelOf (first.prettyAt level :: prettyItems level items) ≤ fuel →
      items? fuel (laid level (first.prettyAt level :: prettyItems level items) ++
        (closing ++ ']' :: rest)) = some (first :: items, rest)
  fields : ∀ (level : Nat) (key : String) (first : Value) (fields : List (String × Value))
      (closing rest : List Char),
    AreBlank closing → arePlainFields ((key, first) :: fields) = true →
      fuelOf (field key (first.prettyAt level) :: prettyFields level fields) ≤ fuel →
      fields? fuel (laid level (field key (first.prettyAt level) :: prettyFields level fields) ++
        (closing ++ '\x7d' :: rest)) = some ((key, first) :: fields, rest)

theorem value?_readsBack (reads : ReadsBack fuel) (level : Nat) (j : Value) (rest : List Char)
    (plain : j.isPlain = true) (enough : (j.prettyAt level).toList.length ≤ fuel + 1) :
    value? (fuel + 1) ((j.prettyAt level).toList ++ rest) = some (j, rest) := by
  cases j with
  | null =>
      rw [toList_null, value?, List.cons_append, skipBlanks_cons rfl]
      rfl
  | bool value =>
      cases value with
      | false =>
          rw [toList_false, value?, List.cons_append, skipBlanks_cons rfl]
          rfl
      | true =>
          rw [toList_true, value?, List.cons_append, skipBlanks_cons rfl]
          rfl
  | integer _ => cases plain
  | decimal _ => cases plain
  | brokenText => cases plain
  | text content =>
      rw [toList_text, value?, List.cons_append, skipBlanks_cons rfl, List.append_assoc]
      exact textValue?_quoted content rest
  | array items =>
      cases items with
      | nil =>
          rw [toList_array_nil, value?, List.cons_append, skipBlanks_cons rfl]
          simp only [List.cons_append, List.nil_append,
            skipBlanks_cons (rfl : isJsonBlank ']' = false)]
      | cons first items =>
          rw [prettyAt_items] at enough ⊢
          have short := fuelOf_of_bracketed (by decide) enough
          have plainFirst : first.isPlain = true := (Bool.and_eq_true_iff.mp plain).1
          obtain ⟨c, tail, head, visible, more⟩ := head_prettyAt (level + 1) plainFirst
          obtain ⟨behind, begins⟩ := skipBlanks_laid head visible (level + 1)
            (prettyItems (level + 1) items) (gap level ++ ']' :: rest)
          rw [toList_bracketed]
          have read := reads.items (level + 1) first items (gap level) rest (areBlank_gap level)
            plain short
          simpa using value?_array begins more read
  | object fields =>
      cases fields with
      | nil =>
          rw [toList_object_nil, value?, List.cons_append, skipBlanks_cons rfl]
          simp only [List.cons_append, List.nil_append,
            skipBlanks_cons (rfl : isJsonBlank '\x7d' = false)]
      | cons entry fields =>
          obtain ⟨key, first⟩ := entry
          rw [prettyAt_fields] at enough ⊢
          have short := fuelOf_of_bracketed (by decide) enough
          obtain ⟨behind, begins⟩ := skipBlanks_laid (toList_field key _) rfl (level + 1)
            (prettyFields (level + 1) fields) (gap level ++ '\x7d' :: rest)
          rw [toList_bracketed]
          have read := reads.fields (level + 1) key first fields (gap level) rest
            (areBlank_gap level) plain short
          simpa using value?_object begins (by decide) read

theorem items?_readsBack (reads : ReadsBack fuel) (level : Nat) (first : Value)
    (items : List Value) (closing rest : List Char) (blank : AreBlank closing)
    (plain : arePlain (first :: items) = true)
    (enough : fuelOf (first.prettyAt level :: prettyItems level items) ≤ fuel + 1) :
    items? (fuel + 1) (laid level (first.prettyAt level :: prettyItems level items) ++
      (closing ++ ']' :: rest)) = some (first :: items, rest) := by
  obtain ⟨plainFirst, plainRest⟩ := Bool.and_eq_true_iff.mp plain
  rw [fuelOf] at enough
  have value (rest : List Char) := reads.value level first rest plainFirst (by omega)
  cases items with
  | nil =>
      rw [prettyItems, laid, List.append_assoc]
      refine items?_last blank ?_
      rw [value?_blanks (areBlank_gap level), value]
  | cons second others =>
      rw [prettyItems] at enough
      have behind := reads.items level second others closing rest blank plainRest (by omega)
      rw [prettyItems, laid]
      · rw [List.append_assoc, List.append_assoc]
        refine items?_more ?_ behind
        rw [value?_blanks (areBlank_gap level), List.cons_append, value]
      · nofun

theorem fields?_readsBack (reads : ReadsBack fuel) (level : Nat) (key : String) (first : Value)
    (fields : List (String × Value)) (closing rest : List Char) (blank : AreBlank closing)
    (plain : arePlainFields ((key, first) :: fields) = true)
    (enough : fuelOf (field key (first.prettyAt level) :: prettyFields level fields) ≤ fuel + 1) :
    fields? (fuel + 1)
      (laid level (field key (first.prettyAt level) :: prettyFields level fields) ++
        (closing ++ '\x7d' :: rest)) = some ((key, first) :: fields, rest) := by
  obtain ⟨plainFirst, plainRest⟩ := Bool.and_eq_true_iff.mp plain
  rw [fuelOf] at enough
  have long : (first.prettyAt level).toList.length ≤
      (field key (first.prettyAt level)).toList.length := by
    simp only [toList_field, List.length_cons, List.length_append]
    omega
  have value (rest : List Char) := reads.value level first rest plainFirst (by omega)
  cases fields with
  | nil =>
      rw [prettyFields, laid, List.append_assoc]
      exact fields?_last blank (value _)
  | cons second others =>
      obtain ⟨key', second⟩ := second
      rw [prettyFields_cons] at enough
      have behind := reads.fields level key' second others closing rest blank plainRest (by omega)
      rw [prettyFields_cons, laid]
      · rw [List.append_assoc, List.append_assoc]
        exact fields?_more (value _) behind
      · nofun

theorem readsBack (fuel : Nat) : ReadsBack fuel := by
  induction fuel with
  | zero =>
      refine ⟨fun level j rest plain enough => ?_, fun level first items _ _ _ _ enough => ?_,
        fun level key first fields _ _ _ _ enough => ?_⟩
      · obtain ⟨c, tail, head, _⟩ := head_prettyAt level plain
        simp [head] at enough
      · simp [fuelOf] at enough
      · simp [fuelOf] at enough
  | succ fuel ih =>
      exact ⟨value?_readsBack ih, items?_readsBack ih, fields?_readsBack ih⟩

theorem parse?_pretty {j : Value} (plain : j.isPlain = true) : parse? j.pretty = some j := by
  have read := (readsBack (2 * j.pretty.length + 2)).value 0 j [] plain (by
    rw [String.length_toList]
    change j.pretty.length ≤ _
    omega)
  rw [List.append_nil] at read
  change value? _ j.pretty.toList = _ at read
  rw [parse?, read]
  rfl

end MessageCatalog.Json
