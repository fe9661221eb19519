import MessageCatalog.Proofs.Message.Spots
import MessageCatalog.Proofs.Message.Tidy

/-!
The collapse of a message text. It runs over the whole text and knows nothing of the grammar, but
where foreign white space stands in literal text only, every derivation of the text has a
counterpart for the collapsed text, of a message that differs in nothing but white space.
-/

namespace MessageCatalog.Message

open Text (collapseFrom runBehind)

variable {n : Nat} {inRun : Bool} {text rest : List Char}

theorem IsBlank.collapsed {gap : List Char} (blank : IsBlank gap) (inRun : Bool) :
    IsBlank (collapseFrom inRun gap) := by
  induction gap generalizing inRun with
  | nil => exact blank
  | cons c gap ih =>
      obtain ⟨first, later⟩ := List.forall_mem_cons.mp blank
      rw [collapseFrom, if_pos (isBlank_of_isSpace first)]
      split
      · exact ih later true
      · exact List.forall_mem_cons.mpr ⟨rfl, ih later true⟩

theorem collapseFrom_token (visible : ∀ c ∈ text, Text.isBlank c = false) (inRun : Bool)
    (rest : List Char) :
    collapseFrom inRun (text ++ rest) = text ++ collapseFrom (runBehind inRun text) rest := by
  rw [Text.collapseFrom_append, Text.collapseFrom_of_visible visible]

theorem runBehind_token (visible : ∀ c ∈ text, Text.isBlank c = false) (filled : text ≠ []) :
    runBehind inRun text = false := by
  rw [runBehind, List.getLast?_eq_some_getLast filled]
  exact visible _ (List.getLast_mem filled)

theorem collapseFrom_head (first : ∀ c ∈ text.head?, Text.isBlank c = false) (inRun : Bool) :
    collapseFrom inRun text = collapseFrom false text := by
  cases text with
  | nil => rfl
  | cons c text =>
      have visible : Text.isBlank c = false := first c rfl
      rw [Text.collapseFrom_visible visible, Text.collapseFrom_visible visible]

theorem head_collapseFrom (first : ∀ c ∈ text.head?, Text.isBlank c = false) (inRun : Bool) :
    (collapseFrom inRun text).head? = text.head? := by
  cases text with
  | nil => rfl
  | cons c text => rw [Text.collapseFrom_visible (first c rfl), List.head?_cons, List.head?_cons]

theorem prefix_of_collapseFrom {mark : List Char} (visible : ∀ c ∈ mark, Text.isBlank c = false)
    (marked : mark <+: collapseFrom false text) : mark <+: text := by
  induction mark generalizing text with
  | nil => exact List.nil_prefix
  | cons first mark ih =>
      obtain ⟨shown, later⟩ := List.forall_mem_cons.mp visible
      cases text with
      | nil => exact marked
      | cons c text =>
          cases blank : Text.isBlank c with
          | false =>
              rw [Text.collapseFrom_visible blank, List.cons_prefix_cons] at marked
              exact List.cons_prefix_cons.mpr ⟨marked.1, ih later marked.2⟩
          | true =>
              rw [collapseFrom, if_pos blank, if_neg (by simp), List.cons_prefix_cons] at marked
              rw [marked.1] at shown
              cases shown

def StartsVisible (text : List Char) : Prop :=
  ∃ gap rest, text = gap ++ rest ∧ IsBlank gap ∧ ∀ c ∈ rest.head?, Text.isBlank c = false

theorem dropWhile_gap {gap : List Char} (blank : IsBlank gap)
    (first : ∀ c ∈ rest.head?, Text.isBlank c = false) :
    (gap ++ rest).dropWhile isSpace = rest := by
  rw [List.dropWhile_append_of_pos blank]
  apply dropWhile_of_head
  cases rest with
  | nil => rfl
  | cons c rest =>
      cases space : isSpace c with
      | false => simp [space]
      | true =>
          have visible := first c rfl
          rw [isBlank_of_isSpace space] at visible
          cases visible

theorem visible_offsetMark : ∀ c ∈ offsetMark, Text.isBlank c = false := by
  simp [offsetMark, Text.isBlank]

theorem digit_collapseFrom (stops : ∀ c ∈ text.head?, c.isDigit = false) :
    ∀ c ∈ (collapseFrom false text).head?, c.isDigit = false := by
  cases text with
  | nil => exact stops
  | cons c text =>
      cases blank : Text.isBlank c with
      | false =>
          rw [Text.collapseFrom_visible blank]
          exact stops
      | true =>
          rw [collapseFrom, if_pos blank, if_neg (by simp)]
          intro x member
          obtain rfl := Option.some.inj member
          rfl

theorem DerivesOffset.collapsed {mark : List Char} {offset : Nat}
    (begun : DerivesOffset mark offset text) (starts : StartsVisible text) (inRun : Bool) :
    DerivesOffset (collapseFrom inRun mark) offset (collapseFrom (runBehind inRun mark) text) := by
  obtain ⟨gap, rest, rfl, blank, first⟩ := starts
  cases begun with
  | none unmarked =>
      refine .none fun marked => unmarked ?_
      have behind (inRun : Bool) :
          ∀ c ∈ (collapseFrom inRun rest).head?, Text.isBlank c = false := by
        rw [head_collapseFrom first]
        exact first
      rw [Text.collapseFrom_append, dropWhile_gap (blank.collapsed _) (behind _),
        collapseFrom_head first] at marked
      rw [dropWhile_gap blank first]
      exact prefix_of_collapseFrom visible_offsetMark marked
  | @some inner digits _ blankInner number whole small =>
      have visible := visible_of_letters (letters_of_isNumber number)
      have filled : digits ≠ [] := by
        rintro rfl
        cases number
      rw [Text.collapseFrom_append, Text.collapseFrom_append, Text.collapseFrom_of_visible visible,
        Text.collapseFrom_of_visible visible_offsetMark, Text.runBehind_append,
        runBehind_token visible filled]
      refine .some (blankInner.collapsed _) number (whole.imp_right digit_collapseFrom) small

/-! ### Messages -/

theorem DerivesOption.starts {option : Choice} (derived : DerivesOption text option)
    (odd : n % 2 = 1) (admitted : (⟨n, .plain⟩ : Spot).admits text = true) :
    ∃ head tail, text = head :: tail ∧ Text.isBlank head = false := by
  cases derived with
  | mk selects _ _ _ =>
      rw [Spot.admits_append, Bool.and_eq_true] at admitted
      obtain ⟨head, tail, rfl, _⟩ := selects.head
      exact ⟨head, _, rfl, selects.visible odd admitted.1 head (by simp)⟩

theorem DerivesOptions.starts {options : List Choice} (derived : DerivesOptions text options)
    (odd : n % 2 = 1) (admitted : (⟨n, .plain⟩ : Spot).admits text = true) :
    StartsVisible text := by
  cases derived with
  | blank blank => exact ⟨text, [], (List.append_nil _).symm, blank, nofun⟩
  | cons blank first later =>
      simp only [Spot.admits_append, blank.behind, Bool.and_eq_true] at admitted
      obtain ⟨head, tail, rfl, visible⟩ := first.starts odd admitted.1.2
      refine ⟨_, _, List.append_assoc .., blank, ?_⟩
      simpa using visible

theorem DerivesArgument.closes {element : Element} (derived : DerivesArgument text element)
    (inRun : Bool) : runBehind inRun text = false := by
  cases derived <;>
    · simp only [Text.runBehind_cons, Text.runBehind_append]
      rfl

theorem DerivesOption.closes {option : Choice} (derived : DerivesOption text option)
    (inRun : Bool) : runBehind inRun text = false := by
  cases derived
  simp only [Text.runBehind_cons, Text.runBehind_append]
  rfl

theorem DerivesEscape.closes {piece : Piece} (escaped : DerivesEscape text piece)
    (inRun : Bool) : runBehind inRun text = false := by
  obtain ⟨tail, rfl⟩ := escaped.head
  exact runBehind_token escaped.visible (by simp)

theorem collapsePieces_cons_congr {found later : List Piece} (piece : Piece)
    (same : ∀ inRun, collapsePieces inRun later = collapsePieces inRun found) (inRun : Bool) :
    collapsePieces inRun (piece :: later) = collapsePieces inRun (piece :: found) := by
  cases piece <;> simp only [collapsePieces, same]

mutual

-- An escape can decode to white space, so a run of the pieces may be open where none of the text
-- is; where one of the text is open, one of the pieces is.
theorem DerivesPieces.collapsed {text : List Char} {found : List Piece} {n : Nat}
    (derived : DerivesPieces text found) (even : n % 2 = 0)
    (admitted : (⟨n, .plain⟩ : Spot).admits text = true) (opened : Bool) :
    ∃ later, DerivesPieces (collapseFrom opened text) later ∧
      ∀ inRun, (opened = true → inRun = true) →
        collapsePieces inRun later = collapsePieces inRun found := by
  match derived with
  | .nil => exact ⟨[], .nil, fun _ _ => rfl⟩
  | @DerivesPieces.raw x rest found raw others =>
      have stays : (⟨n, .plain⟩ : Spot).step x = ⟨n, .plain⟩ := by
        simp only [isRaw, Bool.and_eq_true, bne_iff_ne, ne_eq] at raw
        exact Spot.step_plain raw.1.2 raw.1.1.1 raw.1.1.2
      rw [Spot.admits, stays, Bool.and_eq_true] at admitted
      cases blank : Text.isBlank x with
      | false =>
          obtain ⟨later, derived, alike⟩ := others.collapsed even admitted.2 false
          rw [Text.collapseFrom_visible blank]
          exact ⟨.char x :: later, .raw raw derived, fun inRun _ =>
            collapsePieces_cons_congr _ (fun inRun => alike inRun nofun) inRun⟩
      | true =>
          obtain ⟨later, derived, alike⟩ := others.collapsed even admitted.2 true
          rw [collapseFrom, if_pos blank]
          cases opened with
          | true =>
              refine ⟨later, derived, fun inRun behind => ?_⟩
              rw [behind rfl, alike true id, collapsePieces, if_pos blank]
              rfl
          | false =>
              refine ⟨.char ' ' :: later, .raw (by decide) derived, fun inRun _ => ?_⟩
              rw [collapsePieces, collapsePieces, if_pos blank, if_pos (by decide), alike true id]
  | @DerivesPieces.escape source rest piece found escaped others =>
      rw [Spot.admits_append, escaped.behind, Bool.and_eq_true] at admitted
      obtain ⟨later, derived, alike⟩ := others.collapsed even admitted.2 false
      rw [collapseFrom_token escaped.visible, escaped.closes]
      exact ⟨piece :: later, .escape escaped derived, fun inRun _ =>
        collapsePieces_cons_congr piece (fun inRun => alike inRun nofun) inRun⟩
  | .argument first others =>
      rw [Spot.admits_append, first.behind even, Bool.and_eq_true] at admitted
      obtain ⟨element, argument, tidied⟩ := first.collapsed even admitted.1 opened
      obtain ⟨later, derived, alike⟩ := others.collapsed even admitted.2 false
      rw [Text.collapseFrom_append, first.closes]
      refine ⟨.whole element :: later, .argument argument derived, fun inRun _ => ?_⟩
      rw [collapsePieces, collapsePieces, tidied, alike false nofun]

theorem DerivesArgument.collapsed {text : List Char} {element : Element} {n : Nat}
    (derived : DerivesArgument text element) (even : n % 2 = 0)
    (admitted : (⟨n, .plain⟩ : Spot).admits text = true) (inRun : Bool) :
    ∃ later, DerivesArgument (collapseFrom inRun text) later ∧ later.tidy = element.tidy := by
  match derived with
  | .plain blankBefore named blankAfter =>
      simp only [Spot.admits, Spot.admits_append, Spot.step_open_text even,
        blankBefore.behind_name, Spot.behind_append, Bool.and_eq_true] at admitted
      have visible := visible_of_isName named (by omega) admitted.2.1.1.2
      rw [Text.collapseFrom_visible (by decide), Text.collapseFrom_append,
        Text.collapseFrom_append, Text.collapseFrom_append, Text.collapseFrom_of_visible visible,
        Text.collapseFrom_visible (by decide), collapseFrom]
      exact ⟨_, .plain (blankBefore.collapsed _) named (blankAfter.collapsed _), rfl⟩
  | .formatted blankBefore named blankGap blankInner formatted blankAfter =>
      simp only [Spot.admits, Spot.admits_append, Spot.step_open_text even, Spot.behind_append,
        blankBefore.behind_name, name_behind named, blankGap.behind_name, Spot.step_comma_name,
        blankInner.behind, Bool.and_eq_true] at admitted
      have visible := visible_of_isName named (by omega) admitted.2.1.1.2
      obtain ⟨format, derived, tidied⟩ :=
        formatted.collapsed (by omega) admitted.2.2.2.1.1.2 (runBehind false _)
      rw [Text.collapseFrom_visible (by decide), Text.collapseFrom_append,
        Text.collapseFrom_append, Text.collapseFrom_append, Text.collapseFrom_of_visible visible,
        Text.collapseFrom_visible (by decide), Text.collapseFrom_append, Text.collapseFrom_append,
        Text.collapseFrom_append, Text.collapseFrom_visible (by decide), collapseFrom]
      refine ⟨_, .formatted (blankBefore.collapsed _) named (blankGap.collapsed _)
        (blankInner.collapsed _) derived (blankAfter.collapsed _), ?_⟩
      rw [Element.tidy, Element.tidy, tidied]

theorem DerivesFormat.collapsed {text : List Char} {format : Format} {n : Nat}
    (derived : DerivesFormat text format) (odd : n % 2 = 1)
    (admitted : (⟨n, .plain⟩ : Spot).admits text = true) (inRun : Bool) :
    ∃ later, DerivesFormat (collapseFrom inRun text) later ∧ later.tidy = format.tidy := by
  match derived with
  | .simple kind =>
      have letters : ∀ c ∈ kind.keyword.toList, c.isAlphanum = true :=
        (keyword_letters (.simple kind none)).2
      rw [Text.collapseFrom_of_visible (visible_of_letters letters)]
      exact ⟨_, .simple kind, rfl⟩
  | .styled kind blankGap blankInner token filled =>
      have letters : ∀ c ∈ kind.keyword.toList, c.isAlphanum = true :=
        (keyword_letters (.simple kind none)).2
      have word : (⟨n, .plain⟩ : Spot).behind kind.keyword.toList = ⟨n, .plain⟩ :=
        letters_behind letters n
      simp only [Spot.admits, Spot.admits_append, word, blankGap.behind, Spot.step_comma,
        blankInner.behind, Bool.and_eq_true] at admitted
      rw [collapseFrom_token (visible_of_letters letters), Text.collapseFrom_append,
        Text.collapseFrom_visible (by decide), Text.collapseFrom_append,
        Text.collapseFrom_of_visible (token.visible odd admitted.2.2.2.2)]
      exact ⟨_, .styled kind (blankGap.collapsed _) (blankInner.collapsed _) token filled, rfl⟩
  | .plural ordinal blankGap blankInner begun several filled =>
      have visible : ∀ c ∈ (if ordinal then "selectordinal" else "plural").toList,
          Text.isBlank c = false := by
        have letters := (keyword_letters (.plural ordinal 0 [])).2
        cases ordinal <;> exact visible_of_letters letters
      have word : (⟨n, .plain⟩ : Spot).behind
          (if ordinal then "selectordinal" else "plural").toList = ⟨n, .plain⟩ := by
        cases ordinal <;> rfl
      simp only [Spot.admits, Spot.admits_append, word, blankGap.behind, Spot.step_comma,
        blankInner.behind, begun.behind, Bool.and_eq_true] at admitted
      have admitted := admitted.2.2.2.2.2
      -- the digits of the offset end where they did, for no run is open behind them
      have begun := begun.collapsed (several.starts odd admitted)
      obtain ⟨later, derived, alike⟩ := several.collapsed odd admitted _
      rw [collapseFrom_token visible, Text.collapseFrom_append,
        Text.collapseFrom_visible (by decide), Text.collapseFrom_append, Text.collapseFrom_append]
      refine ⟨_, .plural ordinal (blankGap.collapsed _) (blankInner.collapsed _) (begun _) derived
        ?_, ?_⟩
      · rwa [← tidyOptions_eq_nil_iff.ne, alike, tidyOptions_eq_nil_iff.ne]
      · rw [Format.tidy, Format.tidy, alike]
  | .select blankGap several filled =>
      have word : (⟨n, .plain⟩ : Spot).behind "select".toList = ⟨n, .plain⟩ := rfl
      simp only [Spot.admits, Spot.admits_append, word, blankGap.behind, Spot.step_comma,
        Bool.and_eq_true] at admitted
      obtain ⟨later, derived, alike⟩ := several.collapsed odd admitted.2.2.2 false
      have visible : ∀ c ∈ "select".toList, Text.isBlank c = false :=
        visible_of_letters (keyword_letters (.select [])).2
      rw [collapseFrom_token visible, Text.collapseFrom_append,
        Text.collapseFrom_visible (by decide)]
      refine ⟨_, .select (blankGap.collapsed _) derived ?_, ?_⟩
      · rwa [← tidyOptions_eq_nil_iff.ne, alike, tidyOptions_eq_nil_iff.ne]
      · rw [Format.tidy, Format.tidy, alike]

theorem DerivesOptions.collapsed {text : List Char} {options : List Choice} {n : Nat}
    (derived : DerivesOptions text options) (odd : n % 2 = 1)
    (admitted : (⟨n, .plain⟩ : Spot).admits text = true) (inRun : Bool) :
    ∃ later, DerivesOptions (collapseFrom inRun text) later ∧
      tidyOptions later = tidyOptions options := by
  match derived with
  | .blank blank => exact ⟨[], .blank (blank.collapsed _), rfl⟩
  | .cons blank first others =>
      simp only [Spot.admits_append, Spot.behind_append, blank.behind, first.behind odd,
        Bool.and_eq_true] at admitted
      obtain ⟨option, chosen, tidied⟩ := first.collapsed odd admitted.1.2 (runBehind inRun _)
      obtain ⟨later, derived, alike⟩ := others.collapsed odd admitted.2 false
      rw [Text.collapseFrom_append, Text.collapseFrom_append, Text.runBehind_append, first.closes]
      refine ⟨option :: later, .cons (blank.collapsed _) chosen derived, ?_⟩
      rw [tidyOptions, tidyOptions, tidied, alike]

theorem DerivesOption.collapsed {text : List Char} {option : Choice} {n : Nat}
    (derived : DerivesOption text option) (odd : n % 2 = 1)
    (admitted : (⟨n, .plain⟩ : Spot).admits text = true) (inRun : Bool) :
    ∃ later, DerivesOption (collapseFrom inRun text) later ∧ later.tidy = option.tidy := by
  match derived with
  | .mk selects blank inside joined =>
      simp only [Spot.admits, Spot.admits_append, selects.behind, blank.behind,
        Spot.step_open_option odd, Bool.and_eq_true] at admitted
      have visible := selects.visible odd admitted.1
      obtain ⟨later, derived, alike⟩ := inside.collapsed (by omega) admitted.2.2.2.1 false
      have joined' := joins_trimBody (joins_joinPieces later derived.proper)
      rw [Text.collapseFrom_append, Text.collapseFrom_append, Text.collapseFrom_of_visible visible,
        Text.collapseFrom_visible (by decide), Text.collapseFrom_append,
        Text.collapseFrom_visible (by decide), collapseFrom]
      refine ⟨_, .mk selects (blank.collapsed _) derived joined', ?_⟩
      -- what the collapse leaves at the ends of the message is trimmed by the readers
      rw [Choice.tidy, Choice.tidy, ← (joins_tidy_body joined').joinPieces_eq,
        ← (joins_tidy_body joined).joinPieces_eq, alike false nofun]

end

/-- The collapsed text of a message is read as the message, up to white space in its texts. -/
theorem parse_collapsed {text : String} {elements : List Element}
    (read : parse text = .ok elements) (plain : IsPlain text) :
    ∃ later, parse (Text.collapsed text) = .ok later ∧
      tidyElements later = tidyElements elements := by
  obtain ⟨found, derived, joined⟩ := (parse_eq_ok_iff_derives text elements).mp read
  obtain ⟨pieces, derived, alike⟩ := derived.collapsed rfl plain false
  have joined' := joins_joinPieces pieces derived.proper
  have spelled : Derives (Text.collapsed text) (joinPieces pieces) := by
    refine ⟨pieces, ?_, joined'⟩
    rwa [Text.collapsed, String.toList_ofList]
  refine ⟨_, (parse_eq_ok_iff_derives _ _).mpr spelled, ?_⟩
  rw [← (joins_tidy joined').joinPieces_eq, ← (joins_tidy joined).joinPieces_eq, alike false nofun]

/-- A backslash at the end of a name does not escape the brace behind it. -/
example : IsPlain "\x7ba\\\x7d\u00a0b" ∧ ¬ IsPlain "\x7ba\u00a0b\x7d" := by
  decide

end MessageCatalog.Message
