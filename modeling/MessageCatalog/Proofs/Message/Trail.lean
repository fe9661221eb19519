import MessageCatalog.Proofs.Message.Readers

/-!
Readings with their trails. The trail of a reading is the list of the cursors that it comes by, one
for each character that it passes, and one for each jump over the letters of `offset:` or the digits
of an escape. Without their trails, the readings are those of the readers.
-/

namespace MessageCatalog.Message

structure Trail (α : Type) where
  passed : List Cursor
  outcome : Outcome α

namespace Trail

def bind {α β : Type} (first : Trail α) (next : α → Trail β) : Trail β :=
  match first.outcome with
  | .ok found => ⟨first.passed ++ (next found).passed, (next found).outcome⟩
  | .error e => ⟨first.passed, .error e⟩

instance : Monad Trail where
  pure found := ⟨[], .ok found⟩
  bind := bind

def moveTo (c : Cursor) : Trail Cursor :=
  ⟨[c], .ok c⟩

def fail {α : Type} (c : Cursor) (cause : Cause) : Trail α :=
  ⟨[], c.fail cause⟩

def behindEach (c : Cursor) : List Char → List Cursor
  | [] => []
  | _ :: rest => c.next :: behindEach c.next rest

def takeRun (accepts : Char → Bool) (c : Cursor) : Trail (List Char × Cursor) :=
  ⟨behindEach c (c.takeRun accepts).1, .ok (c.takeRun accepts)⟩

def skipSpace (c : Cursor) : Trail Cursor := do
  let (_, after) ← takeRun isSpace c
  return after

def expect (wanted : Char) (c : Cursor) : Trail Cursor :=
  match c.rest with
  | [] => fail c (.expected wanted none)
  | head :: _ => if head == wanted then moveTo c.next else fail c (.expected wanted (some head))

/-- The backslash and the character behind it are passed before it shows what they mean. -/
def escape (c : Cursor) : Trail (Piece × Cursor) := do
  let second ← moveTo c.next
  let _ ← moveTo second.next
  match Message.escape c with
  | .ok (piece, after) => do
      let after ← moveTo after
      return (piece, after)
  | .error e => ⟨[], .error e⟩

def token : Nat → Cursor → Trail (List Char × Cursor)
  | 0, c => return ([], c)
  | fuel + 1, c =>
      match c.rest with
      | [] => return ([], c)
      | head :: _ =>
          if isSpace head || head == '\x7b' || head == '\x7d' then return ([], c)
          else if head == '\\' then do
            let (piece, c) ← escape c
            let (rest, c) ← token fuel c
            match piece with
            | .char char => return (char :: rest, c)
            | .whole _ => return ('#' :: rest, c)
          else if isControl head then fail c (.controlCharacter head)
          else do
            let c ← moveTo c.next
            let (rest, c) ← token fuel c
            return (head :: rest, c)

def number (c : Cursor) : Trail (List Char × Cursor) :=
  match c.rest with
  | '0' :: _ => do
      let c ← moveTo c.next
      return (['0'], c)
  | _ => do
      let (digits, after) ← takeRun Char.isDigit c
      if digits.isEmpty then fail c .missingNumber else return (digits, after)

def pluralOffset (c : Cursor) : Trail (Nat × Cursor) :=
  match c.rest with
  | 'o' :: 'f' :: 'f' :: 's' :: 'e' :: 't' :: ':' :: rest => do
      let c ← moveTo ⟨c.offset + 7, rest⟩
      let c ← skipSpace c
      let (digits, after) ← number c
      let value := digitsValue digits
      if value < UInt64.size then return (value, after) else fail after .offsetRange
  | _ => return (0, c)

def argumentName (c : Cursor) : Trail (String × Cursor) := do
  let (name, after) ← takeRun (fun head => !endsName head) c
  if name.isEmpty then fail c .missingName else return (String.ofList name, after)

def style (c : Cursor) : Trail (Option String × Cursor) := do
  let c ← skipSpace c
  match c.rest with
  | ',' :: _ => do
      let c ← moveTo c.next
      let c ← skipSpace c
      let (text, after) ← token c.rest.length c
      if text.isEmpty then fail after .missingStyle else return (some (String.ofList text), after)
  | _ => return (none, c)

def selectorText (c : Cursor) : Trail (List Char × Cursor) :=
  match c.rest with
  | '=' :: _ => do
      let c ← moveTo c.next
      let (digits, after) ← number c
      return ('=' :: digits, after)
  | _ => token c.rest.length c

def selector (c : Cursor) : Trail (String × Cursor) := do
  let (text, after) ← selectorText c
  if text.isEmpty then fail after .missingSelector else return (String.ofList text, after)

def announced (read : Cursor → Trail (Format × Cursor)) (c : Cursor) :
    Trail (Option Format × Cursor) :=
  match c.rest with
  | ',' :: _ => do
      let c ← moveTo c.next
      let c ← skipSpace c
      let (format, after) ← read c
      return (some format, after)
  | _ => return (none, c)

/-! ### Messages -/

mutual

def pieces : Nat → Bool → Cursor → Trail (List Piece × Cursor)
  | 0, _, c => return ([], c)
  | fuel + 1, nested, c =>
      match c.rest with
      | [] => if nested then fail c (.expected '\x7d' none) else return ([], c)
      | head :: _ =>
          if head == '\x7d' then return ([], c)
          else if head == '\x7b' then do
            let (element, c) ← argument fuel c
            let (rest, c) ← pieces fuel nested c
            return (.whole element :: rest, c)
          else if head == '\\' then do
            let (piece, c) ← escape c
            let (rest, c) ← pieces fuel nested c
            return (piece :: rest, c)
          else if isControl head then fail c (.controlCharacter head)
          else do
            let c ← moveTo c.next
            let (rest, c) ← pieces fuel nested c
            return (.char head :: rest, c)

def argument : Nat → Cursor → Trail (Element × Cursor)
  | 0, c => return (.escapedHash, c)
  | fuel + 1, c => do
      let c ← expect '\x7b' c
      let c ← skipSpace c
      let (name, c) ← argumentName c
      let c ← skipSpace c
      let (format, c) ← announced (argumentFormat fuel) c
      let c ← skipSpace c
      let c ← expect '\x7d' c
      return (.argument name format, c)

def argumentFormat : Nat → Cursor → Trail (Format × Cursor)
  | 0, c => fail c .missingType
  | fuel + 1, c => do
      let (letters, after) ← takeRun Char.isAlphanum c
      let keyword := String.ofList letters
      match SimpleKind.ofKeyword? keyword with
      | some kind => do
          let (style, after) ← style after
          return (.simple kind style, after)
      | none =>
          if keyword == "plural" || keyword == "selectordinal" then do
            let after ← skipSpace after
            let after ← expect ',' after
            let after ← skipSpace after
            let (offset, after) ← pluralOffset after
            let (options, after) ← choices fuel after
            if options.isEmpty then fail after .missingOption
            else return (.plural (keyword == "selectordinal") offset options, after)
          else if keyword == "select" then do
            let after ← skipSpace after
            let after ← expect ',' after
            let (options, after) ← choices fuel after
            if options.isEmpty then fail after .missingOption
            else return (.select options, after)
          else if keyword.isEmpty then fail c .missingType
          else fail c (.unknownType keyword)

def choices : Nat → Cursor → Trail (List Choice × Cursor)
  | 0, c => return ([], c)
  | fuel + 1, c => do
      let c ← skipSpace c
      match c.rest with
      | [] => return ([], c)
      | '\x7d' :: _ => return ([], c)
      | _ => do
          let (option, c) ← choice fuel c
          let (rest, c) ← choices fuel c
          return (option :: rest, c)

def choice : Nat → Cursor → Trail (Choice × Cursor)
  | 0, c => fail c .missingSelector
  | fuel + 1, c => do
      let (selector, c) ← selector c
      let c ← skipSpace c
      let c ← expect '\x7b' c
      let (body, c) ← pieces fuel true c
      let c ← expect '\x7d' c
      return (.mk selector (trimBody (joinPieces body)), c)

end

def start (text : String) : Cursor :=
  ⟨0, text.toList⟩

def parse (text : String) : Trail (List Element) := do
  let (found, after) ← pieces (fuelFor text.toList) false (start text)
  match after.rest with
  | [] => return joinPieces found
  | _ => fail after .strayBrace

/-! ### Outcomes -/

section Outcomes

variable {α β : Type} (c : Cursor)

@[simp]
theorem outcome_pure (found : α) : (pure found : Trail α).outcome = .ok found := rfl

@[simp]
theorem outcome_moveTo : (moveTo c).outcome = .ok c := rfl

@[simp]
theorem outcome_takeRun (accepts : Char → Bool) :
    (takeRun accepts c).outcome = .ok (c.takeRun accepts) := rfl

@[simp]
theorem outcome_bind (first : Trail α) (next : α → Trail β) :
    (first >>= next).outcome = first.outcome >>= fun found => (next found).outcome := by
  change (bind first next).outcome = _
  unfold bind
  split
  next found shown => rw [shown, ok_bind]
  next e shown => rw [shown]; rfl

@[simp]
theorem outcome_skipSpace : (skipSpace c).outcome = .ok c.skipSpace := rfl

theorem outcome_of_eq {first : Trail α} {read : Outcome α} {next : α → Trail β}
    {later : α → Outcome β} (same : first.outcome = read)
    (behind : ∀ found, (next found).outcome = later found) :
    (first >>= next).outcome = read >>= later := by
  rw [outcome_bind, same]
  exact bind_congr_ok rfl fun found _ => behind found

theorem outcome_of_pair {first : Trail (α × Cursor)} {read : Outcome (α × Cursor)}
    {next : α × Cursor → Trail β} {later : α × Cursor → Outcome β} (same : first.outcome = read)
    (behind : ∀ found after, (next (found, after)).outcome = later (found, after)) :
    (first >>= next).outcome = read >>= later :=
  outcome_of_eq same fun found => behind found.1 found.2

theorem outcome_of_skipSpace {c : Cursor} {next : Cursor → Trail α} {read : Outcome α}
    (same : (next c.skipSpace).outcome = read) : (skipSpace c >>= next).outcome = read := by
  rw [outcome_bind, outcome_skipSpace, ok_bind, same]

theorem outcome_ite {condition : Prop} [Decidable condition] {first second : Trail α}
    {read other : Outcome α} (same : first.outcome = read) (same' : second.outcome = other) :
    (if condition then first else second).outcome = if condition then read else other := by
  split
  · exact same
  · exact same'

@[simp]
theorem outcome_expect (wanted : Char) : (expect wanted c).outcome = Message.expect wanted c := by
  unfold expect Message.expect
  cases c.rest with
  | nil => rfl
  | cons head tail => exact outcome_ite rfl rfl

@[simp]
theorem outcome_escape : (escape c).outcome = Message.escape c := by
  unfold escape
  simp only [outcome_bind, outcome_moveTo, ok_bind]
  cases Message.escape c <;> rfl

@[simp]
theorem outcome_token (fuel : Nat) : (token fuel c).outcome = Message.token fuel c := by
  induction fuel generalizing c with
  | zero => rfl
  | succ fuel ih =>
      unfold token Message.token
      cases c.rest with
      | nil => rfl
      | cons head tail =>
          refine outcome_ite rfl (outcome_ite ?_ (outcome_ite rfl ?_))
          · refine outcome_of_pair (outcome_escape c) fun piece d => ?_
            refine outcome_of_pair (ih d) fun rest e => ?_
            cases piece <;> rfl
          · exact outcome_of_eq (ih c.next) fun _ => rfl

@[simp]
theorem outcome_number : (number c).outcome = Message.number c := by
  unfold number Message.number
  generalize c.rest = rest
  split
  · rfl
  · simp only [outcome_bind, outcome_takeRun, ok_bind]
    cases c.takeRun Char.isDigit with
    | mk digits after => cases digits <;> rfl

@[simp]
theorem outcome_pluralOffset : (pluralOffset c).outcome = Message.pluralOffset c := by
  unfold pluralOffset Message.pluralOffset
  generalize c.rest = rest
  split
  · refine outcome_of_pair (outcome_number _) fun digits after => ?_
    exact outcome_ite rfl rfl
  · simp only [outcome_pure]

@[simp]
theorem outcome_argumentName : (argumentName c).outcome = Message.argumentName c := by
  unfold argumentName Message.argumentName
  rw [outcome_bind, outcome_takeRun, ok_bind]
  obtain ⟨name, after⟩ := c.takeRun fun head => !endsName head
  cases name <;> rfl

@[simp]
theorem outcome_style : (style c).outcome = Message.style c := by
  unfold style Message.style
  rw [outcome_bind, outcome_skipSpace, ok_bind]
  generalize c.skipSpace = d
  simp only
  generalize d.rest = rest
  split
  · refine outcome_of_pair (outcome_token _ _) fun text after => ?_
    exact outcome_ite rfl rfl
  · simp only [outcome_pure]

@[simp]
theorem outcome_selectorText : (selectorText c).outcome = Message.selectorText c := by
  unfold selectorText Message.selectorText Cursor.token
  generalize c.rest = rest
  split
  · exact outcome_of_eq (outcome_number c.next) fun _ => rfl
  · simp only [outcome_token]

@[simp]
theorem outcome_selector : (selector c).outcome = Message.selector c := by
  unfold selector Message.selector
  refine outcome_of_pair (outcome_selectorText c) fun text after => ?_
  exact outcome_ite rfl rfl

theorem outcome_announced {follow : Cursor → Trail (Format × Cursor)}
    {read : Cursor → Outcome (Format × Cursor)} (same : ∀ d, (follow d).outcome = read d) :
    (announced follow c).outcome = Message.announced read c := by
  unfold announced Message.announced
  generalize c.rest = rest
  split
  · exact outcome_of_eq (same c.next.skipSpace) fun _ => rfl
  · simp only [outcome_pure]

structure ReadersFollow (fuel : Nat) : Prop where
  pieces : ∀ nested c, (pieces fuel nested c).outcome = Message.pieces fuel nested c
  argument : ∀ c, (argument fuel c).outcome = Message.argument fuel c
  argumentFormat : ∀ c, (argumentFormat fuel c).outcome = Message.argumentFormat fuel c
  choices : ∀ c, (choices fuel c).outcome = Message.choices fuel c
  choice : ∀ c, (choice fuel c).outcome = Message.choice fuel c

variable {c} {fuel : Nat}

theorem outcome_pieces (follow : ReadersFollow fuel) (nested : Bool) (c : Cursor) :
    (pieces (fuel + 1) nested c).outcome = Message.pieces (fuel + 1) nested c := by
  unfold pieces Message.pieces
  cases c.rest with
  | nil => exact outcome_ite rfl rfl
  | cons head tail =>
      refine outcome_ite rfl (outcome_ite ?_ (outcome_ite ?_ (outcome_ite rfl ?_)))
      · refine outcome_of_pair (follow.argument c) fun element d => ?_
        exact outcome_of_eq (follow.pieces nested d) fun _ => rfl
      · refine outcome_of_pair (outcome_escape c) fun piece d => ?_
        exact outcome_of_eq (follow.pieces nested d) fun _ => rfl
      · exact outcome_of_eq (follow.pieces nested c.next) fun _ => rfl

theorem outcome_argument (follow : ReadersFollow fuel) (c : Cursor) :
    (argument (fuel + 1) c).outcome = Message.argument (fuel + 1) c := by
  unfold argument Message.argument
  refine outcome_of_eq (outcome_expect c _) fun opened => ?_
  refine outcome_of_skipSpace <| outcome_of_pair (outcome_argumentName _) fun name named => ?_
  refine outcome_of_skipSpace <|
    outcome_of_pair (outcome_announced _ follow.argumentFormat) fun format formatted => ?_
  exact outcome_of_skipSpace <| outcome_of_eq (outcome_expect _ '\x7d') fun _ => rfl

theorem outcome_argumentFormat (follow : ReadersFollow fuel) (c : Cursor) :
    (argumentFormat (fuel + 1) c).outcome = Message.argumentFormat (fuel + 1) c := by
  unfold argumentFormat Message.argumentFormat
  rw [outcome_bind, outcome_takeRun, ok_bind]
  obtain ⟨letters, after⟩ := c.takeRun Char.isAlphanum
  simp only
  cases SimpleKind.ofKeyword? (String.ofList letters) with
  | some kind => exact outcome_of_eq (outcome_style after) fun _ => rfl
  | none =>
      refine outcome_ite ?_ (outcome_ite ?_ (outcome_ite rfl rfl))
      · refine outcome_of_skipSpace <| outcome_of_eq (outcome_expect _ ',') fun comma => ?_
        refine outcome_of_skipSpace <| outcome_of_pair (outcome_pluralOffset _)
          fun offset begun => ?_
        refine outcome_of_pair (follow.choices begun) fun options ended => ?_
        exact outcome_ite rfl rfl
      · refine outcome_of_skipSpace <| outcome_of_eq (outcome_expect _ ',') fun comma => ?_
        refine outcome_of_pair (follow.choices comma) fun options ended => ?_
        exact outcome_ite rfl rfl

theorem outcome_choices (follow : ReadersFollow fuel) (c : Cursor) :
    (choices (fuel + 1) c).outcome = Message.choices (fuel + 1) c := by
  unfold choices Message.choices
  rw [outcome_bind, outcome_skipSpace, ok_bind]
  generalize c.skipSpace = d
  simp only
  generalize d.rest = rest
  split
  · rfl
  · rfl
  · simp only [outcome_bind, follow.choice, follow.choices, outcome_pure]
    rfl

theorem outcome_choice (follow : ReadersFollow fuel) (c : Cursor) :
    (choice (fuel + 1) c).outcome = Message.choice (fuel + 1) c := by
  unfold choice Message.choice
  refine outcome_of_pair (outcome_selector c) fun text selected => ?_
  refine outcome_of_skipSpace <| outcome_of_eq (outcome_expect _ '\x7b') fun opened => ?_
  refine outcome_of_pair (follow.pieces true opened) fun body ended => ?_
  exact outcome_of_eq (outcome_expect ended _) fun _ => rfl

theorem readersFollow (fuel : Nat) : ReadersFollow fuel := by
  induction fuel with
  | zero => constructor <;> intros <;> rfl
  | succ fuel ih =>
      exact ⟨outcome_pieces ih, outcome_argument ih, outcome_argumentFormat ih,
        outcome_choices ih, outcome_choice ih⟩

theorem outcome_parse (text : String) : (parse text).outcome = Message.parse text := by
  unfold parse Message.parse
  refine outcome_of_pair ((readersFollow _).pieces false (start text)) fun found after => ?_
  simp only
  cases after.rest <;> rfl

end Outcomes

end Trail

end MessageCatalog.Message
