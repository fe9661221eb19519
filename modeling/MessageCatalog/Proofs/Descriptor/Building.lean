import MessageCatalog.Descriptor.Builder
import MessageCatalog.Proofs.Message.Spans

/-!
What a draft is built from. One pair is at fault, gives a field its text, or has no meaning, and
the draft has no part in which. A build ends with the first pair at fault, and without one each
field has the text of the last pair for it.
-/

namespace MessageCatalog.Descriptor

open Message (bind_eq_ok_iff bind_eq_error_iff ok_bind)

theorem Field.key_injective : Function.Injective Field.key := by
  intro one other
  cases one <;> cases other <;> decide

theorem Field.ofKey?_key (field : Field) : Field.ofKey? field.key = some field := by
  cases field <;> decide

theorem Field.ofKey?_eq_some_iff {key : String} {field : Field} :
    Field.ofKey? key = some field ↔ key = field.key := by
  constructor
  · intro found
    have same := List.find?_some found
    exact (beq_iff_eq.mp same).symm
  · rintro rfl
    exact field.ofKey?_key

theorem Field.ofKey?_eq_none_iff {key : String} :
    Field.ofKey? key = none ↔ ∀ field : Field, key ≠ field.key := by
  rw [Option.eq_none_iff_forall_ne_some]
  exact forall_congr' fun field => not_congr Field.ofKey?_eq_some_iff

def Draft.get? (draft : Draft) : Field → Option String
  | .id => draft.id
  | .description => draft.description
  | .defaultMessage => draft.defaultMessage

theorem Draft.get?_set (draft : Draft) (field other : Field) (value : String) :
    (draft.set field value).get? other = if other = field then some value else draft.get? other := by
  cases field <;> cases other <;> rfl

/-- The text that a field has for a value: trimmed, and canonical for the default message. -/
def Field.prepare (validate : Message.Validator) : Field → String →
    Except Message.SyntaxError String
  | .defaultMessage, text => validate (Text.trimmed text)
  | _, text => .ok (Text.trimmed text)

def Part.text? (part : Part) : Option String :=
  part.value?.map Script.Value.toText

/-- A name stands for itself, any other key for its constant. -/
def Part.key? (part : Part) : Option String :=
  part.name? <|> part.text?

theorem Part.resolveValue_eq (part : Part) :
    part.resolveValue = match part.text? with
      | some text => .ok text
      | none => .error ⟨.unevaluatable, part.location⟩ := by
  unfold Part.resolveValue Part.text?
  cases part.value? <;> rfl

theorem Part.resolveKey_eq (part : Part) :
    part.resolveKey = match part.key? with
      | some key => .ok key
      | none => .error ⟨.unevaluatable, part.location⟩ := by
  unfold Part.resolveKey Part.key?
  cases part.name? with
  | some name => rfl
  | none => exact part.resolveValue_eq

def Names (pair : Part × Part) (field : Field) : Prop :=
  pair.1.key? = some field.key

theorem Names.unique {pair : Part × Part} {one other : Field} (first : Names pair one)
    (second : Names pair other) : one = other :=
  Field.key_injective (Option.some.inj (first.symm.trans second))

def Gives (validate : Message.Validator) (pair : Part × Part) (field : Field) (value : String) :
    Prop :=
  Names pair field ∧ ∃ text, pair.2.text? = some text ∧ field.prepare validate text = .ok value

/-- The key is constant, and it is the one of no field. -/
def Part.Unknown (key : Part) : Prop :=
  ∃ name, key.key? = some name ∧ ∀ field : Field, name ≠ field.key

/-- What can be wrong with a pair, and the failure for it. -/
inductive Faulty (fromMarkup : Bool) (validate : Message.Validator) (pair : Part × Part) :
    Failure → Prop
  | key (unresolved : pair.1.key? = none) :
      Faulty fromMarkup validate pair ⟨.unevaluatable, pair.1.location⟩
  | value {field : Field} (named : Names pair field) (unresolved : pair.2.text? = none) :
      Faulty fromMarkup validate pair ⟨.unevaluatable, pair.2.location⟩
  | message {text : String} {e : Message.SyntaxError} (named : Names pair .defaultMessage)
      (resolved : pair.2.text? = some text) (refused : validate (Text.trimmed text) = .error e) :
      Faulty fromMarkup validate pair
        ⟨rejection fromMarkup pair.2 (Text.trimmed text) e, pair.2.location⟩

variable {fromMarkup : Bool} {validate : Message.Validator} {draft last : Draft}
  {pair : Part × Part} {pairs : List (Part × Part)} {field : Field} {failure : Failure}
  {value : String}

theorem fieldValue_eq (field : Field) (part : Part) :
    fieldValue fromMarkup validate field part = match part.text? with
      | none => .error ⟨.unevaluatable, part.location⟩
      | some text => match field.prepare validate text with
        | .ok value => .ok value
        | .error e => .error ⟨rejection fromMarkup part (Text.trimmed text) e, part.location⟩ := by
  unfold fieldValue
  rw [part.resolveValue_eq]
  cases part.text? with
  | none => rfl
  | some text => cases field <;> rfl

theorem addPair_of_names (named : Names pair field) (draft : Draft) :
    addPair fromMarkup validate draft pair =
      (fieldValue fromMarkup validate field pair.2).map (draft.set field) := by
  have resolved : pair.1.resolveKey = .ok field.key := by rw [pair.1.resolveKey_eq, named]
  unfold addPair
  rw [resolved, ok_bind]
  simp only [field.ofKey?_key]
  rfl

theorem addPair_of_unknown (unknown : pair.1.Unknown) (draft : Draft) :
    addPair fromMarkup validate draft pair = .ok draft := by
  obtain ⟨name, named, other⟩ := unknown
  have resolved : pair.1.resolveKey = .ok name := by rw [pair.1.resolveKey_eq, named]
  unfold addPair
  rw [resolved, ok_bind]
  simp only [Field.ofKey?_eq_none_iff.mpr other]
  rfl

theorem addPair_of_gives (gives : Gives validate pair field value) (draft : Draft) :
    addPair fromMarkup validate draft pair = .ok (draft.set field value) := by
  obtain ⟨named, text, resolved, prepared⟩ := gives
  rw [addPair_of_names named, fieldValue_eq, resolved]
  simp only [prepared]
  rfl

theorem addPair_of_faulty (faulty : Faulty fromMarkup validate pair failure) (draft : Draft) :
    addPair fromMarkup validate draft pair = .error failure := by
  cases faulty with
  | key unresolved =>
      unfold addPair
      rw [pair.1.resolveKey_eq, unresolved]
      rfl
  | value named unresolved =>
      rw [addPair_of_names named, fieldValue_eq, unresolved]
      rfl
  | @message text e named resolved refused =>
      have unprepared : Field.defaultMessage.prepare validate text = .error e := refused
      rw [addPair_of_names named, fieldValue_eq, resolved]
      simp only [unprepared]
      rfl

theorem pair_cases (fromMarkup : Bool) (validate : Message.Validator) (pair : Part × Part) :
    (∃ failure, Faulty fromMarkup validate pair failure) ∨
      (∃ field value, Gives validate pair field value) ∨ pair.1.Unknown := by
  cases named : pair.1.key? with
  | none => exact .inl ⟨_, .key named⟩
  | some name =>
      by_cases known : ∃ field : Field, name = field.key
      · obtain ⟨field, rfl⟩ := known
        cases resolved : pair.2.text? with
        | none => exact .inl ⟨_, .value named resolved⟩
        | some text =>
            cases prepared : field.prepare validate text with
            | ok value => exact .inr (.inl ⟨field, value, named, text, resolved, prepared⟩)
            | error e =>
                cases field with
                | id | description => cases prepared
                | defaultMessage => exact .inl ⟨_, .message named resolved prepared⟩
      · exact .inr (.inr ⟨name, named, fun field same => known ⟨field, same⟩⟩)

theorem addPair_eq_error_iff :
    addPair fromMarkup validate draft pair = .error failure ↔
      Faulty fromMarkup validate pair failure := by
  refine ⟨fun failed => ?_, fun faulty => addPair_of_faulty faulty draft⟩
  rcases pair_cases fromMarkup validate pair with
    ⟨other, faulty⟩ | ⟨field, value, gives⟩ | unknown
  · rw [addPair_of_faulty faulty] at failed
    cases failed
    exact faulty
  · rw [addPair_of_gives gives] at failed
    cases failed
  · rw [addPair_of_unknown unknown] at failed
    cases failed

theorem addPair_eq_ok_iff :
    addPair fromMarkup validate draft pair = .ok last ↔
      (∃ field value, Gives validate pair field value ∧ last = draft.set field value) ∨
        (pair.1.Unknown ∧ last = draft) := by
  constructor
  · intro added
    rcases pair_cases fromMarkup validate pair with
      ⟨failure, faulty⟩ | ⟨field, value, gives⟩ | unknown
    · rw [addPair_of_faulty faulty] at added
      cases added
    · rw [addPair_of_gives gives] at added
      cases added
      exact .inl ⟨field, value, gives, rfl⟩
    · rw [addPair_of_unknown unknown] at added
      cases added
      exact .inr ⟨unknown, rfl⟩
  · rintro (⟨field, value, gives, rfl⟩ | ⟨unknown, rfl⟩)
    · exact addPair_of_gives gives draft
    · exact addPair_of_unknown unknown last

theorem Faulty.location (faulty : Faulty fromMarkup validate pair failure) :
    failure.location = pair.1.location ∨ failure.location = pair.2.location := by
  cases faulty with
  | key unresolved => exact .inl rfl
  | value named unresolved => exact .inr rfl
  | message named resolved refused => exact .inr rfl

/-! ### Lists of pairs -/

def IsFaulty (fromMarkup : Bool) (validate : Message.Validator) (pair : Part × Part) : Prop :=
  ∃ failure, Faulty fromMarkup validate pair failure

def FirstFailure (fromMarkup : Bool) (validate : Message.Validator) (pairs : List (Part × Part))
    (failure : Failure) : Prop :=
  ∃ before pair after, pairs = before ++ pair :: after ∧
    (∀ other ∈ before, ¬IsFaulty fromMarkup validate other) ∧
      Faulty fromMarkup validate pair failure

def LastGives (validate : Message.Validator) (pairs : List (Part × Part)) (field : Field)
    (value : String) : Prop :=
  ∃ before pair after, pairs = before ++ pair :: after ∧ Gives validate pair field value ∧
    ∀ other ∈ after, ¬Names other field

/-- Nothing, or the text of the last pair for the field. -/
def Holds (validate : Message.Validator) (pairs : List (Part × Part)) (field : Field) :
    Option String → Prop
  | none => ∀ pair ∈ pairs, ¬Names pair field
  | some value => LastGives validate pairs field value

/-- Results that are the same, up to the fault of a message that does not parse. -/
inductive SameButHint {A : Type} : Except Failure A → Except Failure A → Prop
  | same (result : Except Failure A) : SameButHint result result
  | hint (e : Message.SyntaxError) (location : Location) :
      SameButHint (.error ⟨.escapingHint, location⟩) (.error ⟨.messageSyntax e, location⟩)

theorem not_isFaulty_of_addPair (added : addPair fromMarkup validate draft pair = .ok last) :
    ¬IsFaulty fromMarkup validate pair := by
  rintro ⟨failure, faulty⟩
  rw [addPair_of_faulty faulty] at added
  cases added

theorem not_firstFailure_nil : ¬FirstFailure fromMarkup validate [] failure := by
  rintro ⟨before, pair, after, shape, _⟩
  exact absurd shape (by simp)

theorem firstFailure_cons_iff {first : Part × Part} :
    FirstFailure fromMarkup validate (first :: pairs) failure ↔
      Faulty fromMarkup validate first failure ∨
        (¬IsFaulty fromMarkup validate first ∧ FirstFailure fromMarkup validate pairs failure) := by
  constructor
  · rintro ⟨before, pair, after, shape, passes, faulty⟩
    cases before with
    | nil =>
        cases shape
        exact .inl faulty
    | cons head before =>
        cases shape
        obtain ⟨passesFirst, passes⟩ := List.forall_mem_cons.mp passes
        exact .inr ⟨passesFirst, before, pair, after, rfl, passes, faulty⟩
  · rintro (faulty | ⟨passesFirst, before, pair, after, rfl, passes, faulty⟩)
    · exact ⟨[], first, pairs, rfl, List.forall_mem_nil _, faulty⟩
    · exact ⟨first :: before, pair, after, rfl, List.forall_mem_cons.mpr ⟨passesFirst, passes⟩,
        faulty⟩

theorem SameButHint.bind {A B : Type} {first first' : Except Failure A}
    {next next' : A → Except Failure B} (same : SameButHint first first')
    (each : ∀ found, SameButHint (next found) (next' found)) :
    SameButHint (first >>= next) (first' >>= next') := by
  cases same with
  | same =>
      cases first with
      | ok found => exact each found
      | error failure => exact .same _
  | hint e location => exact .hint e location

theorem LastGives.behind (given : LastGives validate pairs field value) (first : Part × Part) :
    LastGives validate (first :: pairs) field value := by
  obtain ⟨before, pair, after, rfl, gives, unnamed⟩ := given
  exact ⟨first :: before, pair, after, rfl, gives, unnamed⟩

theorem firstFailure_of_isFaulty
    (faulty : ∃ pair ∈ pairs, IsFaulty fromMarkup validate pair) :
    ∃ failure, FirstFailure fromMarkup validate pairs failure := by
  induction pairs with
  | nil => simp at faulty
  | cons first rest ih =>
      by_cases here : IsFaulty fromMarkup validate first
      · obtain ⟨failure, here⟩ := here
        exact ⟨failure, firstFailure_cons_iff.mpr (.inl here)⟩
      · simp only [List.mem_cons, exists_eq_or_imp] at faulty
        obtain ⟨failure, later⟩ := ih (faulty.resolve_left here)
        exact ⟨failure, firstFailure_cons_iff.mpr (.inr ⟨here, later⟩)⟩

/-! ### Runs -/

theorem foldlM_eq_error_iff :
    pairs.foldlM (addPair fromMarkup validate) draft = .error failure ↔
      FirstFailure fromMarkup validate pairs failure := by
  induction pairs generalizing draft with
  | nil => exact iff_of_false nofun not_firstFailure_nil
  | cons first rest ih =>
      rw [List.foldlM_cons, bind_eq_error_iff, addPair_eq_error_iff, firstFailure_cons_iff]
      refine or_congr_right ?_
      cases added : addPair fromMarkup validate draft first with
      | ok next =>
          rw [and_iff_right (not_isFaulty_of_addPair added)]
          constructor
          · rintro ⟨_, ⟨⟩, failed⟩
            exact ih.mp failed
          · exact fun failed => ⟨next, rfl, ih.mpr failed⟩
      | error other =>
          refine iff_of_false ?_ ?_
          · rintro ⟨_, impossible, _⟩
            cases impossible
          · exact fun passes => passes.1 ⟨other, addPair_eq_error_iff.mp added⟩

theorem location_of_build (failed : build fromMarkup validate pairs = .error failure) :
    ∃ pair ∈ pairs, failure.location = pair.1.location ∨ failure.location = pair.2.location := by
  obtain ⟨before, pair, after, rfl, _, faulty⟩ := foldlM_eq_error_iff.mp failed
  exact ⟨pair, by simp, faulty.location⟩

theorem get?_of_foldlM (built : pairs.foldlM (addPair fromMarkup validate) draft = .ok last)
    (field : Field) :
    (∃ value, LastGives validate pairs field value ∧ last.get? field = some value) ∨
      ((∀ pair ∈ pairs, ¬Names pair field) ∧ last.get? field = draft.get? field) := by
  induction pairs generalizing draft with
  | nil =>
      cases built
      exact .inr ⟨List.forall_mem_nil _, rfl⟩
  | cons first rest ih =>
      rw [List.foldlM_cons] at built
      obtain ⟨next, added, built⟩ := bind_eq_ok_iff.mp built
      rcases ih built with ⟨value, given, found⟩ | ⟨unnamed, kept⟩
      · exact .inl ⟨value, given.behind first, found⟩
      · rcases addPair_eq_ok_iff.mp added with ⟨other, value, gives, rfl⟩ | ⟨unknown, rfl⟩
        · rw [Draft.get?_set] at kept
          by_cases same : field = other
          · subst same
            rw [if_pos rfl] at kept
            exact .inl ⟨value, ⟨[], first, rest, rfl, gives, unnamed⟩, kept⟩
          · rw [if_neg same] at kept
            refine .inr ⟨List.forall_mem_cons.mpr ⟨?_, unnamed⟩, kept⟩
            exact fun named => same (named.unique gives.1)
        · refine .inr ⟨List.forall_mem_cons.mpr ⟨?_, unnamed⟩, kept⟩
          obtain ⟨name, found, other⟩ := unknown
          intro named
          exact other field (Option.some.inj (found.symm.trans named))

theorem holds_of_build (built : build fromMarkup validate pairs = .ok draft) (field : Field) :
    Holds validate pairs field (draft.get? field) := by
  rcases get?_of_foldlM built field with ⟨value, given, found⟩ | ⟨unnamed, kept⟩
  · rw [found]
    exact given
  · have none : draft.get? field = none := by
      rw [kept]
      cases field <;> rfl
    rw [none]
    exact unnamed

theorem build_insert {key : Part} (unknown : key.Unknown) (value : Part)
    (before after : List (Part × Part)) :
    build fromMarkup validate (before ++ (key, value) :: after) =
      build fromMarkup validate (before ++ after) := by
  have skipped (draft : Draft) : ((key, value) :: after).foldlM (addPair fromMarkup validate) draft =
      after.foldlM (addPair fromMarkup validate) draft := by
    have idle : addPair fromMarkup validate draft (key, value) = .ok draft :=
      addPair_of_unknown unknown draft
    rw [List.foldlM_cons, idle]
    rfl
  unfold build
  rw [List.foldlM_append, List.foldlM_append]
  exact bind_congr skipped

theorem addPair_sameButHint (draft : Draft) (pair : Part × Part) :
    SameButHint (addPair true validate draft pair) (addPair false validate draft pair) := by
  rcases pair_cases true validate pair with ⟨failure, faulty⟩ | ⟨field, value, gives⟩ | unknown
  · rw [addPair_of_faulty faulty]
    cases faulty with
    | key unresolved =>
        rw [addPair_of_faulty (.key unresolved)]
        exact .same _
    | value named unresolved =>
        rw [addPair_of_faulty (.value named unresolved)]
        exact .same _
    | message named resolved refused =>
        rw [addPair_of_faulty (.message named resolved refused)]
        unfold rejection
        split
        · exact .hint _ _
        · exact .same _
  · rw [addPair_of_gives gives, addPair_of_gives gives]
    exact .same _
  · rw [addPair_of_unknown unknown, addPair_of_unknown unknown]
    exact .same _

theorem build_sameButHint (validate : Message.Validator) (pairs : List (Part × Part)) :
    SameButHint (build true validate pairs) (build false validate pairs) := by
  unfold build
  generalize ({} : Draft) = draft
  induction pairs generalizing draft with
  | nil => exact .same _
  | cons first rest ih =>
      rw [List.foldlM_cons, List.foldlM_cons]
      exact (addPair_sameButHint draft first).bind ih

/-- A build fails if and only if a pair is at fault, with the failure for the first such pair,
whatever stands behind it; otherwise each field has what the last pair for it gives. A pair of an
unknown key changes nothing wherever it stands, and its value may be anything. Pairs from markup and
pairs from a call come to the same, up to the fault of a message that does not parse. -/
theorem build_last_wins (validate : Message.Validator) (pairs : List (Part × Part)) :
    (∀ fromMarkup,
      ((∃ failure, build fromMarkup validate pairs = .error failure) ↔
        ∃ pair ∈ pairs, IsFaulty fromMarkup validate pair) ∧
      (∀ failure, build fromMarkup validate pairs = .error failure ↔
        FirstFailure fromMarkup validate pairs failure) ∧
      ((∀ pair ∈ pairs, ¬IsFaulty fromMarkup validate pair) →
        ∃ draft, build fromMarkup validate pairs = .ok draft ∧
          ∀ field, Holds validate pairs field (draft.get? field)) ∧
      ∀ before after, pairs = before ++ after → ∀ key value, key.Unknown →
        build fromMarkup validate (before ++ (key, value) :: after) =
          build fromMarkup validate pairs) ∧
    SameButHint (build true validate pairs) (build false validate pairs) := by
  refine ⟨fun fromMarkup => ⟨?_, ?_, ?_, ?_⟩, build_sameButHint validate pairs⟩
  · constructor
    · rintro ⟨failure, failed⟩
      obtain ⟨before, pair, after, rfl, _, faulty⟩ := foldlM_eq_error_iff.mp failed
      exact ⟨pair, by simp, failure, faulty⟩
    · intro faulty
      obtain ⟨failure, first⟩ := firstFailure_of_isFaulty faulty
      exact ⟨failure, foldlM_eq_error_iff.mpr first⟩
  · exact fun failure => foldlM_eq_error_iff
  · intro passes
    cases built : build fromMarkup validate pairs with
    | ok draft => exact ⟨draft, rfl, holds_of_build built⟩
    | error failure =>
        obtain ⟨before, pair, after, rfl, _, faulty⟩ := foldlM_eq_error_iff.mp built
        exact absurd ⟨failure, faulty⟩ (passes pair (by simp))
  · rintro before after rfl key value unknown
    exact build_insert unknown value before after

def pairAt (line : Nat) (name : String) (text? : Option String) : Part × Part :=
  ({ name? := some name, value? := none, location := ⟨"a.tsx", line, 1⟩ },
    { name? := none, value? := text?.map .text, unbraced := true, location := ⟨"a.tsx", line, 9⟩ })

def renamed : List (Part × Part) :=
  [pairAt 1 "id" (some "a"), pairAt 3 "id" (some " b ")]

def misspelt : List (Part × Part) :=
  [pairAt 1 "defaultMessage" (some "\\d"), pairAt 2 "defaultMessage" (some "Hi")]

theorem build_last_wins_renamed :
    (∃ draft, build true Message.canonicalize renamed = .ok draft ∧
      ∀ field, Holds Message.canonicalize renamed field (draft.get? field)) ∧
    build true Message.canonicalize
        [pairAt 1 "id" (some "a"), pairAt 2 "values" none, pairAt 3 "id" (some " b ")] =
      build true Message.canonicalize renamed ∧
    build true Message.canonicalize misspelt = .error ⟨.escapingHint, ⟨"a.tsx", 1, 9⟩⟩ := by
  have first : addPair true Message.canonicalize {} (pairAt 1 "id" (some "a")) =
      .ok { id := some "a" } := by
    rfl
  have second : addPair true Message.canonicalize {} (pairAt 3 "id" (some " b ")) =
      .ok { id := some "b" } := by
    rfl
  have passes : ∀ pair ∈ renamed, ¬IsFaulty true Message.canonicalize pair := by
    simp only [renamed, List.forall_mem_cons]
    exact ⟨not_isFaulty_of_addPair first, not_isFaulty_of_addPair second,
      List.forall_mem_nil _⟩
  have unknown : (pairAt 2 "values" none).1.Unknown := ⟨"values", rfl, by rintro ⟨⟩ <;> decide⟩
  have trimmed : Text.trimmed "\\d" = "\\d" := rfl
  have refused : Message.canonicalize (Text.trimmed "\\d") = .error ⟨0, .escape⟩ := rfl
  have faulty : Faulty true Message.canonicalize (pairAt 1 "defaultMessage" (some "\\d"))
      ⟨rejection true _ (Text.trimmed "\\d") _, _⟩ := .message rfl rfl refused
  have hinted : rejection true (pairAt 1 "defaultMessage" (some "\\d")).2 (Text.trimmed "\\d")
      ⟨0, .escape⟩ = .escapingHint := by
    simp [rejection, pairAt, trimmed, String.contains_char_eq]
  rw [hinted] at faulty
  obtain ⟨_, _, holds, inserted⟩ := (build_last_wins Message.canonicalize renamed).1 true
  refine ⟨holds passes, inserted [pairAt 1 "id" (some "a")] _ rfl _ _ unknown, ?_⟩
  refine (((build_last_wins Message.canonicalize misspelt).1 true).2.1 _).mpr ?_
  exact ⟨[], _, _, rfl, List.forall_mem_nil _, faulty⟩

end MessageCatalog.Descriptor
