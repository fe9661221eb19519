import MessageCatalog.Proofs.Descriptor.Building
import MessageCatalog.Proofs.Extraction.EditedSites

/-!
Components without an attribute for a default message. They have nothing to extract, yet their
attributes are read before that is seen: an id or a description that is not constant is a failure
all the same.
-/

namespace MessageCatalog.Extraction

open Script Descriptor

def dynamicFailure? (t : Setting) (p : Progress) : Attribute → Option Failure
  | .named span name value =>
      match Field.ofKey? name, attributeConstant? t p value with
      | some _, none => some ⟨.unevaluatable, t.source.locate (valueStart span value)⟩
      | _, _ => none
  | .spread _ => none

/-- No attribute is for a default message, whatever is spread into the element. -/
def Messageless (attributes : List Attribute) : Prop :=
  ∀ span value, .named span Field.defaultMessage.key value ∉ attributes

def AllConstant (t : Setting) (p : Progress) (attributes : List Attribute) : Prop :=
  ∀ span (field : Field) value, .named span field.key value ∈ attributes →
    attributeConstant? t p value ≠ none

variable {t : Setting} {p : Progress} {s : Scopes} {attributes : List Attribute}
  {failure : Failure}

theorem names_attribute_iff {span : Span} {name : String} {value : AttributeValue}
    {pair : Descriptor.Part × Descriptor.Part} {field : Field}
    (found : attributePair? t p (.named span name value) = some pair) :
    Descriptor.Names pair field ↔ name = field.key := by
  cases found
  exact Option.some_inj

theorem dynamicFailure?_eq_some_iff {span : Span} {name : String} {value : AttributeValue} :
    dynamicFailure? t p (.named span name value) = some failure ↔
      (∃ field : Field, name = field.key) ∧ attributeConstant? t p value = none ∧
        failure = ⟨.unevaluatable, t.source.locate (valueStart span value)⟩ := by
  simp only [← Field.ofKey?_eq_some_iff, dynamicFailure?]
  cases Field.ofKey? name <;> cases attributeConstant? t p value <;> simp [eq_comm]

theorem faulty_attribute_iff {span : Span} {name : String} {value : AttributeValue}
    {pair : Descriptor.Part × Descriptor.Part} (other : name ≠ Field.defaultMessage.key)
    (found : attributePair? t p (.named span name value) = some pair) :
    Faulty true t.validate pair failure ↔
      dynamicFailure? t p (.named span name value) = some failure := by
  rw [dynamicFailure?_eq_some_iff]
  constructor
  · intro faulty
    cases faulty with
    | key unresolved =>
        cases found
        cases unresolved
    | value named unresolved =>
        have known := (names_attribute_iff found).mp named
        cases found
        exact ⟨⟨_, known⟩, Option.map_eq_none_iff.mp unresolved, rfl⟩
    | message named resolved refused =>
        exact absurd ((names_attribute_iff found).mp named) other
  · rintro ⟨⟨field, known⟩, dynamic, rfl⟩
    have named := (names_attribute_iff found).mpr known
    cases found
    exact .value named (Option.map_eq_none_iff.mpr dynamic)

theorem firstFailure_attributes_iff (messageless : Messageless attributes) :
    FirstFailure true t.validate (attributes.filterMap (attributePair? t p)) failure ↔
      attributes.findSome? (dynamicFailure? t p) = some failure := by
  induction attributes with
  | nil => exact iff_of_false not_firstFailure_nil nofun
  | cons first rest ih =>
      have later := ih fun span value member =>
        messageless span value (List.mem_cons_of_mem first member)
      cases first with
      | spread value => exact later
      | named span name value =>
          have other : name ≠ Field.defaultMessage.key := by
            rintro rfl
            exact messageless span value List.mem_cons_self
          obtain ⟨pair, found⟩ :
              ∃ pair, attributePair? t p (.named span name value) = some pair := ⟨_, rfl⟩
          have faulty : IsFaulty true t.validate pair ↔
              dynamicFailure? t p (.named span name value) ≠ none :=
            (exists_congr fun _ => faulty_attribute_iff other found).trans
              Option.ne_none_iff_exists'.symm
          rw [List.filterMap_cons_some found, firstFailure_cons_iff, later, faulty,
            faulty_attribute_iff other found, List.findSome?_cons]
          cases dynamicFailure? t p (.named span name value) <;> simp

theorem hasMessage_of_messageless {draft : Draft} (messageless : Messageless attributes)
    (built : build true t.validate (attributes.filterMap (attributePair? t p)) = .ok draft) :
    draft.hasMessage = false := by
  have holds := holds_of_build built .defaultMessage
  cases message : draft.defaultMessage with
  | none => simp [Draft.hasMessage, message]
  | some text =>
      simp only [Draft.get?, message] at holds
      obtain ⟨before, pair, after, shape, gives, _⟩ := holds
      have among : pair ∈ attributes.filterMap (attributePair? t p) := by simp [shape]
      obtain ⟨part, member, found⟩ := List.mem_filterMap.mp among
      cases part with
      | spread value => cases found
      | named span name value =>
          obtain rfl := (names_attribute_iff found).mp gives.1
          exact absurd member (messageless span value)

theorem findSome?_dynamicFailure?_eq_none_iff :
    attributes.findSome? (dynamicFailure? t p) = none ↔ AllConstant t p attributes := by
  rw [List.findSome?_eq_none_iff]
  constructor
  · intro passes span field value member dynamic
    have fails : dynamicFailure? t p (.named span field.key value) = some _ :=
      dynamicFailure?_eq_some_iff.mpr ⟨⟨field, rfl⟩, dynamic, rfl⟩
    rw [passes _ member] at fails
    cases fails
  · intro constant part member
    cases part with
    | spread value => rfl
    | named span name value =>
        refine Option.eq_none_iff_forall_ne_some.mpr fun failure fails => ?_
        obtain ⟨⟨field, rfl⟩, dynamic, _⟩ := dynamicFailure?_eq_some_iff.mp fails
        exact constant span field value member dynamic

theorem extractElement_eq_of_messageless (f : Findings) {tag : TagName}
    (component : t.isComponent s tag = true) (messageless : Messageless attributes) (start : Nat) :
    extractElement t (f.within s) start tag attributes =
      match attributes.findSome? (dynamicFailure? t (f.within s)) with
      | some failure => (f.within s).fail failure
      | none => f.within s := by
  rw [extractElement_component f component start attributes]
  have fails (failure : Failure) : t.attributeDraft s attributes = .error failure ↔
      attributes.findSome? (dynamicFailure? t (f.within s)) = some failure :=
    foldlM_eq_error_iff.trans (firstFailure_attributes_iff messageless)
  cases built : t.attributeDraft s attributes with
  | error failure => rw [(fails failure).mp built]
  | ok draft =>
      have passes : attributes.findSome? (dynamicFailure? t (f.within s)) = none :=
        Option.eq_none_iff_forall_ne_some.mpr fun failure found => by
          rw [← fails, built] at found
          cases found
      have none : draft.hasMessage = false := hasMessage_of_messageless messageless built
      simp only [passes, none]
      rfl

/-- A component without a default message changes nothing, whatever its other attributes are. Yet
it fails if one of them is for a field and its value is not constant, and the first such attribute
gives the failure. -/
theorem extractElement_messageless (f : Findings) {tag : TagName}
    (component : t.isComponent s tag = true) (messageless : Messageless attributes) (start : Nat) :
    let p := extractElement t (f.within s) start tag attributes
    p.findings = f ∧ p.scopes = s ∧
      (p.failure = none ↔ AllConstant t (f.within s) attributes) ∧
      p.failure = attributes.findSome? (dynamicFailure? t (f.within s)) := by
  rw [extractElement_eq_of_messageless f component messageless start,
    ← findSome?_dynamicFailure?_eq_none_iff]
  cases attributes.findSome? (dynamicFailure? t (f.within s)) with
  | none => exact ⟨rfl, rfl, iff_of_true rfl rfl, rfl⟩
  | some failure => exact ⟨rfl, rfl, iff_of_false nofun nofun, rfl⟩

def keyedTag : TagName :=
  .path "FormattedMessage" []

def keyedAttributes : List Attribute :=
  [.named ⟨75, 83⟩ "id" (.braces 78 (.ident 79 "key"))]

def keyedSetting : Setting :=
  .ofSource ⟨"react-intl", ["FormattedMessage"], ["FormattedPlural"], [], false⟩
    Message.canonicalize
    { file := "a.tsx"
      text := ("import \x7b FormattedMessage \x7d from \"react-intl\";\n" ++
        "const a = <FormattedMessage id=\x7bkey\x7d />;\n").toList
      module := ⟨[.imports ⟨"react-intl", false, [⟨"FormattedMessage", "FormattedMessage", false⟩]⟩,
        .part (.expr (.element (.mk 57 keyedTag keyedAttributes [] [])))]⟩ }

theorem isComponent_keyed : keyedSetting.isComponent .empty keyedTag = true := by
  decide

theorem messageless_keyed : Messageless keyedAttributes := by
  intro span value
  simp [keyedAttributes, Field.key]

theorem extractElement_messageless_keyed :
    let f := Findings.start keyedSetting.options
    let p := extractElement keyedSetting (f.within .empty) 57 keyedTag keyedAttributes
    p.findings = f ∧ p.scopes = .empty ∧
      p.failure = some ⟨.unevaluatable, ⟨"a.tsx", 2, 32⟩⟩ := by
  intro f p
  obtain ⟨found, scopes, _, failed⟩ :=
    extractElement_messageless f isComponent_keyed messageless_keyed 57
  exact ⟨found, scopes, failed.trans (by decide +kernel)⟩

/-- So it is not true that nothing is reported where there is nothing to extract. -/
theorem messageless_reported :
    ¬∀ (t : Setting) (f : Findings) (s : Scopes) (tag : TagName) (attributes : List Attribute)
      (start : Nat), t.isComponent s tag = true → Messageless attributes →
        (extractElement t (f.within s) start tag attributes).failure = none := by
  intro silent
  have passed := silent keyedSetting (.start keyedSetting.options) .empty keyedTag keyedAttributes 57
    isComponent_keyed messageless_keyed
  revert passed
  decide +kernel

end MessageCatalog.Extraction
