import MessageCatalog.Proofs.Descriptor.Building
import MessageCatalog.Proofs.Descriptor.StoreRuns
import MessageCatalog.Proofs.Text.Trimming

/-!
Drafts as they are built: their texts are trimmed, and their messages are what the validator has
given for trimmed texts. A store that they are committed to has such descriptors only.
-/

namespace MessageCatalog.Descriptor

open Message (bind_eq_ok_iff)

variable {fromMarkup : Bool} {validate : Message.Validator} {draft : Draft}

/-- The validator gives this message for some trimmed text. -/
def IsValidated (validate : Message.Validator) (message : String) : Prop :=
  ∃ text, Text.IsTrimmed text ∧ validate text = .ok message

structure Draft.Prepared (validate : Message.Validator) (draft : Draft) : Prop where
  id : ∀ text ∈ draft.id, Text.IsTrimmed text
  description : ∀ text ∈ draft.description, Text.IsTrimmed text
  defaultMessage : ∀ message ∈ draft.defaultMessage, IsValidated validate message

def Field.Accepts (validate : Message.Validator) : Field → String → Prop
  | .defaultMessage, value => IsValidated validate value
  | _, value => Text.IsTrimmed value

theorem accepts_of_gives {field : Field} {pair : Part × Part} {value : String}
    (gives : Gives validate pair field value) : field.Accepts validate value := by
  obtain ⟨_, text, _, prepared⟩ := gives
  have trimmed := Text.isTrimmed_trimmed text
  cases field with
  | id | description =>
      cases prepared
      exact trimmed
  | defaultMessage => exact ⟨Text.trimmed text, trimmed, prepared⟩

theorem prepared_empty : ({} : Draft).Prepared validate := by
  constructor <;> intro text found <;> cases found

theorem prepared_set {field : Field} {value : String} (prepared : draft.Prepared validate)
    (accepted : field.Accepts validate value) : (draft.set field value).Prepared validate := by
  obtain ⟨id, description, defaultMessage⟩ := prepared
  cases field with
  | id => exact ⟨fun _ found => Option.mem_some.mp found ▸ accepted, description, defaultMessage⟩
  | description => exact ⟨id, fun _ found => Option.mem_some.mp found ▸ accepted, defaultMessage⟩
  | defaultMessage => exact ⟨id, description, fun _ found => Option.mem_some.mp found ▸ accepted⟩

theorem prepared_addPair {next : Draft} {pair : Part × Part} (prepared : draft.Prepared validate)
    (added : addPair fromMarkup validate draft pair = .ok next) : next.Prepared validate := by
  rcases addPair_eq_ok_iff.mp added with ⟨field, value, gives, rfl⟩ | ⟨_, rfl⟩
  · exact prepared_set prepared (accepts_of_gives gives)
  · exact prepared

theorem prepared_foldlM {pairs : List (Part × Part)} {last : Draft}
    (prepared : draft.Prepared validate)
    (built : pairs.foldlM (addPair fromMarkup validate) draft = .ok last) :
    last.Prepared validate := by
  induction pairs generalizing draft with
  | nil =>
      cases built
      exact prepared
  | cons pair rest ih =>
      rw [List.foldlM_cons] at built
      obtain ⟨next, added, built⟩ := bind_eq_ok_iff.mp built
      exact ih (prepared_addPair prepared added) built

theorem prepared_build {pairs : List (Part × Part)}
    (built : build fromMarkup validate pairs = .ok draft) : draft.Prepared validate :=
  prepared_foldlM prepared_empty built

namespace Store

theorem of_commit {s next : Store} {location : Location}
    (committed : s.commit draft location = .ok next) :
    ¬draft.Incomplete ∧ ¬s.Conflicts draft ∧ ¬s.Undescribed draft ∧
      next = s.insert draft.descriptor := by
  rcases s.commit_cases draft location with
    ⟨_, outcome⟩ | ⟨_, _, outcome⟩ | ⟨_, _, _, outcome⟩ | ⟨complete, agrees, described, outcome⟩
  · simp [outcome] at committed
  · simp [outcome] at committed
  · simp [outcome] at committed
  · rw [outcome] at committed
    cases committed
    exact ⟨complete, agrees, described, rfl⟩

theorem mem_insert {s : Store} {entry added : Descriptor}
    (member : entry ∈ (s.insert added).entries) : entry ∈ s.entries ∨ entry = added := by
  unfold insert at member
  split at member
  · exact .inl member
  · exact (List.mem_append.mp member).imp_right List.mem_singleton.mp

theorem get?_insert {s : Store} {id : String} {entry : Descriptor} (found : s.get? id = some entry)
    (added : Descriptor) : (s.insert added).get? id = some entry := by
  unfold insert
  split
  · exact found
  · rw [get?] at found ⊢
    rw [List.find?_append, found]
    rfl

theorem get?_insert_descriptor {s : Store} {draft : Draft} (agrees : ¬s.Conflicts draft) :
    (s.insert draft.descriptor).get? (draft.id.getD "") = some draft.descriptor := by
  cases found : s.get? (draft.id.getD "") with
  | some existing =>
      have same : existing = draft.descriptor :=
        Classical.not_not.mp fun differs => agrees ((conflicts_of_get? found).mpr differs)
      exact get?_insert (same ▸ found) _
  | none =>
      have appended : s.insert draft.descriptor =
          { s with entries := s.entries ++ [draft.descriptor] } := by
        simp [insert, Draft.descriptor, found]
      rw [get?] at found
      rw [appended, get?, List.find?_append, found]
      simp [Draft.descriptor]

end Store

end MessageCatalog.Descriptor
