import MessageCatalog.Descriptor.Store

/-!
Runs of a store: any number of commits on a new store, successful or not. What one commit does is
said once, with the order of its checks; the invariant of the entries and their order follow for
every run.
-/

namespace MessageCatalog.Descriptor

def Draft.Incomplete (draft : Draft) : Prop :=
  draft.id.getD "" = "" ∨ draft.defaultMessage.getD "" = ""

def Draft.descriptor (draft : Draft) : Descriptor :=
  ⟨draft.id.getD "", draft.description, draft.defaultMessage.getD ""⟩

namespace Store

def Conflicts (s : Store) (draft : Draft) : Prop :=
  ∃ existing, s.get? (draft.id.getD "") = some existing ∧
    (existing.description ≠ draft.description ∨
      existing.defaultMessage ≠ draft.defaultMessage.getD "")

def Undescribed (s : Store) (draft : Draft) : Prop :=
  s.enforce = true ∧ draft.description.getD "" = ""

def insert (s : Store) (entry : Descriptor) : Store :=
  match s.get? entry.id with
  | some _ => s
  | none => { s with entries := s.entries ++ [entry] }

theorem id_of_get? {s : Store} {id : String} {entry : Descriptor}
    (found : s.get? id = some entry) : entry.id = id := by
  have same := List.find?_some found
  simpa using same

theorem present?_eq_none_iff {value : Option String} :
    present? value = none ↔ value.getD "" = "" := by
  cases value with
  | none => simp [present?]
  | some text => simp [present?, Option.filter_eq_none_iff]

theorem present?_of_nonempty {value : Option String} (nonempty : value.getD "" ≠ "") :
    present? value = some (value.getD "") := by
  cases value with
  | none => simp at nonempty
  | some text => simpa [present?, Option.filter_eq_some_iff] using nonempty

theorem undescribed_iff {s : Store} {draft : Draft} :
    (s.enforce && (present? draft.description).isNone) = true ↔ s.Undescribed draft := by
  rw [Bool.and_eq_true, Option.isNone_iff_eq_none, present?_eq_none_iff, Undescribed]

theorem conflicts_of_get? {s : Store} {draft : Draft} {existing : Descriptor}
    (found : s.get? (draft.id.getD "") = some existing) :
    s.Conflicts draft ↔ existing ≠ draft.descriptor := by
  have sameId := id_of_get? found
  constructor
  · rintro ⟨other, otherFound, differs⟩ same
    rw [found] at otherFound
    cases otherFound
    rw [same] at differs
    simp [Draft.descriptor] at differs
  · intro differs
    refine ⟨existing, found, ?_⟩
    by_cases description : existing.description = draft.description
    · refine .inr fun message => differs ?_
      cases existing with
      | mk id oldDescription oldMessage =>
          simp only at sameId description message
          rw [sameId, description, message, Draft.descriptor]
    · exact .inl description

/-- What a commit does, with its checks in their order. -/
theorem commit_cases (s : Store) (draft : Draft) (location : Location) :
    (draft.Incomplete ∧ s.commit draft location = .error ⟨.missingField, location⟩) ∨
    (¬draft.Incomplete ∧ s.Conflicts draft ∧
      s.commit draft location = .error ⟨.duplicateId (draft.id.getD ""), location⟩) ∨
    (¬draft.Incomplete ∧ ¬s.Conflicts draft ∧ s.Undescribed draft ∧
      s.commit draft location = .error ⟨.missingDescription (draft.id.getD ""), location⟩) ∨
    (¬draft.Incomplete ∧ ¬s.Conflicts draft ∧ ¬s.Undescribed draft ∧
      s.commit draft location = .ok (s.insert draft.descriptor)) := by
  by_cases incomplete : draft.Incomplete
  · refine .inl ⟨incomplete, ?_⟩
    unfold commit
    rcases incomplete with noId | noMessage
    · rw [present?_eq_none_iff.mpr noId]
    · rw [present?_eq_none_iff.mpr noMessage]
      cases present? draft.id <;> rfl
  have complete : draft.id.getD "" ≠ "" ∧ draft.defaultMessage.getD "" ≠ "" :=
    not_or.mp incomplete
  have shape : s.commit draft location =
      match s.get? (draft.id.getD "") with
      | some existing =>
          if existing == draft.descriptor then
            if s.enforce && (present? draft.description).isNone then
              .error ⟨.missingDescription (draft.id.getD ""), location⟩
            else .ok s
          else .error ⟨.duplicateId (draft.id.getD ""), location⟩
      | none =>
          if s.enforce && (present? draft.description).isNone then
            .error ⟨.missingDescription (draft.id.getD ""), location⟩
          else .ok { s with entries := s.entries ++ [draft.descriptor] } := by
    unfold commit
    rw [present?_of_nonempty complete.1, present?_of_nonempty complete.2]
    rfl
  rw [shape]
  refine .inr ?_
  cases found : s.get? (draft.id.getD "") with
  | none =>
      have fresh : ¬s.Conflicts draft := by
        rintro ⟨existing, present, _⟩
        simp [found] at present
      have inserted : s.insert draft.descriptor =
          { s with entries := s.entries ++ [draft.descriptor] } := by
        simp [insert, Draft.descriptor, found]
      by_cases undescribed : s.Undescribed draft
      · exact .inr (.inl ⟨incomplete, fresh, undescribed, if_pos (undescribed_iff.mpr undescribed)⟩)
      · refine .inr (.inr ⟨incomplete, fresh, undescribed, ?_⟩)
        rw [inserted]
        exact if_neg fun wanted => undescribed (undescribed_iff.mp wanted)
  | some existing =>
      have kept : s.insert draft.descriptor = s := by
        simp [insert, Draft.descriptor, found]
      by_cases same : existing = draft.descriptor
      · have agrees : ¬s.Conflicts draft := fun conflict =>
          (conflicts_of_get? found).mp conflict same
        simp only [same, BEq.rfl, if_true]
        by_cases undescribed : s.Undescribed draft
        · exact .inr (.inl ⟨incomplete, agrees, undescribed,
            if_pos (undescribed_iff.mpr undescribed)⟩)
        · refine .inr (.inr ⟨incomplete, agrees, undescribed, ?_⟩)
          rw [kept]
          exact if_neg fun wanted => undescribed (undescribed_iff.mp wanted)
      · refine .inl ⟨incomplete, (conflicts_of_get? found).mpr same, ?_⟩
        simp [same]

/-- The invariant of the entries: one for each id, and none of them lacks a field it needs. -/
structure Sound (s : Store) : Prop where
  distinct : (s.entries.map Descriptor.id).Nodup
  filled : ∀ entry ∈ s.entries, entry.id ≠ "" ∧ entry.defaultMessage ≠ ""
  described : s.enforce = true → ∀ entry ∈ s.entries, entry.description.getD "" ≠ ""

theorem get?_eq_none_iff {s : Store} {id : String} :
    s.get? id = none ↔ id ∉ s.entries.map Descriptor.id := by
  simp only [get?, List.find?_eq_none, List.mem_map, not_exists, not_and, beq_iff_eq]

theorem sound_insert {s : Store} {draft : Draft} (sound : s.Sound) (complete : ¬draft.Incomplete)
    (described : ¬s.Undescribed draft) : (s.insert draft.descriptor).Sound := by
  unfold insert
  split
  · exact sound
  · rename_i fresh
    have absent := get?_eq_none_iff.mp fresh
    refine ⟨?_, ?_, ?_⟩
    · simp only [List.map_append, List.map_cons, List.map_nil]
      exact List.nodup_append.mpr ⟨sound.distinct, by simp, by
        intro id member other last same
        rw [List.mem_singleton.mp last] at same
        exact absent (same ▸ member)⟩
    · intro entry member
      rcases List.mem_append.mp member with before | last
      · exact sound.filled entry before
      · rw [List.mem_singleton.mp last]
        exact not_or.mp complete
    · intro enforced entry member
      rcases List.mem_append.mp member with before | last
      · exact sound.described enforced entry before
      · rw [List.mem_singleton.mp last]
        exact fun empty => described ⟨enforced, empty⟩

theorem described_of_get? {s : Store} {draft : Draft} {existing : Descriptor} (sound : s.Sound)
    (found : s.get? (draft.id.getD "") = some existing) (agrees : ¬s.Conflicts draft) :
    ¬s.Undescribed draft := by
  rintro ⟨enforced, empty⟩
  have same : existing = draft.descriptor :=
    Classical.not_not.mp fun differs => agrees ((conflicts_of_get? found).mpr differs)
  have member := List.mem_of_find?_eq_some found
  exact sound.described enforced existing member (by rw [same]; exact empty)

structure Attempt where
  draft : Draft
  location : Location

/-- The store behind an attempt: a commit that fails gives no other one. -/
def after (s : Store) (attempt : Attempt) : Store :=
  match s.commit attempt.draft attempt.location with
  | .ok next => next
  | .error _ => s

def run (enforce : Bool) (attempts : List Attempt) : Store :=
  attempts.foldl after (.empty enforce)

def accepted (s : Store) : List Attempt → List Descriptor
  | [] => []
  | attempt :: rest =>
      match s.commit attempt.draft attempt.location with
      | .ok next => attempt.draft.descriptor :: next.accepted rest
      | .error _ => s.accepted rest

def firsts : List Descriptor → List Descriptor
  | [] => []
  | first :: rest => first :: (firsts rest).filter fun entry => entry.id != first.id

theorem after_cases (s : Store) (attempt : Attempt) :
    ((∃ failure, s.commit attempt.draft attempt.location = .error failure) ∧
      s.after attempt = s) ∨
    (¬attempt.draft.Incomplete ∧ ¬s.Undescribed attempt.draft ∧
      s.commit attempt.draft attempt.location = .ok (s.insert attempt.draft.descriptor) ∧
      s.after attempt = s.insert attempt.draft.descriptor) := by
  unfold after
  rcases s.commit_cases attempt.draft attempt.location with
    ⟨_, outcome⟩ | ⟨_, _, outcome⟩ | ⟨_, _, _, outcome⟩ | ⟨complete, _, described, outcome⟩
  · exact .inl ⟨⟨_, outcome⟩, by rw [outcome]⟩
  · exact .inl ⟨⟨_, outcome⟩, by rw [outcome]⟩
  · exact .inl ⟨⟨_, outcome⟩, by rw [outcome]⟩
  · exact .inr ⟨complete, described, outcome, by rw [outcome]⟩

theorem insert_enforce (s : Store) (entry : Descriptor) : (s.insert entry).enforce = s.enforce := by
  unfold insert
  split <;> rfl

theorem after_enforce (s : Store) (attempt : Attempt) : (s.after attempt).enforce = s.enforce := by
  rcases s.after_cases attempt with ⟨_, same⟩ | ⟨_, _, _, inserted⟩
  · rw [same]
  · rw [inserted, insert_enforce]

theorem sound_after {s : Store} (sound : s.Sound) (attempt : Attempt) : (s.after attempt).Sound := by
  rcases s.after_cases attempt with ⟨_, same⟩ | ⟨complete, described, _, inserted⟩
  · rw [same]
    exact sound
  · rw [inserted]
    exact sound_insert sound complete described

theorem sound_empty (enforce : Bool) : (empty enforce).Sound :=
  ⟨List.nodup_nil, by simp [empty], by simp [empty]⟩

theorem sound_foldl {s : Store} (sound : s.Sound) (attempts : List Attempt) :
    (attempts.foldl after s).Sound := by
  induction attempts generalizing s with
  | nil => exact sound
  | cons attempt rest ih => exact ih (sound_after sound attempt)

theorem enforce_foldl (s : Store) (attempts : List Attempt) :
    (attempts.foldl after s).enforce = s.enforce := by
  induction attempts generalizing s with
  | nil => rfl
  | cons attempt rest ih => rw [List.foldl_cons, ih, after_enforce]

theorem get?_insert_isNone (s : Store) (entry : Descriptor) (id : String) :
    ((s.insert entry).get? id).isNone = ((s.get? id).isNone && id != entry.id) := by
  unfold insert
  cases found : s.get? entry.id with
  | some existing =>
      by_cases same : id = entry.id
      · simp [same, found]
      · simp [same]
  | none =>
      by_cases same : id = entry.id
      · simp [same, get?, List.find?_append]
      · simp [same, get?, List.find?_append, Ne.symm same]

theorem entries_foldl (s : Store) (attempts : List Attempt) :
    (attempts.foldl after s).entries =
      s.entries ++ (firsts (s.accepted attempts)).filter fun entry => (s.get? entry.id).isNone := by
  induction attempts generalizing s with
  | nil => simp [accepted, firsts]
  | cons attempt rest ih =>
      rw [List.foldl_cons, ih]
      rcases s.after_cases attempt with ⟨⟨failure, outcome⟩, same⟩ | ⟨_, _, outcome, inserted⟩
      · rw [same, accepted, outcome]
      · rw [inserted, accepted, outcome, firsts, List.filter_cons, List.filter_filter]
        simp only [get?_insert_isNone]
        unfold insert
        cases s.get? attempt.draft.descriptor.id with
        | some existing => rfl
        | none => simp

theorem run_append (enforce : Bool) (attempts later : List Attempt) :
    run enforce (attempts ++ later) = later.foldl after (run enforce attempts) :=
  List.foldl_append

theorem sound_run (enforce : Bool) (attempts : List Attempt) : (run enforce attempts).Sound :=
  sound_foldl (sound_empty enforce) attempts

theorem entries_run (enforce : Bool) (attempts : List Attempt) :
    (run enforce attempts).entries = firsts ((empty enforce).accepted attempts) := by
  rw [run, entries_foldl]
  simp [empty, get?]

theorem get?_run_append {enforce : Bool} {attempts : List Attempt} {id : String}
    {entry : Descriptor} (found : (run enforce attempts).get? id = some entry)
    (later : List Attempt) : (run enforce (attempts ++ later)).get? id = some entry := by
  rw [run_append]
  unfold get? at found ⊢
  rw [entries_foldl, List.find?_append, found]
  rfl

structure Decides (s : Store) (draft : Draft) (location : Location) : Prop where
  missingField : s.commit draft location = .error ⟨.missingField, location⟩ ↔ draft.Incomplete
  duplicateId : s.commit draft location = .error ⟨.duplicateId (draft.id.getD ""), location⟩ ↔
    ¬draft.Incomplete ∧ s.Conflicts draft
  missingDescription :
    s.commit draft location = .error ⟨.missingDescription (draft.id.getD ""), location⟩ ↔
      ¬draft.Incomplete ∧ ¬s.Conflicts draft ∧ s.Undescribed draft
  success : (∃ next, s.commit draft location = .ok next) ↔
    ¬draft.Incomplete ∧ ¬s.Conflicts draft ∧ ¬s.Undescribed draft

theorem decides (s : Store) (draft : Draft) (location : Location) : s.Decides draft location := by
  rcases s.commit_cases draft location with
    ⟨incomplete, outcome⟩ | ⟨complete, conflict, outcome⟩ | ⟨complete, agrees, undescribed, outcome⟩ |
      ⟨complete, agrees, described, outcome⟩
  · constructor <;> simp [outcome, incomplete]
  · constructor <;> simp [outcome, complete, conflict]
  · constructor <;> simp [outcome, complete, agrees, undescribed]
  · constructor <;> simp [outcome, complete, agrees, described]

/-- After any attempts on a new store: the entries have one id each and lack no field; they are the
first accepted descriptors of their ids, in order, and stay what they are; a failure leaves them
alone; each outcome has the reason its check says, and a description is only ever missed where the
id has no entry. -/
theorem run_keeps_contract (enforce : Bool) (attempts : List Attempt) :
    (run enforce attempts).Sound ∧
      (run enforce attempts).enforce = enforce ∧
      (run enforce attempts).entries = firsts ((empty enforce).accepted attempts) ∧
      (∀ later id entry, (run enforce attempts).get? id = some entry →
        (run enforce (attempts ++ later)).get? id = some entry) ∧
      (∀ attempt failure,
        (run enforce attempts).commit attempt.draft attempt.location = .error failure →
          run enforce (attempts ++ [attempt]) = run enforce attempts) ∧
      ∀ draft location, (run enforce attempts).Decides draft location ∧
        ∀ id, (run enforce attempts).commit draft location =
          .error ⟨.missingDescription id, location⟩ → (run enforce attempts).get? id = none := by
  have sound := sound_run enforce attempts
  refine ⟨sound, enforce_foldl _ attempts, entries_run enforce attempts,
    fun later _ _ found => get?_run_append found later, ?_, ?_⟩
  · intro attempt failure failed
    rw [run_append, List.foldl_cons, List.foldl_nil, after, failed]
  · intro draft location
    refine ⟨decides _ draft location, ?_⟩
    intro id missing
    rcases (run enforce attempts).commit_cases draft location with
      ⟨_, outcome⟩ | ⟨_, _, outcome⟩ | ⟨_, agrees, undescribed, outcome⟩ | ⟨_, _, _, outcome⟩
    · simp [outcome] at missing
    · simp [outcome] at missing
    · rw [outcome] at missing
      cases missing
      cases found : (run enforce attempts).get? (draft.id.getD "") with
      | none => rfl
      | some existing => exact absurd undescribed (described_of_get? sound found agrees)
    · simp [outcome] at missing

end Store

end MessageCatalog.Descriptor
