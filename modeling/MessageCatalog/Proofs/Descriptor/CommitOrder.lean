import Mathlib.Data.List.Nodup
import MessageCatalog.Proofs.Descriptor.Drafts

/-!
Commits in another order. All commits of a run succeed if and only if each draft is fit for a store
on its own, and drafts of one id are one descriptor. No order has a part in that; and where all
succeed, the entries of the store are the descriptors of the drafts.
-/

namespace MessageCatalog.Descriptor

/-- A draft that lacks nothing, whatever else there is in the store. -/
def Draft.Fits (enforce : Bool) (draft : Draft) : Prop :=
  ¬draft.Incomplete ∧ ¬(enforce = true ∧ draft.description.getD "" = "")

def Unanimous (all : List Descriptor) : Prop :=
  ∀ one ∈ all, ∀ other ∈ all, one.id = other.id → one = other

theorem Unanimous.mono {all fewer : List Descriptor} (unanimous : Unanimous all)
    (subset : fewer ⊆ all) : Unanimous fewer :=
  fun one member other member' => unanimous one (subset member) other (subset member')

namespace Store

inductive Accepts : Store → List Attempt → Prop
  | done (s : Store) : Accepts s []
  | next {s next : Store} {attempt : Attempt} {rest : List Attempt}
      (committed : s.commit attempt.draft attempt.location = .ok next)
      (later : Accepts next rest) : Accepts s (attempt :: rest)

def Reports (enforce : Bool) (attempts : List Attempt) : Prop :=
  ∃ before attempt later failure, attempts = before ++ attempt :: later ∧
    (run enforce before).commit attempt.draft attempt.location = .error failure

def descriptors (attempts : List Attempt) : List Descriptor :=
  attempts.map fun attempt => attempt.draft.descriptor

variable {s : Store} {draft : Draft} {attempts : List Attempt}

theorem perm_descriptors {attempts' : List Attempt}
    (perm : (attempts.map Attempt.draft).Perm (attempts'.map Attempt.draft)) :
    (descriptors attempts).Perm (descriptors attempts') := by
  have same := perm.map Draft.descriptor
  rwa [List.map_map, List.map_map] at same

theorem unanimous_entries (sound : s.Sound) : Unanimous s.entries := by
  intro one member other member' same
  exact List.inj_on_of_nodup_map sound.distinct member member' same

theorem get?_of_mem (sound : s.Sound) {entry : Descriptor} (member : entry ∈ s.entries) :
    s.get? entry.id = some entry := by
  cases found : s.get? entry.id with
  | none => exact absurd (List.mem_map_of_mem member) (get?_eq_none_iff.mp found)
  | some other =>
      have same := unanimous_entries sound other (List.mem_of_find?_eq_some found) entry member
        (id_of_get? found)
      rw [same]

theorem not_conflicts_iff (sound : s.Sound) :
    ¬s.Conflicts draft ↔
      ∀ entry ∈ s.entries, entry.id = draft.descriptor.id → entry = draft.descriptor := by
  constructor
  · intro agrees entry member same
    have found := get?_of_mem sound member
    rw [same] at found
    exact Classical.not_not.mp fun differs => agrees ((conflicts_of_get? found).mpr differs)
  · intro agrees conflict
    have ⟨existing, found, _⟩ := conflict
    refine (conflicts_of_get? found).mp conflict ?_
    exact agrees existing (List.mem_of_find?_eq_some found) (id_of_get? found)

theorem mem_insert_iff (agrees : ¬s.Conflicts draft) {entry : Descriptor} :
    entry ∈ (s.insert draft.descriptor).entries ↔ entry ∈ s.entries ∨ entry = draft.descriptor := by
  refine ⟨mem_insert, ?_⟩
  rintro (old | rfl)
  · unfold insert
    split
    · exact old
    · exact List.mem_append_left _ old
  · exact List.mem_of_find?_eq_some (get?_insert_descriptor agrees)

theorem mem_insert_append_iff (agrees : ¬s.Conflicts draft) (rest : List Descriptor)
    {entry : Descriptor} :
    entry ∈ (s.insert draft.descriptor).entries ++ rest ↔
      entry ∈ s.entries ++ draft.descriptor :: rest := by
  rw [List.mem_append, List.mem_append, mem_insert_iff agrees, List.mem_cons, or_assoc]

theorem accepts_iff (sound : s.Sound) :
    s.Accepts attempts ↔
      (∀ attempt ∈ attempts, attempt.draft.Fits s.enforce) ∧
        Unanimous (s.entries ++ descriptors attempts) := by
  induction attempts generalizing s with
  | nil =>
      have unanimous := unanimous_entries sound
      rw [descriptors, List.map_nil, List.append_nil]
      exact iff_of_true (.done s) ⟨nofun, unanimous⟩
  | cons attempt rest ih =>
      constructor
      · rintro (_ | ⟨committed, later⟩)
        obtain ⟨complete, agrees, described, rfl⟩ := of_commit committed
        obtain ⟨fit, unanimous⟩ := (ih (sound_insert sound complete described)).mp later
        rw [insert_enforce] at fit
        refine ⟨List.forall_mem_cons.mpr ⟨⟨complete, described⟩, fit⟩, ?_⟩
        exact unanimous.mono fun entry => (mem_insert_append_iff agrees _).mpr
      · rintro ⟨fit, unanimous⟩
        obtain ⟨⟨complete, described⟩, fitLater⟩ := List.forall_mem_cons.mp fit
        have last : attempt.draft.descriptor ∈ s.entries ++ descriptors (attempt :: rest) :=
          List.mem_append_right _ List.mem_cons_self
        have agrees : ¬s.Conflicts attempt.draft := (not_conflicts_iff sound).mpr
          fun entry member => unanimous entry (List.mem_append_left _ member) _ last
        obtain ⟨next, committed⟩ :=
          (s.decides attempt.draft attempt.location).success.mpr ⟨complete, agrees, described⟩
        obtain ⟨_, _, _, rfl⟩ := of_commit committed
        refine .next committed ((ih (sound_insert sound complete described)).mpr ⟨?_, ?_⟩)
        · rwa [insert_enforce]
        · exact unanimous.mono fun entry => (mem_insert_append_iff agrees _).mp

theorem entries_of_accepts (accepts : s.Accepts attempts) {entry : Descriptor} :
    entry ∈ (attempts.foldl after s).entries ↔ entry ∈ s.entries ++ descriptors attempts := by
  induction accepts with
  | done s => rw [descriptors, List.map_nil, List.append_nil, List.foldl_nil]
  | @next s next attempt rest committed later ih =>
      obtain ⟨_, agrees, _, rfl⟩ := of_commit committed
      rw [List.foldl_cons, after, committed]
      exact ih.trans (mem_insert_append_iff agrees _)

theorem accepts_of_succeeds
    (succeeds : ∀ before attempt later, attempts = before ++ attempt :: later →
      ∃ next, (before.foldl after s).commit attempt.draft attempt.location = .ok next) :
    s.Accepts attempts := by
  induction attempts generalizing s with
  | nil => exact .done s
  | cons attempt rest ih =>
      obtain ⟨next, committed⟩ := succeeds [] attempt rest rfl
      refine .next committed (ih fun before other later shape => ?_)
      have within := succeeds (attempt :: before) other later (by rw [shape, List.cons_append])
      rwa [List.foldl_cons, after, show s.commit attempt.draft attempt.location = .ok next from
        committed] at within

theorem Accepts.commits (accepts : s.Accepts attempts) {before later : List Attempt}
    {attempt : Attempt} (shape : attempts = before ++ attempt :: later) :
    ∃ next, (before.foldl after s).commit attempt.draft attempt.location = .ok next := by
  induction accepts generalizing before with
  | done s => cases before <;> cases shape
  | @next s next first rest committed _ ih =>
      cases before with
      | nil =>
          cases shape
          exact ⟨next, committed⟩
      | cons _ others =>
          cases shape
          rw [List.foldl_cons, after, committed]
          exact ih rfl

theorem reports_iff {enforce : Bool} :
    Reports enforce attempts ↔ ¬(empty enforce).Accepts attempts := by
  constructor
  · rintro ⟨before, attempt, later, failure, shape, failed⟩ accepts
    obtain ⟨next, committed⟩ := accepts.commits shape
    exact absurd (failed.symm.trans committed) (by simp)
  · intro refuses
    refine Classical.byContradiction fun silent => refuses (accepts_of_succeeds ?_)
    intro before attempt later shape
    cases outcome : (before.foldl after (empty enforce)).commit attempt.draft attempt.location with
    | ok next => exact ⟨next, rfl⟩
    | error failure => exact absurd ⟨before, attempt, later, failure, shape, outcome⟩ silent

theorem reports_iff_of_perm {enforce : Bool} {attempts' : List Attempt}
    (perm : (attempts.map Attempt.draft).Perm (attempts'.map Attempt.draft)) :
    Reports enforce attempts ↔ Reports enforce attempts' := by
  have fits : (∀ attempt ∈ attempts, attempt.draft.Fits enforce) ↔
      ∀ attempt ∈ attempts', attempt.draft.Fits enforce := by
    rw [← List.forall_mem_map (f := Attempt.draft) (P := fun draft => draft.Fits enforce),
      ← List.forall_mem_map (f := Attempt.draft) (P := fun draft => draft.Fits enforce)]
    exact forall_congr' fun draft => imp_congr_left perm.mem_iff
  have unanimous : Unanimous (descriptors attempts) ↔ Unanimous (descriptors attempts') := by
    have same := perm_descriptors perm
    exact ⟨fun all => all.mono same.symm.subset, fun all => all.mono same.subset⟩
  have sound := sound_empty enforce
  rw [reports_iff, reports_iff, accepts_iff sound, accepts_iff sound]
  exact not_congr (and_congr fits unanimous)

/-- Two runs over the same drafts in different orders, wherever the drafts stand: one reports an
error if and only if the other does; and if none does, both come to the same set of descriptors,
each of them there once. -/
theorem run_perm (enforce : Bool) {attempts attempts' : List Attempt}
    (perm : (attempts.map Attempt.draft).Perm (attempts'.map Attempt.draft)) :
    (Reports enforce attempts ↔ Reports enforce attempts') ∧
      (¬Reports enforce attempts →
        (run enforce attempts).entries.Perm (run enforce attempts').entries) := by
  refine ⟨reports_iff_of_perm perm, fun silent => ?_⟩
  have silent' := mt (reports_iff_of_perm perm).mpr silent
  rw [reports_iff, Classical.not_not] at silent silent'
  refine (List.perm_ext_iff_of_nodup ?_ ?_).mpr fun entry => ?_
  · exact (sound_run enforce attempts).distinct.of_map _
  · exact (sound_run enforce attempts').distinct.of_map _
  · rw [run, run, entries_of_accepts silent, entries_of_accepts silent']
    exact (perm_descriptors perm).mem_iff

def greeting : Draft :=
  ⟨some "greeting", none, some "Hello"⟩

def farewell : Draft :=
  ⟨some "farewell", none, some "Bye"⟩

def welcome : Draft :=
  ⟨some "greeting", none, some "Welcome"⟩

def attemptsOf (drafts : List Draft) : List Attempt :=
  drafts.mapIdx fun index draft => ⟨draft, ⟨"a.ts", index + 1, 1⟩⟩

theorem run_perm_greetings :
    Reports false (attemptsOf [greeting, farewell, welcome]) ∧
      Reports false (attemptsOf [welcome, greeting, farewell]) ∧
      ¬Reports false (attemptsOf [greeting, farewell, greeting]) ∧
      (run false (attemptsOf [greeting, farewell, greeting])).entries.Perm
        (run false (attemptsOf [farewell, greeting, greeting])).entries := by
  have swapped : ((attemptsOf [greeting, farewell, welcome]).map Attempt.draft).Perm
      ((attemptsOf [welcome, greeting, farewell]).map Attempt.draft) := by
    decide
  have rotated : ((attemptsOf [greeting, farewell, greeting]).map Attempt.draft).Perm
      ((attemptsOf [farewell, greeting, greeting]).map Attempt.draft) := by
    decide
  have reports : Reports false (attemptsOf [greeting, farewell, welcome]) :=
    ⟨attemptsOf [greeting, farewell], ⟨welcome, ⟨"a.ts", 3, 1⟩⟩, [],
      ⟨.duplicateId "greeting", ⟨"a.ts", 3, 1⟩⟩, by rfl, by rfl⟩
  have silent : ¬Reports false (attemptsOf [greeting, farewell, greeting]) := by
    rw [reports_iff, Classical.not_not]
    exact .next rfl (.next rfl (.next rfl (.done _)))
  exact ⟨reports, (run_perm false swapped).1.mp reports, silent, (run_perm false rotated).2 silent⟩

end Store

end MessageCatalog.Descriptor
