import MessageCatalog.Proofs.Descriptor.Building
import MessageCatalog.Proofs.Descriptor.StoreRuns
import MessageCatalog.Proofs.Extraction.Failures

/-!
What warnings and failures point at: always the start of a site that the walk has met, or the start
of a part of it.
-/

namespace MessageCatalog

namespace Descriptor

theorem location_of_commit {s : Store} {draft : Draft} {location : Location} {failure : Failure}
    (failed : s.commit draft location = .error failure) : failure.location = location := by
  rcases s.commit_cases draft location with
    ⟨_, outcome⟩ | ⟨_, _, outcome⟩ | ⟨_, _, _, outcome⟩ | ⟨_, _, _, outcome⟩
  all_goals
    rw [outcome] at failed
    cases failed
    try rfl

end Descriptor

namespace Extraction

open Script

def attributeStarts : Attribute → List Nat
  | .named span _ value => [span.start, valueStart span value]
  | .spread _ => []

def fieldStarts : Property → List Nat
  | .keyed key value => [key.start, value.start]
  | .shorthand start _ => [start]
  | .assigned start _ value => [start, value.start]
  | .method start key _ => [key.start, start]
  | .spread start _ => [start]

def descriptorStarts (property : Property) : List Nat :=
  match descriptorOf? property with
  | some (span, fields) => span.start :: fields.flatMap fieldStarts
  | none => [propertyStart property]

def argumentStarts : List Argument → List Nat
  | .plain value :: _ =>
      match unwrap value with
      | .object _ properties => properties.flatMap descriptorStarts
      | other => [other.start]
  | _ => []

/-- Where a site begins, and where the parts of it begin that extraction looks at. -/
def Site.starts : Site → List Nat
  | .element start _ attributes => start :: attributes.flatMap attributeStarts
  | .call start _ arguments => start :: argumentStarts arguments

variable {t : Setting} {f g : Findings} {s : Scopes} {failure : Descriptor.Failure}

theorem location_of_attributes {p : Progress} {attributes : List Attribute}
    (failed : Descriptor.build true t.validate (attributes.filterMap (attributePair? t p)) =
      .error failure) :
    ∃ start ∈ attributes.flatMap attributeStarts, failure.location = t.source.locate start := by
  obtain ⟨pair, member, located⟩ := Descriptor.location_of_build failed
  obtain ⟨part, among, found⟩ := List.mem_filterMap.mp member
  have start {start : Nat} (here : start ∈ attributeStarts part) :
      start ∈ attributes.flatMap attributeStarts := List.mem_flatMap.mpr ⟨part, among, here⟩
  cases part with
  | spread value => cases found
  | named span name value =>
      cases found
      rcases located with located | located
      · exact ⟨span.start, start (by simp [attributeStarts]), located⟩
      · exact ⟨valueStart span value, start (by simp [attributeStarts]), located⟩

theorem location_of_element {start : Nat} {tag : TagName} {attributes : List Attribute}
    (failed : (extractElement t (f.within s) start tag attributes).failure = some failure) :
    ∃ place ∈ (Site.element start tag attributes).starts,
      failure.location = t.source.locate place := by
  unfold extractElement at failed
  dsimp only at failed
  split at failed
  · cases failed
  · split at failed
    · unfold extractComponent at failed
      split at failed
      · rename_i built
        cases failed
        obtain ⟨place, member, located⟩ := location_of_attributes built
        exact ⟨place, List.mem_cons_of_mem start member, located⟩
      · split at failed
        · rw [commit_within] at failed
          split at failed
          · cases failed
          · rename_i refused
            cases failed
            exact ⟨start, List.mem_cons_self, Descriptor.location_of_commit refused⟩
        · cases failed
    · cases failed

theorem location_of_draft {fields : List Property} (failed : t.draft s fields = .error failure) :
    ∃ start ∈ fields.flatMap fieldStarts, failure.location = t.source.locate start := by
  obtain ⟨pair, member, located⟩ := Descriptor.location_of_build failed
  obtain ⟨field, among, rfl⟩ := List.mem_map.mp member
  have start {start : Nat} (here : start ∈ fieldStarts field) :
      start ∈ fields.flatMap fieldStarts := List.mem_flatMap.mpr ⟨field, among, here⟩
  cases field
  all_goals
    rcases located with located | located
    all_goals exact ⟨_, start (by simp [fieldStarts]), located⟩

theorem location_of_property {shown : String} {property : Property}
    (fails : PropertyFails t s shown f property failure) :
    ∃ start ∈ descriptorStarts property, failure.location = t.source.locate start := by
  unfold descriptorStarts
  cases fails with
  | shape other =>
      rw [other]
      exact ⟨propertyStart property, List.mem_singleton_self _, rfl⟩
  | @built span fields _ object failed =>
      rw [object]
      obtain ⟨start, member, located⟩ := location_of_draft failed
      exact ⟨start, List.mem_cons_of_mem span.start member, located⟩
  | @committed span _ _ _ object _ failed =>
      rw [object]
      exact ⟨span.start, List.mem_cons_self, Descriptor.location_of_commit failed⟩

theorem location_of_call {start : Nat} {callee : Expr} {name : String} {arguments : List Argument}
    (other : hasObject arguments = false)
    (failed : (extractCall t (f.within s) start callee name arguments).failure = some failure) :
    ∃ place ∈ (Site.call start callee arguments).starts,
      failure.location = t.source.locate place := by
  unfold extractCall at failed
  dsimp only at failed
  split at failed
  · rename_i value later
    split at failed
    · rename_i span properties object
      simp [hasObject, isObject, object] at other
    · rename_i plain
      cases failed
      refine ⟨(unwrap value).start, List.mem_cons_of_mem start ?_, rfl⟩
      unfold argumentStarts
      dsimp only
      split
      · rename_i span properties object
        exact absurd object (plain span properties)
      · exact List.mem_singleton_self _
  · cases failed
    exact ⟨start, List.mem_cons_self, rfl⟩

theorem location_of_fails {v : Visit} (fails : Fails t f v failure g) :
    ∃ start ∈ v.site.starts, failure.location = t.source.locate start := by
  cases fails with
  | element failed => exact location_of_element failed
  | noObject other failed =>
      rw [handle_call] at failed
      split at failed
      · exact location_of_call other failed
      · cases failed
  | @property _ start callee value later name span good others bad _ _ called object kept failed =>
      obtain ⟨place, member, located⟩ := location_of_property failed
      refine ⟨place, List.mem_cons_of_mem start ?_, located⟩
      unfold argumentStarts
      dsimp only
      rw [object]
      exact List.mem_flatMap.mpr ⟨bad, by simp, member⟩

/-! ### Warnings -/

theorem extractElement_warnings (t : Setting) (p : Progress) (start : Nat) (tag : TagName)
    (attributes : List Attribute) :
    (extractElement t p start tag attributes).warnings = p.warnings ∨
      ∃ component, (extractElement t p start tag attributes).warnings =
        p.warnings ++ [⟨component, t.source.locate start⟩] := by
  unfold extractElement
  dsimp only
  split
  · exact .inr ⟨_, rfl⟩
  · refine .inl ?_
    split
    · exact (extractComponent_frames t p start attributes).warnings
    · rfl

theorem location_of_handle (v : Visit) :
    ∀ warning ∈ (v.handle t f).warnings, warning ∈ f.warnings ∨
      ∃ start ∈ v.site.starts, warning.location = t.source.locate start := by
  obtain ⟨s, site⟩ := v
  intro warning member
  cases site with
  | element start tag attributes =>
      change warning ∈ (extractElement t (f.within s) start tag attributes).warnings at member
      rcases extractElement_warnings t (f.within s) start tag attributes with
        same | ⟨component, added⟩
      · rw [same] at member
        exact .inl member
      · rw [added] at member
        rcases List.mem_append.mp member with before | here
        · exact .inl before
        · obtain rfl := List.mem_singleton.mp here
          exact .inr ⟨start, List.mem_cons_self, rfl⟩
  | call start callee arguments =>
      rw [handle_call] at member
      split at member
      · rw [(extractCall_frames ..).warnings] at member
        exact .inl member
      · exact .inl member

/-- A location is the start of a site among those that are visited, or of a part of one. -/
def Located (source : Source) (visits : List Visit) (location : Location) : Prop :=
  ∃ v ∈ visits, ∃ start ∈ v.site.starts, location = source.locate start

theorem located_of_handles {visits : List Visit} (handled : Handles t f visits g) :
    ∀ warning ∈ g.warnings, warning ∈ f.warnings ∨ Located t.source visits warning.location := by
  induction handled with
  | done f => exact fun _ => .inl
  | @next f g v rest _ _ ih =>
      intro warning member
      rcases ih warning member with before | ⟨visit, later, located⟩
      · rcases location_of_handle v warning before with before | located
        · exact .inl before
        · exact .inr ⟨v, List.mem_cons_self, located⟩
      · exact .inr ⟨visit, List.mem_cons_of_mem v later, located⟩

/-- All that the extraction of a source has to say is said about sites of its walk. -/
theorem extract_located (options : Options) (validate : Message.Validator) (source : Source) :
    ∃ visits last, Walks (Setting.ofSource options validate source).entered .empty
        (nodesOf source.module) visits last ∧
      (∀ found, extract options validate source = .ok found →
        ∀ warning ∈ found.warnings, Located source visits warning.location) ∧
      ∀ failure, extract options validate source = .error failure →
        Located source visits failure.location := by
  obtain ⟨visits, last, walked, _, outcome⟩ := walk_sequential options validate source
  refine ⟨visits, last, walked, ?_⟩
  unfold extract
  dsimp only
  rcases outcome with ⟨passed, handled⟩ | ⟨before, v, after, f, failure, rfl, _, fails, failed⟩
  · rw [passed]
    refine ⟨?_, nofun⟩
    rintro found same warning member
    cases same
    exact (located_of_handles handled warning member).resolve_left nofun
  · rw [failed]
    refine ⟨nofun, ?_⟩
    rintro failure' same
    cases same
    obtain ⟨start, member, located⟩ := location_of_fails fails
    exact ⟨v, by simp, start, member, located⟩

end Extraction

end MessageCatalog
