import MessageCatalog.Proofs.Descriptor.Undescribed
import MessageCatalog.Proofs.Extraction.Agreement
import MessageCatalog.Proofs.Extraction.Failures
import MessageCatalog.Proofs.Extraction.Replacements
import MessageCatalog.Proofs.Script.Alike

/-!
Sites in which the edits have been made that extraction asks for: an element that is committed has
lost its descriptions, and a descriptor is an object of its id and its message. What such a site is
built to, and what a store accepts of it, differs from what it was in the descriptions alone.
-/

namespace MessageCatalog.Extraction

open Script Descriptor

inductive AlikeValue : AttributeValue → AttributeValue → Prop
  | missing : AlikeValue .missing .missing
  | text (start start' : Nat) (content : String) :
      AlikeValue (.text start content) (.text start' content)
  | braces {start start' : Nat} {value value' : Expr} (alike : Alike value value') :
      AlikeValue (.braces start value) (.braces start' value')
  | markup (start start' : Nat) (value value' : Expr) :
      AlikeValue (.markup start value) (.markup start' value')

inductive AlikeAttribute : Attribute → Attribute → Prop
  | named {span span' : Span} {value value' : AttributeValue} (name : String)
      (alike : AlikeValue value value') :
      AlikeAttribute (.named span name value) (.named span' name value')
  | spread (value value' : Expr) : AlikeAttribute (.spread value) (.spread value')

def Setting.isComponent (t : Setting) (s : Scopes) (tag : TagName) : Bool :=
  let refers (wanted : Origin) := tag.refersTo t.imports s wanted
  (t.findName? t.options.plurals refers).isNone && (t.findName? t.options.components refers).isSome

/-- The draft of an element's attributes, which depends on the open scopes alone. -/
def Setting.attributeDraft (t : Setting) (s : Scopes) (attributes : List Attribute) :
    Except Descriptor.Failure Draft :=
  Descriptor.build true t.validate
    (attributes.filterMap (attributePair? t ((Findings.start t.options).within s)))

/-- Whether an element is committed, with a message, and so loses its descriptions. -/
def Setting.loses (t : Setting) (s : Scopes) (tag : TagName) (attributes : List Attribute) : Bool :=
  t.isComponent s tag && (t.attributeDraft s attributes).toOption.any Draft.hasMessage

def Setting.kept (t : Setting) (s : Scopes) (tag : TagName) (attributes : List Attribute) :
    List Attribute :=
  if t.loses s tag attributes then attributes.filter fun a => (descriptionRemoval? a).isNone
  else attributes

/-- A property with a descriptor, and one whose value is read where the descriptor's edit has been
made. -/
inductive Replaced (t : Setting) (s : Scopes) : Property → Property → Prop
  | mk {property : Property} {span : Span} {inner : List Property} {draft : Draft}
      {id message : String} {key' : Key} {value' read : Expr}
      (object : descriptorOf? property = some (span, inner)) (built : t.draft s inner = .ok draft)
      (edit : replacement span draft = [.replaceDescriptor span id message])
      (readAt : ReadAt (Edit.replacement (.replaceDescriptor span id message)) read)
      (within : unwrap value' = read) :
      Replaced t s property (.keyed key' value')

/-- A visit, and one to the same site with the edits made that it asks for. -/
inductive Corresponds (t : Setting) : Visit → Visit → Prop
  | element {s s' : Scopes} {start start' : Nat} {tag : TagName}
      {attributes attributes' : List Attribute} (scopes : AlikeScopes s s')
      (kept : List.Forall₂ AlikeAttribute (t.kept s tag attributes) attributes') :
      Corresponds t ⟨s, .element start tag attributes⟩ ⟨s', .element start' tag attributes'⟩
  | other {s s' : Scopes} {start start' : Nat} {callee callee' : Expr}
      {arguments arguments' : List Argument} (scopes : AlikeScopes s s')
      (same : ∀ table s wanted, callee'.refersTo table s wanted = callee.refersTo table s wanted)
      (other : t.called? s callee = none) :
      Corresponds t ⟨s, .call start callee arguments⟩ ⟨s', .call start' callee' arguments'⟩
  | called {s s' : Scopes} {start start' : Nat} {callee callee' value value' : Expr}
      {later later' : List Argument} {name : String} {span span' : Span}
      {inner inner' : List Property} (scopes : AlikeScopes s s')
      (same : ∀ table s wanted, callee'.refersTo table s wanted = callee.refersTo table s wanted)
      (called : t.called? s callee = some name) (object : unwrap value = .object span inner)
      (object' : unwrap value' = .object span' inner')
      (replaced : List.Forall₂ (Replaced t s) inner inner') :
      Corresponds t ⟨s, .call start callee (.plain value :: later)⟩
        ⟨s', .call start' callee' (.plain value' :: later')⟩

structure SettingAlike (t t' : Setting) : Prop where
  options : t'.options = t.options
  validate : t'.validate = t.validate
  imports : t'.imports = t.imports
  constants : AlikeNamed Alike t.constants t'.constants

/-- The store without descriptions, which are not enforced. -/
structure Related (f f' : Findings) : Prop where
  lenient : f.store.enforce = false
  store : f'.store = f.store.undescribed

variable {t t' : Setting} {f f' g g' : Findings} {s s' : Scopes}

/-! ### Elements -/

theorem tag_findName?_alike (settings : SettingAlike t t') (scopes : AlikeScopes s s')
    (tag : TagName) (names : List String) :
    (t'.findName? names fun wanted => tag.refersTo t'.imports s' wanted) =
      t.findName? names fun wanted => tag.refersTo t.imports s wanted := by
  simp only [Setting.findName?, settings.options, settings.imports,
    tag_refersTo_alike scopes]

theorem attributeConstant?_alike (settings : SettingAlike t t') (scopes : AlikeScopes s s')
    {value value' : AttributeValue} (alike : AlikeValue value value') :
    attributeConstant? t' (f'.within s') value' = attributeConstant? t (f.within s) value := by
  cases alike with
  | braces alike => exact fold_alike scopes settings.constants alike
  | _ => rfl

theorem isQuoted_alike {value value' : AttributeValue} (alike : AlikeValue value value') :
    isQuoted value' = isQuoted value := by
  cases alike <;> rfl

theorem attributePairs_alike (f f' : Findings) (settings : SettingAlike t t')
    (scopes : AlikeScopes s s') {attributes attributes' : List Attribute}
    (alike : List.Forall₂ AlikeAttribute attributes attributes') :
    List.Forall₂ PairAlike (attributes.filterMap (attributePair? t (f.within s)))
      (attributes'.filterMap (attributePair? t' (f'.within s'))) := by
  induction alike with
  | nil => exact .nil
  | cons head _ ih =>
      cases head with
      | spread value value' => exact ih
      | named name value =>
          refine .cons ⟨⟨rfl, rfl, rfl⟩, ⟨rfl, ?_, ?_⟩⟩ ih
          · exact attributeConstant?_alike settings scopes value
          · exact isQuoted_alike value

theorem isDescription_iff {p : Progress} {span : Span} {name : String} {value : AttributeValue}
    {pair : Descriptor.Part × Descriptor.Part}
    (found : attributePair? t p (.named span name value) = some pair) :
    IsDescription pair ↔ descriptionRemoval? (.named span name value) ≠ none := by
  cases found
  unfold IsDescription descriptionRemoval?
  simp [Part.resolveKey]

theorem foldlM_kept {p : Progress} {draft last : Draft} {attributes : List Attribute}
    (built : (attributes.filterMap (attributePair? t p)).foldlM (addPair true t.validate) draft =
      .ok last) :
    ((attributes.filter fun a => (descriptionRemoval? a).isNone).filterMap
      (attributePair? t p)).foldlM (addPair true t.validate) draft.undescribed =
        .ok last.undescribed := by
  induction attributes generalizing draft with
  | nil =>
      cases built
      rfl
  | cons first rest ih =>
      cases first with
      | spread value => exact ih built
      | named span name value =>
          rw [List.filterMap_cons, attributePair?, List.foldlM_cons] at built
          obtain ⟨next, added, built⟩ := Message.bind_eq_ok_iff.mp built
          have described : IsDescription _ ↔ descriptionRemoval? (.named span name value) ≠ none :=
            isDescription_iff (t := t) (p := p) rfl
          cases removal : descriptionRemoval? (.named span name value) with
          | some e =>
              rw [List.filter_cons_of_neg (by simp [removal])]
              have same := addPair_description (described.mpr (by simp [removal])) added
              rw [← same]
              exact ih built
          | none =>
              rw [List.filter_cons_of_pos (by simp [removal]), List.filterMap_cons, attributePair?,
                List.foldlM_cons]
              have again := addPair_undescribed
                (fun wanted => described.mp wanted removal) added
              exact Message.bind_eq_ok_iff.mpr ⟨_, again, ih built⟩

theorem isComponent_alike (settings : SettingAlike t t') (scopes : AlikeScopes s s')
    (tag : TagName) : t'.isComponent s' tag = t.isComponent s tag := by
  rw [Setting.isComponent, Setting.isComponent, settings.options,
    tag_findName?_alike settings scopes, tag_findName?_alike settings scopes]

theorem extractElement_other (f : Findings) {tag : TagName} (other : t.isComponent s tag = false)
    (start : Nat) (attributes : List Attribute) :
    let p := extractElement t (f.within s) start tag attributes
    p.failure = none ∧ p.store = f.store ∧ p.edits = f.edits := by
  unfold Setting.isComponent at other
  unfold extractElement
  dsimp only [Findings.within] at *
  split
  · exact ⟨rfl, rfl, rfl⟩
  · rename_i plural
    split
    · rename_i component
      simp [plural, component] at other
    · exact ⟨rfl, rfl, rfl⟩

theorem extractElement_component (f : Findings) {tag : TagName}
    (component : t.isComponent s tag = true) (start : Nat) (attributes : List Attribute) :
    extractElement t (f.within s) start tag attributes =
      match t.attributeDraft s attributes with
      | .error failure => (f.within s).fail failure
      | .ok draft =>
          if draft.hasMessage then
            (f.within s).commit draft (t.source.locate start)
              (attributes.filterMap descriptionRemoval?)
          else f.within s := by
  unfold Setting.isComponent at component
  unfold extractElement extractComponent
  have plural : t.findName? t.options.plurals (fun wanted => tag.refersTo t.imports s wanted) =
      none := by simpa using (Bool.and_eq_true_iff.mp component).1
  obtain ⟨name, found⟩ := Option.isSome_iff_exists.mp (Bool.and_eq_true_iff.mp component).2
  simp only [Findings.within] at *
  rw [plural, found]
  rfl

theorem element_again (settings : SettingAlike t t') (scopes : AlikeScopes s s')
    (related : Related f f') {start : Nat} {tag : TagName}
    {attributes attributes' : List Attribute}
    (kept : List.Forall₂ AlikeAttribute (t.kept s tag attributes) attributes')
    (passed : (extractElement t (f.within s) start tag attributes).failure = none) (start' : Nat) :
    let p := extractElement t (f.within s) start tag attributes
    let p' := extractElement t' (f'.within s') start' tag attributes'
    p'.failure = none ∧ Related p.findings p'.findings := by
  intro p p'
  cases component : t.isComponent s tag with
  | false =>
      obtain ⟨_, store, _⟩ := extractElement_other f component start attributes
      obtain ⟨passed', store', _⟩ := extractElement_other f'
        ((isComponent_alike settings scopes tag).trans component) start' attributes'
      exact ⟨passed', (congrArg Store.enforce store).trans related.lenient,
        store'.trans (related.store.trans (congrArg Store.undescribed store.symm))⟩
  | true =>
      have first : p = _ := extractElement_component f component start attributes
      have second : p' = _ := extractElement_component f'
        ((isComponent_alike settings scopes tag).trans component) start' attributes'
      have pairs := attributePairs_alike (.start t.options) (.start t'.options) settings scopes kept
      change p.failure = none at passed
      rw [first] at passed
      cases built : t.attributeDraft s attributes with
      | error failure => simp [built, Progress.fail] at passed
      | ok draft =>
          simp only [built] at first passed
          cases has : draft.hasMessage with
          | false =>
              have whole : t.kept s tag attributes = attributes := by
                simp [Setting.kept, Setting.loses, built, Except.toOption, has]
              rw [whole] at pairs
              have again : t'.attributeDraft s' attributes' = .ok draft := by
                rw [Setting.attributeDraft, settings.validate]
                exact build_alike pairs built
              simp only [has] at first
              simp only [again, has] at second
              rw [first, second]
              exact ⟨rfl, related⟩
          | true =>
              have lost : t.kept s tag attributes =
                  attributes.filter fun a => (descriptionRemoval? a).isNone := by
                simp [Setting.kept, Setting.loses, component, built, Except.toOption, has]
              rw [lost] at pairs
              have again : t'.attributeDraft s' attributes' = .ok draft.undescribed := by
                rw [Setting.attributeDraft, settings.validate]
                exact build_alike pairs (foldlM_kept built)
              have has' : draft.undescribed.hasMessage = true := has
              simp only [has, if_true] at first passed
              simp only [again, has', if_true] at second
              rw [commit_within] at first passed second
              cases committed : f.store.commit draft (t.source.locate start) with
              | error failure => simp [committed, Progress.fail] at passed
              | ok store =>
                  have later := Store.commit_undescribed related.lenient committed
                    (t'.source.locate start')
                  rw [← related.store] at later
                  simp only [committed] at first
                  simp only [later] at second
                  rw [first, second]
                  exact ⟨rfl, (Store.enforce_commit committed).trans related.lenient, rfl⟩

theorem element_edits (t : Setting) (f : Findings) (s : Scopes) (start : Nat) (tag : TagName)
    (attributes : List Attribute) :
    ∃ lost : List Attribute, (extractElement t (f.within s) start tag attributes).edits =
      f.edits ++ lost.filterMap descriptionRemoval? := by
  have unchanged : ∃ lost : List Attribute,
      f.edits = f.edits ++ lost.filterMap descriptionRemoval? := ⟨[], by simp⟩
  cases component : t.isComponent s tag with
  | false =>
      rw [(extractElement_other f component start attributes).2.2]
      exact unchanged
  | true =>
      rw [extractElement_component f component start attributes]
      split
      · exact unchanged
      · split
        · rw [commit_within]
          split
          · exact ⟨attributes, rfl⟩
          · exact unchanged
        · exact unchanged

/-! ### Calls -/

theorem called?_alike (settings : SettingAlike t t') (scopes : AlikeScopes s s')
    {callee callee' : Expr}
    (same : ∀ table s wanted, callee'.refersTo table s wanted = callee.refersTo table s wanted) :
    t'.called? s' callee' = t.called? s callee := by
  simp only [Setting.called?, Setting.findName?, settings.options, settings.imports, same,
    refersTo_alike scopes]

theorem ofKey?_id : Field.ofKey? "id" = some .id := by
  decide

theorem ofKey?_defaultMessage : Field.ofKey? "defaultMessage" = some .defaultMessage := by
  decide

theorem draft_properties_iff {starts : Nat × Nat × Nat × Nat} {id message : String}
    {draft : Draft} :
    t.draft s (properties starts id message) = .ok draft ↔
      ∃ canonical, t.validate (Text.trimmed message) = .ok canonical ∧
        draft = ⟨some (Text.trimmed id), none, some canonical⟩ := by
  have shape : t.draft s (properties starts id message) =
      ((t.validate (Text.trimmed message)).mapError fun e =>
        ⟨.messageSyntax e, t.source.locate starts.2.2.2⟩).map fun canonical =>
          ⟨some (Text.trimmed id), none, some canonical⟩ := by
    simp only [Setting.draft, properties, List.map_cons, List.map_nil, propertyPair, keyPart,
      keyName?, keyConstant?, exprPart, Setting.fold, Expr.fold, Expr.foldWithin,
      Descriptor.build, List.foldlM_cons, List.foldlM_nil, addPair, Part.resolveKey,
      Part.resolveValue, Value.toText, fieldValue, bind, Except.bind, pure, Except.pure,
      ofKey?_id, ofKey?_defaultMessage, Draft.set]
    cases t.validate (Text.trimmed message) <;> rfl
  rw [shape]
  cases t.validate (Text.trimmed message) with
  | ok canonical => simp [Except.map, Except.mapError, eq_comm]
  | error e => simp [Except.map, Except.mapError]

theorem commits_of_passed {shown : String} {all : List Property}
    (passed : (extractProperties t shown (f.within s) all).failure = none) :
    Commits t s f all (extractProperties t shown (f.within s) all).findings := by
  induction all generalizing f with
  | nil => exact .done f
  | cons property rest ih =>
      cases object : descriptorOf? property with
      | none =>
          rw [extractProperties, object] at passed
          cases passed
      | some found =>
          obtain ⟨span, inner⟩ := found
          rw [extractProperties_next t shown _ object] at passed ⊢
          rcases extractDescriptor_cases t f s span inner with
            ⟨e, _, after⟩ | ⟨_, e, _, _, after⟩ | ⟨draft, store, built, committed, after⟩
          · rw [after] at passed
            cases passed
          · rw [after] at passed
            cases passed
          · rw [after] at passed ⊢
            exact .next object built committed (ih passed)

theorem properties_of_commits {all : List Property} (commits : Commits t s f all g)
    (shown : String) : extractProperties t shown (f.within s) all = g.within s := by
  induction commits with
  | done f => rfl
  | @next f g property rest inner span draft store object built committed later ih =>
      have after : extractDescriptor t (f.within s) span inner =
          (Findings.mk store f.warnings (f.edits ++ replacement span draft)).within s := by
        rw [extractDescriptor_within, built]
        dsimp only
        rw [commit_within, committed]
      rw [extractProperties_next t shown _ object, after]
      exact ih

theorem commits_edits {all : List Property} (commits : Commits t s f all g) :
    f.edits ⊆ g.edits := by
  induction commits with
  | done f => exact List.Subset.refl _
  | next _ _ _ _ ih => exact List.Subset.trans (List.subset_append_left _ _) ih

structure Committed (draft : Draft) (id message : String) : Prop where
  sameId : draft.id = some id
  trimmed : Text.trimmed id = id
  sameMessage : draft.defaultMessage = some message

theorem committed_of_replacement {inner : List Property} {span : Span} {draft : Draft}
    {id message : String} (built : t.draft s inner = .ok draft)
    (edit : replacement span draft = [.replaceDescriptor span id message]) :
    Committed draft id message := by
  obtain ⟨sameId, sameMessage⟩ :=
    names_replacement span draft span id message (edit ▸ List.mem_singleton_self _)
  exact ⟨sameId, Text.trimmed_of_isTrimmed ((prepared_build built).id id sameId), sameMessage⟩

/-- The messages of all edits are their own canonical spellings. -/
def Stable (validate : Message.Validator) (edits : List Edit) : Prop :=
  ∀ range id message, .replaceDescriptor range id message ∈ edits →
    validate (Text.trimmed message) = .ok message

theorem replaced_built {property property' : Property} {span : Span} {inner : List Property}
    {draft : Draft} (replaced : Replaced t s property property')
    (object : descriptorOf? property = some (span, inner)) (built : t.draft s inner = .ok draft) :
    ∃ span' id message starts,
      replacement span draft = [.replaceDescriptor span id message] ∧
        descriptorOf? property' = some (span', properties starts id message) := by
  obtain ⟨object₂, built₂, edit, readAt, within⟩ := replaced
  rw [object] at object₂
  cases object₂
  rw [built] at built₂
  cases built₂
  obtain ⟨offset, rfl⟩ := (readAt_replacement_iff ..).mp readAt
  exact ⟨_, _, _, _, edit, by rw [descriptorOf?, within]⟩

theorem commits_again {all all' : List Property} (settings : SettingAlike t t')
    (commits : Commits t s f all g) (replaced : List.Forall₂ (Replaced t s) all all')
    (related : Related f f') (stable : Stable t.validate g.edits) (s' : Scopes) :
    ∃ g', Commits t' s' f' all' g' ∧ Related g g' := by
  induction commits generalizing f' all' with
  | done f =>
      cases replaced
      exact ⟨f', .done f', related⟩
  | @next f g property rest inner span draft store object built committed later ih =>
      cases replaced with
      | cons head tail =>
          obtain ⟨span', id, message, starts, edit, object'⟩ := replaced_built head object built
          obtain ⟨sameId, trimmed, sameMessage⟩ := committed_of_replacement built edit
          have canonical := stable span id message
            (commits_edits later (List.mem_append_right _ (edit ▸ List.mem_singleton_self _)))
          have again : t'.draft s' (properties starts id message) = .ok draft.undescribed := by
            refine draft_properties_iff.mpr ⟨message, settings.validate ▸ canonical, ?_⟩
            rw [trimmed, ← sameId, ← sameMessage]
            rfl
          have accepted := Store.commit_undescribed related.lenient committed
            (t'.source.locate span'.start)
          rw [← related.store] at accepted
          have next : Related ⟨store, f.warnings, f.edits ++ replacement span draft⟩
              ⟨store.undescribed, f'.warnings,
                f'.edits ++ replacement span' draft.undescribed⟩ :=
            ⟨(Store.enforce_commit committed).trans related.lenient, rfl⟩
          obtain ⟨g', commits', related'⟩ := ih tail next stable
          exact ⟨g', .next object' again accepted commits', related'⟩

theorem commits_stable {all all' : List Property} (settings : SettingAlike t t')
    (commits : Commits t s f all g) (replaced : List.Forall₂ (Replaced t s) all all')
    (commits' : Commits t' s' f' all' g') (range : Span) (id message : String)
    (member : .replaceDescriptor range id message ∈ g.edits) :
    .replaceDescriptor range id message ∈ f.edits ∨
      ∃ range' canonical, t.validate (Text.trimmed message) = .ok canonical ∧
        .replaceDescriptor range' id canonical ∈ g'.edits := by
  induction commits generalizing f' all' with
  | done f => exact .inl member
  | @next f g property rest inner span draft store object built committed later ih =>
      cases replaced with
      | cons head tail =>
          obtain ⟨span', id, message, starts, edit, object'⟩ := replaced_built head object built
          cases commits' with
          | next object₂ built' committed' later' =>
              rw [object'] at object₂
              cases object₂
              rcases ih tail later' member with old | again
              · rcases List.mem_append.mp old with older | new
                · exact .inl older
                · rw [edit] at new
                  cases List.mem_singleton.mp new
                  rename_i span' _
                  obtain ⟨_, trimmed, _⟩ := committed_of_replacement built edit
                  obtain ⟨canonical, outcome, rfl⟩ := draft_properties_iff.mp built'
                  refine .inr ⟨span', canonical, settings.validate ▸ outcome,
                    commits_edits later' (List.mem_append_right _ ?_)⟩
                  rw [trimmed]
                  exact List.mem_singleton_self _
              · exact .inr again

end MessageCatalog.Extraction
