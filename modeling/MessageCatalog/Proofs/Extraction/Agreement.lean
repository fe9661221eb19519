import MessageCatalog.Extraction.Run
import MessageCatalog.Proofs.Descriptor.Drafts

/-!
The edits of a source and its messages. A descriptor that is rewritten carries the message that the
catalog has for its id, in every state that a walk passes and in what it gives.
-/

namespace MessageCatalog.Extraction

open Script Descriptor

/-- The states that a run over some steps passes, those in front of each step and behind it, those
within scopes, and those between the descriptors of a call. -/
inductive Passes (t : Setting) : Progress → List Step → Progress → Prop
  | here (p : Progress) (steps : List Step) : Passes t p steps p
  | next {p q : Progress} {first : Step} {rest : List Step}
      (later : Passes t (first.run t p) rest q) : Passes t p (first :: rest) q
  | scope {p q : Progress} {names : List String} {inner rest : List Step}
      (active : p.hasFailed = false)
      (within : Passes t { p with scopes := p.scopes.enter.declareNames names } inner q) :
      Passes t p (.scope names inner :: rest) q
  | descriptors {p : Progress} {start : Nat} {callee value : Expr} {later : List Argument}
      {inCallee inFirst inLater inType rest : List Step} {name : String} {span : Span}
      {before after : List Property} (active : p.hasFailed = false)
      (called : calledFunction? t p callee = some name)
      (object : unwrap value = .object span (before ++ after)) :
      Passes t p
        (.call start callee (.plain value :: later) inCallee inFirst inLater inType :: rest)
        (extractProperties t ((calleeText? callee).getD name) p before)
  | called {p q : Progress} {start : Nat} {callee : Expr} {arguments : List Argument}
      {inCallee inFirst inLater inType rest : List Step} {name : String}
      (active : p.hasFailed = false) (called : calledFunction? t p callee = some name)
      (below : Passes t (extractCall t p start callee name arguments) (inCallee ++ inLater) q) :
      Passes t p (.call start callee arguments inCallee inFirst inLater inType :: rest) q
  | other {p q : Progress} {start : Nat} {callee : Expr} {arguments : List Argument}
      {inCallee inFirst inLater inType rest : List Step} (active : p.hasFailed = false)
      (other : calledFunction? t p callee = none)
      (below : Passes t p (inCallee ++ inFirst ++ inLater ++ inType) q) :
      Passes t p (.call start callee arguments inCallee inFirst inLater inType :: rest) q

theorem passes_last (t : Setting) (p : Progress) (steps : List Step) :
    Passes t p steps (runSteps t p steps) := by
  induction steps generalizing p with
  | nil => exact .here p []
  | cons first rest ih => exact .next (ih (first.run t p))

structure Extracted.Agrees (validate : Message.Validator) (found : Extracted) : Prop where
  rewritten : ∀ range id message, .replaceDescriptor range id message ∈ found.edits →
    ∃ entry ∈ found.messages, entry.id = id ∧ entry.defaultMessage = message
  distinct : (found.messages.map Descriptor.id).Nodup
  filled : ∀ entry ∈ found.messages, entry.id ≠ "" ∧ entry.defaultMessage ≠ ""
  trimmed : ∀ entry ∈ found.messages,
    Text.IsTrimmed entry.id ∧ ∀ text ∈ entry.description, Text.IsTrimmed text
  validated : ∀ entry ∈ found.messages, IsValidated validate entry.defaultMessage

/-- What agrees is kept with the store's own invariant, on which the next commit rests. -/
structure Consistent (validate : Message.Validator) (store : Store) (edits : List Edit) : Prop where
  sound : store.Sound
  trimmed : ∀ entry ∈ store.entries,
    Text.IsTrimmed entry.id ∧ ∀ text ∈ entry.description, Text.IsTrimmed text
  validated : ∀ entry ∈ store.entries, IsValidated validate entry.defaultMessage
  rewritten : ∀ range id message, .replaceDescriptor range id message ∈ edits →
    ∃ entry, store.get? id = some entry ∧ entry.defaultMessage = message

def Progress.Consistent (validate : Message.Validator) (p : Progress) : Prop :=
  Extraction.Consistent validate p.store p.edits

variable {t : Setting} {p q : Progress}

theorem Progress.Consistent.agrees {validate : Message.Validator}
    (consistent : p.Consistent validate) : p.extracted.Agrees validate := by
  obtain ⟨sound, trimmed, validated, rewritten⟩ := consistent
  refine ⟨?_, sound.distinct, sound.filled, trimmed, validated⟩
  intro range id message member
  obtain ⟨entry, found, same⟩ := rewritten range id message member
  exact ⟨entry, List.mem_of_find?_eq_some found, Store.id_of_get? found, same⟩

theorem consistent_start (validate : Message.Validator) (options : Options) :
    (Progress.start options).Consistent validate :=
  ⟨Store.sound_empty _, nofun, nofun, nofun⟩

theorem getD_of_complete {value : Option String} (nonempty : value.getD "" ≠ "") :
    value = some (value.getD "") := by
  cases value with
  | none => exact absurd rfl nonempty
  | some text => rfl

/-- Edits that only rewrite the descriptor that is committed. -/
def Names (draft : Draft) (edits : List Edit) : Prop :=
  ∀ range id message, .replaceDescriptor range id message ∈ edits →
    draft.id = some id ∧ draft.defaultMessage = some message

theorem names_replacement (span : Span) (draft : Draft) : Names draft (replacement span draft) := by
  intro range id message member
  unfold replacement at member
  split at member
  · rename_i foundId foundMessage idEq messageEq
    simp only [List.mem_singleton, Edit.replaceDescriptor.injEq] at member
    exact ⟨member.2.1 ▸ idEq, member.2.2 ▸ messageEq⟩
  · simp at member

theorem names_removals (draft : Draft) (attributes : List Attribute) :
    Names draft (attributes.filterMap descriptionRemoval?) := by
  intro range id message member
  obtain ⟨found, _, removal⟩ := List.mem_filterMap.mp member
  cases found <;> simp [descriptionRemoval?] at removal

theorem consistent_commit {validate : Message.Validator} {draft : Draft} {edits : List Edit}
    (consistent : p.Consistent validate) (prepared : draft.Prepared validate)
    (names : Names draft edits) (location : Location) :
    (p.commit draft location edits).Consistent validate := by
  unfold Progress.commit
  cases committed : p.store.commit draft location with
  | error failure => exact consistent
  | ok store =>
      obtain ⟨complete, agrees, described, rfl⟩ := Store.of_commit committed
      obtain ⟨sound, trimmed, validated, rewritten⟩ := consistent
      obtain ⟨someId, someMessage⟩ := not_or.mp complete
      refine ⟨Store.sound_insert sound complete described, ?_, ?_, ?_⟩
      · intro entry member
        rcases Store.mem_insert member with old | rfl
        · exact trimmed entry old
        · exact ⟨prepared.id _ (getD_of_complete someId), prepared.description⟩
      · intro entry member
        rcases Store.mem_insert member with old | rfl
        · exact validated entry old
        · exact prepared.defaultMessage _ (getD_of_complete someMessage)
      · intro range id message member
        rcases List.mem_append.mp member with old | new
        · obtain ⟨entry, found, same⟩ := rewritten range id message old
          exact ⟨entry, Store.get?_insert found _, same⟩
        · obtain ⟨sameId, sameMessage⟩ := names range id message new
          have found := Store.get?_insert_descriptor agrees
          rw [sameId] at found
          exact ⟨draft.descriptor, found, by simp [Draft.descriptor, sameMessage]⟩

theorem consistent_extractDescriptor (consistent : p.Consistent t.validate) (span : Span)
    (properties : List Property) :
    (extractDescriptor t p span properties).Consistent t.validate := by
  unfold extractDescriptor
  split
  · exact consistent
  · rename_i draft built
    exact consistent_commit consistent (prepared_build built) (names_replacement span draft) _

theorem consistent_extractProperties (consistent : p.Consistent t.validate) (callee : String)
    (properties : List Property) :
    (extractProperties t callee p properties).Consistent t.validate := by
  induction properties generalizing p with
  | nil => exact consistent
  | cons property rest ih =>
      rw [extractProperties]
      split
      · exact consistent
      · rename_i span inner _
        have after := consistent_extractDescriptor consistent span inner
        dsimp only
        split
        · exact after
        · exact ih after

theorem consistent_extractCall (consistent : p.Consistent t.validate) (start : Nat) (callee : Expr)
    (name : String) (arguments : List Argument) :
    (extractCall t p start callee name arguments).Consistent t.validate := by
  unfold extractCall
  dsimp only
  split
  · split
    · exact consistent_extractProperties consistent _ _
    · exact consistent
  · exact consistent

theorem consistent_extractElement (consistent : p.Consistent t.validate) (start : Nat)
    (tag : TagName) (attributes : List Attribute) :
    (extractElement t p start tag attributes).Consistent t.validate := by
  unfold extractElement extractComponent
  dsimp only
  split
  · exact consistent
  · split
    · split
      · exact consistent
      · rename_i draft built
        split
        · exact consistent_commit consistent (prepared_build built)
            (names_removals draft attributes) _
        · exact consistent
    · exact consistent

mutual

theorem consistent_step (step : Step) (p : Progress) (consistent : p.Consistent t.validate) :
    (step.run t p).Consistent t.validate := by
  cases step with
  | declare names =>
      rw [Step.run]
      split <;> exact consistent
  | constant name init =>
      rw [Step.run]
      split <;> exact consistent
  | scope names inner =>
      rw [Step.run]
      split
      · exact consistent
      · exact consistent_runSteps inner _ consistent
  | element start tag attributes =>
      rw [Step.run]
      split
      · exact consistent
      · exact consistent_extractElement consistent start tag attributes
  | call start callee arguments inCallee inFirst inLater inType =>
      rw [Step.run]
      split
      · exact consistent
      split
      · rename_i name _
        have after := consistent_extractCall consistent start callee name arguments
        exact consistent_runSteps inLater _ (consistent_runSteps inCallee _ after)
      · have after := consistent_runSteps inFirst _ (consistent_runSteps inCallee _ consistent)
        exact consistent_runSteps inType _ (consistent_runSteps inLater _ after)

theorem consistent_runSteps (steps : List Step) (p : Progress)
    (consistent : p.Consistent t.validate) : (runSteps t p steps).Consistent t.validate := by
  cases steps with
  | nil => exact consistent
  | cons first rest =>
      rw [runSteps]
      exact consistent_runSteps rest _ (consistent_step first p consistent)

end

theorem consistent_of_passes {steps : List Step} (passed : Passes t p steps q)
    (consistent : p.Consistent t.validate) : q.Consistent t.validate := by
  induction passed with
  | here _ _ => exact consistent
  | next _ ih => exact ih (consistent_step _ _ consistent)
  | scope _ _ ih => exact ih consistent
  | descriptors _ _ _ => exact consistent_extractProperties consistent _ _
  | called _ _ _ ih => exact ih (consistent_extractCall consistent _ _ _ _)
  | other _ _ _ ih => exact ih consistent

/-- In every state that a walk passes, and in what it gives if it succeeds, a rewritten descriptor
carries the message that its id has, ids are distinct, no id and no message is empty, ids and
descriptions are trimmed, and the validator has given each message for a trimmed text. -/
theorem edits_agree (options : Options) (validate : Message.Validator) (source : Source) :
    (∀ q, Passes (.ofSource options validate source) (.start options) (ofModule source.module) q →
      q.extracted.Agrees validate) ∧
    ∀ found, extract options validate source = .ok found → found.Agrees validate := by
  have passes : ∀ q, Passes (.ofSource options validate source) (.start options)
      (ofModule source.module) q → q.extracted.Agrees validate := fun q passed =>
    (consistent_of_passes passed (consistent_start validate options)).agrees
  refine ⟨passes, fun found success => ?_⟩
  have last := passes _ (passes_last _ _ _)
  rw [extract] at success
  split at success
  · cases success
  · cases success
    exact last

def blankedSource : Source :=
  { file := "src/app.tsx"
    text := ("import \x7b defineMessages \x7d from \"react-intl\";\n" ++
      "defineMessages(\x7b a: \x7b id: \" a \", defaultMessage: \"A\" \x7d \x7d);\n").toList
    module := ⟨[.imports ⟨"react-intl", false, [⟨"defineMessages", "defineMessages", false⟩]⟩,
      .part (.expr (.call 45 (.ident 45 "defineMessages") [.plain (.object ⟨60, 101⟩
        [.keyed (.name 62 "a") (.object ⟨65, 99⟩
          [.keyed (.name 67 "id") (.literal 71 (.text " a ")),
            .keyed (.name 78 "defaultMessage") (.literal 94 (.text "A"))])])] []))]⟩ }

theorem edits_agree_blanked :
    let found : Extracted := ⟨[⟨"a", none, "A"⟩], [], [.replaceDescriptor ⟨65, 99⟩ "a" "A"]⟩
    let options : Options := ⟨"react-intl", [], [], ["defineMessages"], false⟩
    extract options Message.canonicalize blankedSource = .ok found ∧
      found.Agrees Message.canonicalize := by
  intro found options
  have success : extract options Message.canonicalize blankedSource = .ok found := by
    decide +kernel
  exact ⟨success, (edits_agree options Message.canonicalize blankedSource).2 found success⟩

end MessageCatalog.Extraction
