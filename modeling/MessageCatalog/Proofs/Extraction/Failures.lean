import MessageCatalog.Proofs.Extraction.Sequence

/-!
Failures of a walk: what a site that fails leaves behind, and from it what a whole walk comes to.
-/

namespace MessageCatalog.Extraction

open Script

variable {t : Setting} {f g : Findings} {s : Scopes}

def Setting.draft (t : Setting) (s : Scopes) (inner : List Property) :
    Except Descriptor.Failure Descriptor.Draft :=
  Descriptor.build false t.validate
    (inner.map (propertyPair t ((Findings.start t.options).within s)))

inductive Commits (t : Setting) (s : Scopes) : Findings → List Property → Findings → Prop
  | done (f : Findings) : Commits t s f [] f
  | next {f g : Findings} {property : Property} {rest inner : List Property} {span : Span}
      {draft : Descriptor.Draft} {store : Descriptor.Store}
      (object : descriptorOf? property = some (span, inner))
      (built : t.draft s inner = .ok draft)
      (committed : f.store.commit draft (t.source.locate span.start) = .ok store)
      (later : Commits t s ⟨store, f.warnings, f.edits ++ replacement span draft⟩ rest g) :
      Commits t s f (property :: rest) g

inductive PropertyFails (t : Setting) (s : Scopes) (shown : String) (f : Findings)
    (property : Property) : Descriptor.Failure → Prop
  | shape (other : descriptorOf? property = none) :
      PropertyFails t s shown f property
        ⟨.invalidShape shown, t.source.locate (propertyStart property)⟩
  | built {span : Span} {inner : List Property} {failure : Descriptor.Failure}
      (object : descriptorOf? property = some (span, inner))
      (failed : t.draft s inner = .error failure) :
      PropertyFails t s shown f property failure
  | committed {span : Span} {inner : List Property} {draft : Descriptor.Draft}
      {failure : Descriptor.Failure} (object : descriptorOf? property = some (span, inner))
      (built : t.draft s inner = .ok draft)
      (failed : f.store.commit draft (t.source.locate span.start) = .error failure) :
      PropertyFails t s shown f property failure

def isObject : Expr → Bool
  | .object _ _ => true
  | _ => false

def hasObject : List Argument → Bool
  | .plain value :: _ => isObject (unwrap value)
  | _ => false

/-- How a visit fails, and what is found by then. Nothing of an element that fails is kept, nor of a
call without an object; of any other call the descriptors in front of the one at fault are. -/
inductive Fails (t : Setting) (f : Findings) : Visit → Descriptor.Failure → Findings → Prop
  | element {s : Scopes} {start : Nat} {tag : TagName} {attributes : List Attribute}
      {failure : Descriptor.Failure}
      (failed : (Visit.handle t f ⟨s, .element start tag attributes⟩).failure = some failure) :
      Fails t f ⟨s, .element start tag attributes⟩ failure f
  | noObject {s : Scopes} {start : Nat} {callee : Expr} {arguments : List Argument}
      {failure : Descriptor.Failure} (other : hasObject arguments = false)
      (failed : (Visit.handle t f ⟨s, .call start callee arguments⟩).failure = some failure) :
      Fails t f ⟨s, .call start callee arguments⟩ failure f
  | property {s : Scopes} {start : Nat} {callee value : Expr} {later : List Argument}
      {name : String} {span : Span} {good others : List Property} {bad : Property} {g : Findings}
      {failure : Descriptor.Failure} (called : t.called? s callee = some name)
      (object : unwrap value = .object span (good ++ bad :: others))
      (kept : Commits t s f good g)
      (failed : PropertyFails t s ((calleeText? callee).getD name) g bad failure) :
      Fails t f ⟨s, .call start callee (.plain value :: later)⟩ failure g

theorem commit_within (f : Findings) (s : Scopes) (draft : Descriptor.Draft)
    (location : Location) (edits : List Edit) :
    (f.within s).commit draft location edits =
      match f.store.commit draft location with
      | .ok store => (Findings.mk store f.warnings (f.edits ++ edits)).within s
      | .error failure => (f.within s).fail failure := by
  rfl

theorem element_failed {start : Nat} {tag : TagName} {attributes : List Attribute}
    {failure : Descriptor.Failure}
    (failed : (extractElement t (f.within s) start tag attributes).failure = some failure) :
    (extractElement t (f.within s) start tag attributes).findings = f := by
  unfold extractElement extractComponent at failed ⊢
  dsimp only at failed ⊢
  split at failed
  · cases failed
  · split at failed
    · split at failed
      · rfl
      · split at failed
        · rw [commit_within] at failed ⊢
          split at failed
          · cases failed
          · simp [*]
            rfl
        · cases failed
    · cases failed

theorem keyPart_congr {p q : Progress} (same : p.scopes = q.scopes) (key : Key) :
    keyPart t p key = keyPart t q key := by
  cases key <;> simp [keyPart, keyConstant?, Setting.fold, same]

theorem propertyPair_congr {p q : Progress} (same : p.scopes = q.scopes) :
    propertyPair t p = propertyPair t q := by
  funext property
  cases property <;>
    simp [propertyPair, keyPart_congr same, exprPart, namePart, Setting.fold, same]

theorem extractDescriptor_within (t : Setting) (f : Findings) (s : Scopes) (span : Span)
    (inner : List Property) :
    extractDescriptor t (f.within s) span inner =
      match t.draft s inner with
      | .error failure => (f.within s).fail failure
      | .ok draft =>
          (f.within s).commit draft (t.source.locate span.start) (replacement span draft) := by
  rw [extractDescriptor, propertyPair_congr (p := f.within s)
    (q := (Findings.start t.options).within s) rfl]
  rfl

/-- What becomes of a descriptor's object: its draft fails, the store refuses it, or it is
committed and asks for its edit. -/
theorem extractDescriptor_cases (t : Setting) (f : Findings) (s : Scopes) (span : Span)
    (inner : List Property) :
    (∃ failure, t.draft s inner = .error failure ∧
      extractDescriptor t (f.within s) span inner = (f.within s).fail failure) ∨
    (∃ draft failure, t.draft s inner = .ok draft ∧
      f.store.commit draft (t.source.locate span.start) = .error failure ∧
      extractDescriptor t (f.within s) span inner = (f.within s).fail failure) ∨
    (∃ draft store, t.draft s inner = .ok draft ∧
      f.store.commit draft (t.source.locate span.start) = .ok store ∧
      extractDescriptor t (f.within s) span inner =
        (Findings.mk store f.warnings (f.edits ++ replacement span draft)).within s) := by
  rw [extractDescriptor_within]
  cases built : t.draft s inner with
  | error failure => exact .inl ⟨failure, rfl, rfl⟩
  | ok draft =>
      dsimp only
      rw [commit_within]
      cases committed : f.store.commit draft (t.source.locate span.start) with
      | error failure => exact .inr (.inl ⟨draft, failure, rfl, committed, rfl⟩)
      | ok store => exact .inr (.inr ⟨draft, store, rfl, committed, rfl⟩)

theorem extractProperties_next (t : Setting) (shown : String) (p : Progress)
    {property : Property} {span : Span} {inner : List Property}
    (object : descriptorOf? property = some (span, inner)) (rest : List Property) :
    extractProperties t shown p (property :: rest) =
      if (extractDescriptor t p span inner).hasFailed then extractDescriptor t p span inner
      else extractProperties t shown (extractDescriptor t p span inner) rest := by
  rw [extractProperties, object]

theorem properties_failed {shown : String} {properties : List Property}
    {failure : Descriptor.Failure}
    (failed : (extractProperties t shown (f.within s) properties).failure = some failure) :
    ∃ good bad others, properties = good ++ bad :: others ∧
      Commits t s f good (extractProperties t shown (f.within s) properties).findings ∧
      PropertyFails t s shown (extractProperties t shown (f.within s) properties).findings bad
        failure := by
  induction properties generalizing f with
  | nil => cases failed
  | cons property rest ih =>
      cases object : descriptorOf? property with
      | none =>
          rw [extractProperties, object] at failed ⊢
          cases failed
          exact ⟨[], property, rest, rfl, .done f, .shape object⟩
      | some found =>
          obtain ⟨span, inner⟩ := found
          rw [extractProperties_next t shown _ object] at failed ⊢
          rcases extractDescriptor_cases t f s span inner with
            ⟨e, built, after⟩ | ⟨draft, e, built, committed, after⟩ |
              ⟨draft, store, built, committed, after⟩
          · rw [after] at failed ⊢
            cases failed
            exact ⟨[], property, rest, rfl, .done f, .built object built⟩
          · rw [after] at failed ⊢
            cases failed
            exact ⟨[], property, rest, rfl, .done f, .committed object built committed⟩
          · rw [after] at failed ⊢
            obtain ⟨good, bad, others, rfl, kept, fails⟩ := ih failed
            exact ⟨property :: good, bad, others, rfl, .next object built committed kept, fails⟩

theorem extractCall_cases (t : Setting) (p : Progress) (start : Nat) (callee : Expr)
    (name : String) (arguments : List Argument) :
    (hasObject arguments = false ∧
      ∃ failure, extractCall t p start callee name arguments = p.fail failure) ∨
    ∃ value later span properties, arguments = .plain value :: later ∧
      unwrap value = .object span properties ∧
      extractCall t p start callee name arguments =
        extractProperties t ((calleeText? callee).getD name) p properties := by
  cases arguments with
  | nil => exact .inl ⟨rfl, _, rfl⟩
  | cons first later =>
      cases first with
      | spread value => exact .inl ⟨rfl, _, rfl⟩
      | plain value =>
          cases shape : unwrap value with
          | object span properties =>
              refine .inr ⟨value, later, span, properties, rfl, shape, ?_⟩
              simp [extractCall, shape]
          | _ =>
              refine .inl ⟨by simp [hasObject, isObject, shape],
                ⟨.invalidShape ((calleeText? callee).getD name),
                  t.source.locate (unwrap value).start⟩, ?_⟩
              simp [extractCall, shape]

theorem handle_call (t : Setting) (f : Findings) (s : Scopes) (start : Nat) (callee : Expr)
    (arguments : List Argument) :
    Visit.handle t f ⟨s, .call start callee arguments⟩ =
      match t.called? s callee with
      | some name => extractCall t (f.within s) start callee name arguments
      | none => f.within s := by
  rfl

theorem fails_of_handle {v : Visit} {failure : Descriptor.Failure}
    (failed : (v.handle t f).failure = some failure) :
    Fails t f v failure (v.handle t f).findings := by
  obtain ⟨s, site⟩ := v
  cases site with
  | element start tag attributes =>
      have kept : (Visit.handle t f ⟨s, .element start tag attributes⟩).findings = f :=
        element_failed failed
      rw [kept]
      exact .element failed
  | call start callee arguments =>
      have handled := handle_call t f s start callee arguments
      cases called : t.called? s callee with
      | none =>
          simp only [called] at handled
          rw [handled] at failed
          cases failed
      | some name =>
          simp only [called] at handled
          rcases extractCall_cases t (f.within s) start callee name arguments with
            ⟨other, e, ended⟩ | ⟨value, later, span, properties, rfl, object, ended⟩
          · have kept : (Visit.handle t f ⟨s, .call start callee arguments⟩).findings = f := by
              rw [handled, ended]
              rfl
            rw [kept]
            exact .noObject other failed
          · rw [ended] at handled
            rw [handled] at failed ⊢
            obtain ⟨good, bad, others, rfl, kept, fails⟩ := properties_failed failed
            exact .property called object kept fails

/-- Extraction handles the sites of its walk in order, each with the scopes open there. Without a
failure it comes to what all of them give. Else it comes to what those in front of the first that
fails give, with what this one leaves behind, and to its failure. -/
theorem walk_sequential (options : Options) (validate : Message.Validator) (source : Source) :
    let t := Setting.ofSource options validate source
    let p := walk options validate source
    ∃ visits last, Walks t.entered .empty (nodesOf source.module) visits last ∧
      (∀ visits' last', Walks t.entered .empty (nodesOf source.module) visits' last' →
        visits' = visits) ∧
      ((p.failure = none ∧ Handles t (.start options) visits p.findings) ∨
        ∃ before v after f failure, visits = before ++ v :: after ∧
          Handles t (.start options) before f ∧ Fails t f v failure p.findings ∧
          p.failure = some failure) := by
  intro t p
  obtain ⟨visits, last, walked⟩ :=
    Walks.exists t.entered (weightOf_entered t) .empty (nodesOf source.module)
  refine ⟨visits, last, walked, fun _ _ other => (walked.unique other).1, ?_⟩
  have outcome : Outcome t (.start options) visits p.findings p.failure := walk_outcome walked
  generalize p.findings = found at outcome
  generalize p.failure = ending at outcome
  cases outcome with
  | finished handled => exact .inl ⟨rfl, handled⟩
  | stopped handled failed =>
      exact .inr ⟨_, _, _, _, _, rfl, handled, fails_of_handle failed, rfl⟩

/-! ### Types of calls -/

/-- A walk that leaves out nothing but the first argument of a call of a configured function. -/
def Setting.besidesFirst (t : Setting) (s : Scopes) : Node → List Node
  | .expr (.call start callee arguments inType) =>
      if (t.called? s callee).isSome then
        .expr callee :: (arguments.tail.map .argument ++ inType.map .expr)
      else Node.children (.expr (.call start callee arguments inType))
  | node => node.children

def callOptions : Options :=
  ⟨"react-intl", [], [], ["defineMessages"], false⟩

def messageProperty (key object id message : Nat) (name text : String) : Property :=
  .keyed (.name key name)
    (.object ⟨object, message + 5⟩
      [.keyed (.name (object + 2) "id") (.literal id (.text name)),
        .keyed (.name (object + 11) "defaultMessage") (.literal message (.text text))])

def typedCall : Expr :=
  .call 55 (.ident 55 "defineMessages")
    [.plain (.object ⟨141, 180⟩ [messageProperty 143 146 152 173 "a" "A"])]
    [.call 73 (.ident 73 "defineMessages")
      [.plain (.object ⟨88, 127⟩ [messageProperty 90 93 99 120 "b" "B"])] []]

def typedSource : Source :=
  { file := "src/app.tsx"
    text := ("import \x7b defineMessages \x7d from \"react-intl\";\n" ++
      "const m = defineMessages<\x7b [defineMessages(\x7b b: \x7b id: \"b\", " ++
      "defaultMessage: \"B\" \x7d \x7d)]: string \x7d>(\x7b a: \x7b id: \"a\", " ++
      "defaultMessage: \"A\" \x7d \x7d);\n").toList
    module := ⟨[.imports ⟨"react-intl", false, [⟨"defineMessages", "defineMessages", false⟩]⟩,
      .part (.variableDeclaration true [.mk (.name "m" []) (some typedCall)])]⟩ }

/-- What stands in the type of a call of a configured function is met by a walk that leaves out the
first argument alone, but it is not extracted. -/
theorem walk_skips_types :
    ¬∀ options validate source visits last,
      Walks (Setting.ofSource options validate source).besidesFirst .empty (nodesOf source.module)
          visits last →
        Outcome (.ofSource options validate source) (.start options) visits
          (walk options validate source).findings (walk options validate source).failure := by
  intro sequential
  have outcome := sequential callOptions .ok typedSource _ _
    (.node rfl <| .node rfl <| .node rfl <| .node rfl <| .node rfl <| .node rfl <| .node rfl <|
      .node rfl <| .done _)
  have passed : (walk callOptions .ok typedSource).failure = none := by rfl
  have one : (walk callOptions .ok typedSource).findings.store.entries.length = 1 := by rfl
  rw [passed] at outcome
  rw [outcome.handles.eq_foldl] at one
  exact absurd one (by decide)

end MessageCatalog.Extraction
