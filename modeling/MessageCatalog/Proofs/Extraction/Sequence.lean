import MessageCatalog.Proofs.Extraction.Traversal

/-!
The walk as a sequence. Extraction handles the sites that its walk meets one after another, each
with the scopes that are open there, up to the first that fails. What it has found in the end is what
the sites in front of that one gave, and of a failing call the descriptors in front of the one at
fault.
-/

namespace MessageCatalog.Extraction

open Script

/-- What a walk has found, without the scopes that are open. -/
structure Findings where
  store : Descriptor.Store
  warnings : List Warning
  edits : List Edit

def Findings.start (options : Options) : Findings :=
  ⟨.empty options.enforceDescriptions, [], []⟩

def Findings.within (f : Findings) (s : Scopes) : Progress :=
  ⟨s, f.store, f.warnings, f.edits, none⟩

def Progress.findings (p : Progress) : Findings :=
  ⟨p.store, p.warnings, p.edits⟩

def Progress.leave (p : Progress) : Progress :=
  { p with scopes := p.scopes.exit }

def Setting.called? (t : Setting) (s : Scopes) (callee : Expr) : Option String :=
  t.findName? t.options.functions fun wanted => callee.refersTo t.imports s wanted

/-- What extraction enters below a node. Of a call of a configured function these are the callee and
what stands behind the first argument. -/
def Setting.entered (t : Setting) (s : Scopes) : Node → List Node
  | .expr (.call start callee arguments inType) =>
      if (t.called? s callee).isSome then .expr callee :: arguments.tail.map .argument
      else Node.children (.expr (.call start callee arguments inType))
  | node => node.children

def Site.run (t : Setting) (p : Progress) : Site → Progress
  | .element start tag attributes => extractElement t p start tag attributes
  | .call start callee arguments =>
      match calledFunction? t p callee with
      | some name => extractCall t p start callee name arguments
      | none => p

def Visit.handle (t : Setting) (f : Findings) (v : Visit) : Progress :=
  v.site.run t (f.within v.scopes)

inductive Handles (t : Setting) : Findings → List Visit → Findings → Prop
  | done (f : Findings) : Handles t f [] f
  | next {f g : Findings} {v : Visit} {rest : List Visit} (passed : (v.handle t f).failure = none)
      (later : Handles t (v.handle t f).findings rest g) : Handles t f (v :: rest) g

/-- Visits are handled up to the first failure. -/
inductive Outcome (t : Setting) (f : Findings) :
    List Visit → Findings → Option Descriptor.Failure → Prop
  | finished {visits : List Visit} {g : Findings} (handled : Handles t f visits g) :
      Outcome t f visits g none
  | stopped {before after : List Visit} {v : Visit} {g : Findings} {failure : Descriptor.Failure}
      (handled : Handles t f before g) (failed : (v.handle t g).failure = some failure) :
      Outcome t f (before ++ v :: after) (v.handle t g).findings (some failure)

variable {t : Setting} {p : Progress} {f g h : Findings} {s last : Scopes} {nodes : List Node}
  {visits before after : List Visit}

theorem Handles.append (first : Handles t f before g) (second : Handles t g after h) :
    Handles t f (before ++ after) h := by
  induction first with
  | done _ => exact second
  | next passed _ ih => exact .next passed (ih second)

theorem Outcome.append {failure : Option Descriptor.Failure} (first : Outcome t f before g none)
    (second : Outcome t g after h failure) : Outcome t f (before ++ after) h failure := by
  cases first with
  | finished handled =>
      cases second with
      | finished later => exact .finished (handled.append later)
      | stopped later failed =>
          rw [← List.append_assoc]
          exact .stopped (handled.append later) failed

theorem Outcome.append_of_failed {failure : Descriptor.Failure}
    (first : Outcome t f before g (some failure)) (after : List Visit) :
    Outcome t f (before ++ after) g (some failure) := by
  cases first with
  | stopped handled failed =>
      rw [List.append_assoc, List.cons_append]
      exact .stopped handled failed

theorem Handles.eq_foldl (handled : Handles t f visits g) :
    g = visits.foldl (fun found v => (v.handle t found).findings) f := by
  induction handled with
  | done _ => rfl
  | next _ _ ih => exact ih

theorem Outcome.handles (outcome : Outcome t f visits g none) : Handles t f visits g := by
  cases outcome with
  | finished handled => exact handled

theorem Handles.of_append (handled : Handles t f (before ++ after) h) :
    ∃ g, Handles t f before g ∧ Handles t g after h := by
  induction before generalizing f with
  | nil => exact ⟨f, .done f, handled⟩
  | cons first rest ih =>
      cases handled with
      | next passed later =>
          obtain ⟨g, front, back⟩ := ih later
          exact ⟨g, .next passed front, back⟩

theorem Outcome.of_handles {failure : Option Descriptor.Failure}
    (outcome : Outcome t f visits g failure) (handled : Handles t f visits h) :
    failure = none ∧ g = h := by
  cases outcome with
  | finished finished => exact ⟨rfl, finished.eq_foldl.trans handled.eq_foldl.symm⟩
  | stopped front failed =>
      obtain ⟨between, front', back⟩ := handled.of_append
      rw [front'.eq_foldl.trans front.eq_foldl.symm] at back
      cases back with
      | next passed _ => simp [failed] at passed

theorem weightOf_entered (t : Setting) (s : Scopes) (node : Node) :
    weightOf (t.entered s node) ≤ weightOf node.children := by
  fun_cases Setting.entered t s node with
  | case1 start callee arguments inType called =>
      cases arguments with
      | nil => simp [Node.children]
      | cons first rest =>
          simp [Node.children]
          omega
  | case2 start callee arguments inType called => exact Nat.le_refl _
  | case3 node => exact Nat.le_refl _

/-! ### Steps -/

def Node.steps : Node → List Step
  | .expr value => ofExpr value
  | .argument value => ofArgument value
  | .key value => ofKey value
  | .property value => ofProperty value
  | .attributeValue value => ofAttributeValue value
  | .attribute value => ofAttribute value
  | .pattern value => ofPattern value
  | .declarator value => ofDeclarator value
  | .part value => ofPart value

def stepsOf (nodes : List Node) : List Step :=
  nodes.flatMap Node.steps

@[simp]
theorem stepsOf_nil : stepsOf [] = [] := by
  rfl

@[simp]
theorem stepsOf_cons (node : Node) (rest : List Node) :
    stepsOf (node :: rest) = node.steps ++ stepsOf rest := by
  rfl

@[simp]
theorem stepsOf_append (before after : List Node) :
    stepsOf (before ++ after) = stepsOf before ++ stepsOf after :=
  List.flatMap_append

theorem eq_stepsOf_map {α : Type} (make : α → Node) (all : List α → List Step)
    (none : all [] = []) (some : ∀ value rest, all (value :: rest) = (make value).steps ++ all rest)
    (values : List α) : all values = stepsOf (values.map make) := by
  induction values with
  | nil => exact none
  | cons value rest ih => rw [some, ih, List.map_cons, stepsOf_cons]

@[simp]
theorem ofExprs_eq (values : List Expr) : ofExprs values = stepsOf (values.map .expr) :=
  eq_stepsOf_map .expr ofExprs rfl (fun _ _ => rfl) values

@[simp]
theorem ofArguments_eq (values : List Argument) :
    ofArguments values = stepsOf (values.map .argument) :=
  eq_stepsOf_map .argument ofArguments rfl (fun _ _ => rfl) values

@[simp]
theorem ofProperties_eq (values : List Property) :
    ofProperties values = stepsOf (values.map .property) :=
  eq_stepsOf_map .property ofProperties rfl (fun _ _ => rfl) values

@[simp]
theorem ofAttributes_eq (values : List Attribute) :
    ofAttributes values = stepsOf (values.map .attribute) :=
  eq_stepsOf_map .attribute ofAttributes rfl (fun _ _ => rfl) values

@[simp]
theorem ofPatterns_eq (values : List Pattern) :
    ofPatterns values = stepsOf (values.map .pattern) :=
  eq_stepsOf_map .pattern ofPatterns rfl (fun _ _ => rfl) values

@[simp]
theorem ofDeclarators_eq (values : List Declarator) :
    ofDeclarators values = stepsOf (values.map .declarator) :=
  eq_stepsOf_map .declarator ofDeclarators rfl (fun _ _ => rfl) values

@[simp]
theorem ofParts_eq (values : List Part) : ofParts values = stepsOf (values.map .part) :=
  eq_stepsOf_map .part ofParts rfl (fun _ _ => rfl) values

theorem ofModule_eq (m : Module) : ofModule m = stepsOf (nodesOf m) := by
  unfold ofModule nodesOf stepsOf
  rw [List.flatMap_map]
  congr 1
  funext item
  cases item <;> rfl

def Node.isCall : Node → Bool
  | .expr (.call _ _ _ _) => true
  | _ => false

def Node.own : Node → List Step
  | .expr (.element (.mk start tag attributes _ _)) => [.element start tag attributes]
  | .part (.variableDeclaration constant declarators) => declarators.map (declaration constant)
  | .part (.declaration name _) => [.declare [name]]
  | _ => []

theorem steps_eq {node : Node} (plain : node.opened? = none) (other : node.isCall = false) :
    node.steps = node.own ++ stepsOf node.children := by
  fun_cases Node.children node
  case case11 => simp [Node.isCall] at other
  case case36 target init =>
    cases init <;> simp [Node.steps, Node.own, ofDeclarator]
  case case40 kind parameters parts =>
    simp only [Node.opened?, ite_eq_right_iff, reduceCtorEq, imp_false] at plain
    simp [Node.steps, Node.own, ofPart, functionScope, plain]
  case case41 => simp [Node.opened?] at plain
  case case42 parameter parts => cases parameter <;> simp [Node.opened?] at plain
  all_goals
    simp [Node.steps, Node.own, ofExpr, ofArgument, ofKey, ofProperty, ofAttributeValue,
      ofAttribute, ofElement, ofPattern, ofPart]

theorem steps_of_opened {node : Node} {names : List String} (opened : node.opened? = some names) :
    node.steps = [.scope names (stepsOf node.children)] := by
  unfold Node.opened? at opened
  split at opened
  case h_1 kind parameters parts =>
    split at opened
    · cases opened
      simp [Node.steps, Node.children, ofPart, functionScope, *]
    · cases opened
  all_goals
    cases opened <;> simp [Node.steps, Node.children, ofPart]

/-! ### Runs -/

theorem run_of_failed (failed : p.hasFailed = true) (step : Step) : step.run t p = p := by
  cases step <;> simp [Step.run, failed]

theorem runSteps_of_failed (failed : p.hasFailed = true) (steps : List Step) :
    runSteps t p steps = p := by
  induction steps with
  | nil => rfl
  | cons first rest ih => rw [runSteps, run_of_failed failed, ih]

theorem runSteps_append (t : Setting) (p : Progress) (before after : List Step) :
    runSteps t p (before ++ after) = runSteps t (runSteps t p before) after := by
  induction before generalizing p with
  | nil => rfl
  | cons first rest ih => exact ih (first.run t p)

theorem hasFailed_of_failure {failure : Descriptor.Failure} (failed : p.failure = some failure) :
    p.hasFailed = true := by
  simp [Progress.hasFailed, failed]

@[simp]
theorem within_hasFailed (f : Findings) (s : Scopes) : (f.within s).hasFailed = false := by
  rfl

theorem within_findings (passed : p.failure = none) : p.findings.within p.scopes = p := by
  cases p
  cases passed
  rfl

structure Progress.Frames (p next : Progress) : Prop where
  scopes : next.scopes = p.scopes
  warnings : next.warnings = p.warnings

theorem Progress.Frames.trans {next last : Progress} (first : p.Frames next)
    (second : next.Frames last) : p.Frames last :=
  ⟨second.scopes.trans first.scopes, second.warnings.trans first.warnings⟩

theorem commit_frames (p : Progress) (draft : Descriptor.Draft) (location : Location)
    (edits : List Edit) : p.Frames (p.commit draft location edits) := by
  unfold Progress.commit
  split <;> exact ⟨rfl, rfl⟩

theorem extractDescriptor_frames (t : Setting) (p : Progress) (span : Span)
    (properties : List Property) : p.Frames (extractDescriptor t p span properties) := by
  unfold extractDescriptor
  split
  · exact ⟨rfl, rfl⟩
  · exact commit_frames p _ _ _

theorem extractProperties_frames (t : Setting) (shown : String) (p : Progress)
    (properties : List Property) : p.Frames (extractProperties t shown p properties) := by
  induction properties generalizing p with
  | nil => exact ⟨rfl, rfl⟩
  | cons property rest ih =>
      rw [extractProperties]
      split
      · exact ⟨rfl, rfl⟩
      · rename_i span inner _
        have first := extractDescriptor_frames t p span inner
        dsimp only
        split
        · exact first
        · exact first.trans (ih (extractDescriptor t p span inner))

theorem extractCall_frames (t : Setting) (p : Progress) (start : Nat) (callee : Expr)
    (name : String) (arguments : List Argument) :
    p.Frames (extractCall t p start callee name arguments) := by
  unfold extractCall
  dsimp only
  repeat' split
  all_goals first | exact ⟨rfl, rfl⟩ | exact extractProperties_frames t _ p _

theorem extractComponent_frames (t : Setting) (p : Progress) (start : Nat)
    (attributes : List Attribute) : p.Frames (extractComponent t p start attributes) := by
  unfold extractComponent
  repeat' split
  all_goals first | exact ⟨rfl, rfl⟩ | exact commit_frames p _ _ _

theorem extractElement_scopes (t : Setting) (p : Progress) (start : Nat) (tag : TagName)
    (attributes : List Attribute) :
    (extractElement t p start tag attributes).scopes = p.scopes := by
  unfold extractElement
  dsimp only
  split
  · rfl
  · split
    · exact (extractComponent_frames t p start attributes).scopes
    · rfl

theorem site_scopes (t : Setting) (p : Progress) (site : Site) :
    (site.run t p).scopes = p.scopes := by
  cases site with
  | element start tag attributes => exact extractElement_scopes t p start tag attributes
  | call start callee arguments =>
      rw [Site.run]
      split
      · exact (extractCall_frames t p start callee _ arguments).scopes
      · rfl

theorem declaration_run (t : Setting) (f : Findings) (s : Scopes) (constant : Bool)
    (declarator : Declarator) :
    (declaration constant declarator).run t (f.within s) =
      f.within (declareIn constant s declarator) := by
  cases declarator with
  | mk target init => cases target <;> cases init <;> cases constant <;> rfl

theorem declarations_run (t : Setting) (f : Findings) (s : Scopes) (constant : Bool)
    (declarators : List Declarator) :
    runSteps t (f.within s) (declarators.map (declaration constant)) =
      f.within (declarators.foldl (declareIn constant) s) := by
  induction declarators generalizing s with
  | nil => rfl
  | cons first rest ih => rw [List.map_cons, runSteps, declaration_run, ih, List.foldl_cons]

/-- A site is handled before what stands below it is walked over. -/
def Node.begin (t : Setting) (f : Findings) (s : Scopes) (node : Node) : Progress :=
  match node.site? with
  | some site => site.run t (f.within s)
  | none => f.within (node.declare s)

theorem run_own (t : Setting) (f : Findings) (s : Scopes) {node : Node}
    (other : node.isCall = false) : runSteps t (f.within s) node.own = node.begin t f s := by
  cases node with
  | expr value =>
      cases value with
      | call start callee arguments inType => simp [Node.isCall] at other
      | element value =>
          cases value
          rfl
      | _ => rfl
  | part value =>
      cases value with
      | variableDeclaration constant declarators =>
          exact declarations_run t f s constant declarators
      | _ => rfl
  | _ => rfl

theorem ofLater_eq (arguments : List Argument) :
    ofLater arguments = stepsOf (arguments.tail.map .argument) := by
  cases arguments <;> simp [ofLater]

theorem ofFirst_ofLater (arguments : List Argument) :
    ofFirst arguments ++ ofLater arguments = stepsOf (arguments.map .argument) := by
  rw [← ofArguments_eq]
  cases arguments <;> rfl

theorem run_call (t : Setting) (f : Findings) (s : Scopes) (start : Nat) (callee : Expr)
    (arguments : List Argument) (inType : List Expr) :
    let node := Node.expr (.call start callee arguments inType)
    runSteps t (f.within s) node.steps =
      runSteps t (node.begin t f s) (stepsOf (t.entered s node)) := by
  intro node
  have called : calledFunction? t (f.within s) callee = t.called? s callee := rfl
  change Step.run t (f.within s) (.call start callee arguments _ _ _ _) = _
  simp only [Step.run, within_hasFailed, Node.begin, node, Node.site?, Site.run, Setting.entered,
    called]
  cases t.called? s callee with
  | some name =>
      simp [← runSteps_append, ofLater_eq, Node.steps]
  | none =>
      simp only [← runSteps_append, List.append_assoc]
      rw [← List.append_assoc (ofFirst arguments), ofFirst_ofLater]
      simp [Node.children, Node.steps]

theorem run_plain (t : Setting) (f : Findings) (s : Scopes) {node : Node}
    (plain : node.opened? = none) :
    runSteps t (f.within s) node.steps =
      runSteps t (node.begin t f s) (stepsOf (t.entered s node)) := by
  cases call : node.isCall with
  | true =>
      cases node with
      | expr value =>
          cases value with
          | call start callee arguments inType => exact run_call t f s start callee arguments inType
          | _ => simp [Node.isCall] at call
      | _ => simp [Node.isCall] at call
  | false =>
      have entered : t.entered s node = node.children := by
        unfold Setting.entered
        split
        · simp [Node.isCall] at call
        · rfl
      rw [steps_eq plain call, runSteps_append, run_own t f s call, entered]

theorem run_opened (t : Setting) (f : Findings) (s : Scopes) {node : Node} {names : List String}
    (opened : node.opened? = some names) :
    runSteps t (f.within s) node.steps =
      (runSteps t (f.within (s.enter.declareNames names)) (stepsOf (t.entered s node))).leave := by
  have entered : t.entered s node = node.children := by
    unfold Setting.entered
    split
    · simp [Node.opened?] at opened
    · rfl
  rw [steps_of_opened opened, entered]
  rfl

theorem declare_of_site {node : Node} {site : Site} (found : node.site? = some site) (s : Scopes) :
    node.declare s = s := by
  cases node with
  | expr value => rfl
  | _ => simp [Node.site?] at found

/-- A run over the steps of some nodes comes to what handling the visits of their walk comes to. -/
theorem run_walks (walked : Walks t.entered s nodes visits last) (f : Findings) :
    let p := runSteps t (f.within s) (stepsOf nodes)
    Outcome t f visits p.findings p.failure ∧ (p.failure = none → p.scopes = last) := by
  induction walked generalizing f with
  | done s => exact ⟨.finished (.done f), fun _ => rfl⟩
  | @scope s inside last node names rest inner later opened below next ihBelow ihNext =>
      intro p
      obtain ⟨outcome, scopes⟩ := ihBelow f
      have run : p = runSteps t _ (stepsOf rest) :=
        (runSteps_append t _ _ _).trans (congrArg (runSteps t · _) (run_opened t f s opened))
      generalize runSteps t (f.within (s.enter.declareNames names)) (stepsOf (t.entered s node)) =
        after at outcome scopes run
      cases failed : after.failure with
      | some failure =>
          have failedToo : after.leave.failure = some failure := failed
          rw [runSteps_of_failed (hasFailed_of_failure failedToo)] at run
          rw [run, failedToo]
          rw [failed] at outcome
          exact ⟨outcome.append_of_failed later, by simp⟩
      | none =>
          have resumed : after.leave = after.findings.within inside.exit := by
            rw [← scopes failed]
            exact (within_findings (p := after.leave) failed).symm
          rw [failed] at outcome
          rw [run, resumed]
          obtain ⟨behind, final⟩ := ihNext after.findings
          exact ⟨outcome.append behind, final⟩
  | @node s last node rest later plain next ih =>
      intro p
      have run : p = runSteps t (node.begin t f s) (stepsOf (t.entered s node ++ rest)) := by
        rw [stepsOf_append, runSteps_append, ← run_plain t f s plain, ← runSteps_append]
        rfl
      cases found : node.site? with
      | none =>
          have nothing : node.visits s = [] := by simp [Node.visits, found]
          have begun : node.begin t f s = f.within (node.declare s) := by simp [Node.begin, found]
          rw [nothing, run, begun]
          exact ih f
      | some site =>
          have visited : node.visits s = [⟨s, site⟩] := by simp [Node.visits, found]
          have begun : node.begin t f s = Visit.handle t f ⟨s, site⟩ := by
            simp [Node.begin, found, Visit.handle]
          rw [begun] at run
          rw [visited]
          cases failed : (Visit.handle t f ⟨s, site⟩).failure with
          | some failure =>
              rw [runSteps_of_failed (hasFailed_of_failure failed)] at run
              rw [run, failed]
              exact ⟨.stopped (.done f) failed, by simp⟩
          | none =>
              have resumed : Visit.handle t f ⟨s, site⟩ =
                  (Visit.handle t f ⟨s, site⟩).findings.within (node.declare s) := by
                have kept : (Visit.handle t f ⟨s, site⟩).scopes = node.declare s := by
                  rw [declare_of_site found]
                  exact site_scopes t (f.within s) site
                rw [← kept, within_findings failed]
              rw [run, resumed]
              obtain ⟨behind, final⟩ := ih (Visit.handle t f ⟨s, site⟩).findings
              exact ⟨Outcome.append (.finished (.next failed (.done _))) behind, final⟩

theorem walk_outcome {options : Options} {validate : Message.Validator} {source : Source}
    (walked : Walks (Setting.ofSource options validate source).entered .empty
      (nodesOf source.module) visits last) :
    Outcome (.ofSource options validate source) (.start options) visits
      (walk options validate source).findings (walk options validate source).failure := by
  have run : walk options validate source = runSteps (.ofSource options validate source)
      ((Findings.start options).within .empty) (stepsOf (nodesOf source.module)) := by
    rw [← ofModule_eq]
    rfl
  rw [run]
  exact (run_walks walked (.start options)).1

end MessageCatalog.Extraction
