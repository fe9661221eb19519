import MessageCatalog.Proofs.Extraction.EditedSites

/-!
Sources with the edits of an extraction made in them, and a check for them. The check walks over
both sources side by side and compares the sites that it meets; so whether a text that was edited
parses to its source with the edits made can be computed from the two texts.
-/

namespace MessageCatalog.Extraction

open Script Descriptor

/-- A source whose walk meets the sites of another one, with their edits made. -/
structure Edited (options : Options) (validate : Message.Validator) (source edited : Source) :
    Prop where
  imports : ImportTable.ofModule edited.module = ImportTable.ofModule source.module
  constants : AlikeNamed Alike (Constants.ofModule source.module) (Constants.ofModule edited.module)
  sites : ∃ visits last visits' last',
    Walks (Setting.ofSource options validate source).entered .empty (nodesOf source.module)
      visits last ∧
    Walks (Setting.ofSource options validate edited).entered .empty (nodesOf edited.module)
      visits' last' ∧
    List.Forall₂ (Corresponds (.ofSource options validate source)) visits visits'

variable {t : Setting} {s : Scopes}

/-- The visits of a walk, and the scopes behind it. The fuel bounds the nodes on the way. -/
def visitsWithin (entered : Scopes → Node → List Node) :
    Nat → Scopes → List Node → Option (List Visit × Scopes)
  | _, s, [] => some ([], s)
  | 0, _, _ :: _ => none
  | fuel + 1, s, node :: rest =>
      match node.opened? with
      | some names => do
          let (inner, inside) ← visitsWithin entered fuel (s.enter.declareNames names)
            (entered s node)
          let (later, last) ← visitsWithin entered fuel inside.exit rest
          return (inner ++ later, last)
      | none => do
          let (later, last) ← visitsWithin entered fuel (node.declare s) (entered s node ++ rest)
          return (node.visits s ++ later, last)

theorem walks_of_visitsWithin {entered : Scopes → Node → List Node} {fuel : Nat}
    {nodes : List Node} {visits : List Visit} {last : Scopes}
    (found : visitsWithin entered fuel s nodes = some (visits, last)) :
    Walks entered s nodes visits last := by
  induction fuel generalizing s nodes visits last with
  | zero =>
      cases nodes with
      | nil =>
          cases found
          exact .done s
      | cons node rest => cases found
  | succ fuel ih =>
      cases nodes with
      | nil =>
          cases found
          exact .done s
      | cons node rest =>
          unfold visitsWithin at found
          split at found
          next names opened =>
            obtain ⟨⟨inner, inside⟩, below, found⟩ := Option.bind_eq_some_iff.mp found
            obtain ⟨⟨later, behind⟩, next, found⟩ := Option.bind_eq_some_iff.mp found
            cases found
            exact .scope opened (ih below) (ih next)
          next plain =>
            obtain ⟨⟨later, behind⟩, next, found⟩ := Option.bind_eq_some_iff.mp found
            cases found
            exact .node plain (ih next)

def nodeLimit (source : Source) : Nat :=
  16 * (source.text.length + 1)

def visitsOf (t : Setting) : Option (List Visit) :=
  (visitsWithin t.entered (nodeLimit t.source) .empty (nodesOf t.source.module)).map Prod.fst

theorem walks_of_visitsOf {visits : List Visit} (found : visitsOf t = some visits) :
    ∃ last, Walks t.entered .empty (nodesOf t.source.module) visits last := by
  obtain ⟨⟨_, last⟩, walked, rfl⟩ := Option.map_eq_some_iff.mp found
  exact ⟨last, walks_of_visitsWithin walked⟩

def isAlikeValue : AttributeValue → AttributeValue → Bool
  | .missing, .missing => true
  | .text _ content, .text _ content' => content == content'
  | .braces _ value, .braces _ value' => isAlike value value'
  | .markup _ _, .markup _ _ => true
  | _, _ => false

theorem alikeValue_of_check (value value' : AttributeValue)
    (same : isAlikeValue value value' = true) : AlikeValue value value' := by
  unfold isAlikeValue at same
  split at same
  · exact .missing
  · obtain rfl := beq_iff_eq.mp same
    exact .text ..
  · exact .braces (alike_of_check _ _ same)
  · exact .markup ..
  · cases same

def isAlikeAttribute : Attribute → Attribute → Bool
  | .named _ name value, .named _ name' value' => name == name' && isAlikeValue value value'
  | .spread _, .spread _ => true
  | _, _ => false

theorem alikeAttribute_of_check (a a' : Attribute) (same : isAlikeAttribute a a' = true) :
    AlikeAttribute a a' := by
  unfold isAlikeAttribute at same
  split at same
  · rw [Bool.and_eq_true, beq_iff_eq] at same
    obtain ⟨rfl, value⟩ := same
    exact .named _ (alikeValue_of_check _ _ value)
  · exact .spread ..
  · cases same

/-! ### Calls -/

/-- The name that an expression may be an imported name by, or a module's and that of a member. -/
def importedBy : Expr → Option (String × Option String)
  | .ident _ name => some (name, none)
  | .member _ (.ident _ space) name => some (space, some name)
  | .index _ (.ident _ space) (.literal _ (.text name)) => some (space, some name)
  | .paren _ inner => importedBy inner
  | _ => none

theorem refersTo_eq (table : ImportTable) (s : Scopes) (wanted : Origin) (e : Expr) :
    e.refersTo table s wanted =
      match importedBy e with
      | some (name, none) => table.isImport s name wanted
      | some (space, some name) => table.isMember s space name wanted
      | none => false := by
  fun_induction importedBy e with
  | case1 | case2 | case3 => rfl
  | case4 start inner ih => exact ih
  | case5 e noIdent noMember noIndex noParen =>
      unfold Expr.refersTo
      split
      · exact absurd rfl (noIdent _ _)
      · exact absurd rfl (noMember _ _ _ _)
      · exact absurd rfl (noIndex _ _ _ _ _)
      · exact absurd rfl (noParen _ _)
      · rfl

def isReplacement (span : Span) (id message : String) : Expr → Bool
  | .object made [.keyed (.literal first (.text key)) (.literal second (.text value)),
      .keyed (.literal third (.text key')) (.literal fourth (.text value'))] =>
      made.stop == made.start +
          Text.byteLength (Edit.replacement (.replaceDescriptor span id message)) &&
        (first, second, third, fourth) == replacementStarts made.start id &&
        (key, value, key', value') == ("id", id, "defaultMessage", message)
  | _ => false

theorem readAt_of_check {span : Span} {id message : String} {e : Expr}
    (same : isReplacement span id message e = true) :
    ReadAt (Edit.replacement (.replaceDescriptor span id message)) e := by
  unfold isReplacement at same
  split at same
  next made first key second value third key' fourth value' =>
    simp only [Bool.and_eq_true, beq_iff_eq, Prod.mk.injEq] at same
    obtain ⟨⟨stop, starts⟩, rfl, rfl, rfl, rfl⟩ := same
    have whole : made = ⟨made.start, made.start +
        Text.byteLength (Edit.replacement (.replaceDescriptor span value value'))⟩ := by rw [← stop]
    refine (readAt_replacement_iff ..).mpr ⟨made.start, ?_⟩
    rw [← starts, ← whole, properties]
  next => cases same

def isReplaced (t : Setting) (s : Scopes) (property property' : Property) : Bool :=
  match descriptorOf? property, property' with
  | some (span, inner), .keyed _ value' =>
      match t.draft s inner with
      | .ok ⟨some name, _, some message⟩ => isReplacement span name message (unwrap value')
      | _ => false
  | _, _ => false

theorem replaced_of_check (property property' : Property)
    (same : isReplaced t s property property' = true) : Replaced t s property property' := by
  unfold isReplaced at same
  split at same
  next span inner key' value' object =>
    split at same
    next name description message built =>
      exact .mk object built rfl (readAt_of_check same) rfl
    next => cases same
  next => cases same

def argumentsReplaced (t : Setting) (s : Scopes) : List Argument → List Argument → Bool
  | .plain value :: _, .plain value' :: _ =>
      match unwrap value, unwrap value' with
      | .object _ inner, .object _ inner' => List.all₂ (isReplaced t s) inner inner'
      | _, _ => false
  | _, _ => false

def corresponds (t : Setting) (v v' : Visit) : Bool :=
  areAlikeScopes v.scopes v'.scopes &&
    match v.site, v'.site with
    | .element _ tag attributes, .element _ tag' attributes' =>
        tag == tag' && List.all₂ isAlikeAttribute (t.kept v.scopes tag attributes) attributes'
    | .call _ callee arguments, .call _ callee' arguments' =>
        importedBy callee' == importedBy callee &&
          ((t.called? v.scopes callee).isNone || argumentsReplaced t v.scopes arguments arguments')
    | _, _ => false

theorem corresponds_of_check (v v' : Visit) (checked : corresponds t v v' = true) :
    Corresponds t v v' := by
  obtain ⟨s, site⟩ := v
  obtain ⟨s', site'⟩ := v'
  unfold corresponds at checked
  obtain ⟨scopes, sites⟩ := Bool.and_eq_true_iff.mp checked
  have scopes := alikeScopes_of_check scopes
  dsimp only at sites
  split at sites
  next start tag attributes start' tag' attributes' =>
    rw [Bool.and_eq_true, beq_iff_eq] at sites
    obtain ⟨rfl, kept⟩ := sites
    exact .element scopes (forall₂_of_check alikeAttribute_of_check kept)
  next start callee arguments start' callee' arguments' _ =>
    rw [Bool.and_eq_true, beq_iff_eq] at sites
    obtain ⟨names, replaced⟩ := sites
    have same (table : ImportTable) (s : Scopes) (wanted : Origin) :
        callee'.refersTo table s wanted = callee.refersTo table s wanted := by
      rw [refersTo_eq, refersTo_eq, names]
    cases called : t.called? s callee with
    | none => exact .other scopes same called
    | some name =>
        rw [called, Option.isNone_some, Bool.false_or] at replaced
        unfold argumentsReplaced at replaced
        split at replaced
        next value later value' later' =>
          split at replaced
          next span inner span' inner' object object' =>
            exact .called scopes same called object object'
              (forall₂_of_check replaced_of_check replaced)
          next => cases replaced
        next => cases replaced
  next => cases sites

/-- Whether a source is another one with its edits made. -/
def isEdited (options : Options) (validate : Message.Validator) (source edited : Source) : Bool :=
  ImportTable.ofModule edited.module == ImportTable.ofModule source.module &&
    areAlikeNamed isAlike (Constants.ofModule source.module) (Constants.ofModule edited.module) &&
    match visitsOf (.ofSource options validate source),
      visitsOf (.ofSource options validate edited) with
    | some visits, some visits' =>
        List.all₂ (corresponds (.ofSource options validate source)) visits visits'
    | _, _ => false

theorem edited_of_check {options : Options} {validate : Message.Validator} {source edited : Source}
    (checked : isEdited options validate source edited = true) :
    Edited options validate source edited := by
  unfold isEdited at checked
  rw [Bool.and_eq_true, Bool.and_eq_true, beq_iff_eq] at checked
  obtain ⟨⟨imports, constants⟩, sites⟩ := checked
  refine ⟨imports, alikeNamed_of_check alike_of_check constants, ?_⟩
  split at sites
  next visits visits' found found' =>
    obtain ⟨last, walked⟩ := walks_of_visitsOf found
    obtain ⟨last', walked'⟩ := walks_of_visitsOf found'
    exact ⟨visits, last, visits', last', walked, walked',
      forall₂_of_check corresponds_of_check sites⟩
  next => cases sites

end MessageCatalog.Extraction
