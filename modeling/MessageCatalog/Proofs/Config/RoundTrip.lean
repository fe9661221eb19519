import Mathlib.Data.List.Pairwise
import MessageCatalog.Config.Json
import MessageCatalog.Proofs.Json.RoundTrip

/-!
Configurations and their JSON. Different fields of a configuration are read independently of each
other, so a field that is given its default value makes no difference to any other; and what a
configuration is written as is read back as the configuration.
-/

namespace MessageCatalog.Config

variable {f g : Field} {c d : Config} {key : String} {j : Json.Value}

/-- It makes no difference which of two fields is read first. -/
def Apart (f g : Field) : Prop :=
  ∀ c i j, (f.read c i).bind (fun d => g.read d j) = (g.read c j).bind fun d => f.read d i

theorem apart_of_put {α β : Type} {first second : String} {decode : Json.Value → Option α}
    {decode' : Json.Value → Option β} {put : Config → α → Config} {put' : Config → β → Config}
    (swap : ∀ c a b, put' (put c a) b = put (put' c b) a) :
    Apart ⟨first, fun c j => (decode j).map (put c)⟩
      ⟨second, fun c j => (decode' j).map (put' c)⟩ := by
  intro c i j
  dsimp only
  cases decode i with
  | none => cases decode' j <;> rfl
  | some a =>
      cases decode' j with
      | none => rfl
      | some b => exact congrArg some (swap c a b)

instance : Std.Symm Apart :=
  ⟨fun _ _ apart c i j => (apart c j i).symm⟩

theorem pairwise_apart : fields.Pairwise Apart := by
  unfold fields
  simp only [List.pairwise_cons, List.forall_mem_cons, List.not_mem_nil, false_implies,
    implies_true, List.Pairwise.nil, and_true]
  and_intros
  all_goals exact apart_of_put fun _ _ _ => rfl

def field? (key : String) : Option Field :=
  fields.find? fun field => field.key == key

theorem key_of_field? (found : field? key = some f) : f ∈ fields ∧ f.key = key :=
  ⟨List.mem_of_find?_eq_some found, by simpa using List.find?_some found⟩

theorem apart_of_key {other : String} (found : field? key = some f)
    (found' : field? other = some g) (different : key ≠ other) : Apart f g := by
  obtain ⟨member, rfl⟩ := key_of_field? found
  obtain ⟨member', rfl⟩ := key_of_field? found'
  exact pairwise_apart.forall member member' fun same => different (congrArg Field.key same)

/-- An entry of an object that makes no difference to a configuration. -/
def Idle (entry : String × Json.Value) (c : Config) : Prop :=
  ∃ f, field? entry.1 = some f ∧ f.read c entry.2 = some c

theorem Idle.read {entry : String × Json.Value} (idle : Idle entry c)
    (known : field? key = some g) (different : entry.1 ≠ key) (read : g.read c j = some d) :
    Idle entry d := by
  obtain ⟨f, found, same⟩ := idle
  refine ⟨f, found, ?_⟩
  have swapped := apart_of_key found known different c entry.2 j
  rw [same, read] at swapped
  exact swapped.symm.trans read

def entries (c : Config) : List (String × Json.Value) :=
  [("moduleSourceName", .text c.source),
   ("messagesDir", .ofOption .text c.messagesDir),
   ("fileName", .text c.fileName),
   ("namespace", .ofOption .text c.idSpace),
   ("enforceDescriptions", .bool c.enforceDescriptions),
   ("componentNames", .texts c.components),
   ("pluralComponentNames", .texts c.plurals),
   ("functionNames", .texts c.functions),
   ("includes", .texts c.includes),
   ("ignores", .texts c.ignores),
   ("ignoreTestFiles", .bool c.ignoreTests)]

theorem toFullJson_eq (c : Config) : c.toFullJson = .object c.entries :=
  rfl

theorem idle_default {entry : String × Json.Value} (member : entry ∈ ({} : Config).entries) :
    Idle entry {} := by
  revert entry
  simp only [entries, List.forall_mem_cons, List.not_mem_nil, false_implies, implies_true, and_true]
  and_intros
  all_goals exact ⟨_, rfl, rfl⟩

theorem readField_unknown {state : Config × List String} {entry : String × Json.Value}
    (unknown : field? entry.1 = none) : readField state entry = some state := by
  unfold field? at unknown
  rw [readField, unknown]

theorem readField_known {state : Config × List String} {entry : String × Json.Value}
    (known : field? entry.1 = some f) :
    readField state entry =
      if entry.1 ∈ state.2 then none
      else (f.read state.1 entry.2).map fun c => (c, entry.1 :: state.2) := by
  unfold field? at known
  rw [readField, known]
  simp only [List.contains_iff_mem]

theorem foldlM_leaving {object : List (String × Json.Value)} {left seen seen' : List String}
    (idle : ∀ entry ∈ object, entry.1 ∈ left → Idle entry c)
    (once : ((object.map Prod.fst).filter left.contains).Nodup)
    (fresh : ∀ entry ∈ object, entry.1 ∈ left → entry.1 ∉ seen)
    (alike : ∀ key, key ∉ left → (key ∈ seen ↔ key ∈ seen')) :
    ((object.filter fun entry => !left.contains entry.1).foldlM readField (c, seen')).map Prod.fst =
      (object.foldlM readField (c, seen)).map Prod.fst := by
  induction object generalizing c seen seen' with
  | nil => rfl
  | cons entry rest ih =>
      obtain ⟨idleHere, idleRest⟩ := List.forall_mem_cons.mp idle
      obtain ⟨freshHere, freshRest⟩ := List.forall_mem_cons.mp fresh
      rw [List.map_cons, List.filter_cons] at once
      rw [List.foldlM_cons]
      by_cases out : entry.1 ∈ left
      · -- the entry is read only once, and only by the second run
        rw [if_pos (List.contains_iff_mem.mpr out), List.nodup_cons] at once
        obtain ⟨f, known, same⟩ := idleHere out
        rw [List.filter_cons_of_neg (by simp [out]), readField_known known, if_neg (freshHere out),
          same]
        refine ih idleRest once.2 (fun other member outside => ?_) fun key inside => ?_
        · have different : other.1 ≠ entry.1 := by
            intro again
            refine once.1 (List.mem_filter.mpr ⟨?_, List.contains_iff_mem.mpr out⟩)
            exact again ▸ List.mem_map_of_mem member
          simp [different, freshRest other member outside]
        · have different : key ≠ entry.1 := fun again => inside (again ▸ out)
          simp [different, alike key inside]
      · rw [if_neg (by simpa using out)] at once
        rw [List.filter_cons_of_pos (by simp [out]), List.foldlM_cons]
        cases known : field? entry.1 with
        | none =>
            rw [readField_unknown known, readField_unknown known]
            exact ih idleRest once freshRest alike
        | some f =>
            rw [readField_known known, readField_known known]
            by_cases again : entry.1 ∈ seen
            · rw [if_pos again, if_pos ((alike _ out).mp again)]
              rfl
            · rw [if_neg again, if_neg fun again' => again ((alike _ out).mpr again')]
              cases read : f.read c entry.2 with
              | none => rfl
              | some d =>
                  refine ih (fun other member outside => ?_) once (fun other member outside => ?_)
                    fun key inside => ?_
                  · have different : other.1 ≠ entry.1 := fun same => out (same ▸ outside)
                    exact (idleRest other member outside).read known different read
                  · have different : other.1 ≠ entry.1 := fun same => out (same ▸ outside)
                    simp [different, freshRest other member outside]
                  · simp [alike key inside]

theorem ofJson?_leaving {object : List (String × Json.Value)} {left : List String}
    (defaults : ∀ entry ∈ object, entry.1 ∈ left → entry ∈ ({} : Config).entries)
    (once : ((object.map Prod.fst).filter left.contains).Nodup) :
    ofJson? (.object (object.filter fun entry => !left.contains entry.1)) =
      ofJson? (.object object) :=
  foldlM_leaving (fun entry member out => idle_default (defaults entry member out)) once
    (by simp) (by simp)

theorem texts?_texts (contents : List String) : texts? (.texts contents) = some contents := by
  unfold texts? Json.Value.texts
  induction contents with
  | nil => rfl
  | cons first rest ih =>
      simp only [List.map_cons, List.mapM_cons] at ih ⊢
      rw [ih]
      rfl

theorem optionalText?_ofOption (value : Option String) :
    optionalText? (.ofOption .text value) = some value := by
  cases value <;> rfl

theorem ofJson?_toFullJson (c : Config) : ofJson? c.toFullJson = some c := by
  simp [toFullJson_eq, entries, ofJson?, readField, fields, texts?_texts, optionalText?_ofOption,
    text?, bool?]

def absent (c : Config) : List String :=
  (if c.messagesDir.isNone then ["messagesDir"] else []) ++
    if c.idSpace.isNone then ["namespace"] else []

theorem toJson_eq (c : Config) :
    c.toJson = .object (c.entries.filter fun entry => !c.absent.contains entry.1) := by
  obtain ⟨_, messagesDir, _, idSpace⟩ := c
  cases messagesDir <;> cases idSpace <;> rfl

theorem nodup_keys (c : Config) : (c.entries.map Prod.fst).Nodup := by
  have keys : c.entries.map Prod.fst = fields.map Field.key := rfl
  rw [keys]
  decide

theorem ofJson?_toJson (c : Config) : ofJson? c.toJson = some c := by
  have defaults : ∀ entry ∈ c.entries, entry.1 ∈ c.absent → entry ∈ ({} : Config).entries := by
    obtain ⟨_, messagesDir, _, idSpace⟩ := c
    cases messagesDir <;> cases idSpace <;> simp [entries, absent, Json.Value.ofOption]
  rw [toJson_eq, ofJson?_leaving defaults ((nodup_keys c).filter _), ← toFullJson_eq,
    ofJson?_toFullJson]

theorem arePlain_texts (contents : List String) :
    Json.Value.arePlain (contents.map .text) = true := by
  induction contents with
  | nil => rfl
  | cons first rest ih => exact ih

theorem isPlain_toFullJson (c : Config) : c.toFullJson.isPlain = true := by
  obtain ⟨_, messagesDir, _, idSpace⟩ := c
  cases messagesDir <;> cases idSpace <;>
    simp [toFullJson_eq, entries, Json.Value.isPlain, Json.Value.arePlainFields,
      Json.Value.ofOption, Json.Value.texts, arePlain_texts]

theorem isPlain_toJson (c : Config) : c.toJson.isPlain = true := by
  obtain ⟨_, messagesDir, _, idSpace⟩ := c
  cases messagesDir <;> cases idSpace <;>
    simp [toJson, written, Json.Value.isPlain, Json.Value.arePlainFields, Json.Value.texts,
      arePlain_texts]

/-- A configuration is read back from the texts that it is written as. An object is read from its
text, and says the same without any of its fields that have their defaults. -/
theorem parse?_written :
    (∀ c : Config, parse? c.toJson.pretty = some c ∧ parse? c.toFullJson.pretty = some c) ∧
      (∀ j : Json.Value, j.isPlain = true → parse? j.pretty = ofJson? j) ∧
      ∀ (object : List (String × Json.Value)) (left : List String),
        (∀ entry ∈ object, entry.1 ∈ left → entry ∈ ({} : Config).entries) →
        ((object.map Prod.fst).filter left.contains).Nodup →
          ofJson? (.object (object.filter fun entry => !left.contains entry.1)) =
            ofJson? (.object object) := by
  have read (j : Json.Value) (plain : j.isPlain = true) : parse? j.pretty = ofJson? j := by
    rw [parse?, Json.parse?_pretty plain]
    rfl
  refine ⟨fun c => ⟨?_, ?_⟩, read, fun object left => ofJson?_leaving⟩
  · rw [read _ (isPlain_toJson c), ofJson?_toJson]
  · rw [read _ (isPlain_toFullJson c), ofJson?_toFullJson]

theorem parse?_written_fileName :
    ofJson? (.object [("fileName", .text "en")]) =
      ofJson? (.object
        [("ignores", .texts []), ("fileName", .text "en"), ("namespace", .null)]) := by
  refine parse?_written.2.2 [("ignores", .texts []), ("fileName", .text "en"), ("namespace", .null)]
    ["ignores", "namespace"] ?_ (by decide)
  simp [entries, Json.Value.ofOption, Json.Value.texts]

end MessageCatalog.Config
