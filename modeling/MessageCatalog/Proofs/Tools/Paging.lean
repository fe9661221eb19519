import Mathlib.Data.List.Forall2
import Mathlib.Data.List.TakeDrop
import MessageCatalog.Proofs.Project.Runs

/-!
Paging. A client that asks for the messages of a project page after page, as long as it is told that
there are more, comes to an end and has read every message once, in the order of the sources: the
items that it gets show the messages one by one, each with its source and all its texts.
-/

namespace MessageCatalog.Tools

def request (root : String) (limit : Option Nat) (offset : Nat) : Json.Value :=
  .object ([("projectRootPath", Json.Value.text root)] ++
    optionalField "limit" (limit.map .nat) ++ [("offset", .nat offset)])

def itemsIn (answer : Json.Value) : List Json.Value :=
  match field? answer "items" with
  | some (.array items) => items
  | _ => []

def totalIn (answer : Json.Value) : Option Json.Value :=
  field? answer "totalCount"

def hasMoreIn (answer : Json.Value) : Bool :=
  match (field? answer "pagination").bind (field? · "hasMore") with
  | some (.bool more) => more
  | _ => false

/-- The answers that a client gets from some offset on. While there are more messages, it goes on
behind those it has got. -/
inductive Reads (t : FileTree) (root : String) (limit : Option Nat) :
    Nat → List Json.Value → Prop
  | last {offset : Nat} {answer : Json.Value}
      (answered : Tool.extractMessages.call t (request root limit offset) = .ok answer)
      (ends : hasMoreIn answer = false) : Reads t root limit offset [answer]
  | more {offset : Nat} {answer : Json.Value} {rest : List Json.Value}
      (answered : Tool.extractMessages.call t (request root limit offset) = .ok answer)
      (continues : hasMoreIn answer = true)
      (behind : Reads t root limit (offset + (itemsIn answer).length) rest) :
      Reads t root limit offset (answer :: rest)

variable {t : FileTree} {root : String} {limit : Option Nat} {offset : Nat}

theorem Reads.unique {answers others : List Json.Value} (reads : Reads t root limit offset answers)
    (again : Reads t root limit offset others) : others = answers := by
  induction reads generalizing others with
  | last answered ends =>
      cases again with
      | last same =>
          cases answered.symm.trans same
          rfl
      | more same continues =>
          cases answered.symm.trans same
          cases ends.symm.trans continues
  | more answered continues _ ih =>
      cases again with
      | last same ends =>
          cases answered.symm.trans same
          cases ends.symm.trans continues
      | more same _ behind =>
          cases answered.symm.trans same
          rw [ih behind]

/-- The messages of a run with their sources, those of each source in turn. -/
def messagesOf (run : Project.Run) : List (String × Descriptor) :=
  run.products.flatMap fun o => o.found.messages.map fun message => (o.source.file, message)

/-- An item has the path of a source and the texts of a message, and no description where the message
has none. -/
structure Shows (item : Json.Value) (found : String × Descriptor) : Prop where
  filePath : field? item "filePath" = some (.text found.1)
  id : field? item "id" = some (.text found.2.id)
  defaultMessage : field? item "defaultMessage" = some (.text found.2.defaultMessage)
  description : field? item "description" = found.2.description.map .text

theorem shows_toJson (i : Item) : Shows i.toJson (i.file, i.message) := by
  refine ⟨rfl, rfl, rfl, ?_⟩
  unfold Item.toJson
  dsimp only
  cases i.message.description <;> rfl

theorem itemsOf_eq (run : Project.Run) :
    itemsOf run = (messagesOf run).map fun found => ⟨found.1, found.2⟩ := by
  rw [itemsOf, messagesOf, List.map_flatMap]
  simp only [List.map_map]
  rfl

theorem length_messagesOf (run : Project.Run) : (messagesOf run).length = run.messageCount := by
  unfold messagesOf Project.Run.messageCount
  induction run.products with
  | nil => rfl
  | cons first rest ih =>
      rw [List.flatMap_cons, List.length_append, List.length_map, ih, List.foldr_cons]

theorem shows_page (found : List (String × Descriptor)) (limit offset : Nat) :
    List.Forall₂ Shows ((((found.map fun each => Item.mk each.1 each.2).drop offset).take
      limit).map Item.toJson) ((found.drop offset).take limit) := by
  rw [← List.map_drop, ← List.map_take, List.map_map, List.forall₂_map_left_iff]
  exact List.forall₂_same.mpr fun each _ => shows_toJson ⟨each.1, each.2⟩

theorem count?_nat {value : Nat} (small : value < countLimit) :
    count? (some (.nat value)) = some (some value) := by
  exact if_pos small

theorem ofJson?_request (root : String) (known : ∀ n ∈ limit, n < countLimit)
    (small : offset < countLimit) :
    Parameters.ofJson? (request root limit offset) = some ⟨root, limit, some offset⟩ := by
  have readRoot : rootOf? (request root limit offset) = some root := rfl
  have readOffset : count? (field? (request root limit offset) "offset") = some (some offset) := by
    cases limit <;> exact count?_nat small
  have readLimit : count? (field? (request root limit offset) "limit") = some limit := by
    cases limit with
    | none => rfl
    | some n => exact count?_nat (known n rfl)
  rw [Parameters.ofJson?, readRoot, readOffset, readLimit]
  rfl

def pageSize (limit : Option Nat) : Nat :=
  min (limit.getD defaultLimit) greatestLimit

theorem pageSize_pos (positive : limit ≠ some 0) : 0 < pageSize limit := by
  cases limit with
  | none => decide
  | some n =>
      have nonzero : n ≠ 0 := fun zero => positive (congrArg some zero)
      simp only [pageSize, Option.getD_some, greatestLimit]
      omega

variable {run : Project.Run}

theorem call_request (previewed : preview t root = .ok run) (known : ∀ n ∈ limit, n < countLimit)
    (small : offset < countLimit) :
    ∃ answer, Tool.extractMessages.call t (request root limit offset) = .ok answer ∧
      List.Forall₂ Shows (itemsIn answer) (((messagesOf run).drop offset).take (pageSize limit)) ∧
      totalIn answer = some (.nat (messagesOf run).length) ∧
      hasMoreIn answer = decide (offset + (itemsIn answer).length < (messagesOf run).length) := by
  have called : Tool.extractMessages.call t (request root limit offset) =
      extractMessages t ⟨root, limit, some offset⟩ := by
    rw [Tool.call, ofJson?_request root known small]
  let page := pageOf limit (some offset) (itemsOf run)
  have items : List.Forall₂ Shows (page.items.map Item.toJson)
      (((messagesOf run).drop offset).take (pageSize limit)) := by
    have shown := shows_page (messagesOf run) (pageSize limit) offset
    rwa [← itemsOf_eq] at shown
  have total : (itemsOf run).length = (messagesOf run).length := by
    rw [itemsOf_eq, List.length_map]
  have more : page.hasMore =
      decide (offset + (page.items.map Item.toJson).length < (messagesOf run).length) := by
    rw [List.length_map, ← total]
    rfl
  rw [called, extractMessages, previewed]
  refine ⟨_, rfl, items, congrArg (fun n => some (Json.Value.nat n)) total, ?_⟩
  -- the error, which stands in front of the pagination, may be missing
  cases run.failure <;> exact more

/-! ### All pages -/

theorem reads_from (previewed : preview t root = .ok run) (known : ∀ n ∈ limit, n < countLimit)
    (positive : limit ≠ some 0) (few : run.messageCount < countLimit)
    (inside : offset ≤ run.messageCount) :
    ∃ answers, Reads t root limit offset answers ∧
      List.Forall₂ Shows (answers.flatMap itemsIn) ((messagesOf run).drop offset) ∧
      ∀ answer ∈ answers, totalIn answer = some (.nat run.messageCount) := by
  rw [← length_messagesOf] at few inside ⊢
  induction left : (messagesOf run).length - offset
    using Nat.strong_induction_on generalizing offset with
  | _ left ih =>
      obtain ⟨answer, answered, items, total, more⟩ :=
        call_request previewed known (lt_of_le_of_lt inside few)
      have length : (itemsIn answer).length =
          min (pageSize limit) ((messagesOf run).length - offset) := by
        rw [items.length_eq, List.length_take, List.length_drop]
      have nonempty := pageSize_pos positive
      by_cases behind : offset + (itemsIn answer).length < (messagesOf run).length
      · rw [decide_eq_true behind] at more
        obtain ⟨rest, reads, listed, totals⟩ := ih _ (by omega) behind.le rfl
        refine ⟨answer :: rest, .more answered more reads, ?_,
          List.forall_mem_cons.mpr ⟨total, totals⟩⟩
        have full : (itemsIn answer).length = pageSize limit := by omega
        rw [full, ← List.drop_drop] at listed
        rw [List.flatMap_cons, ← List.take_append_drop (pageSize limit) (List.drop offset _)]
        exact List.rel_append items listed
      · rw [decide_eq_false behind] at more
        refine ⟨[answer], .last answered more, ?_, by simpa using total⟩
        rw [List.take_of_length_le (by rw [List.length_drop]; omega)] at items
        rwa [List.flatMap_singleton]

/-- For a project that can be loaded, asking page after page comes to an end, in one way only, and
shows every message once, in the order of the sources, with the same count on each page. At every
offset there are said to be more messages exactly if some stand behind those of the page. -/
theorem extractMessages_paged {p : Project} (loaded : Project.load t root {} = .ok p)
    (limit : Option Nat) (known : ∀ n ∈ limit, n < countLimit) :
    ∃ run, (p.run .preview t).2 = .ok run ∧ (messagesOf run).length = run.messageCount ∧
      (run.messageCount < countLimit → limit ≠ some 0 →
        ∃ answers, Reads t root limit 0 answers ∧
          (∀ others, Reads t root limit 0 others → others = answers) ∧
          List.Forall₂ Shows (answers.flatMap itemsIn) (messagesOf run) ∧
          ∀ answer ∈ answers, totalIn answer = some (.nat run.messageCount)) ∧
      ∀ offset < countLimit, ∃ answer shown behind,
        Tool.extractMessages.call t (request root limit offset) = .ok answer ∧
          (messagesOf run).drop offset = shown ++ behind ∧
          List.Forall₂ Shows (itemsIn answer) shown ∧
          (hasMoreIn answer = true ↔ behind ≠ []) := by
  obtain ⟨run, done⟩ := Project.saves_iff.mp (Project.saves_of_nowhere (p := p) t (.inl rfl))
  have previewed := Project.preview_of_run loaded done
  refine ⟨run, done, length_messagesOf run, fun few positive => ?_, fun offset small => ?_⟩
  · obtain ⟨answers, reads, listed, totals⟩ :=
      reads_from previewed known positive few (Nat.zero_le _)
    exact ⟨answers, reads, fun _ => reads.unique, listed, totals⟩
  · obtain ⟨answer, answered, items, -, more⟩ := call_request previewed known small
    refine ⟨answer, _, ((messagesOf run).drop offset).drop (pageSize limit), answered,
      (List.take_append_drop _ _).symm, items, ?_⟩
    rw [more, decide_eq_true_iff, items.length_eq, List.length_take, List.length_drop, ne_eq,
      List.drop_eq_nil_iff, List.length_drop]
    omega

def pagedTree : FileTree :=
  ⟨["app"], [(["app", "src"], .directory), (["app", "src", "a.ts"], .file (.text
    ("import \x7bdefineMessages\x7d from \"react-intl\";\ndefineMessages(\x7b" ++
      "a: \x7b id: \"a\", defaultMessage: \"A\" \x7d, " ++
      "b: \x7b id: \"b\", defaultMessage: \"B\" \x7d, " ++
      "c: \x7b id: \"c\", defaultMessage: \"C\" \x7d\x7d);\n")))]⟩

def pagedProject : Project :=
  ⟨{}, ".", false, ["./src/a.ts"], 0⟩

def idsOf : Except Build.WriteError Project.Run → List String
  | .ok run => (messagesOf run).map fun found => found.2.id
  | .error _ => []

theorem ids_of_shows {items : List Json.Value} {found : List (String × Descriptor)}
    (shown : List.Forall₂ Shows items found) :
    items.map (field? · "id") = (found.map fun each => each.2.id).map fun id => some (.text id) := by
  induction shown with
  | nil => rfl
  | cons first _ ih => rw [List.map_cons, List.map_cons, List.map_cons, first.id, ih]

theorem extractMessages_paged_pairs :
    ∃ answers, Reads pagedTree "." (some 2) 0 answers ∧
      (answers.flatMap itemsIn).map (field? · "id") =
        [some (.text "a"), some (.text "b"), some (.text "c")] ∧
      ∃ answer, Tool.extractMessages.call pagedTree (request "." (some 2) 5) = .ok answer ∧
        itemsIn answer = [] ∧ hasMoreIn answer = false := by
  have loaded : Project.load pagedTree "." {} = .ok pagedProject := by decide +kernel
  have evaluated : idsOf (pagedProject.run .preview pagedTree).2 = ["a", "b", "c"] := by
    decide +kernel
  obtain ⟨run, done, counted, pages, page⟩ := extractMessages_paged loaded (some 2) (by decide)
  rw [done] at evaluated
  have named : (messagesOf run).map (fun found => found.2.id) = ["a", "b", "c"] := evaluated
  have length : (messagesOf run).length = 3 := by
    rw [← List.length_map, named]
    rfl
  obtain ⟨answers, reads, -, listed, -⟩ := pages (by rw [← counted, length]; decide) (by decide)
  obtain ⟨answer, shown, behind, answered, shape, items, more⟩ := page 5 (by decide)
  -- there is nothing behind the third message
  rw [List.drop_of_length_le (by rw [length]; decide)] at shape
  obtain ⟨rfl, rfl⟩ := List.append_eq_nil_iff.mp shape.symm
  refine ⟨answers, reads, ?_, answer, answered, List.forall₂_nil_right_iff.mp items, ?_⟩
  · rw [ids_of_shows listed, named]
    rfl
  · exact Bool.eq_false_iff.mpr fun told => more.mp told rfl

end MessageCatalog.Tools
