import Mathlib.Data.List.Induction
import MessageCatalog.Proofs.Text.Collapsing
import MessageCatalog.Proofs.Text.UnitOrder
import MessageCatalog.Table

/-!
Runs of a table: any number of merges, each with a namespace of its own, and resets. The entry of an
id is that of the last descriptor with this id that a merge behind the last reset has admitted, and
the catalog text lists these entries by the units of their ids, so it does not depend on the order
in which they were found.
-/

namespace MessageCatalog.Table

inductive Action where
  | merge (descriptors : List Descriptor) (space : Option String)
  | reset

def Action.isMerge : Action → Bool
  | .merge _ _ => true
  | .reset => false

def Action.admitted : Action → List Descriptor
  | .merge descriptors space => Table.admitted space descriptors
  | .reset => []

def act (t : Table) : Action → Table
  | .merge descriptors space => t.merge descriptors space
  | .reset => .empty

def run (actions : List Action) : Table :=
  actions.foldl act .empty

def sinceReset (actions : List Action) : List Action :=
  (actions.reverse.takeWhile Action.isMerge).reverse

def lastOf (id : String) (descriptors : List Descriptor) : Option Descriptor :=
  descriptors.reverse.find? fun d => d.id == id

/-- The last descriptor of an id that was admitted since the last reset. -/
def lastAdmitted (actions : List Action) (id : String) : Option Descriptor :=
  lastOf id ((sinceReset actions).flatMap Action.admitted)

theorem lookup_row (key found : String) (entry : Entry) (rest : List (String × Entry)) :
    ((found, entry) :: rest).lookup key =
      if key = found then some entry else rest.lookup key := by
  rw [List.lookup_cons]
  by_cases same : key = found
  · simp [same]
  · simp [same, beq_false_of_ne same]

theorem put_row (key old : String) (entry value : Entry) (rest : List (String × Entry)) :
    put key entry ((old, value) :: rest) =
      if old = key then (key, entry) :: rest else (old, value) :: put key entry rest := by
  simp [put]

theorem lookup_put (id key : String) (entry : Entry) (entries : List (String × Entry)) :
    (put key entry entries).lookup id = if id = key then some entry else entries.lookup id := by
  induction entries with
  | nil => exact lookup_row id key entry []
  | cons row rest ih =>
      obtain ⟨old, value⟩ := row
      rw [put_row, lookup_row]
      by_cases found : old = key
      · rw [if_pos found, lookup_row, found]
        split <;> rfl
      · rw [if_neg found, lookup_row, ih]
        by_cases same : id = key
        · rw [if_pos same, if_pos same, if_neg (same ▸ Ne.symm found)]
        · rw [if_neg same, if_neg same]

theorem get?_insert (t : Table) (id key : String) (entry : Entry) :
    (t.insert key entry).get? id = if id = key then some entry else t.get? id :=
  lookup_put id key entry t.entries

def Distinct (t : Table) : Prop :=
  (t.entries.map Prod.fst).Nodup

theorem mem_keys_put {id key : String} {entry : Entry} {entries : List (String × Entry)} :
    id ∈ (put key entry entries).map Prod.fst ↔ id = key ∨ id ∈ entries.map Prod.fst := by
  induction entries with
  | nil => simp [put]
  | cons row rest ih =>
      obtain ⟨old, value⟩ := row
      rw [put_row]
      by_cases found : old = key
      · simp [found]
      · rw [if_neg found, List.map_cons, List.mem_cons, ih, List.map_cons, List.mem_cons]
        exact or_left_comm

theorem distinct_insert {t : Table} (distinct : t.Distinct) (key : String) (entry : Entry) :
    (t.insert key entry).Distinct := by
  unfold Distinct insert at *
  generalize t.entries = entries at *
  induction entries with
  | nil => simp [put]
  | cons row rest ih =>
      obtain ⟨old, value⟩ := row
      obtain ⟨fresh, others⟩ := List.nodup_cons.mp distinct
      rw [put_row]
      by_cases found : old = key
      · rw [if_pos found]
        exact found ▸ distinct
      · rw [if_neg found, List.map_cons, List.nodup_cons, mem_keys_put]
        exact ⟨fun member => member.elim found fresh, ih others⟩

theorem mem_entries_iff {t : Table} (distinct : t.Distinct) (id : String) (entry : Entry) :
    (id, entry) ∈ t.entries ↔ t.get? id = some entry := by
  unfold Distinct get? at *
  generalize t.entries = entries at *
  induction entries with
  | nil => simp
  | cons row rest ih =>
      obtain ⟨old, value⟩ := row
      obtain ⟨fresh, others⟩ := List.nodup_cons.mp distinct
      rw [List.mem_cons, lookup_row, ih others]
      by_cases same : id = old
      · subst same
        have absent : rest.lookup id ≠ some entry := fun found =>
          fresh (List.mem_map.mpr ⟨(id, entry), (ih others).mpr found, rfl⟩)
        simp [absent, eq_comm]
      · simp [same]

theorem lineBreak_not_mem_entryOf (d : Descriptor) :
    ∀ c ∈ Text.lineBreaks, c ∉ (entryOf d).value.toList ∧ c ∉ (entryOf d).comment.toList := by
  intro c ending
  refine ⟨Text.lineBreak_not_mem_collapsed d.defaultMessage c ending, ?_⟩
  unfold entryOf
  cases d.description with
  | none => simp
  | some description => exact Text.lineBreak_not_mem_collapsed _ c ending

/-! ### Merges -/

theorem mergeCounted_concat (t : Table) (before : List Descriptor) (d : Descriptor)
    (space : Option String) :
    t.mergeCounted (before ++ [d]) space =
      if inNamespace d.id space then
        ((t.merge before space).insert d.id (entryOf d), (t.mergeCounted before space).2 + 1)
      else (t.merge before space, (t.mergeCounted before space).2) :=
  List.foldl_append

theorem merge_concat (t : Table) (before : List Descriptor) (d : Descriptor)
    (space : Option String) :
    t.merge (before ++ [d]) space =
      if inNamespace d.id space then (t.merge before space).insert d.id (entryOf d)
      else t.merge before space := by
  rw [merge, mergeCounted_concat]
  split <;> rfl

theorem admitted_concat (space : Option String) (before : List Descriptor) (d : Descriptor) :
    admitted space (before ++ [d]) =
      if inNamespace d.id space then admitted space before ++ [d] else admitted space before := by
  rw [admitted, List.filter_append, List.filter_cons, List.filter_nil]
  split <;> simp [admitted]

theorem mergeCounted_count (t : Table) (descriptors : List Descriptor) (space : Option String) :
    (t.mergeCounted descriptors space).2 = (admitted space descriptors).length := by
  induction descriptors using List.reverseRecOn with
  | nil => rfl
  | append_singleton before d ih =>
      rw [mergeCounted_concat, admitted_concat]
      split
      · rw [List.length_append, ih]
        rfl
      · exact ih

theorem distinct_merge {t : Table} (distinct : t.Distinct) (descriptors : List Descriptor)
    (space : Option String) : (t.merge descriptors space).Distinct := by
  induction descriptors using List.reverseRecOn with
  | nil => exact distinct
  | append_singleton before d ih =>
      rw [merge_concat]
      split
      · exact distinct_insert ih d.id (entryOf d)
      · exact ih

theorem lastOf_append (id : String) (before after : List Descriptor) :
    lastOf id (before ++ after) = (lastOf id after).or (lastOf id before) := by
  rw [lastOf, List.reverse_append, List.find?_append]
  rfl

theorem get?_merge (t : Table) (descriptors : List Descriptor) (space : Option String)
    (id : String) :
    (t.merge descriptors space).get? id =
      ((lastOf id (admitted space descriptors)).map entryOf).or (t.get? id) := by
  induction descriptors using List.reverseRecOn with
  | nil => rfl
  | append_singleton before d ih =>
      rw [merge_concat, admitted_concat]
      split
      · rw [get?_insert, ih, lastOf_append]
        by_cases same : id = d.id
        · simp [lastOf, same]
        · simp [lastOf, same, Ne.symm same]
      · exact ih

theorem run_concat (actions : List Action) (last : Action) :
    run (actions ++ [last]) = (run actions).act last :=
  List.foldl_append

theorem sinceReset_merge (actions : List Action) (descriptors : List Descriptor)
    (space : Option String) :
    sinceReset (actions ++ [.merge descriptors space]) =
      sinceReset actions ++ [.merge descriptors space] := by
  rw [sinceReset, List.reverse_append, List.reverse_singleton, List.singleton_append,
    List.takeWhile_cons_of_pos rfl, List.reverse_cons, sinceReset]

theorem sinceReset_reset (actions : List Action) : sinceReset (actions ++ [.reset]) = [] := by
  rw [sinceReset, List.reverse_append, List.reverse_singleton, List.singleton_append,
    List.takeWhile_cons_of_neg (by decide), List.reverse_nil]

theorem lastAdmitted_merge (actions : List Action) (descriptors : List Descriptor)
    (space : Option String) (id : String) :
    lastAdmitted (actions ++ [.merge descriptors space]) id =
      (lastOf id (admitted space descriptors)).or (lastAdmitted actions id) := by
  rw [lastAdmitted, sinceReset_merge, List.flatMap_append, lastOf_append, lastAdmitted]
  simp [Action.admitted]

theorem distinct_run (actions : List Action) : (run actions).Distinct := by
  induction actions using List.reverseRecOn with
  | nil => exact List.nodup_nil
  | append_singleton before last ih =>
      rw [run_concat]
      cases last with
      | merge descriptors space => exact distinct_merge ih descriptors space
      | reset => exact List.nodup_nil

theorem get?_run (actions : List Action) (id : String) :
    (run actions).get? id = (lastAdmitted actions id).map entryOf := by
  induction actions using List.reverseRecOn with
  | nil => rfl
  | append_singleton before last ih =>
      rw [run_concat]
      cases last with
      | merge descriptors space =>
          rw [lastAdmitted_merge, Option.map_or, ← ih]
          exact get?_merge _ descriptors space id
      | reset =>
          rw [lastAdmitted, sinceReset_reset]
          rfl

theorem exists_entryOf {actions : List Action} {id : String} {entry : Entry}
    (found : (run actions).get? id = some entry) : ∃ d, entryOf d = entry := by
  rw [get?_run] at found
  obtain ⟨d, _, same⟩ := Option.map_eq_some_iff.mp found
  exact ⟨d, same⟩

/-! ### The catalog text -/

/-- The rows of a catalog text: every entry once, with the ids strictly ascending by their units. -/
structure Lists (t : Table) (rows : List (String × Entry)) : Prop where
  ascending : rows.Pairwise fun row next => Text.unitsOf row.1 < Text.unitsOf next.1
  complete : ∀ id entry, (id, entry) ∈ rows ↔ t.get? id = some entry

theorem sorted_perm (t : Table) : t.sorted.Perm t.entries :=
  List.mergeSort_perm _ _

theorem sorted_ordered (t : Table) :
    t.sorted.Pairwise fun row next => (Text.unitOrder row.1 next.1).isLE = true := by
  unfold sorted
  apply List.pairwise_mergeSort
  · intro first second third
    exact Text.unitOrder_trans first.1 second.1 third.1
  · intro first second
    exact Text.unitOrder_total first.1 second.1

theorem lists_sorted {t : Table} (distinct : t.Distinct) : t.Lists t.sorted := by
  constructor
  · have nodup : (t.sorted.map Prod.fst).Nodup :=
      ((sorted_perm t).map Prod.fst).nodup_iff.mpr distinct
    have different : t.sorted.Pairwise fun row next => row.1 ≠ next.1 := List.pairwise_map.mp nodup
    exact ((sorted_ordered t).and different).imp fun pair => Text.unitsOf_lt_of_ne pair.1 pair.2
  · intro id entry
    rw [(sorted_perm t).mem_iff, mem_entries_iff distinct]

theorem Lists.unique {t : Table} {rows others : List (String × Entry)} (first : t.Lists rows)
    (second : t.Lists others) : rows = others := by
  have nodup (list : List (String × Entry)) (lists : t.Lists list) : list.Nodup :=
    lists.ascending.imp fun less same => by
      rw [same] at less
      exact List.lt_irrefl _ less
  have perm : rows.Perm others :=
    (List.perm_ext_iff_of_nodup (nodup rows first) (nodup others second)).mpr fun row => by
      rw [first.complete, second.complete]
  exact perm.eq_of_pairwise (fun _ _ _ _ less greater => absurd greater (List.lt_asymm less))
    first.ascending second.ascending

theorem render_eq_of_get? {t u : Table} (distinct : t.Distinct) (distinct' : u.Distinct)
    (same : ∀ id, t.get? id = u.get? id) : t.render = u.render := by
  have lists := lists_sorted distinct'
  have rows : t.sorted = u.sorted :=
    (lists_sorted distinct).unique ⟨lists.ascending, fun id entry => by
      rw [lists.complete, same]⟩
  rw [render, render, rows]

theorem render_eq (t : Table) :
    t.render = String.intercalate "\n" (t.sorted.map fun row =>
      (if row.2.comment = "" then "#" else "# " ++ row.2.comment) ++ "\n" ++
        row.1 ++ " = " ++ row.2.value ++ "\n") := by
  simp [render, block]

/-- After any run: an id has the texts of its last admitted descriptor on one line each, and no
other id has an entry; a merge counts what it admits; the catalog text has one block for each entry,
with the ids strictly ascending by their units; and it says nothing else about the run. -/
theorem run_catalog (actions : List Action) :
    (∀ id, (run actions).get? id = (lastAdmitted actions id).map fun d =>
        { value := Text.collapsed d.defaultMessage
          comment := (d.description.map fun text => Text.collapsed (Text.trimmed text)).getD "" }) ∧
      (∀ descriptors space, (run actions).mergeCounted descriptors space =
        (run (actions ++ [.merge descriptors space]),
          (descriptors.filter fun d => inNamespace d.id space).length)) ∧
      (∃ rows, (run actions).Lists rows ∧
        (run actions).render = String.intercalate "\n" (rows.map fun row =>
          (if row.2.comment = "" then "#" else "# " ++ row.2.comment) ++ "\n" ++
            row.1 ++ " = " ++ row.2.value ++ "\n")) ∧
      ∀ others, (∀ id, lastAdmitted actions id = lastAdmitted others id) →
        (run actions).render = (run others).render := by
  have distinct := distinct_run actions
  refine ⟨get?_run actions, ?_, ?_, ?_⟩
  · intro descriptors space
    rw [run_concat]
    exact Prod.ext rfl (mergeCounted_count _ descriptors space)
  · exact ⟨(run actions).sorted, lists_sorted distinct, render_eq (run actions)⟩
  · intro others agree
    refine render_eq_of_get? distinct (distinct_run others) ?_
    intro id
    rw [get?_run, get?_run, agree]

def homeTitle : Descriptor :=
  ⟨"home.title", some " Title\tof the page ", "Welcome\n home"⟩

def appName : Descriptor :=
  ⟨"app.name", none, "Catalog"⟩

theorem run_catalog_reordered :
    let earlier := [.merge [⟨"home.title", none, "Old"⟩] none, .merge [homeTitle, appName] none]
    let later := [.merge [⟨"gone", none, "Gone"⟩] none, .reset, .merge [appName] (some "app"),
      .merge [⟨"app.name", none, "Other"⟩, homeTitle] (some "home")]
    (∀ id, lastAdmitted earlier id = lastAdmitted later id) ∧
      (run earlier).render = (run later).render := by
  intro earlier later
  have agree : ∀ id, lastAdmitted earlier id = lastAdmitted later id := by
    intro id
    have found : lastAdmitted earlier id =
        lastOf id [⟨"home.title", none, "Old"⟩, homeTitle, appName] :=
      congrArg (lastOf id) (by decide)
    have foundLater : lastAdmitted later id = lastOf id [appName, homeTitle] :=
      congrArg (lastOf id) (by decide)
    rw [found, foundLater]
    simp only [lastOf, homeTitle, appName, List.reverse_cons, List.reverse_nil, List.nil_append,
      List.cons_append, List.find?_cons]
    by_cases name : id = "app.name"
    · subst name
      decide
    · by_cases title : id = "home.title"
      · subst title
        decide
      · simp [beq_false_of_ne (Ne.symm name), beq_false_of_ne (Ne.symm title)]
  exact ⟨agree, (run_catalog earlier).2.2.2 later agree⟩

end MessageCatalog.Table
