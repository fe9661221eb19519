import MessageCatalog.Proofs.Table.Runs
import MessageCatalog.Proofs.Text.Words

/-!
A table merged with its own entries. The texts of an entry are collapsed and its comment is trimmed
too, and neither changes what it has made. So a descriptor that is given the texts of its entry back
makes the same entry again, and merging it leaves every row of the table as it is.
-/

namespace MessageCatalog.Table

theorem put_of_lookup {id : String} {entry : Entry} {entries : List (String × Entry)}
    (found : entries.lookup id = some entry) : put id entry entries = entries := by
  induction entries with
  | nil => cases found
  | cons row rest ih =>
      obtain ⟨key, old⟩ := row
      rw [lookup_row] at found
      rw [put_row]
      by_cases same : key = id
      · subst same
        rw [if_pos rfl] at found ⊢
        rw [Option.some.inj found]
      · rw [if_neg (Ne.symm same)] at found
        rw [if_neg same, ih found]

theorem insert_of_get? {t : Table} {id : String} {entry : Entry}
    (found : t.get? id = some entry) : t.insert id entry = t := by
  rw [insert, put_of_lookup found]

theorem merge_of_get? {t : Table} {copies : List Descriptor}
    (found : ∀ d ∈ copies, t.get? d.id = some (entryOf d)) (space : Option String) :
    t.merge copies space = t := by
  induction copies using List.reverseRecOn with
  | nil => rfl
  | append_singleton before d ih =>
      have earlier := ih fun d member => found d (List.mem_append_left [_] member)
      rw [merge_concat, earlier, insert_of_get? (found d (by simp)), ite_self]

/-- The texts of an entry come back from the ways in which they are taken up. -/
structure IsSettled (entry : Entry) : Prop where
  value : Text.collapsed entry.value = entry.value
  comment : Text.collapsed (Text.trimmed entry.comment) = entry.comment

theorem isSettled_entryOf (d : Descriptor) : IsSettled (entryOf d) := by
  refine ⟨Text.collapsed_collapsed d.defaultMessage, ?_⟩
  unfold entryOf
  cases d.description with
  | none =>
      have nothing : Text.collapsed (Text.trimmed "") = "" := by decide
      exact nothing
  | some description =>
      have done := Text.trimmed_of_isTrimmed (Text.isTrimmed_trimmed description)
      calc Text.collapsed (Text.trimmed (Text.collapsed (Text.trimmed description)))
        _ = Text.collapsed (Text.collapsed (Text.trimmed (Text.trimmed description))) := by
            rw [Text.trimmed_collapsed]
        _ = Text.collapsed (Text.trimmed description) := by
            rw [Text.collapsed_collapsed, done]

theorem entryOf_of_isSettled {d : Descriptor} {entry : Entry} (settled : IsSettled entry)
    (same : ⟨d.defaultMessage, d.description.getD ""⟩ = entry) : entryOf d = entry := by
  subst same
  obtain ⟨id, description, message⟩ := d
  unfold entryOf
  rw [settled.value]
  cases description with
  | none => rfl
  | some description => exact congrArg (Entry.mk message) settled.comment

/-- The collapse of a text has its words with single spaces for all blanks, at the ends too, and no
other text does; a second one changes nothing, and it does not matter whether the text is trimmed
before or behind. So after any run of a table each value and comment in it is one line, and any
descriptors that give the values and comments of their ids back leave the table as it is. -/
theorem run_settled :
    (∀ text : String,
      (∀ out : String,
        Text.IsCollapseOf out.toList text.toList ↔ out = Text.collapsed text) ∧
        Text.collapsed (Text.collapsed text) = Text.collapsed text ∧
        Text.trimmed (Text.collapsed text) = Text.collapsed (Text.trimmed text)) ∧
      ∀ actions : List Action,
        (∀ id entry, (run actions).get? id = some entry →
          ∀ c ∈ Text.lineBreaks, c ∉ entry.value.toList ∧ c ∉ entry.comment.toList) ∧
        ∀ copies space,
          (∀ d ∈ copies,
            (run actions).get? d.id = some ⟨d.defaultMessage, d.description.getD ""⟩) →
            (run actions).merge copies space = run actions := by
  refine ⟨fun text => ⟨?_, Text.collapsed_collapsed text, Text.trimmed_collapsed text⟩, ?_⟩
  · intro out
    rw [Text.isCollapseOf_iff, Text.collapsed, ← String.toList_inj, String.toList_ofList]
  · intro actions
    constructor
    · intro id entry found
      obtain ⟨d, rfl⟩ := exists_entryOf found
      exact lineBreak_not_mem_entryOf d
    · intro copies space found
      refine merge_of_get? (fun d member => ?_) space
      obtain ⟨source, made⟩ := exists_entryOf (found d member)
      have settled := isSettled_entryOf source
      rw [found d member, entryOf_of_isSettled (made ▸ settled) rfl]

/-- A value keeps the space it starts with, and no comment may be given back as an empty one. -/
theorem run_settled_padded :
    let actions := [.merge [⟨"home.title", some " Title\tof\n the page ", " Welcome\r\n home"⟩,
      ⟨"app.name", none, "Catalog"⟩] none]
    let copies : List Descriptor := [⟨"app.name", none, "Catalog"⟩,
      ⟨"home.title", some "Title of the page", " Welcome home"⟩, ⟨"app.name", some "", "Catalog"⟩]
    (∀ d ∈ copies, (run actions).get? d.id = some ⟨d.defaultMessage, d.description.getD ""⟩) ∧
      (run actions).merge copies none = run actions := by
  intro actions copies
  have found : ∀ d ∈ copies,
      (run actions).get? d.id = some ⟨d.defaultMessage, d.description.getD ""⟩ := by
    decide
  exact ⟨found, (run_settled.2 actions).2 copies none found⟩

end MessageCatalog.Table
