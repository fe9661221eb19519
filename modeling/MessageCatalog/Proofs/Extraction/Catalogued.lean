import Mathlib.Data.List.Nodup
import MessageCatalog.Proofs.Extraction.Agreement
import MessageCatalog.Proofs.Message.Collapsed
import MessageCatalog.Proofs.Table.Runs

/-!
What the table has of the messages of a source. The message of a descriptor is collapsed as a text,
and is still read as the same message, up to white space in its texts, where foreign white space
stands in literal text only. In a name it is a character like any other to the readers, and the
collapse makes it a space.
-/

namespace MessageCatalog

theorem Table.lastOf_of_mem {d : Descriptor} {descriptors : List Descriptor}
    (distinct : (descriptors.map Descriptor.id).Nodup) (member : d ∈ descriptors) :
    lastOf d.id descriptors = some d := by
  unfold lastOf
  cases found : descriptors.reverse.find? fun other => other.id == d.id with
  | none =>
      have missing := List.find?_eq_none.mp found d (List.mem_reverse.mpr member)
      simp at missing
  | some other =>
      have same : other.id = d.id := by simpa using List.find?_some found
      have other_mem := List.mem_reverse.mp (List.mem_of_find?_eq_some found)
      rw [List.inj_on_of_nodup_map distinct other_mem member same]

theorem Table.get?_merge_of_mem {d : Descriptor} {descriptors : List Descriptor}
    {space : Option String} (distinct : (descriptors.map Descriptor.id).Nodup)
    (member : d ∈ descriptors) (inSpace : inNamespace d.id space = true) (t : Table) :
    (t.merge descriptors space).get? d.id = some (entryOf d) := by
  have kept : (admitted space descriptors).map Descriptor.id |>.Nodup :=
    distinct.sublist (List.filter_sublist.map _)
  rw [get?_merge, lastOf_of_mem kept (List.mem_filter.mpr ⟨member, inSpace⟩)]
  rfl

namespace Extraction

variable {options : Options} {source : Script.Source} {found : Extracted}

theorem agrees_of_extract {validate : Message.Validator}
    (success : extract options validate source = .ok found) : found.Agrees validate := by
  have consistent : (walk options validate source).Consistent validate :=
    consistent_runSteps (t := .ofSource options validate source) _ _
      (consistent_start validate options)
  rw [extract] at success
  split at success
  · cases success
  · cases success
    exact consistent.agrees

/-- Whatever the table had before: of the messages of a source that it takes up, each that can be
read, and has foreign white space in literal text only, has a value that can be read too. It is the
collapsed text, and read as a message with the same arguments in the same places, their names,
formats, styles, offsets and selectors the same; only texts differ, and only in white space. -/
theorem merged_value_reads (success : extract options Message.canonicalize source = .ok found)
    {d : Descriptor} (member : d ∈ found.messages) {elements : List Message.Element}
    (read : Message.parse d.defaultMessage = .ok elements)
    (plain : Message.IsPlain d.defaultMessage) (t : Table) {space : Option String}
    (inSpace : Table.inNamespace d.id space = true) :
    ∃ entry later, (t.merge found.messages space).get? d.id = some entry ∧
      entry.value = Text.collapsed d.defaultMessage ∧ Message.parse entry.value = .ok later ∧
      Message.tidyElements later = Message.tidyElements elements := by
  obtain ⟨later, reads, same⟩ := Message.parse_collapsed read plain
  have entry := Table.get?_merge_of_mem (agrees_of_extract success).distinct member inSpace t
  exact ⟨Table.entryOf d, later, entry, rfl, reads, same⟩

def messageSource (message : String) : Script.Source :=
  let length := Text.byteLength message.toList
  { file := "src/app.tsx"
    text := ("import \x7b defineMessages \x7d from \"react-intl\";\n" ++
      "defineMessages(\x7b m: \x7b id: \"m\", defaultMessage: \"" ++ message ++
      "\" \x7d \x7d);\n").toList
    module := ⟨[.imports ⟨"react-intl", false, [⟨"defineMessages", "defineMessages", false⟩]⟩,
      .part (.expr (.call 45 (.ident 45 "defineMessages") [.plain (.object ⟨60, length + 98⟩
        [.keyed (.name 62 "m") (.object ⟨65, length + 96⟩
          [.keyed (.name 67 "id") (.literal 71 (.text "m")),
            .keyed (.name 76 "defaultMessage") (.literal 92 (.text message))])])] []))]⟩ }

def messageOptions : Options :=
  ⟨"react-intl", [], [], ["defineMessages"], false⟩

theorem isOk_parse_iff {text : String} :
    (Message.parse text).isOk = true ↔ ∃ elements, Message.parse text = .ok elements := by
  cases Message.parse text <;> simp [Except.isOk, Except.toBool]

def nestedMessage : String :=
  "Seit\u00a0 \x7bn, plural, one \x7b\u00a0Tag\x7d other \x7b#\u2003 Tage\x7d\x7d"

theorem merged_value_reads_nested :
    let d : Descriptor := ⟨"m", none, nestedMessage⟩
    extract messageOptions Message.canonicalize (messageSource nestedMessage) =
        .ok ⟨[d], [], [.replaceDescriptor ⟨65, 145⟩ "m" nestedMessage]⟩ ∧
      Message.IsPlain nestedMessage ∧ Table.inNamespace "m" none = true ∧
      ∃ elements entry later, Message.parse nestedMessage = .ok elements ∧
        (Table.empty.merge [d] none).get? "m" = some entry ∧
        entry.value = "Seit \x7bn, plural, one \x7b Tag\x7d other \x7b# Tage\x7d\x7d" ∧
        Message.parse entry.value = .ok later ∧
        Message.tidyElements later = Message.tidyElements elements := by
  intro d
  have success : extract messageOptions Message.canonicalize (messageSource nestedMessage) =
      .ok ⟨[d], [], [.replaceDescriptor ⟨65, 145⟩ "m" nestedMessage]⟩ := by
    decide +kernel
  have plain : Message.IsPlain nestedMessage := by decide +kernel
  obtain ⟨elements, read⟩ := isOk_parse_iff.mp
    (show (Message.parse nestedMessage).isOk = true by decide +kernel)
  obtain ⟨entry, later, merged, value, reads, same⟩ :=
    merged_value_reads success (List.mem_singleton_self d) read plain .empty
      (show Table.inNamespace d.id none = true from rfl)
  refine ⟨success, plain, rfl, elements, entry, later, read, merged, ?_, reads, same⟩
  rw [value]
  decide +kernel

/-- A name with a no-break space is a name, and the collapse makes two names of it. -/
theorem merged_value_unreadable :
    let d : Descriptor := ⟨"m", none, "\x7ba\u00a0b\x7d"⟩
    extract messageOptions Message.canonicalize (messageSource d.defaultMessage) =
        .ok ⟨[d], [], [.replaceDescriptor ⟨65, 102⟩ "m" d.defaultMessage]⟩ ∧
      (∃ elements, Message.parse d.defaultMessage = .ok elements) ∧
      ∃ entry, (Table.empty.merge [d] none).get? "m" = some entry ∧
        ∀ elements, Message.parse entry.value ≠ .ok elements := by
  intro d
  refine ⟨by decide +kernel, isOk_parse_iff.mp (by decide +kernel),
    ⟨"\x7ba b\x7d", ""⟩, by decide +kernel, fun elements read => ?_⟩
  have refused : (Message.parse "\x7ba b\x7d").isOk = false := by decide +kernel
  rw [isOk_parse_iff.mpr ⟨elements, read⟩] at refused
  cases refused

end Extraction

end MessageCatalog
