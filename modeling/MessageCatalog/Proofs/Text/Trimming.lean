import Mathlib.Data.List.DropRight
import MessageCatalog.Text.Characters

/-!
What trimming leaves: a text without blanks at its ends, and such a text as it is.
-/

namespace MessageCatalog.Text

def IsTrimmed (text : String) : Prop :=
  (∀ c ∈ text.toList.head?, isBlank c = false) ∧ ∀ c ∈ text.toList.getLast?, isBlank c = false

theorem trimEnd_eq_rdropWhile (text : List Char) : trimEnd text = text.rdropWhile isBlank := by
  rfl

theorem trimEnd_blanks (text : List Char) :
    ∃ blanks, text = trimEnd text ++ blanks ∧ ∀ c ∈ blanks, isBlank c = true :=
  ⟨text.rtakeWhile isBlank, List.rdropWhile_append_rtakeWhile.symm,
    fun _ member => List.mem_rtakeWhile_imp member⟩

theorem trimEnd_append {blanks : List Char} (text : List Char)
    (blank : ∀ c ∈ blanks, isBlank c = true) : trimEnd (text ++ blanks) = trimEnd text := by
  rw [trimEnd, List.reverse_append, List.dropWhile_append_of_pos (by simpa using blank), trimEnd]

theorem head?_trimStart (text : List Char) : ∀ c ∈ (trimStart text).head?, isBlank c = false := by
  intro c found
  have stopped := text.head?_dropWhile_not isBlank
  rw [← trimStart, Option.mem_def.mp found] at stopped
  exact stopped

theorem getLast?_trimEnd (text : List Char) : ∀ c ∈ (trimEnd text).getLast?, isBlank c = false := by
  intro c found
  rw [trimEnd, List.getLast?_reverse] at found
  exact head?_trimStart text.reverse c found

theorem head?_trimEnd {text : List Char} {c : Char} (found : c ∈ (trimEnd text).head?) :
    c ∈ text.head? := by
  obtain ⟨after, split⟩ := text.rdropWhile_prefix isBlank
  rw [← trimEnd_eq_rdropWhile] at split
  rw [← split, Option.mem_def, List.head?_append, Option.mem_def.mp found]
  rfl

theorem isTrimmed_trimmed (text : String) : IsTrimmed (trimmed text) := by
  rw [IsTrimmed, trimmed, String.toList_ofList, trim]
  exact ⟨fun c found => head?_trimStart _ c (head?_trimEnd found), getLast?_trimEnd _⟩

theorem trimmed_of_isTrimmed {text : String} (done : IsTrimmed text) : trimmed text = text := by
  have starts : trimStart text.toList = text.toList :=
    List.dropWhile_eq_self_iff.mpr fun nonempty => by
      have head := done.1 _ (List.head?_eq_some_head (List.ne_nil_of_length_pos nonempty))
      rw [List.getElem_zero_eq_head]
      simpa using head
  have ends : trimEnd text.toList = text.toList :=
    List.rdropWhile_eq_self_iff.mpr fun nonempty => by
      simpa using done.2 _ (List.getLast?_eq_some_getLast nonempty)
  rw [trimmed, trim, starts, ends, String.ofList_toList]

end MessageCatalog.Text
