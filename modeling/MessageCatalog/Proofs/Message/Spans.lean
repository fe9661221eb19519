import MessageCatalog.Message.Parser
import MessageCatalog.Text.Lines

/-!
The text between two cursors, and what the readers of single tokens do with it. A reader that
succeeds has moved over a text; a longest run is found where its text is followed by a character
that does not belong to it.
-/

namespace MessageCatalog.Message

theorem bind_eq_ok_iff {α β ε : Type} {first : Except ε α} {next : α → Except ε β} {value : β} :
    first >>= next = .ok value ↔ ∃ found, first = .ok found ∧ next found = .ok value := by
  cases first with
  | error e => simp [bind, Except.bind]
  | ok found => simp [bind, Except.bind]

theorem bind_eq_error_iff {α β ε : Type} {first : Except ε α} {next : α → Except ε β} {e : ε} :
    first >>= next = .error e ↔
      first = .error e ∨ ∃ found, first = .ok found ∧ next found = .error e := by
  cases first with
  | error e => simp [bind, Except.bind]
  | ok found => simp [bind, Except.bind]

theorem ok_bind {α β ε : Type} (found : α) (next : α → Except ε β) :
    (Except.ok found : Except ε α) >>= next = next found := by
  rfl

attribute [ext] Cursor

namespace Cursor

/-- The text leads from the first cursor to the second one. -/
structure Spans (c : Cursor) (text : List Char) (d : Cursor) : Prop where
  rest : c.rest = text ++ d.rest
  offset : d.offset = c.offset + Text.byteLength text

namespace Spans

theorem refl (c : Cursor) : c.Spans [] c :=
  ⟨rfl, by simp⟩

theorem trans {c d e : Cursor} {before after : List Char} (first : c.Spans before d)
    (second : d.Spans after e) : c.Spans (before ++ after) e := by
  refine ⟨?_, ?_⟩
  · rw [first.rest, second.rest, List.append_assoc]
  · rw [second.offset, first.offset]
    simp [Nat.add_assoc]

theorem split {c e : Cursor} {before after : List Char} (spans : c.Spans (before ++ after) e) :
    ∃ d, c.Spans before d ∧ d.Spans after e := by
  refine ⟨⟨c.offset + Text.byteLength before, after ++ e.rest⟩, ⟨?_, rfl⟩, rfl, ?_⟩
  · rw [spans.rest, List.append_assoc]
  · rw [spans.offset]
    simp [Nat.add_assoc]

theorem eq_of_nil {c d : Cursor} (spans : c.Spans [] d) : d = c := by
  apply Cursor.ext
  · simpa using spans.offset
  · simpa using spans.rest.symm

theorem unique {c d e : Cursor} {text : List Char} (first : c.Spans text d)
    (second : c.Spans text e) : d = e := by
  apply Cursor.ext
  · rw [first.offset, second.offset]
  · have same := first.rest.symm.trans second.rest
    simpa using same

theorem length_eq {c d : Cursor} {text : List Char} (spans : c.Spans text d) :
    c.rest.length = text.length + d.rest.length := by
  rw [spans.rest, List.length_append]

theorem next {c : Cursor} {head : Char} {tail : List Char} (rest : c.rest = head :: tail) :
    c.Spans [head] c.next := by
  cases c with
  | mk offset text =>
      simp only at rest
      subst rest
      exact ⟨rfl, by simp [Cursor.next]⟩

theorem cons {c d : Cursor} {head : Char} {tail : List Char}
    (spans : c.Spans (head :: tail) d) :
    c.rest = head :: (tail ++ d.rest) ∧ c.next.Spans tail d := by
  have shown : c.rest = head :: (tail ++ d.rest) := spans.rest
  have whole : c.Spans ([head] ++ tail) d := spans
  obtain ⟨m, first, second⟩ := whole.split
  refine ⟨shown, ?_⟩
  rwa [unique (next shown) first]

end Spans

def Reaches (c d : Cursor) : Prop :=
  ∃ text, c.Spans text d

theorem Reaches.refl (c : Cursor) : c.Reaches c :=
  ⟨[], .refl c⟩

theorem Reaches.trans {c d e : Cursor} (first : c.Reaches d) (second : d.Reaches e) :
    c.Reaches e := by
  obtain ⟨before, firstSpans⟩ := first
  obtain ⟨after, secondSpans⟩ := second
  exact ⟨before ++ after, firstSpans.trans secondSpans⟩

theorem Reaches.length_le {c d : Cursor} (reached : c.Reaches d) :
    d.rest.length ≤ c.rest.length := by
  obtain ⟨text, spans⟩ := reached
  have length := spans.length_eq
  omega

theorem reaches_next (c : Cursor) : c.Reaches c.next := by
  cases shown : c.rest with
  | nil =>
      have same : c.next = c := by simp [Cursor.next, shown]
      rw [same]
      exact .refl c
  | cons head tail => exact ⟨[head], .next shown⟩

def StopsRun (accepts : Char → Bool) (c : Cursor) : Prop :=
  ∀ head ∈ c.rest.head?, accepts head = false

theorem stopsRun_cons {accepts : Char → Bool} {c : Cursor} {head : Char} {tail : List Char}
    (rest : c.rest = head :: tail) (refused : accepts head = false) : c.StopsRun accepts := by
  intro found member
  simp only [rest, List.head?_cons, Option.mem_def, Option.some.injEq] at member
  rwa [← member]

theorem takeRun_nil {accepts : Char → Bool} {c : Cursor} (stops : c.StopsRun accepts) :
    c.takeRun accepts = ([], c) := by
  cases c with
  | mk offset rest =>
      cases rest with
      | nil => rfl
      | cons head tail =>
          have refused : accepts head = false := stops head rfl
          simp [Cursor.takeRun, Message.takeRun, refused]

theorem takeRun_cons {accepts : Char → Bool} {c : Cursor} {head : Char} {tail : List Char}
    (rest : c.rest = head :: tail) (accepted : accepts head = true) :
    c.takeRun accepts = (head :: (c.next.takeRun accepts).1, (c.next.takeRun accepts).2) := by
  cases c with
  | mk offset text =>
      simp only at rest
      subst rest
      simp [Cursor.takeRun, Message.takeRun, Cursor.next, accepted]

/-- A longest run lies between its two cursors, holds accepted characters only, and cannot be
continued. -/
theorem takeRun_spec (accepts : Char → Bool) (c : Cursor) :
    c.Spans (c.takeRun accepts).1 (c.takeRun accepts).2 ∧
      (∀ x ∈ (c.takeRun accepts).1, accepts x = true) ∧
      (c.takeRun accepts).2.StopsRun accepts := by
  generalize size : c.rest.length = length
  induction length generalizing c with
  | zero =>
      have empty : c.rest = [] := List.length_eq_zero_iff.mp size
      have stops : c.StopsRun accepts := by simp [StopsRun, empty]
      rw [takeRun_nil stops]
      exact ⟨.refl c, by simp, stops⟩
  | succ length ih =>
      cases shown : c.rest with
      | nil => simp [shown] at size
      | cons head tail =>
          cases accepted : accepts head with
          | false =>
              have stops := stopsRun_cons shown accepted
              rw [takeRun_nil stops]
              exact ⟨.refl c, by simp, stops⟩
          | true =>
              have step := Spans.next shown
              have shorter := step.length_eq
              simp only [List.length_singleton] at shorter
              obtain ⟨spans, holds, stops⟩ := ih c.next (by omega)
              rw [takeRun_cons shown accepted]
              refine ⟨step.trans spans, ?_, stops⟩
              intro x member
              rcases List.mem_cons.mp member with same | later
              · rwa [same]
              · exact holds x later

theorem takeRun_eq {accepts : Char → Bool} {c d : Cursor} {run : List Char}
    (spans : c.Spans run d) (holds : ∀ x ∈ run, accepts x = true) (stops : d.StopsRun accepts) :
    c.takeRun accepts = (run, d) := by
  induction run generalizing c with
  | nil =>
      rw [spans.eq_of_nil] at stops ⊢
      exact takeRun_nil stops
  | cons head tail ih =>
      obtain ⟨shown, later⟩ := spans.cons
      rw [takeRun_cons shown (holds head (by simp)),
        ih later (fun x member => holds x (by simp [member]))]

theorem skipSpace_of_stops {c : Cursor} (stops : c.StopsRun isSpace) : c.skipSpace = c := by
  rw [Cursor.skipSpace, takeRun_nil stops]

theorem skipSpace_of_head {c : Cursor} {head : Char} {tail : List Char} (rest : c.rest = head :: tail)
    (visible : isSpace head = false) : c.skipSpace = c :=
  skipSpace_of_stops (stopsRun_cons rest visible)

theorem skipSpace_skipSpace (c : Cursor) : c.skipSpace.skipSpace = c.skipSpace :=
  skipSpace_of_stops (takeRun_spec isSpace c).2.2

theorem skipSpace_of_spaces {c d : Cursor} {text : List Char} (spans : c.Spans text d)
    (spaces : ∀ x ∈ text, isSpace x = true) : c.skipSpace = d.skipSpace := by
  obtain ⟨later, holds, stops⟩ := takeRun_spec isSpace d
  have whole := takeRun_eq (spans.trans later) (by
    intro x member
    rcases List.mem_append.mp member with first | second
    · exact spaces x first
    · exact holds x second) stops
  rw [Cursor.skipSpace, whole, Cursor.skipSpace]

theorem reaches_takeRun (accepts : Char → Bool) (c : Cursor) :
    c.Reaches (c.takeRun accepts).2 :=
  ⟨_, (takeRun_spec accepts c).1⟩

theorem reaches_skipSpace (c : Cursor) : c.Reaches c.skipSpace :=
  reaches_takeRun isSpace c

end Cursor

end MessageCatalog.Message
