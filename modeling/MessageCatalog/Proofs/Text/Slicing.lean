import MessageCatalog.Text.Lines

/-!
Texts that are cut at byte offsets. An offset cuts a text where it is the length of a part in front,
and a range of bytes lies in a text where both its ends do so.
-/

namespace MessageCatalog.Text

variable {text before after part : List Char} {offset start stop : Nat}

theorem eq_nil_of_byteLength (empty : byteLength text = 0) : text = [] := by
  cases text with
  | nil => rfl
  | cons head rest =>
      have positive := head.utf8Size_pos
      rw [byteLength_cons] at empty
      omega

theorem splitAtByte?_append (before after : List Char) :
    splitAtByte? (byteLength before) (before ++ after) = some (before, after) := by
  induction before with
  | nil => rw [byteLength_nil, List.nil_append, splitAtByte?]
  | cons head rest ih =>
      have positive := head.utf8Size_pos
      obtain ⟨offset, long⟩ : ∃ offset, byteLength (head :: rest) = offset + 1 :=
        Nat.exists_eq_add_one_of_ne_zero (by rw [byteLength_cons]; omega)
      rw [byteLength_cons] at long
      have fits : head.utf8Size ≤ offset + 1 := by omega
      have left : offset + 1 - head.utf8Size = byteLength rest := by omega
      rw [byteLength_cons, long, List.cons_append, splitAtByte?, if_pos fits, left, ih]
      rfl

theorem eq_of_byteLength {before' after' : List Char} (same : before ++ after = before' ++ after')
    (long : byteLength before = byteLength before') : before = before' ∧ after = after' := by
  have split := splitAtByte?_append before after
  rw [same, long, splitAtByte?_append] at split
  cases split
  exact ⟨rfl, rfl⟩

theorem of_splitAtByte? (split : splitAtByte? offset text = some (before, after)) :
    text = before ++ after ∧ byteLength before = offset := by
  fun_induction splitAtByte? offset text generalizing before with
  | case1 text =>
      cases split
      exact ⟨rfl, rfl⟩
  | case2 offset => cases split
  | case3 offset head rest fits ih =>
      obtain ⟨⟨front, behind⟩, found, same⟩ := Option.map_eq_some_iff.mp split
      cases same
      obtain ⟨rfl, long⟩ := ih found
      exact ⟨rfl, by rw [byteLength_cons]; omega⟩
  | case4 offset head rest wide => cases split

theorem slice?_eq_some_iff :
    slice? start stop text = some part ↔
      ∃ before after, text = before ++ (part ++ after) ∧ byteLength before = start ∧
        start + byteLength part = stop := by
  unfold slice?
  constructor
  · intro sliced
    split at sliced
    · rename_i ordered
      obtain ⟨⟨before, behind⟩, front, sliced⟩ := Option.bind_eq_some_iff.mp sliced
      obtain ⟨⟨found, after⟩, back, sliced⟩ := Option.bind_eq_some_iff.mp sliced
      cases sliced
      obtain ⟨rfl, reached⟩ := of_splitAtByte? front
      obtain ⟨rfl, long⟩ := of_splitAtByte? back
      exact ⟨before, after, rfl, reached, by omega⟩
    · cases sliced
  · rintro ⟨before, after, rfl, rfl, rfl⟩
    rw [if_pos (Nat.le_add_right _ _), splitAtByte?_append, Nat.add_sub_cancel_left]
    change (splitAtByte? (byteLength part) (part ++ after)).bind _ = _
    rw [splitAtByte?_append]
    rfl

/-- A range of bytes that lies in a text, with both ends between characters. -/
def Lies (text : List Char) (range : Span) : Prop :=
  ∃ before part after, text = before ++ (part ++ after) ∧
    byteLength before = range.start ∧ range.start + byteLength part = range.stop

theorem isSome_slice?_iff {range : Span} :
    (slice? range.start range.stop text).isSome = true ↔ Lies text range := by
  rw [Option.isSome_iff_exists]
  constructor
  · rintro ⟨part, sliced⟩
    obtain ⟨before, after, lies⟩ := slice?_eq_some_iff.mp sliced
    exact ⟨before, part, after, lies⟩
  · rintro ⟨before, part, after, lies⟩
    exact ⟨part, slice?_eq_some_iff.mpr ⟨before, after, lies⟩⟩

instance (text : List Char) (range : Span) : Decidable (Lies text range) :=
  decidable_of_iff _ isSome_slice?_iff

def Cuts (text : List Char) (offset : Nat) : Prop :=
  ∃ before after, text = before ++ after ∧ byteLength before = offset

theorem lies_iff_cuts {range : Span} :
    Lies text range ↔ Cuts text range.start ∧ Cuts text range.stop ∧ range.start ≤ range.stop := by
  constructor
  · rintro ⟨before, part, after, whole, start, stop⟩
    refine ⟨⟨before, part ++ after, whole, start⟩, ⟨before ++ part, after, ?_, ?_⟩, by omega⟩
    · rw [whole, List.append_assoc]
    · rw [byteLength_append]
      omega
  · rintro ⟨⟨before, behind, rfl, start⟩, ⟨front, after, same, stop⟩, ordered⟩
    rcases List.append_eq_append_iff.mp same with ⟨part, rfl, rfl⟩ | ⟨between, rfl, rfl⟩
    · rw [byteLength_append] at stop
      exact ⟨before, part, after, rfl, start, by omega⟩
    · -- the end is no further in front than the start, so there is nothing between them
      rw [byteLength_append] at start
      have nothing : byteLength between = 0 := by omega
      obtain rfl := eq_nil_of_byteLength nothing
      rw [byteLength_nil] at start
      refine ⟨front, [], behind, by simp, by omega, ?_⟩
      rw [byteLength_nil]
      omega

theorem Lies.behind {range : Span} {front rest : List Char} (lies : Lies (front ++ rest) range)
    (reached : byteLength front ≤ range.start) :
    ∃ kept part after, rest = kept ++ (part ++ after) ∧
      byteLength front + byteLength kept = range.start ∧
      range.start + byteLength part = range.stop := by
  obtain ⟨before, part, after, whole, start, stop⟩ := lies
  rcases List.append_eq_append_iff.mp whole with ⟨kept, rfl, rfl⟩ | ⟨between, rfl, same⟩
  · exact ⟨kept, part, after, rfl, by rw [← start, byteLength_append], stop⟩
  · -- the cut is no further on than the range, so there is nothing between them
    rw [byteLength_append] at reached
    have nothing : byteLength between = 0 := by omega
    obtain rfl := eq_nil_of_byteLength nothing
    exact ⟨[], part, after, same.symm, by simp [start], stop⟩

end MessageCatalog.Text
