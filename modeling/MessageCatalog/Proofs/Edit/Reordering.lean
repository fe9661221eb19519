import MessageCatalog.Proofs.Edit.Selection

/-!
Edits in another order. Splices with different ranges come out of the sort in one order only, so as
long as edits with one range ask for one text, the same splices are made one behind the other,
however the edits stand in their list.
-/

namespace MessageCatalog.Edit

theorem range_of_precedes {first second : Splice} (before : first.precedes second = true)
    (behind : second.precedes first = true) : first.range = second.range := by
  rw [precedes_iff] at before behind
  have start : first.range.start = second.range.start := by omega
  have stop : first.range.stop = second.range.stop := by omega
  change Span.mk first.range.start first.range.stop = ⟨second.range.start, second.range.stop⟩
  rw [start, stop]

theorem asked_of_mem {source : List Char} {edits : List Edit} {splice : Splice}
    (member : splice ∈ splices source edits) : ∃ e ∈ edits, e.toSplice source = splice := by
  have lies := (lying_perm source edits).subset member
  exact List.mem_map.mp (List.mem_filter.mp lies).1

theorem splices_of_perm {source : List Char} {edits others : List Edit} (perm : edits.Perm others)
    (oneText : ∀ first ∈ edits, ∀ second ∈ edits,
      first.effective source = second.effective source → first.replacement = second.replacement) :
    splices source edits = splices source others := by
  refine List.Perm.eq_of_pairwise ?_ (splices_precede source edits)
    (splices_precede source others) ?_
  · intro first second inFirst inSecond before behind
    obtain ⟨e, asked, rfl⟩ := asked_of_mem inFirst
    obtain ⟨other, otherAsked, rfl⟩ := asked_of_mem inSecond
    have range := range_of_precedes before behind
    have text := oneText e asked other (perm.symm.subset otherAsked) range
    rw [toSplice, toSplice, text]
    exact congrArg (Splice.mk · _) range
  · have same := (perm.map (toSplice source)).filter fun splice =>
      decide (Text.Lies source splice.range)
    exact (lying_perm source edits).trans (same.trans (lying_perm source others).symm)

/-- The order in which edits are asked for does not count, if any two of them that replace one range
put one text there. -/
theorem apply_perm (source : String) (edits others : List Edit) (perm : edits.Perm others)
    (oneText : ∀ first ∈ edits, ∀ second ∈ edits,
      first.effective source.toList = second.effective source.toList →
        first.replacement = second.replacement) :
    apply source edits = apply source others := by
  rw [apply, apply, splices_of_perm perm oneText]

/-- Two removals that reach back to one place, next to an edit which overlaps another one. -/
theorem apply_perm_overlapping :
    let edits : List Edit := [.removeAttribute ⟨4, 6⟩, .removeAttribute ⟨5, 6⟩,
      .replaceDescriptor ⟨1, 2⟩ "a" "A", .replaceDescriptor ⟨0, 2⟩ "b" "B"]
    let others : List Edit := [.replaceDescriptor ⟨0, 2⟩ "b" "B", .removeAttribute ⟨5, 6⟩,
      .replaceDescriptor ⟨1, 2⟩ "a" "A", .removeAttribute ⟨4, 6⟩]
    (edits.Perm others ∧ ∀ first ∈ edits, ∀ second ∈ edits,
      first.effective "01   5 7".toList = second.effective "01   5 7".toList →
        first.replacement = second.replacement) ∧
      apply "01   5 7" edits = apply "01   5 7" others := by
  intro edits others
  have perm : edits.Perm others := by decide
  have oneText : ∀ first ∈ edits, ∀ second ∈ edits,
      first.effective "01   5 7".toList = second.effective "01   5 7".toList →
        first.replacement = second.replacement := by decide
  exact ⟨⟨perm, oneText⟩, apply_perm _ edits others perm oneText⟩

end MessageCatalog.Edit
