import Mathlib.Data.List.Sort
import MessageCatalog.Edit
import MessageCatalog.Proofs.Text.Slicing

/-!
Which edits are made of those that are asked for. Made are edits whose ranges are apart from one
another, and the text is the source with these ranges replaced; every other edit that lies in the
source starts within the range of one that is made.
-/

namespace MessageCatalog.Edit

open Text (Lies byteLength splitAtByte?_append)

/-- The edits as splices, without those that do not lie in the source. -/
def lying (source : List Char) (edits : List Edit) : List Splice :=
  (edits.map (toSplice source)).filter fun splice => decide (Lies source splice.range)

/-- A text in which splices are made, one behind the other; it begins at the byte `cursor` of the
source. Between the splices it stays as it is. -/
inductive Replaced : Nat → List Char → List Splice → List Char → Prop
  | done (cursor : Nat) (rest : List Char) : Replaced cursor rest [] rest
  | next {cursor : Nat} {kept cut rest result : List Char} {splice : Splice}
      {later : List Splice} (start : splice.range.start = cursor + byteLength kept)
      (stop : splice.range.stop = splice.range.start + byteLength cut)
      (behind : Replaced splice.range.stop rest later result) :
      Replaced cursor (kept ++ (cut ++ rest)) (splice :: later) (kept ++ (splice.text ++ result))

def StartsWithin (e other : Splice) : Prop :=
  other.range.start ≤ e.range.start ∧ e.range.start < other.range.stop

/-- A range that holds at least one byte, all of which the other range holds too. -/
def IsCovered (e other : Splice) : Prop :=
  e.range.start < e.range.stop ∧ other.range.start ≤ e.range.start ∧
    e.range.stop ≤ other.range.stop

variable {cursor : Nat} {source rest result : List Char} {chosen : List Splice}

theorem Replaced.starts (replaced : Replaced cursor rest chosen result) :
    ∀ splice ∈ chosen, cursor ≤ splice.range.start := by
  induction replaced with
  | done cursor rest => nofun
  | next start stop _ ih =>
      intro splice member
      rcases List.mem_cons.mp member with rfl | later
      · omega
      · have further := ih splice later
        omega

theorem Replaced.apart (replaced : Replaced cursor rest chosen result) :
    chosen.Pairwise fun first second => first.range.stop ≤ second.range.start := by
  induction replaced with
  | done cursor rest => exact .nil
  | next _ _ behind ih => exact .cons behind.starts ih

/-- The order in which splices are made: first the one that starts first, and of two that start
together the longer one. -/
def Splice.precedes (first second : Splice) : Bool :=
  first.range.start < second.range.start ||
    (first.range.start == second.range.start && second.range.stop ≤ first.range.stop)

theorem precedes_iff {first second : Splice} :
    first.precedes second = true ↔ first.range.start < second.range.start ∨
      first.range.start = second.range.start ∧ second.range.stop ≤ first.range.stop := by
  simp [Splice.precedes]

theorem precedes_trans (first second third : Splice) :
    first.precedes second = true → second.precedes third = true →
      first.precedes third = true := by
  simp only [precedes_iff]
  omega

theorem precedes_total (first second : Splice) :
    (first.precedes second || second.precedes first) = true := by
  rw [Bool.or_eq_true]
  simp only [precedes_iff]
  omega

theorem splices_eq (source : List Char) (edits : List Edit) :
    splices source edits = (lying source edits).mergeSort Splice.precedes := by
  have same : lying source edits = (edits.map (toSplice source)).filter fun splice =>
      (Text.slice? splice.range.start splice.range.stop source).isSome :=
    List.filter_congr fun splice _ => by
      rw [Bool.eq_iff_iff, decide_eq_true_iff, Text.isSome_slice?_iff]
  rw [same]
  rfl

theorem lying_perm (source : List Char) (edits : List Edit) :
    (splices source edits).Perm (lying source edits) := by
  rw [splices_eq]
  exact List.mergeSort_perm _ _

theorem splices_precede (source : List Char) (edits : List Edit) :
    (splices source edits).Pairwise fun first second => first.precedes second = true := by
  rw [splices_eq]
  exact List.pairwise_mergeSort precedes_trans precedes_total _

theorem splices_of_precede {source : List Char} {edits : List Edit}
    (sorted : (edits.map (toSplice source)).Pairwise fun first second =>
      first.precedes second = true) : splices source edits = lying source edits := by
  rw [splices_eq]
  exact List.mergeSort_of_pairwise (sorted.filter _)

theorem splices_ordered (source : List Char) (edits : List Edit) :
    (splices source edits).Pairwise fun first second =>
      first.range.start ≤ second.range.start := by
  refine (splices_precede source edits).imp fun {first second} before => ?_
  have ordered := precedes_iff.mp before
  omega

def chosenFrom (cursor : Nat) : List Splice → List Splice
  | [] => []
  | next :: later =>
      if next.range.start < cursor then chosenFrom cursor later
      else next :: chosenFrom next.range.stop later

def droppedFrom (cursor : Nat) : List Splice → List Splice
  | [] => []
  | next :: later =>
      if next.range.start < cursor then next :: droppedFrom cursor later
      else droppedFrom next.range.stop later

theorem chosenFrom_perm (cursor : Nat) (all : List Splice) :
    (chosenFrom cursor all ++ droppedFrom cursor all).Perm all := by
  induction all generalizing cursor with
  | nil => exact .refl _
  | cons next later ih =>
      rw [chosenFrom, droppedFrom]
      split
      · exact List.perm_middle.trans ((ih cursor).cons next)
      · exact (ih next.range.stop).cons next

theorem spliceAll_cons {next : Splice} {kept cut : List Char} (after : List Char)
    (start : next.range.start = cursor + byteLength kept)
    (stop : next.range.stop = next.range.start + byteLength cut) (later : List Splice) :
    spliceAll cursor (kept ++ (cut ++ after)) (next :: later) =
      kept ++ (next.text ++ spliceAll next.range.stop after later) := by
  have ahead : ¬next.range.start < cursor := by omega
  have gap : next.range.start - cursor = byteLength kept := by omega
  have long : next.range.stop - next.range.start = byteLength cut := by omega
  rw [spliceAll, if_neg ahead, gap, splitAtByte?_append]
  dsimp only
  rw [long, splitAtByte?_append]
  dsimp only
  rw [List.append_assoc]

theorem replaced_spliceAll {front : List Char} (reached : byteLength front = cursor)
    {all : List Splice} (lies : ∀ splice ∈ all, Lies (front ++ rest) splice.range) :
    Replaced cursor rest (chosenFrom cursor all) (spliceAll cursor rest all) := by
  induction all generalizing cursor front rest with
  | nil => exact .done cursor rest
  | cons next later ih =>
      obtain ⟨here, others⟩ := List.forall_mem_cons.mp lies
      rw [chosenFrom]
      split
      · rename_i passed
        rw [spliceAll, if_pos passed]
        exact ih reached others
      · obtain ⟨kept, cut, after, rfl, start, stop⟩ := here.behind (by omega)
        have start : next.range.start = cursor + byteLength kept := by omega
        rw [spliceAll_cons after start stop.symm]
        have passed : byteLength (front ++ (kept ++ cut)) = next.range.stop := by
          simp only [Text.byteLength_append]
          omega
        exact .next start stop.symm (ih passed (by simpa only [List.append_assoc] using others))

theorem startsWithin_of_dropped {all : List Splice}
    (ordered : all.Pairwise fun first second => first.range.start ≤ second.range.start) :
    ∀ e ∈ droppedFrom cursor all,
      e.range.start < cursor ∨ ∃ splice ∈ chosenFrom cursor all, StartsWithin e splice := by
  induction ordered generalizing cursor with
  | nil => nofun
  | @cons next later before _ ih =>
      intro e member
      rw [droppedFrom] at member
      split at member
      · rename_i passed
        rw [chosenFrom, if_pos passed]
        rcases List.mem_cons.mp member with rfl | behind
        · exact .inl passed
        · exact ih e behind
      · rename_i ahead
        rw [chosenFrom, if_neg ahead]
        rcases ih e member with inFront | ⟨splice, made, within⟩
        -- the cursor is at the end of the splice that has just been made
        · have inAll : e ∈ later :=
            (chosenFrom_perm next.range.stop later).subset (List.mem_append_right _ member)
          exact .inr ⟨next, List.mem_cons_self, before e inAll, inFront⟩
        · exact .inr ⟨splice, List.mem_cons_of_mem _ made, within⟩

theorem not_covered_of_apart {first second : Splice}
    (apart : first.range.stop ≤ second.range.start) :
    ¬IsCovered first second ∧ ¬IsCovered second first := by
  unfold IsCovered
  omega

/-- Of the edits that lie in the source some are made: their ranges are apart, and the result is the
source with these ranges replaced and all else in its order. Every other one starts within an edit
that is made. So no edit is made that another one which is made covers, and an edit that starts
within no other one is made. -/
theorem apply_selects (source : String) (edits : List Edit) :
    ∃ chosen dropped, (chosen ++ dropped).Perm (lying source.toList edits) ∧
      chosen.Pairwise (fun first second => first.range.stop ≤ second.range.start) ∧
      Replaced 0 source.toList chosen (apply source edits).toList ∧
      (∀ e ∈ dropped, ∃ splice ∈ chosen, StartsWithin e splice) ∧
      chosen.Pairwise (fun first second => ¬IsCovered first second ∧ ¬IsCovered second first) ∧
      ∀ e others, (e :: others).Perm (lying source.toList edits) →
        (∀ other ∈ others, ¬StartsWithin e other) → e ∈ chosen := by
  let all := splices source.toList edits
  have perm := (chosenFrom_perm 0 all).trans (lying_perm source.toList edits)
  have lies : ∀ splice ∈ all, Lies ([] ++ source.toList) splice.range := by
    intro splice member
    have inside := (lying_perm source.toList edits).subset member
    exact of_decide_eq_true (List.mem_filter.mp inside).2
  have replaced : Replaced 0 source.toList (chosenFrom 0 all) (apply source edits).toList := by
    rw [apply, String.toList_ofList]
    exact replaced_spliceAll rfl lies
  have within : ∀ e ∈ droppedFrom 0 all, ∃ splice ∈ chosenFrom 0 all, StartsWithin e splice := by
    intro e member
    rcases startsWithin_of_dropped (splices_ordered source.toList edits) e member with
      inFront | made
    · exact absurd inFront (Nat.not_lt_zero _)
    · exact made
  refine ⟨chosenFrom 0 all, droppedFrom 0 all, perm, replaced.apart, replaced, within,
    replaced.apart.imp not_covered_of_apart, fun e others same alone => ?_⟩
  refine Classical.byContradiction fun unmade => ?_
  have inAll := perm.symm.subset (same.subset List.mem_cons_self)
  have dropped : e ∈ droppedFrom 0 all := (List.mem_append.mp inAll).resolve_left unmade
  obtain ⟨splice, made, starts⟩ := within e dropped
  have inOther := same.symm.subset (perm.subset (List.mem_append_left _ made))
  rcases List.mem_cons.mp inOther with rfl | other
  · exact unmade made
  · exact alone splice other starts

end MessageCatalog.Edit
