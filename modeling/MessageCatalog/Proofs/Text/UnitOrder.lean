import MessageCatalog.Text.Characters

/-!
The order of texts by their code units is the lexicographic order of the lists of units, and only
equal texts have equal units, so the order is total and no two texts tie in it.
-/

namespace MessageCatalog.Text

theorem compareUnits_eq_compare (left right : List Nat) :
    compareUnits left right = compare left right := by
  induction left generalizing right with
  | nil => cases right <;> rfl
  | cons a as ih =>
      cases right with
      | nil => rfl
      | cons b bs =>
          rw [compareUnits, ih, List.compare_eq_compareLex, List.compareLex_cons_cons]

theorem compareUnits_eq_lt {left right : List Nat} :
    compareUnits left right = .lt ↔ left < right := by
  induction left generalizing right with
  | nil => cases right <;> simp [compareUnits]
  | cons a as ih =>
      cases right with
      | nil => simp [compareUnits]
      | cons b bs =>
          rw [compareUnits, Ordering.then_eq_lt, ih, List.cons_lt_cons_iff, Nat.compare_eq_lt,
            Nat.compare_eq_eq]

/-- The surrogates of a character above U+FFFF are no characters, so the units in front of a text
say which character they belong to. -/
theorem units_append_inj {c d : Char} {left right : List Nat}
    (same : units c ++ left = units d ++ right) : c = d ∧ left = right := by
  have codes : c.toNat = d.toNat ∧ left = right := by
    have validC : c.toNat < 0xD800 ∨ 0xDFFF < c.toNat ∧ c.toNat < 0x110000 := c.valid
    have validD : d.toNat < 0xD800 ∨ 0xDFFF < d.toNat ∧ d.toNat < 0x110000 := d.valid
    dsimp only [units] at same
    split at same <;> split at same <;>
      simp only [List.cons_append, List.nil_append, List.cons.injEq] at same
    · exact same
    · omega
    · omega
    · exact ⟨by omega, same.2.2⟩
  exact ⟨Char.toNat_inj.mp codes.1, codes.2⟩

theorem units_ne_nil (c : Char) : units c ≠ [] := by
  dsimp only [units]
  split <;> simp

theorem flatMap_units_inj {left right : List Char}
    (same : left.flatMap units = right.flatMap units) : left = right := by
  induction left generalizing right with
  | nil =>
      cases right with
      | nil => rfl
      | cons d ds => simp [units_ne_nil] at same
  | cons c cs ih =>
      cases right with
      | nil => simp [units_ne_nil] at same
      | cons d ds =>
          obtain ⟨head, tail⟩ := units_append_inj same
          rw [head, ih tail]

theorem unitsOf_inj {left right : String} (same : unitsOf left = unitsOf right) : left = right :=
  String.toList_inj.mp (flatMap_units_inj same)

theorem unitOrder_total (left right : String) :
    ((unitOrder left right).isLE || (unitOrder right left).isLE) = true := by
  simp only [unitOrder, compareUnits_eq_compare]
  rw [Std.OrientedOrd.eq_swap (a := unitsOf right)]
  cases compare (unitsOf left) (unitsOf right) <;> rfl

theorem unitOrder_trans (first second third : String)
    (before : (unitOrder first second).isLE = true)
    (after : (unitOrder second third).isLE = true) : (unitOrder first third).isLE = true := by
  simp only [unitOrder, compareUnits_eq_compare] at *
  exact Std.TransOrd.isLE_trans before after

theorem unitsOf_lt_of_ne {left right : String} (ordered : (unitOrder left right).isLE = true)
    (distinct : left ≠ right) : unitsOf left < unitsOf right := by
  rw [← compareUnits_eq_lt]
  change unitOrder left right = .lt
  cases order : unitOrder left right with
  | lt => rfl
  | eq =>
      rw [unitOrder, compareUnits_eq_compare] at order
      exact absurd (unitsOf_inj (Std.LawfulEqOrd.eq_of_compare order)) distinct
  | gt => simp [order] at ordered

end MessageCatalog.Text
