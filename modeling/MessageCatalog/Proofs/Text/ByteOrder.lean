import Mathlib.Data.List.Infix
import MessageCatalog.Proofs.Text.UnitOrder

/-!
The order of texts by their UTF-16 code units beside the order by their UTF-8 bytes. Both are
decided by the first characters that differ. The bytes follow the code points; the units do so too,
unless one of the two characters needs surrogates and the other stands behind all of them.
-/

namespace MessageCatalog.Text

def bytes (c : Char) : List Nat :=
  (String.utf8EncodeChar c).map UInt8.toNat

def bytesOf (text : String) : List Nat :=
  text.toUTF8.data.toList.map UInt8.toNat

def byteOrder (left right : String) : Ordering :=
  compareUnits (bytesOf left) (bytesOf right)

theorem bytesOf_eq_flatMap (text : String) : bytesOf text = text.toList.flatMap bytes := by
  have encoded : text.toUTF8.data.toList = text.toList.flatMap String.utf8EncodeChar := by
    rw [String.toUTF8_eq_toByteArray]
    conv_lhs => rw [← String.ofList_toList (s := text)]
    rw [String.toByteArray_ofList, List.utf8Encode, List.toList_data_toByteArray]
  rw [bytesOf, encoded, List.map_flatMap]
  rfl

/-- Two texts agree up to a place, where different characters stand. -/
def Diverge (left right : List Char) (c d : Char) : Prop :=
  c ≠ d ∧ ∃ front leftRest rightRest,
    left = front ++ c :: leftRest ∧ right = front ++ d :: rightRest

theorem diverge_cons_iff {x y c d : Char} {xs ys : List Char} :
    Diverge (x :: xs) (y :: ys) c d ↔ (x ≠ y ∧ x = c ∧ y = d) ∨ (x = y ∧ Diverge xs ys c d) := by
  constructor
  · rintro ⟨apart, front, leftRest, rightRest, leftShape, rightShape⟩
    cases front with
    | nil =>
        cases leftShape
        cases rightShape
        exact .inl ⟨apart, rfl, rfl⟩
    | cons first others =>
        cases leftShape
        cases rightShape
        exact .inr ⟨rfl, apart, others, leftRest, rightRest, rfl, rfl⟩
  · rintro (⟨different, rfl, rfl⟩ | ⟨rfl, apart, front, leftRest, rightRest, rfl, rfl⟩)
    · exact ⟨different, [], xs, ys, rfl, rfl⟩
    · exact ⟨apart, x :: front, leftRest, rightRest, rfl, rfl⟩

def firstDifference? : List Char → List Char → Option (Char × Char)
  | c :: cs, d :: ds => if c = d then firstDifference? cs ds else some (c, d)
  | _, _ => none

theorem firstDifference?_eq_some_iff {left right : List Char} {c d : Char} :
    firstDifference? left right = some (c, d) ↔ Diverge left right c d := by
  induction left generalizing right with
  | nil => simp [firstDifference?, Diverge]
  | cons x xs ih =>
      cases right with
      | nil => simp [firstDifference?, Diverge]
      | cons y ys =>
          rw [firstDifference?, diverge_cons_iff]
          split
          next same => simp [same, ih]
          next different => simp [different]

theorem extends_of_same {left right : List Char} (same : firstDifference? left right = none) :
    left <+: right ∨ right <+: left := by
  induction left generalizing right with
  | nil => exact .inl List.nil_prefix
  | cons x xs ih =>
      cases right with
      | nil => exact .inr List.nil_prefix
      | cons y ys =>
          rw [firstDifference?] at same
          split at same
          next alike =>
            simp only [List.cons_prefix_cons, alike, true_and]
            exact ih same
          next => cases same

theorem Diverge.symm {left right : List Char} {c d : Char} (diverge : Diverge left right c d) :
    Diverge right left d c := by
  obtain ⟨apart, front, leftRest, rightRest, leftShape, rightShape⟩ := diverge
  exact ⟨apart.symm, front, rightRest, leftRest, rightShape, leftShape⟩

theorem compareUnits_swap (left right : List Nat) :
    (compareUnits left right).swap = compareUnits right left := by
  rw [compareUnits_eq_compare, compareUnits_eq_compare, ← Std.OrientedOrd.eq_swap]

theorem compareUnits_append (front left right : List Nat) :
    compareUnits (front ++ left) (front ++ right) = compareUnits left right := by
  induction front with
  | nil => rfl
  | cons a rest ih => simp [compareUnits, ih]

variable {code : Char → List Nat} {left right : List Char} {c d : Char}

theorem compareUnits_of_diverge (diverge : Diverge left right c d)
    (decided : ∀ leftRest rightRest,
      compareUnits (code c ++ leftRest) (code d ++ rightRest) = .lt) :
    compareUnits (left.flatMap code) (right.flatMap code) = .lt := by
  obtain ⟨-, front, leftRest, rightRest, rfl, rfl⟩ := diverge
  rw [List.flatMap_append, List.flatMap_append, compareUnits_append, List.flatMap_cons,
    List.flatMap_cons]
  exact decided _ _

theorem compareUnits_of_extends (visible : ∀ c, code c ≠ []) (before : left <+: right) :
    compareUnits (left.flatMap code) (right.flatMap code) = if left = right then .eq else .lt := by
  obtain ⟨rest, rfl⟩ := before
  have ends := compareUnits_append (left.flatMap code) [] (rest.flatMap code)
  rw [List.append_nil] at ends
  rw [List.flatMap_append, ends]
  cases rest with
  | nil => simp [compareUnits]
  | cons first others =>
      obtain ⟨unit, units, shape⟩ := List.exists_cons_of_ne_nil (visible first)
      simp [shape, compareUnits]

theorem bytes_ne_nil (c : Char) : bytes c ≠ [] := by
  simp [bytes, String.utf8EncodeChar_ne_nil]

theorem toNat_lt (c : Char) : c.toNat < 0x110000 := by
  have valid : c.toNat < 0xD800 ∨ 0xDFFF < c.toNat ∧ c.toNat < 0x110000 := c.valid
  omega

/-- One to four bytes; the first one tells how many there are, the others have six bits each. -/
theorem bytes_eq (c : Char) :
    bytes c =
      let code := c.toNat
      if code ≤ 0x7F then [code]
      else if code ≤ 0x7FF then [0xC0 + code / 0x40, 0x80 + code % 0x40]
      else if code ≤ 0xFFFF then
        [0xE0 + code / 0x1000, 0x80 + code / 0x40 % 0x40, 0x80 + code % 0x40]
      else
        [0xF0 + code / 0x40000, 0x80 + code / 0x1000 % 0x40, 0x80 + code / 0x40 % 0x40,
          0x80 + code % 0x40] := by
  have bound := toNat_lt c
  have same : c.val.toNat = c.toNat := rfl
  dsimp only [bytes, String.utf8EncodeChar]
  rw [same]
  split_ifs <;>
    simp only [List.map_cons, List.map_nil, UInt8.toNat_ofNat', List.cons.injEq, and_true]
  · omega
  · constructor <;> omega
  · refine ⟨?_, ?_, ?_⟩ <;> omega
  · refine ⟨?_, ?_, ?_, ?_⟩ <;> omega

theorem bytes_lt (before : c.toNat < d.toNat) (leftRest rightRest : List Nat) :
    compareUnits (bytes c ++ leftRest) (bytes d ++ rightRest) = .lt := by
  rw [compareUnits_eq_lt, bytes_eq, bytes_eq]
  dsimp only
  split_ifs <;> simp only [List.cons_append, List.nil_append, List.cons_lt_cons_iff] <;> omega

/-- One of two characters is written with surrogates, and the other one, as a unit of its own,
stands behind them. -/
def Cross (c d : Char) : Prop :=
  (0xFFFF < c.toNat ∧ 0xE000 ≤ d.toNat ∧ d.toNat ≤ 0xFFFF) ∨
    (0xFFFF < d.toNat ∧ 0xE000 ≤ c.toNat ∧ c.toNat ≤ 0xFFFF)

instance (c d : Char) : Decidable (Cross c d) :=
  inferInstanceAs (Decidable (_ ∨ _))

theorem Cross.symm (cross : Cross c d) : Cross d c :=
  Or.symm cross

theorem units_lt (before : c.toNat < d.toNat) (straight : ¬Cross c d)
    (leftRest rightRest : List Nat) :
    compareUnits (units c ++ leftRest) (units d ++ rightRest) = .lt := by
  have valid : c.toNat < 0xD800 ∨ 0xDFFF < c.toNat ∧ c.toNat < 0x110000 := c.valid
  rw [compareUnits_eq_lt]
  unfold Cross at straight
  dsimp only [units]
  split_ifs <;> simp only [List.cons_append, List.nil_append, List.cons_lt_cons_iff] <;> omega

theorem units_lt_of_cross (before : c.toNat < d.toNat) (cross : Cross c d)
    (leftRest rightRest : List Nat) :
    compareUnits (units d ++ leftRest) (units c ++ rightRest) = .lt := by
  have valid : d.toNat < 0xD800 ∨ 0xDFFF < d.toNat ∧ d.toNat < 0x110000 := d.valid
  rw [compareUnits_eq_lt]
  unfold Cross at cross
  dsimp only [units]
  split_ifs <;> simp only [List.cons_append, List.nil_append, List.cons_lt_cons_iff] <;> omega

/-! ### The two orders -/

theorem orders_of_before (diverge : Diverge left right c d) (before : c.toNat < d.toNat) :
    compareUnits (left.flatMap bytes) (right.flatMap bytes) = .lt ∧
      (¬Cross c d → compareUnits (left.flatMap units) (right.flatMap units) = .lt) ∧
      (Cross c d → compareUnits (left.flatMap units) (right.flatMap units) = .gt) := by
  refine ⟨compareUnits_of_diverge diverge (bytes_lt before),
    fun straight => compareUnits_of_diverge diverge (units_lt before straight), fun cross => ?_⟩
  rw [← compareUnits_swap, compareUnits_of_diverge diverge.symm (units_lt_of_cross before cross)]
  rfl

/-- The first characters that differ decide on both orders: alike if they do not cross, and in
opposite ways if they do. -/
theorem orders_of_diverge (diverge : Diverge left right c d) :
    compareUnits (left.flatMap bytes) (right.flatMap bytes) ≠ .eq ∧
      compareUnits (left.flatMap units) (right.flatMap units) =
        if Cross c d then (compareUnits (left.flatMap bytes) (right.flatMap bytes)).swap
        else compareUnits (left.flatMap bytes) (right.flatMap bytes) := by
  have apart : c.toNat ≠ d.toNat := fun same => diverge.1 (Char.toNat_inj.mp same)
  rcases Nat.lt_or_gt_of_ne apart with before | behind
  · obtain ⟨byBytes, straight, crossed⟩ := orders_of_before diverge before
    rw [byBytes]
    split
    next cross => exact ⟨nofun, crossed cross⟩
    next cross => exact ⟨nofun, straight cross⟩
  · obtain ⟨byBytes, straight, crossed⟩ := orders_of_before diverge.symm behind
    rw [← compareUnits_swap (right.flatMap bytes), byBytes,
      ← compareUnits_swap (right.flatMap units)]
    split
    next cross =>
      rw [crossed cross.symm]
      exact ⟨nofun, rfl⟩
    next cross =>
      rw [straight fun turned => cross turned.symm]
      exact ⟨nofun, rfl⟩

/-- Two texts cross if the first characters in which they differ do. -/
def Crossed (left right : String) : Prop :=
  ∃ c d, Diverge left.toList right.toList c d ∧ Cross c d

instance (left right : String) : Decidable (Crossed left right) :=
  decidable_of_iff
    (∃ pair ∈ firstDifference? left.toList right.toList, Cross pair.1 pair.2)
    ⟨fun ⟨(c, d), found, cross⟩ => ⟨c, d, firstDifference?_eq_some_iff.mp found, cross⟩,
      fun ⟨c, d, diverge, cross⟩ => ⟨(c, d), firstDifference?_eq_some_iff.mpr diverge, cross⟩⟩

theorem orders_of_crossed {left right : String} (crossed : Crossed left right) :
    byteOrder left right ≠ .eq ∧ unitOrder left right = (byteOrder left right).swap := by
  obtain ⟨c, d, diverge, cross⟩ := crossed
  have orders := orders_of_diverge diverge
  rw [if_pos cross, ← bytesOf_eq_flatMap, ← bytesOf_eq_flatMap] at orders
  exact orders

theorem orders_of_not_crossed {left right : String} (straight : ¬Crossed left right) :
    unitOrder left right = byteOrder left right := by
  unfold unitOrder byteOrder unitsOf
  rw [bytesOf_eq_flatMap, bytesOf_eq_flatMap]
  rcases found : firstDifference? left.toList right.toList with _ | ⟨c, d⟩
  · rcases extends_of_same found with before | behind
    · rw [compareUnits_of_extends units_ne_nil before, compareUnits_of_extends bytes_ne_nil before]
    · rw [← compareUnits_swap, ← compareUnits_swap (right.toList.flatMap bytes),
        compareUnits_of_extends units_ne_nil behind, compareUnits_of_extends bytes_ne_nil behind]
  · have diverge := firstDifference?_eq_some_iff.mp found
    have orders := (orders_of_diverge diverge).2
    rwa [if_neg fun cross => straight ⟨c, d, diverge, cross⟩] at orders

theorem unitOrder_eq_iff {left right : String} : unitOrder left right = .eq ↔ left = right := by
  rw [unitOrder, compareUnits_eq_compare, Std.LawfulEqOrd.compare_eq_iff_eq]
  exact ⟨unitsOf_inj, congrArg unitsOf⟩

/-- The order by UTF-16 code units is the order by UTF-8 bytes, unless at the first place where two
texts differ one character is above U+FFFF and the other between U+E000 and U+FFFF: then the two
orders are opposite. Only equal texts tie, and the order is total. -/
theorem unitOrder_beside_byteOrder (left right : String) :
    (¬Crossed left right → unitOrder left right = byteOrder left right) ∧
      (Crossed left right →
        byteOrder left right ≠ .eq ∧ unitOrder left right = (byteOrder left right).swap) ∧
      (unitOrder left right = .eq ↔ left = right) ∧
      unitOrder right left = (unitOrder left right).swap ∧
      ∀ third, (unitOrder left right).isLE = true → (unitOrder right third).isLE = true →
        (unitOrder left third).isLE = true :=
  ⟨orders_of_not_crossed, orders_of_crossed, unitOrder_eq_iff, (compareUnits_swap _ _).symm,
    fun third => unitOrder_trans left right third⟩

theorem unitOrder_beside_byteOrder_emoji :
    Crossed "k.😀" "k.｡" ∧ ¬Crossed "k.😀" "k.a" ∧ byteOrder "k.😀" "k.｡" = .gt ∧
      unitOrder "k.😀" "k.｡" = .lt ∧ unitOrder "k.😀" "k.a" = byteOrder "k.😀" "k.a" := by
  have crossed : Crossed "k.😀" "k.｡" := by decide +kernel
  have straight : ¬Crossed "k.😀" "k.a" := by decide +kernel
  have byBytes : byteOrder "k.😀" "k.｡" = .gt := by decide +kernel
  obtain ⟨-, opposite, -⟩ := unitOrder_beside_byteOrder "k.😀" "k.｡"
  obtain ⟨alike, -⟩ := unitOrder_beside_byteOrder "k.😀" "k.a"
  refine ⟨crossed, straight, byBytes, ?_, alike straight⟩
  rw [(opposite crossed).2, byBytes]
  rfl

end MessageCatalog.Text
