import MessageCatalog.Script.Token
import MessageCatalog.Text.Lines
import MessageCatalog.Text.Quoted

/-!
Quoted texts as literals of a script: the token that stands at a quoted text is the text itself,
with every escape decoded, and reading goes on right behind the closing quote.
-/

namespace MessageCatalog.Script

open Text (byteLength escapeChar)

theorem escape?_control {n : Nat} (control : n < 32) (rest : List Char) :
    escape? false ('u' :: '0' :: '0' :: Text.hexDigit (n / 16) :: Text.hexDigit (n % 16) :: rest) =
      some (some n, 5) := by
  simp [escape?, unicodeEscape?, Text.hexNumber?_byte (Nat.lt_trans control (by decide : 32 < 256))]

theorem quotedUnits_pending (quote : Char) (offset : Nat) (escaped rest : List Char) :
    quotedUnits quote escaped.length offset (escaped ++ rest) =
      quotedUnits quote 0 (offset + byteLength escaped) rest := by
  induction escaped generalizing offset with
  | nil => rfl
  | cons c escaped ih =>
      rw [List.length_cons, List.cons_append, quotedUnits, ih, Text.byteLength_cons, Nat.add_assoc]

theorem quotedUnits_escape {unit : Nat} {escaped rest : List Char} (quote : Char) (offset : Nat)
    (read : escape? false (escaped ++ rest) = some (some unit, escaped.length)) :
    quotedUnits quote 0 offset ('\\' :: escaped ++ rest) =
      (quotedUnits quote 0 (offset + byteLength ('\\' :: escaped)) rest).map
        fun (units, stop) => (unit :: units, stop) := by
  rw [List.cons_append, quotedUnits, if_pos (beq_self_eq_true _), read]
  dsimp only
  rw [quotedUnits_pending, Text.byteLength_cons, ← Nat.add_assoc]
  rfl

theorem quotedUnits_escapeChar (c : Char) (offset : Nat) (rest : List Char) :
    quotedUnits '"' 0 offset (escapeChar c ++ rest) =
      (quotedUnits '"' 0 (offset + byteLength (escapeChar c)) rest).map
        fun (units, stop) => (c.toNat :: units, stop) := by
  fun_cases escapeChar c with
  | case1 => exact quotedUnits_escape '"' offset rfl
  | case2 => exact quotedUnits_escape '"' offset rfl
  | case3 => exact quotedUnits_escape '"' offset rfl
  | case4 => exact quotedUnits_escape '"' offset rfl
  | case5 => exact quotedUnits_escape '"' offset rfl
  | case6 => exact quotedUnits_escape '"' offset rfl
  | case7 => exact quotedUnits_escape '"' offset rfl
  | case8 =>
      rename_i control
      exact quotedUnits_escape '"' offset (escape?_control control rest)
  | case9 _ quote backslash _ _ line carriage _ _ =>
      have plain : quotedUnits '"' 0 offset (c :: rest) =
          (quotedUnits '"' 0 (offset + c.utf8Size) rest >>= fun (units, stop) =>
            pure (c.toNat :: units, stop)) := by
        rw [quotedUnits, if_neg (by simpa using backslash), if_neg (by simpa using quote),
          if_neg (by simp [imp_false.mp line, imp_false.mp carriage])]
      rw [List.singleton_append, plain, Text.byteLength_cons, Text.byteLength_nil, Nat.add_zero]
      rfl

theorem quotedUnits_quoted (text : List Char) (offset : Nat) (rest : List Char) :
    quotedUnits '"' 0 offset (text.flatMap escapeChar ++ '"' :: rest) =
      .ok (text.map Char.toNat, ⟨offset + byteLength (text.flatMap escapeChar) + 1, rest⟩) := by
  induction text generalizing offset with
  | nil => simp [quotedUnits]
  | cons c text ih =>
      rw [List.flatMap_cons, List.append_assoc, quotedUnits_escapeChar, ih]
      simp [Except.map, Nat.add_assoc]

theorem textOfUnits_map (text : List Char) : textOfUnits (text.map Char.toNat) = text := by
  have whole (c : Char) : (if c.toNat.isValidChar then Char.ofNat c.toNat else '\ufffd') = c := by
    have valid : c.toNat.isValidChar := c.valid
    rw [if_pos valid, Char.ofNat_toNat]
  induction text with
  | nil => rfl
  | cons c text ih =>
      cases text with
      | nil => rw [List.map_cons, List.map_nil, textOfUnits, whole]
      | cons d text =>
          have single := Text.not_surrogate c
          rw [List.map_cons, List.map_cons, textOfUnits, if_neg, whole, ← List.map_cons, ih]
          simp only [Bool.and_eq_true, decide_eq_true_eq]
          exact fun pair => single pair.1.1

theorem token_quote (text : String) (offset : Nat) (rest : List Char) :
    (Cursor.mk offset ((Text.quote text).toList ++ rest)).token =
      (.text text, ⟨offset + byteLength (Text.quote text).toList, rest⟩) := by
  have units := quotedUnits_quoted text.toList (offset + 1) rest
  have size : '"'.utf8Size = 1 := rfl
  rw [Text.toList_quote, List.cons_append, List.append_assoc, List.singleton_append]
  have head : (Cursor.mk offset ('"' :: (text.toList.flatMap escapeChar ++ '"' :: rest))).token =
      quotedToken '"' ⟨offset, '"' :: (text.toList.flatMap escapeChar ++ '"' :: rest)⟩ := rfl
  rw [head]
  simp only [quotedToken, Cursor.next, size, units, textOfUnits_map, String.ofList_toList]
  simp [size, Nat.add_assoc]

end MessageCatalog.Script
