/-!
Characters: sets of them that are given as ranges of code points, the digits of bases up to sixteen,
their UTF-16 code units, and white space as the Unicode property White_Space draws it. Texts are
ordered by their units, which agrees with the order of code points but for characters above U+FFFF,
whose surrogates stand below U+E000; they are trimmed of white space, and runs of it are collapsed.
The byte-order mark and the zero-width characters are no white space.
-/

namespace MessageCatalog.Text

/-- Each pair holds the first and the last code point of a range. -/
def inRanges (ranges : List (Nat × Nat)) (c : Char) : Bool :=
  ranges.any fun (first, last) => first ≤ c.toNat && c.toNat ≤ last

/-! ### Digits -/

def hexDigit (value : Nat) : Char :=
  if value < 10 then Char.ofNat (48 + value) else Char.ofNat (87 + value)

def digitValue? (c : Char) : Option Nat :=
  if '0' ≤ c && c ≤ '9' then some (c.toNat - 48)
  else if 'a' ≤ c && c ≤ 'f' then some (c.toNat - 87)
  else if 'A' ≤ c && c ≤ 'F' then some (c.toNat - 55)
  else none

def hexNumber? (digits : List Char) : Option Nat :=
  digits.foldlM (fun value c => (digitValue? c).map fun digit => value * 16 + digit) 0

def takeSign (text : List Char) : List Char × List Char :=
  match text with
  | '+' :: rest => (['+'], rest)
  | '-' :: rest => (['-'], rest)
  | _ => ([], text)

theorem digitValue?_hexDigit : ∀ digit < 16, digitValue? (hexDigit digit) = some digit := by
  decide

theorem hexNumber?_byte {n : Nat} (small : n < 256) :
    hexNumber? ['0', '0', hexDigit (n / 16), hexDigit (n % 16)] = some n := by
  have zero : digitValue? '0' = some 0 := rfl
  have high := digitValue?_hexDigit (n / 16) (by omega)
  have low := digitValue?_hexDigit (n % 16) (by omega)
  simp only [hexNumber?, List.foldlM_cons, List.foldlM_nil, zero, high, low, Option.map_some,
    Option.bind_eq_bind, Option.bind_some, Option.pure_def, Option.some.injEq]
  omega

/-! ### Units -/

theorem not_surrogate (c : Char) : ¬(0xD800 ≤ c.toNat ∧ c.toNat < 0xDC00) := by
  have valid : c.toNat.isValidChar := c.valid
  unfold Nat.isValidChar at valid
  omega

/-- One unit for a character up to U+FFFF, a high and a low surrogate above. -/
def units (c : Char) : List Nat :=
  let code := c.toNat
  if code < 0x10000 then [code]
  else [0xD800 + (code - 0x10000) / 0x400, 0xDC00 + (code - 0x10000) % 0x400]

def unitsOf (text : String) : List Nat :=
  text.toList.flatMap units

/-- The lexicographic order of lists of numbers. -/
def compareUnits : List Nat → List Nat → Ordering
  | [], [] => .eq
  | [], _ :: _ => .lt
  | _ :: _, [] => .gt
  | a :: as, b :: bs => (compare a b).then (compareUnits as bs)

def unitOrder (left right : String) : Ordering :=
  compareUnits (unitsOf left) (unitsOf right)

/-! ### White space -/

def isBlank (c : Char) : Bool :=
  let code := c.toNat
  (0x09 ≤ code && code ≤ 0x0D) || code == 0x20 || code == 0x85 || code == 0xA0 ||
    code == 0x1680 || (0x2000 ≤ code && code ≤ 0x200A) || code == 0x2028 || code == 0x2029 ||
    code == 0x202F || code == 0x205F || code == 0x3000

def trimStart (text : List Char) : List Char :=
  text.dropWhile isBlank

def trimEnd (text : List Char) : List Char :=
  (text.reverse.dropWhile isBlank).reverse

def trim (text : List Char) : List Char :=
  trimEnd (trimStart text)

/-- Collapses each run of blanks to one space; `inRun` says whether a run is already open. -/
def collapseFrom (inRun : Bool) : List Char → List Char
  | [] => []
  | c :: rest =>
      if isBlank c then
        if inRun then collapseFrom true rest else ' ' :: collapseFrom true rest
      else c :: collapseFrom false rest

def collapse (text : List Char) : List Char :=
  collapseFrom false text

def trimmed (text : String) : String :=
  String.ofList (trim text.toList)

def collapsed (text : String) : String :=
  String.ofList (collapse text.toList)

def isEmptyOrBlank (text : String) : Bool :=
  text.toList.all isBlank

end MessageCatalog.Text
