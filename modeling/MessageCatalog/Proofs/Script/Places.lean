import MessageCatalog.Script.Source
import MessageCatalog.Text.Lines

/-!
Places and lines. As long as every carriage return has its line feed, the line of a place is the one
that is found under its number, and its column counts the width of what this line has in front.
-/

namespace MessageCatalog

namespace Text

def inFront (offset : Nat) : List Char → List Char
  | [] => []
  | c :: rest => if offset = 0 then [] else c :: inFront (offset - c.utf8Size) rest

/-- Every carriage return has a line feed behind it. -/
def IsPaired : List Char → Prop
  | [] => True
  | c :: rest => (c = '\r' → rest.head? = some '\n') ∧ IsPaired rest

def openLine : List Char → List Char
  | [] => []
  | c :: rest => if '\n' ∈ c :: rest then openLine rest else c :: rest

def firstLine (text : List Char) : List Char :=
  if '\n' ∈ text then dropReturn (text.takeWhile (· != '\n')) else text

def columnsWidth (text : List Char) : Nat :=
  text.foldr (fun c width => columnWidth c + width) 0

variable {offset : Nat} {line text front rest : List Char} {c : Char}

theorem inFront_prefix (offset : Nat) (text : List Char) : inFront offset text <+: text := by
  induction text generalizing offset with
  | nil => exact List.prefix_rfl
  | cons c rest ih =>
      rw [inFront]
      split
      · exact List.nil_prefix
      · exact List.cons_prefix_cons.mpr ⟨rfl, ih _⟩

theorem openLine_of_not_mem (single : '\n' ∉ text) : openLine text = text := by
  cases text with
  | nil => rfl
  | cons c rest => rw [openLine, if_neg single]

theorem openLine_of_mem (broken : '\n' ∈ c :: rest) : openLine (c :: rest) = openLine rest := by
  rw [openLine, if_pos broken]

@[simp]
theorem columnsWidth_cons (c : Char) (rest : List Char) :
    columnsWidth (c :: rest) = columnWidth c + columnsWidth rest := by
  rfl

theorem dropReturn_append (closed : line.getLast? ≠ some '\r') (behind : List Char) :
    dropReturn (line ++ behind) = line ++ dropReturn behind := by
  unfold dropReturn
  rw [List.reverse_append]
  cases reversed : behind.reverse with
  | nil =>
      obtain rfl := List.reverse_eq_nil_iff.mp reversed
      rw [List.nil_append, List.append_nil]
      split
      · rename_i others ends
        rw [← List.head?_reverse, ends] at closed
        exact absurd rfl closed
      · rfl
  | cons last others =>
      rw [List.cons_append]
      by_cases returns : last = '\r'
      · subst returns
        simp
      · simp [returns]

theorem linesFrom_first (line text : List Char) :
    ((linesFrom line text)[0]?).getD [] =
      if '\n' ∈ text then dropReturn (line.reverse ++ text.takeWhile (· != '\n'))
      else line.reverse ++ text := by
  induction text generalizing line with
  | nil => cases line <;> simp [linesFrom]
  | cons c rest ih =>
      by_cases feeds : c = '\n'
      · subst feeds
        simp [linesFrom]
      · rw [linesFrom.eq_3 _ _ _ feeds, ih]
        simp [feeds, Ne.symm feeds]

theorem linesFrom_append (line : List Char) (paired : IsPaired front)
    (closed : line.head? = some '\r' → front.head? = some '\n') (rest : List Char) :
    ((linesFrom line (front ++ rest))[front.count '\n']?).getD [] =
      (if '\n' ∈ front then openLine front else line.reverse ++ front) ++ firstLine rest := by
  induction front generalizing line with
  | nil =>
      have closed : line.reverse.getLast? ≠ some '\r' := by
        rw [List.getLast?_reverse]
        exact fun returns => nomatch closed returns
      rw [List.nil_append, List.count_nil, linesFrom_first, firstLine]
      split
      · simp [dropReturn_append closed]
      · simp
  | cons c front ih =>
      obtain ⟨fed, paired⟩ := paired
      by_cases feeds : c = '\n'
      · subst feeds
        have next := ih [] paired nofun
        rw [List.cons_append, linesFrom, List.count_cons_self, List.getElem?_cons_succ, next,
          if_pos List.mem_cons_self, openLine_of_mem List.mem_cons_self]
        split
        · rfl
        · rename_i single
          rw [openLine_of_not_mem single]
          rfl
      · have next := ih (c :: line) paired fun returns => fed (Option.some.inj returns)
        rw [List.cons_append, linesFrom.eq_3 _ _ _ feeds, List.count_cons_of_ne feeds, next]
        by_cases broken : '\n' ∈ front
        · rw [if_pos broken, if_pos (List.mem_cons_of_mem c broken),
            openLine_of_mem (List.mem_cons_of_mem c broken)]
        · rw [if_neg broken, if_neg (by simp [broken, Ne.symm feeds])]
          simp only [List.reverse_cons, List.append_assoc, List.cons_append, List.nil_append]

theorem lineAt_append (paired : IsPaired front) (rest : List Char) :
    lineAt (String.ofList (front ++ rest)) (front.count '\n' + 1) =
      String.ofList (openLine front ++ firstLine rest) := by
  rw [lineAt, String.toList_ofList, lines, linesFrom_append [] paired nofun]
  split
  · rfl
  · rename_i single
    rw [openLine_of_not_mem single]
    rfl

end Text

namespace Script

open Text (IsPaired columnsWidth inFront openLine openLine_of_mem openLine_of_not_mem)

theorem placeFrom_cons {c : Char} {rest : List Char} {offset : Nat} (ahead : offset ≠ 0)
    (fed : c = '\r' → rest.head? = some '\n') (line column : Nat) :
    placeFrom line column offset (c :: rest) =
      if c = '\n' then placeFrom (line + 1) 1 (offset - c.utf8Size) rest
      else placeFrom line (column + Text.columnWidth c) (offset - c.utf8Size) rest := by
  rw [placeFrom, if_neg (by simpa using ahead)]
  by_cases feeds : c = '\n'
  · subst feeds
    rfl
  · by_cases returns : c = '\r'
    · simp [returns, fed returns]
    · simp [feeds, returns]

theorem placeFrom_eq {offset : Nat} {text : List Char} (paired : IsPaired (inFront offset text))
    (line column : Nat) :
    placeFrom line column offset text =
      (line + (inFront offset text).count '\n',
        if '\n' ∈ inFront offset text then columnsWidth (openLine (inFront offset text)) + 1
        else columnsWidth (inFront offset text) + column) := by
  induction text generalizing line column offset with
  | nil => simp [placeFrom, inFront, columnsWidth]
  | cons c rest ih =>
      by_cases start : offset = 0
      · simp [placeFrom, inFront, start, columnsWidth]
      · rw [inFront, if_neg start] at paired ⊢
        obtain ⟨fed, paired⟩ := paired
        have further (returns : c = '\r') : rest.head? = some '\n' := by
          obtain ⟨behind, split⟩ := Text.inFront_prefix (offset - c.utf8Size) rest
          rw [← split, List.head?_append, fed returns]
          rfl
        rw [placeFrom_cons start further, ih paired, ih paired]
        generalize inFront (offset - c.utf8Size) rest = front
        by_cases feeds : c = '\n'
        · subst feeds
          rw [if_pos rfl, if_pos List.mem_cons_self, openLine_of_mem List.mem_cons_self,
            List.count_cons_self]
          by_cases broken : '\n' ∈ front
          · rw [if_pos broken]
            exact Prod.ext (by omega) rfl
          · rw [if_neg broken, openLine_of_not_mem broken]
            exact Prod.ext (by omega) rfl
        · rw [if_neg feeds, List.count_cons_of_ne feeds]
          by_cases broken : '\n' ∈ front
          · rw [if_pos broken, if_pos (List.mem_cons_of_mem c broken),
              openLine_of_mem (List.mem_cons_of_mem c broken)]
          · rw [if_neg broken, if_neg (by simp [broken, Ne.symm feeds]), Text.columnsWidth_cons]
            exact Prod.ext rfl (by omega)

/-- The place of a byte, if every carriage return in front of it has its line feed there. -/
theorem Source.locate_eq (source : Source) {offset : Nat}
    (paired : IsPaired (inFront offset source.text)) :
    source.locate offset =
      ⟨source.file, (inFront offset source.text).count '\n' + 1,
        columnsWidth (openLine (inFront offset source.text)) + 1⟩ := by
  unfold locate place
  rw [placeFrom_eq paired]
  dsimp only
  split
  · rw [Nat.add_comm]
  · rename_i single
    rw [openLine_of_not_mem single, Nat.add_comm]

theorem lineAt_locate (source : Source) {offset : Nat}
    (paired : IsPaired (inFront offset source.text)) :
    (Text.lineAt (String.ofList source.text) (source.locate offset).line).toList =
      openLine (inFront offset source.text) ++
        Text.firstLine (source.text.drop (inFront offset source.text).length) := by
  have parts := List.prefix_iff_eq_append.mp (Text.inFront_prefix offset source.text)
  have line := Text.lineAt_append paired
    (source.text.drop (inFront offset source.text).length)
  rw [parts] at line
  rw [source.locate_eq paired, line, String.toList_ofList]

end Script

end MessageCatalog
