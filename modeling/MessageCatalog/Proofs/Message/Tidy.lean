import MessageCatalog.Proofs.Message.Grammar
import MessageCatalog.Proofs.Text.Collapsing

/-!
Messages up to white space. A message is tidied by collapsing its texts, and by trimming those at
the ends of its options again; its arguments stay as they are. Two messages with one tidy form
differ in nothing but the white space of their texts.
-/

namespace MessageCatalog.Message

mutual

def Element.tidy : Element → Element
  | .text content => .text (Text.collapsed content)
  | .escapedHash => .escapedHash
  | .argument name none => .argument name none
  | .argument name (some format) => .argument name (some format.tidy)

def Format.tidy : Format → Format
  | .simple kind style => .simple kind style
  | .plural ordinal offset options => .plural ordinal offset (tidyOptions options)
  | .select options => .select (tidyOptions options)

def Choice.tidy : Choice → Choice
  | .mk selector body => .mk selector (trimBody (tidyElements body))

def tidyElements : List Element → List Element
  | [] => []
  | first :: rest => first.tidy :: tidyElements rest

def tidyOptions : List Choice → List Choice
  | [] => []
  | first :: rest => first.tidy :: tidyOptions rest

end

theorem isText_tidy (element : Element) : element.tidy.isText = element.isText := by
  match element with
  | .text content => rfl
  | .escapedHash => rfl
  | .argument name none => rfl
  | .argument name (some format) => rfl

theorem tidyElements_eq_map (elements : List Element) :
    tidyElements elements = elements.map Element.tidy := by
  induction elements with
  | nil => rfl
  | cons first rest ih => rw [tidyElements, ih, List.map_cons]

theorem tidyOptions_eq_nil_iff {options : List Choice} :
    tidyOptions options = [] ↔ options = [] := by
  cases options <;> simp [tidyOptions]

/-- Collapses the characters among some pieces; `inRun` says whether a run is already open. -/
def collapsePieces : Bool → List Piece → List Piece
  | _, [] => []
  | inRun, .char x :: rest =>
      if Text.isBlank x then
        if inRun then collapsePieces true rest else .char ' ' :: collapsePieces true rest
      else .char x :: collapsePieces false rest
  | _, .whole element :: rest => .whole element.tidy :: collapsePieces false rest

variable {inRun : Bool} {found rest : List Piece} {elements : List Element}

theorem collapsePieces_visible {x : Char} (visible : Text.isBlank x = false) :
    collapsePieces inRun (.char x :: rest) = .char x :: collapsePieces false rest := by
  rw [collapsePieces, if_neg (by simp [visible])]

theorem collapsePieces_chars (inRun : Bool) (text : List Char) (rest : List Piece) :
    collapsePieces inRun (text.map .char ++ rest) =
      (Text.collapseFrom inRun text).map .char ++
        collapsePieces (Text.runBehind inRun text) rest := by
  induction text generalizing inRun with
  | nil => rfl
  | cons x text ih =>
      rw [List.map_cons, List.cons_append, Text.runBehind_cons]
      cases blank : Text.isBlank x with
      | false =>
          rw [collapsePieces_visible blank, ih, Text.collapseFrom_visible blank]
          rfl
      | true =>
          rw [collapsePieces, Text.collapseFrom, if_pos blank, if_pos blank]
          split
          · exact ih true
          · rw [ih]
            rfl

theorem collapsePieces_append (inRun : Bool) (found : List Piece) :
    ∃ behind, ∀ rest, collapsePieces inRun (found ++ rest) =
      collapsePieces inRun found ++ collapsePieces behind rest := by
  induction found generalizing inRun with
  | nil => exact ⟨inRun, fun _ => rfl⟩
  | cons piece found ih =>
      cases piece with
      | whole element =>
          obtain ⟨behind, same⟩ := ih false
          exact ⟨behind, fun rest => congrArg _ (same rest)⟩
      | char x =>
          cases blank : Text.isBlank x with
          | false =>
              obtain ⟨behind, same⟩ := ih false
              refine ⟨behind, fun rest => ?_⟩
              rw [List.cons_append, collapsePieces_visible blank, collapsePieces_visible blank,
                same, List.cons_append]
          | true =>
              obtain ⟨behind, same⟩ := ih true
              refine ⟨behind, fun rest => ?_⟩
              rw [List.cons_append, collapsePieces, collapsePieces, if_pos blank, if_pos blank,
                same]
              split <;> rfl

theorem collapsePieces_apart
    (apart : (Element.text content :: elements).IsChain fun first second =>
      ¬ (first.isText = true ∧ second.isText = true)) (inRun : Bool) :
    collapsePieces inRun (piecesOf elements) = collapsePieces false (piecesOf elements) := by
  cases elements with
  | nil => rfl
  | cons second rest =>
      have other : second.isText = false := by
        simpa [Element.isText] using (List.isChain_cons_cons.mp apart).1
      rw [piecesOf_cons, pieces_of_not_text other]
      rfl

theorem piecesOf_tidyElements
    (apart : elements.IsChain fun first second => ¬ (first.isText = true ∧ second.isText = true)) :
    piecesOf (tidyElements elements) = collapsePieces false (piecesOf elements) := by
  induction elements with
  | nil => rfl
  | cons first rest ih =>
      rw [tidyElements, piecesOf_cons, piecesOf_cons, ih apart.tail]
      cases isText : first.isText with
      | false =>
          rw [pieces_of_not_text isText, pieces_of_not_text ((isText_tidy first).trans isText)]
          rfl
      | true =>
          cases first with
          | escapedHash => simp [Element.isText] at isText
          | argument name format => simp [Element.isText] at isText
          | text content =>
              rw [Element.tidy, Element.pieces, Element.pieces, collapsePieces_chars,
                collapsePieces_apart apart (Text.runBehind ..),
                Text.collapsed, String.toList_ofList, Text.collapse]

theorem collapsed_filled {content : String} (filled : content.toList ≠ []) :
    (Text.collapsed content).toList ≠ [] := by
  obtain ⟨x, text, shape⟩ := List.exists_cons_of_ne_nil filled
  rw [Text.collapsed, String.toList_ofList, shape, Text.collapse, Text.collapseFrom]
  split <;> simp

theorem joins_tidy (joined : Joins found elements) :
    Joins (collapsePieces false found) (tidyElements elements) := by
  obtain ⟨rfl, filled, apart⟩ := joined
  refine ⟨piecesOf_tidyElements apart, ?_, ?_⟩
  · rw [tidyElements_eq_map]
    refine List.forall_mem_map.mpr fun element member => ?_
    have present := filled element member
    match element with
    | .text content =>
        simpa [Element.tidy, Element.isEmptyText] using
          collapsed_filled (by simpa [Element.isEmptyText] using present)
    | .escapedHash => rfl
    | .argument name none => rfl
    | .argument name (some format) => rfl
  · refine apart_congr ?_ apart
    rw [tidyElements_eq_map, List.map_map]
    exact List.map_congr_left fun element _ => isText_tidy element

/-! ### Trimming -/

theorem rdropWhile_cons (p : Piece → Bool) (piece : Piece) (rest : List Piece) :
    (piece :: rest).rdropWhile p =
      if (rest.rdropWhile p).isEmpty then [piece].rdropWhile p else piece :: rest.rdropWhile p :=
  rdropWhile_append p [piece] rest

theorem dropWhile_rdropWhile (p : Piece → Bool) (found : List Piece) :
    (found.rdropWhile p).dropWhile p = (found.dropWhile p).rdropWhile p := by
  induction found with
  | nil => rfl
  | cons piece rest ih =>
      cases accepted : p piece with
      | true =>
          rw [List.dropWhile_cons_of_pos accepted, ← ih, rdropWhile_cons]
          split
          · rename_i empty
            rw [List.isEmpty_iff.mp empty]
            simp [List.rdropWhile, accepted]
          · exact List.dropWhile_cons_of_pos accepted
      | false =>
          have refused : ¬ p piece = true := by simp [accepted]
          rw [List.dropWhile_cons_of_neg refused, rdropWhile_cons]
          split
          · simp [List.rdropWhile, accepted]
          · exact List.dropWhile_cons_of_neg refused

theorem isBlank_of_isSpace {x : Char} (space : isSpace x = true) : Text.isBlank x = true := by
  simp only [isSpace, Bool.or_eq_true, beq_iff_eq] at space
  rcases space with ((rfl | rfl) | rfl) | rfl <;> rfl

theorem dropWhile_collapsePieces (inRun other : Bool) (found : List Piece) :
    (collapsePieces inRun found).dropWhile Piece.isBlank =
      (collapsePieces other found).dropWhile Piece.isBlank := by
  have opened (inRun : Bool) {x : Char} {rest : List Piece} (blank : Text.isBlank x = true) :
      (collapsePieces inRun (.char x :: rest)).dropWhile Piece.isBlank =
        (collapsePieces true rest).dropWhile Piece.isBlank := by
    rw [collapsePieces, if_pos blank]
    split
    · rfl
    · exact List.dropWhile_cons_of_pos rfl
  match found with
  | [] => rfl
  | .whole element :: rest => rfl
  | .char x :: rest =>
      cases blank : Text.isBlank x with
      | true => rw [opened inRun blank, opened other blank]
      | false => rw [collapsePieces_visible blank, collapsePieces_visible blank]

theorem dropWhile_collapsePieces_dropWhile (inRun : Bool) (found : List Piece) :
    (collapsePieces inRun (found.dropWhile Piece.isBlank)).dropWhile Piece.isBlank =
      (collapsePieces inRun found).dropWhile Piece.isBlank := by
  induction found with
  | nil => rfl
  | cons piece rest ih =>
      cases accepted : piece.isBlank with
      | false => rw [List.dropWhile_cons_of_neg (by simp [accepted])]
      | true =>
          rw [List.dropWhile_cons_of_pos accepted, ih]
          cases piece with
          | whole element => cases accepted
          | char x =>
              rw [collapsePieces, if_pos (isBlank_of_isSpace accepted)]
              split
              · exact dropWhile_collapsePieces _ _ rest
              · rw [List.dropWhile_cons_of_pos rfl]
                exact dropWhile_collapsePieces _ _ rest

theorem rdropWhile_collapsePieces (inRun : Bool) (found : List Piece) :
    (collapsePieces inRun (found.rdropWhile Piece.isBlank)).rdropWhile Piece.isBlank =
      (collapsePieces inRun found).rdropWhile Piece.isBlank := by
  induction found using List.reverseRecOn with
  | nil => rfl
  | append_singleton found piece ih =>
      cases accepted : piece.isBlank with
      | false => rw [List.rdropWhile_concat_neg _ _ _ (by simp [accepted])]
      | true =>
          rw [List.rdropWhile_concat_pos _ _ _ accepted, ih]
          obtain ⟨behind, same⟩ := collapsePieces_append inRun found
          rw [same]
          cases piece with
          | whole element => cases accepted
          | char x =>
              rw [collapsePieces, if_pos (isBlank_of_isSpace accepted), collapsePieces]
              split
              · rw [List.append_nil]
              · exact (List.rdropWhile_concat_pos _ _ _ rfl).symm

theorem trimPieces_collapsePieces (inRun : Bool) (found : List Piece) :
    trimPieces (collapsePieces inRun (trimPieces found)) =
      trimPieces (collapsePieces inRun found) := by
  unfold trimPieces
  rw [← dropWhile_rdropWhile, rdropWhile_collapsePieces, dropWhile_rdropWhile,
    dropWhile_collapsePieces_dropWhile]

theorem joins_tidy_body {body : List Element} (joined : Joins (trimPieces found) body) :
    Joins (trimPieces (collapsePieces false found)) (trimBody (tidyElements body)) := by
  rw [← trimPieces_collapsePieces]
  exact joins_trimBody (joins_tidy joined)

end MessageCatalog.Message
