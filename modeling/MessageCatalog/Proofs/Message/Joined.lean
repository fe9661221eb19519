import MessageCatalog.Proofs.Message.Canonical

/-!
Messages and the pieces they are joined from. A message whose texts are as long as they can be is
joined from its own pieces, and trimming takes pieces away unless its ends hold no white space.
-/

namespace MessageCatalog.Message

def Element.pieces : Element → List Piece
  | .text content => content.toList.map .char
  | .escapedHash => [.whole .escapedHash]
  | .argument name format => [.whole (.argument name format)]

def piecesOf (elements : List Element) : List Piece :=
  elements.flatMap Element.pieces

theorem piecesOf_cons (first : Element) (rest : List Element) :
    piecesOf (first :: rest) = first.pieces ++ piecesOf rest := by
  rfl

theorem pieces_of_not_text {element : Element} (other : element.isText = false) :
    element.pieces = [.whole element] := by
  cases element with
  | text content => simp [Element.isText] at other
  | escapedHash => rfl
  | argument name format => rfl

/-- A piece as the readers find it: no text is a piece as a whole. -/
def Piece.IsProper : Piece → Prop
  | .char _ => True
  | .whole element => element.isText = false

theorem isProper_of_mem_piecesOf {elements : List Element} {piece : Piece}
    (member : piece ∈ piecesOf elements) : piece.IsProper := by
  obtain ⟨element, _, inside⟩ := List.mem_flatMap.mp member
  cases element with
  | text content =>
      obtain ⟨x, _, rfl⟩ := List.mem_map.mp inside
      trivial
  | escapedHash =>
      obtain rfl := List.mem_singleton.mp inside
      rfl
  | argument name format =>
      obtain rfl := List.mem_singleton.mp inside
      rfl

theorem exists_text_of_head {elements : List Element}
    (text : elements.head?.any Element.isText = true) :
    ∃ content rest, elements = .text content :: rest := by
  cases elements with
  | nil => simp at text
  | cons first rest =>
      cases first with
      | text content => exact ⟨content, rest, rfl⟩
      | escapedHash => simp [Element.isText] at text
      | argument name format => simp [Element.isText] at text

theorem joinPieces_char_text {x : Char} {rest : List Piece} {content : String}
    {elements : List Element} (joined : joinPieces rest = .text content :: elements) :
    joinPieces (.char x :: rest) = .text (String.ofList (x :: content.toList)) :: elements := by
  simp only [joinPieces, joined]

theorem joinPieces_char_other {x : Char} {rest : List Piece}
    (other : (joinPieces rest).head?.any Element.isText = false) :
    joinPieces (.char x :: rest) = .text (String.ofList [x]) :: joinPieces rest := by
  rw [joinPieces]
  split
  · rename_i shown
    simp [shown, Element.isText] at other
  · rfl

theorem piecesOf_joinPieces (pieces : List Piece) (proper : ∀ piece ∈ pieces, piece.IsProper) :
    piecesOf (joinPieces pieces) = pieces := by
  induction pieces with
  | nil => rfl
  | cons piece rest ih =>
      have later := ih (fun other member => proper other (by simp [member]))
      cases piece with
      | whole element =>
          have other : element.isText = false := proper (.whole element) (by simp)
          rw [joinPieces, piecesOf_cons, pieces_of_not_text other, later]
          rfl
      | char x =>
          cases shown : (joinPieces rest).head?.any Element.isText with
          | false =>
              rw [joinPieces_char_other shown, piecesOf_cons, later]
              simp [Element.pieces]
          | true =>
              obtain ⟨content, elements, joined⟩ := exists_text_of_head shown
              rw [joinPieces_char_text joined, ← later, joined, piecesOf_cons, piecesOf_cons]
              simp [Element.pieces]

theorem joinPieces_nonempty {pieces : List Piece} (proper : ∀ piece ∈ pieces, piece.IsProper) :
    ∀ element ∈ joinPieces pieces, element.isEmptyText = false := by
  induction pieces with
  | nil => simp [joinPieces]
  | cons piece rest ih =>
      have later := ih (fun other member => proper other (by simp [member]))
      cases piece with
      | whole element =>
          have other : element.isText = false := proper (.whole element) (by simp)
          rw [joinPieces, List.forall_mem_cons]
          refine ⟨?_, later⟩
          cases element with
          | text content => simp [Element.isText] at other
          | escapedHash => rfl
          | argument name format => rfl
      | char x =>
          cases shown : (joinPieces rest).head?.any Element.isText with
          | false =>
              rw [joinPieces_char_other shown, List.forall_mem_cons]
              exact ⟨by simp [Element.isEmptyText], later⟩
          | true =>
              obtain ⟨content, elements, joined⟩ := exists_text_of_head shown
              rw [joined, List.forall_mem_cons] at later
              rw [joinPieces_char_text joined, List.forall_mem_cons]
              exact ⟨by simp [Element.isEmptyText], later.2⟩

theorem joinPieces_head_nonempty {pieces : List Piece}
    (proper : ∀ piece ∈ pieces, piece.IsProper) {content : String} {elements : List Element}
    (joined : joinPieces pieces = .text content :: elements) : content.toList ≠ [] := by
  have nonempty := joinPieces_nonempty proper (.text content) (by simp [joined])
  intro empty
  simp [Element.isEmptyText, String.toList_eq_nil_iff.mp empty] at nonempty

theorem joinPieces_chars_other {text : List Char} {rest : List Piece} (nonempty : text ≠ [])
    (other : (joinPieces rest).head?.any Element.isText = false) :
    joinPieces (text.map .char ++ rest) = .text (String.ofList text) :: joinPieces rest := by
  induction text with
  | nil => exact absurd rfl nonempty
  | cons head tail ih =>
      cases tail with
      | nil => exact joinPieces_char_other other
      | cons second tail =>
          have later := ih (by simp)
          rw [List.map_cons, List.cons_append, joinPieces_char_text later, String.toList_ofList]

theorem joinPieces_chars_text {text : List Char} {rest : List Piece} {content : String}
    {elements : List Element} (joined : joinPieces rest = .text content :: elements) :
    joinPieces (text.map .char ++ rest) =
      .text (String.ofList (text ++ content.toList)) :: elements := by
  induction text with
  | nil => simpa using joined
  | cons head tail ih =>
      rw [List.map_cons, List.cons_append, joinPieces_char_text ih, String.toList_ofList]
      rfl

def Element.isReadable : Element → Bool
  | .text content => content.toList.all fun c => !isControl c
  | element => element.isCanonical

theorem areCanonical_iff {elements : List Element} :
    areCanonical elements = true ↔
      joinPieces (piecesOf elements) = elements ∧ ∀ e ∈ elements, e.isReadable = true := by
  induction elements with
  | nil => simp [areCanonical, piecesOf, joinPieces]
  | cons first rest ih =>
      have proper : ∀ piece ∈ piecesOf rest, piece.IsProper :=
        fun piece member => isProper_of_mem_piecesOf member
      simp only [areCanonical, Bool.and_eq_true, ih, List.forall_mem_cons, piecesOf_cons]
      cases isText : first.isText with
      | false =>
          rw [pieces_of_not_text isText, List.singleton_append, joinPieces]
          have same : first.isReadable = first.isCanonical := by
            cases first with
            | text content => simp [Element.isText] at isText
            | escapedHash => rfl
            | argument name format => rfl
          simp only [same, Bool.false_and, Bool.not_false, and_true, List.cons.injEq, true_and]
          exact and_left_comm
      | true =>
          cases first with
          | escapedHash => simp [Element.isText] at isText
          | argument name format => simp [Element.isText] at isText
          | text content =>
              simp only [Element.isCanonical, Element.isReadable, Element.pieces, Bool.and_eq_true,
                Bool.true_and, Bool.not_eq_true', List.isEmpty_eq_false_iff]
              constructor
              · rintro ⟨⟨⟨nonempty, plain⟩, apart⟩, joined, readable⟩
                rw [← joined] at apart
                refine ⟨?_, plain, readable⟩
                rw [joinPieces_chars_other nonempty apart, String.ofList_toList, joined]
              · rintro ⟨joined, plain, readable⟩
                cases shown : (joinPieces (piecesOf rest)).head?.any Element.isText with
                | false =>
                    have nonempty : content.toList ≠ [] := by
                      intro empty
                      rw [empty, List.map_nil, List.nil_append] at joined
                      exact joinPieces_head_nonempty proper joined empty
                    rw [joinPieces_chars_other nonempty shown] at joined
                    have same := (List.cons.inj joined).2
                    exact ⟨⟨⟨nonempty, plain⟩, same ▸ shown⟩, same, readable⟩
                | true =>
                    -- the text and the one behind it would be joined to a longer one
                    obtain ⟨other, elements, second⟩ := exists_text_of_head shown
                    rw [joinPieces_chars_text second] at joined
                    have same := congrArg String.toList (Element.text.inj (List.cons.inj joined).1)
                    rw [String.toList_ofList] at same
                    exact absurd (List.append_right_eq_self.mp same)
                      (joinPieces_head_nonempty proper second)

theorem dropWhile_of_head {p : Char → Bool} {text : List Char} (first : text.head?.any p = false) :
    text.dropWhile p = text := by
  cases text with
  | nil => rfl
  | cons head tail =>
      have refused : p head = false := by simpa using first
      simp [List.dropWhile, refused]

theorem dropWhile_length_le (p : Char → Bool) (text : List Char) :
    (text.dropWhile p).length ≤ text.length :=
  (List.dropWhile_sublist p).length_le

theorem head_of_dropWhile_length {p : Char → Bool} {text : List Char}
    (same : (text.dropWhile p).length = text.length) : text.head?.any p = false := by
  cases text with
  | nil => rfl
  | cons head tail =>
      cases accepted : p head with
      | false => simp [accepted]
      | true =>
          rw [List.dropWhile_cons_of_pos accepted] at same
          have shorter := dropWhile_length_le p tail
          simp only [List.length_cons] at same
          omega

theorem trimHead_of_visible {elements : List Element} (visible : startsWithSpace elements = false) :
    trimHead elements = elements := by
  unfold trimHead
  split
  · rw [dropWhile_of_head visible, String.ofList_toList]
  · rfl

theorem trimHead_shorter (elements : List Element) :
    (piecesOf (trimHead elements)).length ≤ (piecesOf elements).length ∧
      ((piecesOf (trimHead elements)).length = (piecesOf elements).length →
        startsWithSpace elements = false) := by
  unfold trimHead
  split
  · rename_i content rest
    have shorter := dropWhile_length_le isSpace content.toList
    simp only [piecesOf_cons, Element.pieces, List.length_append, List.length_map,
      String.toList_ofList]
    refine ⟨by omega, ?_⟩
    intro same
    exact head_of_dropWhile_length (by omega)
  · rename_i notText
    refine ⟨Nat.le_refl _, fun _ => ?_⟩
    unfold startsWithSpace
    split
    · exact absurd rfl (notText _ _)
    · rfl

theorem trimLast_cons_cons (first second : Element) (rest : List Element) :
    trimLast (first :: second :: rest) = first :: trimLast (second :: rest) := by
  cases first <;> rfl

theorem endsWithSpace_cons_cons (first second : Element) (rest : List Element) :
    endsWithSpace (first :: second :: rest) = endsWithSpace (second :: rest) := by
  simp only [endsWithSpace, List.getLast?_cons_cons]

theorem trimLast_of_visible {elements : List Element} (visible : endsWithSpace elements = false) :
    trimLast elements = elements := by
  induction elements with
  | nil => rfl
  | cons first rest ih =>
      cases rest with
      | cons second rest =>
          rw [endsWithSpace_cons_cons] at visible
          rw [trimLast_cons_cons, ih visible]
      | nil =>
          cases first with
          | text content =>
              have last : content.toList.reverse.head?.any isSpace = false := by
                simpa [endsWithSpace] using visible
              rw [trimLast, dropWhile_of_head last, List.reverse_reverse, String.ofList_toList]
          | escapedHash => rfl
          | argument name format => rfl

theorem trimLast_shorter (elements : List Element) :
    (piecesOf (trimLast elements)).length ≤ (piecesOf elements).length ∧
      ((piecesOf (trimLast elements)).length = (piecesOf elements).length →
        endsWithSpace elements = false) := by
  induction elements with
  | nil => exact ⟨Nat.le_refl _, fun _ => rfl⟩
  | cons first rest ih =>
      cases rest with
      | cons second rest =>
          rw [trimLast_cons_cons, endsWithSpace_cons_cons, piecesOf_cons, piecesOf_cons first,
            List.length_append, List.length_append]
          exact ⟨by omega, fun same => ih.2 (by omega)⟩
      | nil =>
          cases first with
          | text content =>
              have shorter := dropWhile_length_le isSpace content.toList.reverse
              simp only [trimLast, piecesOf_cons, Element.pieces, List.length_append,
                List.length_map, String.toList_ofList, List.length_reverse] at shorter ⊢
              refine ⟨by omega, ?_⟩
              intro same
              have last : content.toList.reverse.head?.any isSpace = false :=
                head_of_dropWhile_length (by simp only [List.length_reverse]; omega)
              simpa [endsWithSpace] using last
          | escapedHash => exact ⟨Nat.le_refl _, fun _ => rfl⟩
          | argument name format => exact ⟨Nat.le_refl _, fun _ => rfl⟩

theorem piecesOf_filter_nonempty (elements : List Element) :
    piecesOf (elements.filter fun element => !element.isEmptyText) = piecesOf elements := by
  induction elements with
  | nil => rfl
  | cons first rest ih =>
      cases empty : first.isEmptyText with
      | false => rw [List.filter_cons_of_pos (by simp [empty]), piecesOf_cons, piecesOf_cons, ih]
      | true =>
          rw [List.filter_cons_of_neg (by simp [empty]), piecesOf_cons, ih]
          cases first with
          | text content =>
              have nothing : content = "" := by simpa [Element.isEmptyText] using empty
              simp [Element.pieces, nothing]
          | escapedHash => simp [Element.isEmptyText] at empty
          | argument name format => simp [Element.isEmptyText] at empty

/-- An option's message is left as it is exactly if its texts are as long as they can be and no
white space stands at its two ends. -/
theorem trimBody_eq_iff {elements : List Element} :
    trimBody (joinPieces (piecesOf elements)) = elements ↔
      joinPieces (piecesOf elements) = elements ∧ startsWithSpace elements = false ∧
        endsWithSpace elements = false := by
  have proper : ∀ piece ∈ piecesOf elements, piece.IsProper :=
    fun piece member => isProper_of_mem_piecesOf member
  have full : (joinPieces (piecesOf elements)).filter (fun element => !element.isEmptyText) =
      joinPieces (piecesOf elements) :=
    List.filter_eq_self.mpr (fun element member => by simp [joinPieces_nonempty proper element member])
  constructor
  · intro trimmed
    have pieces := piecesOf_joinPieces (piecesOf elements) proper
    have head := trimHead_shorter (joinPieces (piecesOf elements))
    have last := trimLast_shorter (trimHead (joinPieces (piecesOf elements)))
    -- a piece trimmed away would be missing in the elements
    have same : (piecesOf (trimLast (trimHead (joinPieces (piecesOf elements))))).length =
        (piecesOf elements).length := by
      rw [← piecesOf_filter_nonempty]
      exact congrArg (fun body => (piecesOf body).length) trimmed
    rw [pieces] at head
    have starts := head.2 (by omega)
    rw [trimHead_of_visible starts] at last same
    have ends := last.2 (by rw [same, pieces])
    have joined : joinPieces (piecesOf elements) = elements := by
      rw [trimBody, trimHead_of_visible starts, trimLast_of_visible ends, full] at trimmed
      exact trimmed
    rw [joined] at starts ends
    exact ⟨joined, starts, ends⟩
  · rintro ⟨joined, starts, ends⟩
    rw [joined] at full ⊢
    rw [trimBody, trimHead_of_visible starts, trimLast_of_visible ends, full]

def wholes : List Piece → List Element :=
  List.filterMap fun
    | .char _ => none
    | .whole element => some element

theorem wholes_append (first second : List Piece) :
    wholes (first ++ second) = wholes first ++ wholes second :=
  List.filterMap_append

theorem wholes_pieces_text (content : String) : wholes (Element.text content).pieces = [] := by
  simp [wholes, Element.pieces]

theorem wholes_trimLast (elements : List Element) :
    wholes (piecesOf (trimLast elements)) = wholes (piecesOf elements) := by
  induction elements with
  | nil => rfl
  | cons first rest ih =>
      cases rest with
      | cons second rest =>
          rw [trimLast_cons_cons, piecesOf_cons, piecesOf_cons first, wholes_append, wholes_append,
            ih]
      | nil =>
          cases first with
          | text content =>
              rw [trimLast, piecesOf_cons, piecesOf_cons, wholes_append, wholes_append,
                wholes_pieces_text, wholes_pieces_text]
          | escapedHash => rfl
          | argument name format => rfl

theorem wholes_trimHead (elements : List Element) :
    wholes (piecesOf (trimHead elements)) = wholes (piecesOf elements) := by
  unfold trimHead
  split
  · rw [piecesOf_cons, piecesOf_cons, wholes_append, wholes_append, wholes_pieces_text,
      wholes_pieces_text]
  · rfl

theorem wholes_trimBody (elements : List Element) :
    wholes (piecesOf (trimBody elements)) = wholes (piecesOf elements) := by
  rw [trimBody, piecesOf_filter_nonempty, wholes_trimLast, wholes_trimHead]

end MessageCatalog.Message
