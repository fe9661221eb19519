import Mathlib.Data.List.Chain
import MessageCatalog.Proofs.Message.Trail
import MessageCatalog.Proofs.Text.Slicing

/-!
Positions of the parser. It comes from cursor to cursor by short moves over the text in front, so no
position lies in front of an earlier one, behind the end of the text or inside of a character, and
every range between two of them can be cut out of the text.
-/

namespace MessageCatalog.Message

namespace Cursor

/-- A move over one character or none, or a jump. The longest of the jumps leads over `offset:`. -/
def Moves (c d : Cursor) : Prop :=
  ∃ text, c.Spans text d ∧ text.length ≤ 7

inductive Leads : Cursor → List Cursor → Cursor → Prop
  | refl {c : Cursor} : Leads c [] c
  | step {c d e : Cursor} {passed : List Cursor} (moves : c.Moves d) (later : Leads d passed e) :
      Leads c (d :: passed) e

variable {c d e : Cursor} {passed after : List Cursor} {text : List Char}

theorem Moves.next (c : Cursor) : c.Moves c.next := by
  cases shown : c.rest with
  | nil =>
      have same : c.next = c := by simp [Cursor.next, shown]
      rw [same]
      exact ⟨[], .refl c, by simp⟩
  | cons head tail => exact ⟨[head], .next shown, by simp⟩

theorem Leads.append (first : Leads c passed d) (second : Leads d after e) :
    Leads c (passed ++ after) e := by
  induction first with
  | refl => exact second
  | step moves _ ih => exact .step moves (ih second)

theorem Leads.getLast? (leads : Leads c passed d) : (c :: passed).getLast? = some d := by
  induction leads with
  | refl => rfl
  | step _ _ ih => rw [List.getLast?_cons_cons, ih]

theorem Leads.mem (leads : Leads c passed d) : d ∈ c :: passed :=
  List.mem_of_getLast? leads.getLast?

theorem Leads.chain (leads : Leads c passed d) : (c :: passed).IsChain Moves := by
  induction leads with
  | refl => exact .singleton _
  | step moves _ ih => exact .cons_cons moves ih

theorem Moves.reaches (moves : c.Moves d) : c.Reaches d := by
  obtain ⟨text, spans, _⟩ := moves
  exact ⟨text, spans⟩

theorem Leads.reaches (leads : Leads c passed d) : ∀ e ∈ c :: passed, c.Reaches e := by
  induction leads with
  | refl =>
      rintro e (_ | ⟨_, ⟨⟩⟩)
      exact .refl _
  | step moves _ ih =>
      rintro e (_ | ⟨_, later⟩)
      · exact .refl _
      · exact moves.reaches.trans (ih e later)

theorem Leads.pairwise (leads : Leads c passed d) : (c :: passed).Pairwise Reaches := by
  induction leads with
  | refl => exact List.pairwise_singleton _ _
  | step moves later ih =>
      refine List.pairwise_cons.mpr ⟨fun e member => ?_, ih⟩
      exact moves.reaches.trans (later.reaches e member)

theorem leads_behindEach (spans : c.Spans text d) : Leads c (Trail.behindEach c text) d := by
  induction text generalizing c with
  | nil => rw [spans.eq_of_nil]; exact .refl
  | cons head tail ih => exact .step (.next c) (ih spans.cons.2)

end Cursor

namespace Trail

open Cursor (Leads)

/-- A reading that ends where it says, or complains about a cursor that it has come by. The cursors
`seen` are those of the readings before it. -/
structure Sound {α : Type} (seen : List Cursor) (c : Cursor) (position : α → Cursor)
    (r : Trail α) : Prop where
  leads : ∃ d, Leads c r.passed d ∧ ∀ found, r.outcome = .ok found → position found = d
  fails : ∀ e, r.outcome = .error e → ∃ d ∈ seen ++ c :: r.passed, e.offset = d.offset

section Rules

variable {α β : Type} {seen : List Cursor} {c d : Cursor} {position : α → Cursor}
  {follow : β → Cursor}

theorem sound_pure {found : α} (here : position found = c) :
    Sound seen c position (pure found) := by
  refine ⟨⟨c, .refl, ?_⟩, ?_⟩
  · rintro _ ⟨⟩
    exact here
  · rintro _ ⟨⟩

theorem sound_fail {cause : Cause} (known : d ∈ seen ++ [c]) :
    Sound seen c position (fail d cause) := by
  refine ⟨⟨c, .refl, ?_⟩, ?_⟩
  · rintro _ ⟨⟩
  · rintro _ ⟨⟩
    exact ⟨d, known, rfl⟩

theorem Sound.bind {first : Trail α} {next : α → Trail β} (sound : Sound seen c position first)
    (later : ∀ found, first.outcome = .ok found →
      Sound (seen ++ c :: first.passed) (position found) follow (next found)) :
    Sound seen c follow (first >>= next) := by
  obtain ⟨m, toMiddle, ends⟩ := sound.leads
  change Sound seen c follow (Trail.bind first next)
  unfold Trail.bind
  split
  next found shown =>
    obtain rfl := ends found shown
    obtain ⟨⟨d, leads, stops⟩, fails⟩ := later found shown
    refine ⟨⟨d, toMiddle.append leads, stops⟩, fun e failed => ?_⟩
    obtain ⟨d, member, offset⟩ := fails e failed
    refine ⟨d, ?_, offset⟩
    have middle := toMiddle.mem
    simp only [List.mem_append, List.mem_cons] at member middle ⊢
    rcases member with (earlier | here | passed) | rfl | after
    · exact .inl earlier
    · exact .inr (.inl here)
    · exact .inr (.inr (.inl passed))
    · rcases middle with here | passed
      · exact .inr (.inl here)
      · exact .inr (.inr (.inl passed))
    · exact .inr (.inr (.inr after))
  next e shown =>
    refine ⟨⟨m, toMiddle, ?_⟩, ?_⟩
    · rintro _ ⟨⟩
    · rintro _ ⟨⟩
      exact sound.fails e shown

theorem Sound.bind_pair {first : Trail (α × Cursor)} {next : α × Cursor → Trail β}
    (sound : Sound seen c Prod.snd first)
    (later : ∀ found after, first.outcome = .ok (found, after) →
      Sound (seen ++ c :: first.passed) after follow (next (found, after))) :
    Sound seen c follow (first >>= next) :=
  sound.bind fun found read => later found.1 found.2 read

theorem Sound.ite {condition : Prop} [Decidable condition] {first second : Trail α}
    (holds : Sound seen c position first) (fails : Sound seen c position second) :
    Sound seen c position (if condition then first else second) := by
  split
  · exact holds
  · exact fails

theorem sound_moveTo (moves : c.Moves d) : Sound seen c id (moveTo d) := by
  refine ⟨⟨d, .step moves .refl, ?_⟩, ?_⟩
  · rintro _ ⟨⟩
    rfl
  · rintro _ ⟨⟩

end Rules

section Readers

variable {seen : List Cursor} (c : Cursor)

theorem sound_takeRun (accepts : Char → Bool) : Sound seen c Prod.snd (takeRun accepts c) := by
  refine ⟨⟨_, Cursor.leads_behindEach (c.takeRun_spec accepts).1, ?_⟩, ?_⟩
  · rintro _ ⟨⟩
    rfl
  · rintro _ ⟨⟩

theorem sound_skipSpace : Sound seen c id (skipSpace c) :=
  (sound_takeRun c isSpace).bind fun _ _ => sound_pure rfl

theorem sound_expect (wanted : Char) : Sound seen c id (expect wanted c) := by
  unfold expect
  split
  · exact sound_fail (by simp)
  · exact (sound_moveTo (.next c)).ite (sound_fail (by simp))

theorem moves_behind_escape {c d : Cursor} {piece : Piece}
    (found : Message.escape c = .ok (piece, d)) : c.next.next.Moves d := by
  obtain ⟨text, escaped, spans⟩ := escape_spans found
  have short : text.length ≤ 6 := by
    cases escaped with
    | hash => simp
    | char _ => simp
    | code four _ => simp [four]
  obtain ⟨first, second, behind, rfl⟩ :
      ∃ first second behind, text = first :: second :: behind := by
    cases escaped with
    | hash => exact ⟨_, _, _, rfl⟩
    | char _ => exact ⟨_, _, _, rfl⟩
    | code _ _ => exact ⟨_, _, _, rfl⟩
  refine ⟨behind, spans.cons.2.cons.2, ?_⟩
  simp only [List.length_cons] at short
  omega

theorem escape_error_offset {c : Cursor} {e : SyntaxError} (failed : Message.escape c = .error e) :
    e.offset = c.offset := by
  unfold Message.escape at failed
  split at failed
  case h_5 =>
    split at failed
    · cases failed
    · cases failed
      rfl
  case h_6 =>
    cases failed
    rfl
  all_goals cases failed

theorem sound_escape : Sound seen c Prod.snd (escape c) := by
  refine (sound_moveTo (.next c)).bind fun second atSecond => ?_
  cases atSecond
  refine (sound_moveTo (.next c.next)).bind fun third atThird => ?_
  cases atThird
  split
  next piece after found =>
    refine (sound_moveTo (moves_behind_escape found)).bind fun _ there => ?_
    cases there
    exact sound_pure rfl
  next e failed =>
    refine ⟨⟨_, .refl, ?_⟩, ?_⟩
    · rintro _ ⟨⟩
    · rintro _ ⟨⟩
      exact ⟨c, by simp, escape_error_offset failed⟩

theorem sound_token (fuel : Nat) : Sound seen c Prod.snd (token fuel c) := by
  induction fuel generalizing seen c with
  | zero => exact sound_pure rfl
  | succ fuel ih =>
      unfold token
      split
      · exact sound_pure rfl
      · refine Sound.ite (sound_pure rfl) (.ite ?_ (.ite (sound_fail (by simp)) ?_))
        · refine (sound_escape c).bind_pair fun piece d _ => ?_
          refine (ih d).bind_pair fun rest e _ => ?_
          cases piece with
          | char _ => exact sound_pure rfl
          | whole _ => exact sound_pure rfl
        · refine (sound_moveTo (.next c)).bind fun d _ => ?_
          exact (ih d).bind fun _ _ => sound_pure rfl

theorem sound_number : Sound seen c Prod.snd (number c) := by
  unfold number
  split
  · exact (sound_moveTo (.next c)).bind fun _ _ => sound_pure rfl
  · refine (sound_takeRun c Char.isDigit).bind_pair fun digits after _ => ?_
    exact .ite (sound_fail (by simp)) (sound_pure rfl)

theorem moves_behind_offset {c : Cursor} {rest : List Char}
    (shown : c.rest = 'o' :: 'f' :: 'f' :: 's' :: 'e' :: 't' :: ':' :: rest) :
    c.Moves ⟨c.offset + 7, rest⟩ :=
  ⟨['o', 'f', 'f', 's', 'e', 't', ':'], ⟨shown, rfl⟩, by simp⟩

theorem sound_pluralOffset : Sound seen c Prod.snd (pluralOffset c) := by
  unfold pluralOffset
  split
  next rest shown =>
    refine (sound_moveTo (moves_behind_offset shown)).bind fun d _ => ?_
    refine (sound_skipSpace d).bind fun e _ => ?_
    refine (sound_number e).bind_pair fun digits after _ => ?_
    exact .ite (sound_pure rfl) (sound_fail (by simp))
  · exact sound_pure rfl

theorem sound_argumentName : Sound seen c Prod.snd (argumentName c) := by
  refine (sound_takeRun c _).bind_pair fun name after _ => ?_
  exact .ite (sound_fail (by simp)) (sound_pure rfl)

theorem sound_style : Sound seen c Prod.snd (style c) := by
  refine (sound_skipSpace c).bind fun d _ => ?_
  split
  · refine (sound_moveTo (.next d)).bind fun e _ => ?_
    refine (sound_skipSpace e).bind fun e _ => ?_
    refine (sound_token e _).bind_pair fun text after _ => ?_
    exact .ite (sound_fail (by simp)) (sound_pure rfl)
  · exact sound_pure rfl

theorem sound_selectorText : Sound seen c Prod.snd (selectorText c) := by
  unfold selectorText
  split
  · refine (sound_moveTo (.next c)).bind fun d _ => ?_
    exact (sound_number d).bind fun _ _ => sound_pure rfl
  · exact sound_token c _

theorem sound_selector : Sound seen c Prod.snd (selector c) := by
  refine (sound_selectorText c).bind_pair fun text after _ => ?_
  exact .ite (sound_fail (by simp)) (sound_pure rfl)

theorem sound_announced {read : Cursor → Trail (Format × Cursor)}
    (sound : ∀ {seen} d, Sound seen d Prod.snd (read d)) :
    Sound seen c Prod.snd (announced read c) := by
  unfold announced
  split
  · refine (sound_moveTo (.next c)).bind fun d _ => ?_
    refine (sound_skipSpace d).bind fun e _ => ?_
    exact (sound e).bind fun _ _ => sound_pure rfl
  · exact sound_pure rfl

/-- The mutually recursive readers, with some amount of fuel. -/
structure ReadersSound (fuel : Nat) : Prop where
  pieces : ∀ {seen} nested c, Sound seen c Prod.snd (pieces fuel nested c)
  argument : ∀ {seen} c, Sound seen c Prod.snd (argument fuel c)
  argumentFormat : ∀ {seen} c, Sound seen c Prod.snd (argumentFormat fuel c)
  choices : ∀ {seen} c, Sound seen c Prod.snd (choices fuel c)
  choice : ∀ {seen} c, Sound seen c Prod.snd (choice fuel c)

variable {fuel : Nat} (sound : ReadersSound fuel)

include sound

theorem sound_pieces (nested : Bool) : Sound seen c Prod.snd (pieces (fuel + 1) nested c) := by
  unfold pieces
  split
  · exact .ite (sound_fail (by simp)) (sound_pure rfl)
  · refine Sound.ite (sound_pure rfl) (.ite ?_ (.ite ?_ (.ite (sound_fail (by simp)) ?_)))
    · refine (sound.argument c).bind_pair fun element d _ => ?_
      exact (sound.pieces nested d).bind fun _ _ => sound_pure rfl
    · refine (sound_escape c).bind_pair fun piece d _ => ?_
      exact (sound.pieces nested d).bind fun _ _ => sound_pure rfl
    · refine (sound_moveTo (.next c)).bind fun d _ => ?_
      exact (sound.pieces nested d).bind fun _ _ => sound_pure rfl

theorem sound_argument : Sound seen c Prod.snd (argument (fuel + 1) c) := by
  unfold argument
  refine (sound_expect c _).bind fun opened _ => ?_
  refine (sound_skipSpace opened).bind fun c _ => ?_
  refine (sound_argumentName c).bind_pair fun name named _ => ?_
  refine (sound_skipSpace named).bind fun c _ => ?_
  refine (sound_announced c sound.argumentFormat).bind_pair fun format formatted _ => ?_
  refine (sound_skipSpace formatted).bind fun c _ => ?_
  exact (sound_expect c _).bind fun _ _ => sound_pure rfl

theorem sound_argumentFormat : Sound seen c Prod.snd (argumentFormat (fuel + 1) c) := by
  unfold argumentFormat
  refine (sound_takeRun c _).bind_pair fun letters after _ => ?_
  simp only
  split
  · exact (sound_style after).bind fun _ _ => sound_pure rfl
  · refine .ite ?_ (.ite ?_ (.ite (sound_fail (by simp)) (sound_fail (by simp))))
    · refine (sound_skipSpace after).bind fun d _ => ?_
      refine (sound_expect d _).bind fun comma _ => ?_
      refine (sound_skipSpace comma).bind fun d _ => ?_
      refine (sound_pluralOffset d).bind_pair fun offset begun _ => ?_
      refine (sound.choices begun).bind_pair fun options ended _ => ?_
      exact .ite (sound_fail (by simp)) (sound_pure rfl)
    · refine (sound_skipSpace after).bind fun d _ => ?_
      refine (sound_expect d _).bind fun comma _ => ?_
      refine (sound.choices comma).bind_pair fun options ended _ => ?_
      exact .ite (sound_fail (by simp)) (sound_pure rfl)

theorem sound_choices : Sound seen c Prod.snd (choices (fuel + 1) c) := by
  unfold choices
  refine (sound_skipSpace c).bind fun d _ => ?_
  split
  · exact sound_pure rfl
  · exact sound_pure rfl
  · refine (sound.choice d).bind_pair fun option after _ => ?_
    exact (sound.choices after).bind fun _ _ => sound_pure rfl

theorem sound_choice : Sound seen c Prod.snd (choice (fuel + 1) c) := by
  unfold choice
  refine (sound_selector c).bind_pair fun selector selected _ => ?_
  refine (sound_skipSpace selected).bind fun d _ => ?_
  refine (sound_expect d _).bind fun opened _ => ?_
  refine (sound.pieces true opened).bind_pair fun body ended _ => ?_
  exact (sound_expect ended _).bind fun _ _ => sound_pure rfl

end Readers

theorem readersSound (fuel : Nat) : ReadersSound fuel := by
  induction fuel with
  | zero =>
      exact ⟨fun _ _ => sound_pure rfl, fun _ => sound_pure rfl, fun _ => sound_fail (by simp),
        fun _ => sound_pure rfl, fun _ => sound_fail (by simp)⟩
  | succ fuel ih =>
      exact ⟨fun nested c => sound_pieces c ih nested, fun c => sound_argument c ih,
        fun c => sound_argumentFormat c ih, fun c => sound_choices c ih,
        fun c => sound_choice c ih⟩

def positions (text : String) : List Cursor :=
  start text :: (parse text).passed

theorem sound_parse (text : String) :
    Sound [] (start text) (fun _ => ⟨Text.byteLength text.toList, []⟩) (parse text) := by
  refine ((readersSound _).pieces false (start text)).bind_pair fun found after read => ?_
  simp only
  split
  next ended =>
    rw [(readersFollow _).pieces] at read
    obtain ⟨front, spans⟩ := (movesForward _).pieces _ _ _ _ read
    have whole : text.toList = front := by simpa [start, ended] using spans.rest
    have reached : after.offset = Text.byteLength front := by simpa [start] using spans.offset
    exact sound_pure (Cursor.ext (by rw [whole, reached]) ended.symm)
  · exact sound_fail (by simp)

end Trail

section Consumption

variable {fuel : Nat} {c d : Cursor}

theorem length_le_byteLength (text : List Char) : text.length ≤ Text.byteLength text := by
  induction text with
  | nil => rfl
  | cons head tail ih =>
      have positive := head.utf8Size_pos
      rw [List.length_cons, Text.byteLength_cons]
      omega

theorem Cursor.Reaches.offset_le (reached : c.Reaches d) :
    c.offset + c.rest.length ≤ d.offset + d.rest.length := by
  obtain ⟨text, spans⟩ := reached
  have long := length_le_byteLength text
  have length := spans.length_eq
  have offset := spans.offset
  omega

theorem announced_reaches {read : Cursor → Outcome (Format × Cursor)} {format : Option Format}
    (reaches : ∀ {c d found}, read c = .ok (found, d) → c.Reaches d)
    (found : announced read c = .ok (format, d)) : c.Reaches d := by
  unfold announced at found
  split at found
  · obtain ⟨⟨format, after⟩, inner, found⟩ := bind_eq_ok_iff.mp found
    cases found
    exact c.reaches_next.trans ((Cursor.reaches_skipSpace _).trans (reaches inner))
  · cases found
    exact .refl c

theorem argument_consumes {element : Element} (read : argument (fuel + 1) c = .ok (element, d)) :
    c.offset + 3 ≤ d.offset := by
  have reached := ((argument_moves (movesForward fuel) read).1).offset_le
  unfold argument at read
  obtain ⟨opened, first, read⟩ := bind_eq_ok_iff.mp read
  obtain ⟨⟨name, named⟩, second, read⟩ := bind_eq_ok_iff.mp read
  obtain ⟨⟨format, formatted⟩, third, read⟩ := bind_eq_ok_iff.mp read
  obtain ⟨closed, fourth, read⟩ := bind_eq_ok_iff.mp read
  cases read
  have toName := length_after_name first second
  have toFormat := (announced_reaches (fun found => (movesForward fuel).argumentFormat _ _ _ found)
    third).length_le
  have skipped := (Cursor.reaches_skipSpace formatted).length_le
  have brace := (expect_eq_ok_iff.mp fourth).length_eq
  simp only [List.length_singleton] at toFormat brace
  omega

theorem choice_consumes {option : Choice} (read : choice (fuel + 1) c = .ok (option, d)) :
    c.offset + 3 ≤ d.offset := by
  have reached := ((choice_moves (movesForward fuel) read).1).offset_le
  unfold choice at read
  obtain ⟨⟨text, selected⟩, first, read⟩ := bind_eq_ok_iff.mp read
  obtain ⟨opened, second, read⟩ := bind_eq_ok_iff.mp read
  obtain ⟨⟨body, ended⟩, third, read⟩ := bind_eq_ok_iff.mp read
  obtain ⟨closed, fourth, read⟩ := bind_eq_ok_iff.mp read
  cases read
  have toOpened := length_after_selector first second
  have toEnded := ((movesForward fuel).pieces _ _ _ _ third).length_le
  have brace := (expect_eq_ok_iff.mp fourth).length_eq
  simp only [List.length_singleton] at brace
  omega

end Consumption

section Positions

variable {text : String} {c : Cursor}

theorem Cursor.front_of_reaches (reached : (Trail.start text).Reaches c) :
    ∃ front, text.toList = front ++ c.rest ∧ Text.byteLength front = c.offset := by
  obtain ⟨front, spans⟩ := reached
  refine ⟨front, spans.rest, ?_⟩
  rw [spans.offset]
  exact (Nat.zero_add _).symm

theorem Cursor.cuts (reached : (Trail.start text).Reaches c) :
    Text.Cuts text.toList c.offset := by
  obtain ⟨front, whole, long⟩ := front_of_reaches reached
  exact ⟨front, c.rest, whole, long⟩

theorem Cursor.offset_le_byteLength (reached : (Trail.start text).Reaches c) :
    c.offset ≤ Text.byteLength text.toList := by
  obtain ⟨front, whole, long⟩ := front_of_reaches reached
  rw [whole, Text.byteLength_append, long]
  exact Nat.le_add_right _ _

theorem Cursor.slice?_rest (reached : (Trail.start text).Reaches c) :
    Text.slice? c.offset (Text.byteLength text.toList) text.toList = some c.rest := by
  obtain ⟨front, whole, long⟩ := front_of_reaches reached
  refine Text.slice?_eq_some_iff.mpr ⟨front, [], by simpa using whole, long, ?_⟩
  rw [whole, Text.byteLength_append, long]

theorem Cursor.exists_slice? {d : Cursor} (here : (Trail.start text).Reaches c)
    (there : (Trail.start text).Reaches d) (ordered : c.offset ≤ d.offset) :
    ∃ part, Text.slice? c.offset d.offset text.toList = some part := by
  have lies : Text.Lies text.toList ⟨c.offset, d.offset⟩ :=
    Text.lies_iff_cuts.mpr ⟨cuts here, cuts there, ordered⟩
  exact Option.isSome_iff_exists.mp (Text.isSome_slice?_iff.mpr lies)

end Positions

/-- Parsing comes by its positions in order and by short moves, each of them at a boundary of
characters within the text, so whatever it cuts out there is there to be cut. It stops behind a text
that it accepts, and complains about one of its positions in a text that it does not. -/
theorem parse_positions (text : String) :
    (Trail.parse text).outcome = parse text ∧
      ((Trail.positions text).IsChain Cursor.Moves ∧
        (Trail.positions text).Pairwise fun c d => c.offset ≤ d.offset) ∧
      (∀ c ∈ Trail.positions text,
        c.offset ≤ Text.byteLength text.toList ∧ Text.Cuts text.toList c.offset ∧
          Text.slice? c.offset (Text.byteLength text.toList) text.toList = some c.rest ∧
          ∀ d ∈ Trail.positions text, c.offset ≤ d.offset →
            ∃ part, Text.slice? c.offset d.offset text.toList = some part) ∧
      (∀ fuel c element d, argument (fuel + 1) c = .ok (element, d) → c.offset + 3 ≤ d.offset) ∧
      (∀ fuel c option d, choice (fuel + 1) c = .ok (option, d) → c.offset + 3 ≤ d.offset) ∧
      (∀ elements, parse text = .ok elements →
        (Trail.positions text).getLast? = some ⟨Text.byteLength text.toList, []⟩) ∧
      ∀ e, parse text = .error e →
        (∃ c ∈ Trail.positions text, e.offset = c.offset) ∧
          e.offset ≤ Text.byteLength text.toList ∧ Text.Cuts text.toList e.offset := by
  have sound := Trail.sound_parse text
  obtain ⟨last, leads, ends⟩ := sound.leads
  have reaches : ∀ c ∈ Trail.positions text, (Trail.start text).Reaches c :=
    fun c member => leads.reaches c member
  have outcome := Trail.outcome_parse text
  refine ⟨outcome, ⟨leads.chain, ?_⟩, ?_, fun _ _ _ _ => argument_consumes,
    fun _ _ _ _ => choice_consumes, ?_, ?_⟩
  · exact leads.pairwise.imp fun ⟨part, spans⟩ => spans.offset ▸ Nat.le_add_right _ _
  · intro c member
    have here := reaches c member
    exact ⟨Cursor.offset_le_byteLength here, Cursor.cuts here, Cursor.slice?_rest here,
      fun d after ordered => Cursor.exists_slice? here (reaches d after) ordered⟩
  · intro elements accepted
    have same := ends elements (outcome.trans accepted)
    rw [Trail.positions, leads.getLast?, same]
  · intro e refused
    obtain ⟨c, member, offset⟩ := sound.fails e (outcome.trans refused)
    have here := reaches c member
    exact ⟨⟨c, member, offset⟩, offset ▸ Cursor.offset_le_byteLength here,
      offset ▸ Cursor.cuts here⟩

theorem parse_positions_stray :
    (Trail.positions "é\\u0041\x7d").map Cursor.offset = [0, 2, 3, 4, 8] ∧
      parse "é\\u0041\x7d" = .error ⟨8, .strayBrace⟩ ∧
      ∃ c ∈ Trail.positions "é\\u0041\x7d", c.offset = 8 := by
  have refused : parse "é\\u0041\x7d" = .error ⟨8, .strayBrace⟩ := by rfl
  obtain ⟨_, _, _, _, _, _, fails⟩ := parse_positions "é\\u0041\x7d"
  obtain ⟨⟨c, member, offset⟩, _⟩ := fails _ refused
  exact ⟨by decide, refused, c, member, offset.symm⟩

end MessageCatalog.Message
