import MessageCatalog.Script.Grammar.Modules

/-!
Objects whose keys and values are quoted texts: what the rules of the grammar read from the tokens
of such an object, as long as their fuel suffices for one operand.
-/

namespace MessageCatalog.Script.Grammar

variable {context : Context} {s : State} {content name : String}

theorem bind_ok {α β : Type} {rule : Parse α} {next : α → Parse β} {value : α} {after : State}
    (read : rule context s = .ok (value, after)) :
    (rule >>= next) context s = next value context after := by
  change (rule context s >>= fun p => next p.1 context p.2) = _
  rw [read]
  rfl

inductive EndsValue : State → Prop
  | comma (behind ahead : Cursor) (offset : Nat) (lineEnded : Bool) (rest : List Char) :
      EndsValue ⟨behind, ⟨offset, ',' :: rest⟩, .sign ",", lineEnded, ahead⟩
  | brace (behind ahead : Cursor) (offset : Nat) (lineEnded : Bool) (rest : List Char) :
      EndsValue ⟨behind, ⟨offset, '\x7d' :: rest⟩, .sign "\x7d", lineEnded, ahead⟩

theorem primary_text (g : Grammar) (text : s.token = .text content) :
    primary g context s = .ok (.literal s.start.offset (.text content), s.advance) := by
  cases s
  cases text
  rfl

theorem subscripts_end (g : Grammar) (fuel : Nat) (value : Expr) (ends : EndsValue s) :
    subscripts g true (fuel + 1) value context s = .ok (value, s) := by
  cases ends <;> rfl

theorem leftHand_text (fuel : Nat) (text : s.token = .text content)
    (ends : EndsValue s.advance) :
    leftHandRule (withFuel (fuel + 2)) true context s =
      .ok (.literal s.start.offset (.text content), s.advance) :=
  (bind_ok (primary_text _ text)).trans (subscripts_end _ fuel _ ends)

theorem unary_text (fuel : Nat) (text : s.token = .text content)
    (ends : EndsValue s.advance) :
    unaryRule (withFuel (fuel + 2)) context s =
      .ok (.literal s.start.offset (.text content), s.advance) := by
  have operand : leftHandRule (withFuel (fuel + 2)) true context s = _ :=
    leftHand_text fuel text ends
  have step : unaryRule (withFuel (fuel + 2)) context s =
      (leftHandRule (withFuel (fuel + 2)) true >>= fun operand => do
        let after ← get
        if (after.isSign "++" || after.isSign "--") && !after.lineEnded then
          Parse.advance
          return .other s.start.offset [.expr operand]
        else return operand) context s := by
    cases s
    cases text
    rfl
  rw [step, bind_ok operand]
  generalize s.advance = after at ends
  cases ends <;> rfl

theorem binaryFrom_end (g : Grammar) (fuel : Nat) (value : Expr) (ends : EndsValue s) :
    binaryFrom g 0 (fuel + 1) value context s = .ok (value, s) := by
  obtain ⟨dialect, _, _, _, _⟩ := context
  cases dialect <;> cases ends <;> rfl

theorem binary_text (fuel : Nat) (text : s.token = .text content)
    (ends : EndsValue s.advance) :
    binaryRule (withFuel (fuel + 3)) 0 context s =
      .ok (.literal s.start.offset (.text content), s.advance) :=
  (bind_ok (unary_text fuel text ends)).trans (binaryFrom_end _ _ _ ends)

theorem conditional_text (fuel : Nat) (text : s.token = .text content)
    (ends : EndsValue s.advance) :
    conditional (withFuel (fuel + 4)) context s =
      .ok (.literal s.start.offset (.text content), s.advance) := by
  refine (bind_ok (binary_text fuel text ends)).trans ?_
  generalize s.advance = after at ends
  cases ends <;> rfl

theorem plainAssignment_text (fuel : Nat) (text : s.token = .text content)
    (ends : EndsValue s.advance) :
    plainAssignment (withFuel (fuel + 4)) context s =
      .ok (.literal s.start.offset (.text content), s.advance) := by
  refine (bind_ok (conditional_text fuel text ends)).trans ?_
  generalize s.advance = after at ends
  cases ends <;> rfl

theorem assignment_text (fuel : Nat) (text : s.token = .text content)
    (ends : EndsValue s.advance) :
    assignmentRule (withFuel (fuel + 4)) context s =
      .ok (.literal s.start.offset (.text content), s.advance) := by
  have plain : assignmentRule (withFuel (fuel + 4)) context s =
      plainAssignment (withFuel (fuel + 4)) context s := by
    cases s
    cases text
    rfl
  exact plain.trans (plainAssignment_text fuel text ends)

theorem key_text (g : Grammar) (key : s.token = .text name) :
    g.key context s = .ok (.literal s.start.offset (.text name), s.advance) := by
  cases s
  cases key
  rfl

theorem plainProperty_text (fuel : Nat) (before : State) (key : Key) (colon : s.token = .sign ":")
    (text : s.advance.token = .text content) (ends : EndsValue s.advance.advance) :
    plainProperty (withFuel (fuel + 5)) before key context s =
      .ok (.keyed key (.literal s.advance.start.offset (.text content)), s.advance.advance) := by
  have assigned : assignmentRule (withFuel (fuel + 4)) context s.advance = _ :=
    assignment_text fuel text ends
  have step : plainProperty (withFuel (fuel + 5)) before key context s =
      ((withFuel (fuel + 5)).assignment >>= fun value => return .keyed key value)
        context s.advance := by
    cases s
    cases colon
    rfl
  exact step.trans (bind_ok assigned)

/-- A property that is read at the tokens of a state, where its object does not end. -/
structure ReadsProperty (g : Grammar) (context : Context) (s : State) (read : Property)
    (after : State) : Prop where
  more : s.isSign "\x7d" = false
  reads : property g context s = .ok (read, after)

theorem property_text (context : Context) (fuel : Nat) (key : s.token = .text name)
    (colon : s.advance.token = .sign ":") (text : s.advance.advance.token = .text content)
    (ends : EndsValue s.advance.advance.advance) :
    ReadsProperty (withFuel (fuel + 5)) context s
      (.keyed (.literal s.start.offset (.text name))
        (.literal s.advance.advance.start.offset (.text content))) s.advance.advance.advance := by
  refine ⟨by simp [State.isSign, key], ?_⟩
  have step : property (withFuel (fuel + 5)) context s =
      (do
        let key ← (withFuel (fuel + 5)).key
        if (← Parse.isSign "(") || (← Parse.isSign "<") then
          method (withFuel (fuel + 5)) s.start.offset .method false key
        else plainProperty (withFuel (fuel + 5)) s key : Parse Property) context s := by
    cases s
    cases key
    rfl
  have plain : plainProperty (withFuel (fuel + 5)) s (.literal s.start.offset (.text name)) context
      s.advance = _ := plainProperty_text fuel s _ colon text ends
  rw [step, bind_ok (key_text _ key), ← plain]
  generalize s.advance = next at *
  cases next
  cases colon
  rfl

theorem takeSign_other (other : s.isSign name = false) :
    Parse.takeSign name context s = .ok (false, s) := by
  have found : Parse.isSign name context s = .ok (false, s) := by
    rw [← other]
    rfl
  exact bind_ok found

theorem takeSign_sign (sign : s.token = .sign name) :
    Parse.takeSign name context s = .ok (true, s.advance) := by
  have found : Parse.isSign name context s = .ok (true, s) := by
    rw [← show s.isSign name = true by simp [State.isSign, sign]]
    rfl
  exact bind_ok found

theorem expectSign_sign (sign : s.token = .sign name) :
    Parse.expectSign name context s = .ok ((), s.advance) :=
  bind_ok (takeSign_sign sign)

variable {α : Type} {item : Parse α} {close : String} {value : α} {after : State}

theorem listUntil_next (fuel : Nat) (more : s.isSign close = false)
    (read : item context s = .ok (value, after)) (comma : after.token = .sign ",")
    (other : "," ≠ close) :
    Parse.listUntil (fuel + 1) close item context s =
      (Parse.listUntil fuel close item >>= fun later => return value :: later)
        context after.advance := by
  have goesOn : after.isSign close = false := by
    simpa [State.isSign, comma] using other
  rw [Parse.listUntil, bind_ok (takeSign_other more)]
  refine (bind_ok read).trans ?_
  rw [bind_ok (takeSign_other goesOn)]
  exact (bind_ok (expectSign_sign comma)).trans rfl

theorem listUntil_last (fuel : Nat) (more : s.isSign close = false)
    (read : item context s = .ok (value, after)) (closed : after.token = .sign close) :
    Parse.listUntil (fuel + 1) close item context s = .ok ([value], after.advance) := by
  rw [Parse.listUntil, bind_ok (takeSign_other more)]
  refine (bind_ok read).trans ?_
  rw [bind_ok (takeSign_sign closed)]
  rfl

theorem primary_object (g : Grammar) (brace : s.token = .sign "\x7b") :
    primary g context s = object g context s := by
  cases s
  cases brace
  rfl

def bracketed (context : Context) : Context :=
  { context with allowIn := true, beforeColon := false, allowConditionalType := true }

theorem object_properties {g : Grammar} {properties : List Property}
    (brace : s.token = .sign "\x7b")
    (read : Parse.listUntil g.fuel "\x7d" (property g) (bracketed context) s.advance =
      .ok (properties, after)) :
    object g context s = .ok (.object ⟨s.start.offset, after.behind.offset⟩ properties, after) := by
  have offset : Parse.offset context s = .ok (s.start.offset, s) := rfl
  have inside : Parse.inside (Parse.listUntil g.fuel "\x7d" (property g)) context s.advance =
      .ok (properties, after) := read
  exact (bind_ok offset).trans ((bind_ok (expectSign_sign brace)).trans (bind_ok inside))

theorem object_two {g : Grammar} {fuel : Nat} (enough : g.fuel = fuel + 2) {comma closing : State}
    {first second : Property} (brace : s.token = .sign "\x7b")
    (firstReads : ReadsProperty g (bracketed context) s.advance first comma)
    (between : comma.token = .sign ",")
    (secondReads : ReadsProperty g (bracketed context) comma.advance second closing)
    (closed : closing.token = .sign "\x7d") :
    object g context s =
      .ok (.object ⟨s.start.offset, closing.advance.behind.offset⟩ [first, second],
        closing.advance) := by
  refine object_properties brace ?_
  rw [enough, listUntil_next (fuel + 1) firstReads.more firstReads.reads between (by decide)]
  exact bind_ok (listUntil_last fuel secondReads.more secondReads.reads closed)

end MessageCatalog.Script.Grammar
