import Roadmap.Outline.Edit

/-!
# Edits asked for with JSON

A call names an edit and gives its arguments as JSON values. Truth values count as 0 and 1. A
decimal is no line, but it can lie beyond the first or the last one, and then it does what an
integer there does. Any other value is of the wrong kind, which is a fault as soon as the edit
comes to use it.
-/

namespace Roadmap.Outline

inductive EditCall where
  | indent (line : Json)
  | outdent (line : Json)
  | insert (line text : Json)
  | delete (line : Json)
  | move (line target : Json)
  | deleteProject (line : Json)
  | moveProject (line target : Json)
  | replaceHeader (line name icon note : Json)

namespace EditCall

/-! ## Lines -/

/-- The number lies in a range, the ends included. -/
def liesIn (n : Number) (first last : Rat) : Bool :=
  match n with
  | .finite d => first ≤ d.toRat && d.toRat ≤ last
  | _ => false

/-- The number of a line that the edit only touches if it is there. A decimal between the first
line and the last is of no use, which `misfit` says; any other is no line. -/
def lineNumber? (lines : List Text.Line) (misfit : Misfit) (value : Json) :
    Except Fault (Option Int) :=
  match value with
  | .int n => .ok (some n)
  | .bool b => .ok (some (if b then 1 else 0))
  | .decimal n => if liesIn n 1 lines.length then .error (.misfit misfit) else .ok none
  | j => .error (.misfit (.incomparable "<=" "int" j.kind))

/-- The edit of a line, if the value gives one. -/
def onLine (lines : List Text.Line) (value : Json) (make : Int → Edit) :
    Except Fault (Option Edit) := do
  return (← lineNumber? lines (.notAnIndex value.kind) value).map make

/-- The number of the line after which a new one goes. Without an order a number is neither before
the first line nor after the last. -/
def insertNumber? (lines : List Text.Line) (value : Json) : Except Fault (Option Int) :=
  match value with
  | .int n => .ok (some n)
  | .bool b => .ok (some (if b then 1 else 0))
  | .decimal n =>
    if n.isBelow 0 || n.isAbove lines.length then .ok none
    else .error (.misfit (.notAPosition value.kind))
  | j => .error (.misfit (.incomparable "<" j.kind "int"))

/-- The insertion of a line. A line that is no text only shows when it is put in its place. -/
def insertion (lines : List Text.Line) (value text : Json) : Except Fault (Option Edit) := do
  match ← insertNumber? lines value, text with
  | none, _ => return none
  | some n, .text s => return some (.insert n s)
  | some n, j =>
    if 0 ≤ n ∧ n ≤ lines.length then throw (.misfit (.notALine n j.kind)) else return none

/-! ## Targets -/

/-- The line in front of all others, and the one after them. -/
def front : Int := 0

def back (lines : List Text.Line) : Int := lines.length + 1

/-- The end to which a decimal sends a block, if it lies beyond one of them. -/
def farTarget? (lines : List Text.Line) (b : Block) (target : Number) : Option Int :=
  match target with
  | .undefined => some front
  | .infinite negative => some (if negative then front else back lines)
  | .finite d =>
    let index := d.toRat - 1
    let index := if (b.first : Rat) < index then index - b.size else index
    if index ≤ 0 then some front
    else if (lines.length - b.size : Rat) < index then some (back lines)
    else none

/-- A line to a target. -/
def movement (lines : List Text.Line) (value target : Json) : Except Fault (Option Edit) := do
  match ← lineNumber? lines (.notAPosition value.kind) value with
  | none => return none
  | some number =>
    match lineIndex? lines number, target with
    | none, _ => return none
    | some _, .int n => return some (.move number n)
    | some _, .bool b => return some (.move number (if b then 1 else 0))
    | some i, .decimal n =>
      match farTarget? lines ⟨i, 1⟩ n with
      | some t => return some (.move number t)
      | none => throw (.misfit (.notAPosition target.kind))
    | some _, j => throw (.misfit (.noDifference j.kind))

/-- A project to a target. A decimal inside the block leaves it where it is. -/
def projectMovement (lines : List Text.Line) (value target : Json) :
    Except Fault (Option Edit) := do
  match ← lineNumber? lines (.notAnIndex value.kind) value with
  | none => return none
  | some number =>
    match projectBlock? lines number, target with
    | none, _ => return none
    | some _, .int n => return some (.moveProject number n)
    | some _, .bool b => return some (.moveProject number (if b then 1 else 0))
    | some b, .decimal n =>
      if liesIn n b.numbers.1 b.numbers.2 then return none
      else
        match farTarget? lines b n with
        | some t => return some (.moveProject number t)
        | none => throw (.misfit .notABound)
    | some _, j => throw (.misfit (.incomparable "<=" value.kind j.kind))

/-! ## Headers -/

/-- What stands for an icon: a text, or the literal of any other value that counts. -/
def iconOf (icon : Json) : Option String :=
  if icon.isNothing then none else some (String.ofList icon.shown)

/-- The edit of a header. The literal of a note that is no text follows the name. -/
def headerEdit (number : Int) (name icon note : Json) : Except Fault Edit :=
  let named (tail : List Char) (note : Option String) : Edit :=
    .replaceHeader number (String.ofList (name.shown ++ tail)) (iconOf icon) note
  match Change.ofNote note with
  | .note n => .ok (named [] n)
  | .noteLiteral value => .ok (named (" @note:".toList ++ value) none)
  | .badNote m => .error (.misfit m)
  | _ => .ok (named [] none)

/-- A new header in the place of one. -/
def headerReplacement (lines : List Text.Line) (value name icon note : Json) :
    Except Fault (Option Edit) := do
  match ← lineNumber? lines (.notAnIndex value.kind) value with
  | none => return none
  | some number =>
    match projectBlock? lines number with
    | none => return none
    | some _ => return some (← headerEdit number name icon note)

/-! ## Calls -/

/-- The edit that a call comes to on the given lines; none leaves them as they are. -/
def resolve (lines : List Text.Line) : EditCall → Except Fault (Option Edit)
  | indent line => onLine lines line .indent
  | outdent line => onLine lines line .outdent
  | insert line text => insertion lines line text
  | delete line => onLine lines line .delete
  | move line target => movement lines line target
  | deleteProject line => onLine lines line .deleteProject
  | moveProject line target => projectMovement lines line target
  | replaceHeader line name icon note => headerReplacement lines line name icon note

/-- The text after a call. -/
def apply (c : EditCall) (text : String) : Except Fault String := do
  match ← c.resolve (Text.linesOf text.toList) with
  | none => return text
  | some e => return e.apply text

end EditCall

end Roadmap.Outline
