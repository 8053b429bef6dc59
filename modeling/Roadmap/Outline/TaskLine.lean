import Roadmap.Outline.Modifier

/-!
# Task lines

A task line is `> title (duration) modifiers`: markers that give the level, blanks, a title, the
duration in parentheses and the modifiers. As a title may itself hold parenthesised numbers, there
can be several places to cut the line, and two rules choose among them.

* If some number is followed by nothing but modifiers, the first such number is the duration.
* Otherwise there is free text after the duration, and the last number of the line is it.

Writing is canonical: `Task.render` gives each task one line, with its modifiers in a fixed order.
-/

namespace Roadmap.Outline

/-! ## Where a line can be cut -/

/-- A place where a text holds a number in parentheses: what stands before it, last character
first, the digits, and what stands after. -/
structure Cut where
  seen : List Char
  digits : List Char
  after : List Char
deriving DecidableEq, Repr

/-- What stands before the number. -/
def Cut.before (c : Cut) : List Char := c.seen.reverse

/-- The digits at the start of a text that a closing parenthesis ends, and what follows it. -/
def closedNumber? (s : List Char) : Option (List Char × List Char) :=
  match s.takeWhile Text.isDigit, s.dropWhile Text.isDigit with
  | ds@(_ :: _), ')' :: rest => some (ds, rest)
  | _, _ => none

/-- The cuts of a text from left to right; `seen` is what stands before the text, last character
first. -/
def cutsAfter (seen : List Char) : List Char → List Cut
  | [] => []
  | c :: rest =>
    let later := cutsAfter (c :: seen) rest
    if c = '(' then
      match closedNumber? rest with
      | some (digits, after) => ⟨seen, digits, after⟩ :: later
      | none => later
    else later

def cuts (s : List Char) : List Cut := cutsAfter [] s

/-! ## What may follow the duration -/

/-- The modifiers of a text that holds nothing but blanks before its first `@`, as far as the line
break after it. Past that break there may only be blanks. -/
def modifierText? (after : List Char) : Option (List Char) :=
  match after.dropWhile Text.isBlank with
  | [] => some []
  | '@' :: rest =>
    if (rest.dropWhile (· != '\n')).all Text.isBlank then
      some ('@' :: rest.takeWhile (· != '\n'))
    else none
  | _ => none

/-- The text without a line break at its end. -/
def dropFinalBreak (s : List Char) : List Char := if s.getLast? = some '\n' then s.dropLast else s

/-- Any text of one line. -/
def freeText? (after : List Char) : Option (List Char) :=
  let line := dropFinalBreak after
  if line.contains '\n' then none else some line

/-! ## Reading -/

/-- A line taken apart; `modifiers` is the text that they are read from. -/
structure TaskParts where
  level : Nat
  title : List Char
  digits : List Char
  modifiers : List Char
deriving DecidableEq, Repr

/-- What stands before the cut is a title: it is not empty and, without the blanks at its end, has
one line. -/
def Cut.titled (c : Cut) : Bool :=
  !c.seen.isEmpty && !(c.seen.dropWhile Text.isBlank).contains '\n'

/-- The cut is at the very start and `gap`, the blanks before it, is long enough to be both the
gap and an empty title. -/
def Cut.untitled (gap : List Char) (c : Cut) : Bool := c.seen.isEmpty && gap.tail.any (· != '\n')

/-- The cut with the modifiers that `tail` reads after it, if it is one of those that `fits`
admits. -/
def Cut.withTail (tail : List Char → Option (List Char)) (fits : Cut → Bool) (c : Cut) :
    Option (Cut × List Char) :=
  (tail c.after).bind fun m => if fits c then some (c, m) else none

/-- The cut that gives the duration of a task, with the text of the modifiers. `gap` is the run of
blanks after the markers and `body` what follows it. -/
def chooseCut? (gap body : List Char) : Option (Cut × List Char) :=
  let all := cuts body
  (all.findSome? (Cut.withTail modifierText? Cut.titled)).or <|
  (all.findSome? (Cut.withTail modifierText? (Cut.untitled gap))).or <|
  (all.reverse.findSome? (Cut.withTail freeText? Cut.titled)).or <|
  all.findSome? (Cut.withTail freeText? (Cut.untitled gap))

/-- Takes a line apart, if it is a task line. -/
def taskParts? (line : List Char) : Option TaskParts :=
  let markers := line.takeWhile (· == '>')
  let rest := line.dropWhile (· == '>')
  let gap := rest.takeWhile Text.isBlank
  let body := rest.dropWhile Text.isBlank
  if markers.isEmpty || gap.isEmpty then none
  else
    (chooseCut? gap body).map fun (c, modifiers) =>
      ⟨markers.length, Text.strip c.before, c.digits, modifiers⟩

/-- The task on a line, or `none` if it is no task line. A duration with too many digits is a
fault. Carriage returns at the end of the line do not belong to it. -/
def readTask? (line : List Char) (number : Int) : Except Fault (Option Task) :=
  match taskParts? (Text.dropTrailing (· == '\r') line) with
  | none => .ok none
  | some p => do
    let duration ← Text.readInt p.digits
    let plain : Task :=
      { level := p.level, title := String.ofList p.title, duration := duration, line := number }
    return some (plain.applyAll (Modifier.scan p.modifiers))

/-! ## Writing -/

/-- A value with quotes around it if it would end early without them. -/
def renderValue (value : List Char) : List Char :=
  if value.any Text.isBlank || value.contains '@' then '"' :: (value ++ ['"']) else value

/-- The levels from which a row of markers no longer fits into memory, and from which its length
is not even a machine word. The first depends on the machine: it is an assumption, that a terabyte
is more than a program gets, and not a rule about outlines. -/
def levelLimits : Int × Int := (0x10000000000, 0x8000000000000000)

/-- The markers of a level; levels below one have none. -/
def renderLevel (level : Int) : Except Fault (List Char) :=
  if levelLimits.2 ≤ level then .error .levelTooDeep
  else if levelLimits.1 ≤ level then .error .levelOutOfMemory
  else .ok (List.replicate level.toNat '>')

/-- Markers, title and duration. -/
def Task.renderHead (t : Task) : Except Fault (List Char) := do
  let markers ← renderLevel t.level
  let duration ← Text.writeInt t.duration
  return markers ++ ' ' :: (t.title.toList ++ ' ' :: '(' :: (duration ++ [')']))

def renderDependency (position : Int) : Except Fault (List Char) := do
  return "@after:".toList ++ (← Text.writeInt position)

/-- The word for a task's status, if it is not a matter of course. -/
def Task.statusWord (t : Task) : Option String :=
  if t.status = .done || t.isDone then some "@done"
  else match t.status with
    | .inProgress => some "@progress"
    | .cancelled => some "@cancelled"
    | _ => none

/-- The modifiers after the dependencies, in their fixed order, without the note. -/
def Task.renderMarks (t : Task) : List (List Char) :=
  (t.explicitStart.map fun d => "@start:".toList ++ d.isoChars).toList
    ++ (if t.isMilestone then ["@milestone".toList] else [])
    ++ (t.statusWord.map String.toList).toList
    ++ match t.color with
      | some c => if c.isEmpty then []
          else ["@color:".toList ++ c.toList.dropWhile (· == '#')]
      | none => []

/-- The note as the last modifier; an empty note is none. -/
def Task.renderNote (t : Task) : List (List Char) :=
  match t.note with
  | some n => if n.isEmpty then [] else ["@note:".toList ++ renderValue n.toList]
  | none => []

/-- Words with a blank in front of each. -/
def spaced (ws : List (List Char)) : List Char := ws.flatMap (' ' :: ·)

/-- The line of a task whose modifiers after the dependencies are `marks`. -/
def Task.renderWith (t : Task) (marks : Except Fault (List (List Char))) :
    Except Fault (List Char) := do
  let head ← t.renderHead
  let dependencies ← t.dependencies.mapM renderDependency
  return head ++ spaced (dependencies ++ (← marks))

/-- The canonical line of a task. -/
def Task.render (t : Task) : Except Fault (List Char) :=
  t.renderWith (.ok (t.renderMarks ++ t.renderNote))

end Roadmap.Outline
