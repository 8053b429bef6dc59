import Roadmap.Outline.Icon
import Roadmap.Outline.TaskLine

/-!
# Project headers

A project opens with a line `## icon name @note:value`. The icon and the note may be missing; the
note may stand anywhere in the header, and what is left of the header without it is split into
icon and name.
-/

namespace Roadmap.Outline

/-- The text of a header line after its marks, without blanks around it. Two marks and a blank
alone are no header, but with a second blank they are one with an empty text. -/
def headerText? (line : List Char) : Option (List Char) :=
  match line with
  | '#' :: '#' :: rest =>
    let rest := dropFinalBreak rest
    let gap := rest.takeWhile Text.isBlank
    let body := rest.dropWhile Text.isBlank
    if body.isEmpty then
      if 2 ≤ gap.length && gap.getLast? != some '\n' then some [] else none
    else if gap.isEmpty || body.contains '\n' then none
    else some (Text.strip body)
  | _ => none

/-- The line opens a project. -/
def isHeader (line : List Char) : Bool := (headerText? line).isSome

/-- The value of a note, and what follows it: quoted, or all up to a blank. -/
def noteValue? (s : List Char) : Option (List Char × List Char) :=
  (quotedValue? s).or (Text.firstWord? s)

/-- The rest of a text after the word `mark` at its start. -/
def afterMark? : List Char → List Char → Option (List Char)
  | [], s => some s
  | m :: ms, c :: s => if m = c then afterMark? ms s else none
  | _ :: _, [] => none

/-- Takes the first note out of a header: its value, if there is one, and the header without
it. -/
def takeNote : List Char → Option (List Char) × List Char
  | [] => (none, [])
  | c :: rest =>
    match (afterMark? "@note:".toList (c :: rest)).bind noteValue? with
    | some (value, after) => (some value, after)
    | none =>
      let (value, header) := takeNote rest
      (value, c :: header)

/-- The project that a line opens, without its tasks. -/
def readHeader? (line : List Char) (number : Int) : Option Project :=
  (headerText? (Text.dropTrailing (· == '\r') line)).map fun text =>
    let (note, header) := takeNote text
    let header := if note.isSome then Text.strip header else header
    let (icon, name) := splitIcon header
    { name := String.ofList name, icon := icon, note := note.map String.ofList, line := number }

/-- The header line of a project; an empty icon stands for the default one and an empty note for
none. -/
def renderHeader (name : String) (icon note : Option String) : List Char :=
  let icon := match icon with
    | some i => if i.isEmpty then defaultIcon else i
    | none => defaultIcon
  let head := "## ".toList ++ icon.toList ++ ' ' :: name.toList
  match note with
  | some n => if n.isEmpty then head else head ++ " @note:".toList ++ renderValue n.toList
  | none => head

end Roadmap.Outline
