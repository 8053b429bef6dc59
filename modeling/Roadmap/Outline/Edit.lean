import Roadmap.Outline.Change

/-!
# Structural edits

Edits that rearrange the lines of an outline. Lines are numbered from 1, as in the records of the
outline, and an edit that asks for a line which is not there changes nothing.

A project is moved and deleted as a block: its header and all lines up to the next header.
-/

namespace Roadmap.Outline

/-- The lines with `f` applied to the one of the given number. -/
def modifyLine (lines : List Text.Line) (number : Int) (f : Text.Line → Text.Line) :
    List Text.Line :=
  match lineIndex? lines number with
  | some i => lines.modify i f
  | none => lines

/-- A line with a marker gets one more. -/
def indentLine (line : Text.Line) : Text.Line :=
  match line with
  | '>' :: _ => '>' :: line
  | _ => line

/-- A line with more than one marker loses one. -/
def outdentLine (line : Text.Line) : Text.Line :=
  match line with
  | '>' :: '>' :: rest => '>' :: rest
  | _ => line

/-- The lines with a new one after the given number; 0 stands for the top. -/
def insertLine (lines : List Text.Line) (number : Int) (line : Text.Line) : List Text.Line :=
  if 0 ≤ number ∧ number ≤ lines.length then
    lines.take number.toNat ++ line :: lines.drop number.toNat
  else lines

def deleteLine (lines : List Text.Line) (number : Int) : List Text.Line :=
  match lineIndex? lines number with
  | some i => lines.eraseIdx i
  | none => lines

/-- Puts a block that was cut out at the index `source` before the line that had the number
`target`, or at the end that is nearer to it. -/
def paste (rest block : List Text.Line) (source : Nat) (target : Int) : List Text.Line :=
  let index := target - 1
  let index := if source < index then index - block.length else index
  let index := (max 0 (min index rest.length)).toNat
  rest.take index ++ block ++ rest.drop index

/-- Moves a line so that it comes before the one with the number `target`. -/
def moveLine (lines : List Text.Line) (number target : Int) : List Text.Line :=
  match lineIndex? lines number with
  | some i => paste (lines.eraseIdx i) ((lines.drop i).take 1) i target
  | none => lines

/-- A block of lines: `first` is its index, `size` the number of its lines. -/
structure Block where
  first : Nat
  size : Nat
deriving DecidableEq, Repr

/-- The block of the project whose header has the given number. -/
def projectBlock? (lines : List Text.Line) (number : Int) : Option Block :=
  match lineIndex? lines number with
  | none => none
  | some i =>
    if isHeader (lines.getD i []) then
      some ⟨i, 1 + ((lines.drop (i + 1)).takeWhile (!isHeader ·)).length⟩
    else none

def Block.cut (b : Block) (lines : List Text.Line) : List Text.Line :=
  (lines.drop b.first).take b.size

def Block.remove (b : Block) (lines : List Text.Line) : List Text.Line :=
  lines.take b.first ++ lines.drop (b.first + b.size)

/-- The numbers of the first and last line of a block. -/
def Block.numbers (b : Block) : Int × Int := (b.first + 1, b.first + b.size)

def deleteProject (lines : List Text.Line) (number : Int) : List Text.Line :=
  match projectBlock? lines number with
  | some b => b.remove lines
  | none => lines

/-- Moves a project so that it comes before the line with the number `target`, which must lie
outside of it. -/
def moveProject (lines : List Text.Line) (number target : Int) : List Text.Line :=
  match projectBlock? lines number with
  | some b =>
    if b.numbers.1 ≤ target ∧ target ≤ b.numbers.2 then lines
    else paste (b.remove lines) (b.cut lines) b.first target
  | none => lines

/-- Puts a new header line in the place of one; other lines stay. -/
def replaceHeader (lines : List Text.Line) (number : Int) (name : String)
    (icon note : Option String) : List Text.Line :=
  modifyLine lines number fun line =>
    if isHeader line then renderHeader name icon note else line

/-- The edits. -/
inductive Edit where
  | indent (number : Int)
  | outdent (number : Int)
  | insert (number : Int) (line : String)
  | delete (number : Int)
  | move (number target : Int)
  | deleteProject (number : Int)
  | moveProject (number target : Int)
  | replaceHeader (number : Int) (name : String) (icon note : Option String)
deriving DecidableEq, Repr

namespace Edit

def onLines (lines : List Text.Line) : Edit → List Text.Line
  | indent n => modifyLine lines n indentLine
  | outdent n => modifyLine lines n outdentLine
  | insert n line => insertLine lines n line.toList
  | delete n => deleteLine lines n
  | move n target => moveLine lines n target
  | deleteProject n => Outline.deleteProject lines n
  | moveProject n target => Outline.moveProject lines n target
  | replaceHeader n name icon note => Outline.replaceHeader lines n name icon note

/-- The text after an edit. -/
def apply (e : Edit) (text : String) : String :=
  String.ofList (Text.unlines (e.onLines (Text.linesOf text.toList)))

end Edit

end Roadmap.Outline
