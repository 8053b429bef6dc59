import Roadmap.Json.Integer
import Roadmap.Json.Literal
import Roadmap.Outline.Document

/-!
# Changing the fields of a task

A change names a field of a task and its new value. `patchLine` reads the task on a line, applies
the changes and writes the line back in canonical form; every other line stays as it is.

Changes arrive as JSON values. A value without a meaning for its field is passed over, except for
the three fields whose text is written out as it is: there a value of the wrong kind stops the
patch. So does an infinite number, which is no integer of any size.
-/

namespace Roadmap.Outline

inductive Change where
  | title (s : String)
  | duration (n : Int)
  /-- A duration that is no number. It leaves the task as it is but asks about its days. -/
  | noDuration
  | dependencies (positions : List Int)
  | start (d : Option Date)
  | milestone (b : Bool)
  | status (s : Status)
  | color (c : Option String)
  | note (n : Option String)
  /-- A note given as a list or an object, with the text that stands for it. -/
  | noteLiteral (value : List Char)
  /-- A start that is no day, which shows when the line is written. -/
  | badStart (m : Misfit)
  /-- A note that is no text, which shows when the line is written. -/
  | badNote (m : Misfit)
  /-- A value that cannot be set at all. -/
  | unset (f : Fault)
deriving DecidableEq

/-- An empty text counts as none. -/
def nonEmpty? : Option String → Option String
  | some s => if s.isEmpty then none else some s
  | none => none

/-- Sets a field. A title loses the blanks around it, a duration is at least zero, a color has one
`#`, and an empty color or note is none. A status also decides whether the task is done. -/
def Task.change (t : Task) : Change → Task
  | .title s => { t with title := String.ofList (Text.strip s.toList) }
  | .duration n => { t with duration := max 0 n }
  | .noDuration => t
  | .dependencies ps => { t with dependencies := ps }
  | .start d => { t with explicitStart := d }
  | .milestone b => { t with isMilestone := b }
  | .status s => { t with status := s, isDone := s == .done }
  | .color c => { t with color := (nonEmpty? c).map fun c => normalizeColor c.toList }
  | .note n => { t with note := nonEmpty? n }
  | .noteLiteral _ => t
  | .badStart _ => t
  | .badNote _ => t
  | .unset _ => t

def Task.changeAll (t : Task) (changes : List Change) : Task := changes.foldl Task.change t

/-- The change asks about the days of the task. -/
def Change.isDated : Change → Bool
  | .start _ => true
  | .duration _ => true
  | .noDuration => true
  | .badStart _ => true
  | _ => false

/-! ## Patching a line -/

/-- The text of a note that a change gives as a literal. -/
def noteLiteral? (changes : List Change) : Option (List Char) :=
  changes.findSome? fun
    | .noteLiteral value => some value
    | _ => none

/-- What keeps the changed start from being written. -/
def badStart? (changes : List Change) : Option Misfit :=
  changes.findSome? fun
    | .badStart m => some m
    | _ => none

/-- What keeps the changed note from being written. -/
def badNote? (changes : List Change) : Option Misfit :=
  changes.findSome? fun
    | .badNote m => some m
    | _ => none

/-- What keeps the changes from being made, the first of them if there are more. -/
def unset? (changes : List Change) : Option Fault :=
  changes.findSome? fun
    | .unset f => some f
    | _ => none

/-- The modifiers after the dependencies under the given changes. -/
def Task.changedMarks (t : Task) (changes : List Change) : Except Fault (List (List Char)) :=
  match badStart? changes, badNote? changes, noteLiteral? changes with
  | some m, _, _ => .error (.misfit m)
  | none, some m, _ => .error (.misfit m)
  | none, none, some value => .ok (t.renderMarks ++ ["@note:".toList ++ value])
  | none, none, none => .ok (t.renderMarks ++ t.renderNote)

/-- The canonical line of a task with changes applied. -/
def Task.renderChanged (t : Task) (changes : List Change) : Except Fault (List Char) :=
  match unset? changes with
  | some f => .error f
  | none =>
    let t := t.changeAll changes
    t.renderWith (t.changedMarks changes)

/-- The index of the line with a number counted from 1. -/
def lineIndex? (lines : List Text.Line) (number : Int) : Option Nat :=
  if 1 ≤ number ∧ number ≤ lines.length then some (number - 1).toNat else none

/-- A carriage return at the end of a line. -/
def lineEnding (line : Text.Line) : List Char := if line.getLast? = some '\r' then ['\r'] else []

/-- The lines with the task on one line changed. Nothing happens if there is no such line or no
task on it. -/
def patchLines (lines : List Text.Line) (number : Int) (changes : List Change) :
    Except Fault (List Text.Line) :=
  match lineIndex? lines number with
  | none => .ok lines
  | some i => do
    let line := lines.getD i []
    match ← readTask? line number with
    | none => return lines
    | some t => return lines.set i ((← t.renderChanged changes) ++ lineEnding line)

/-- The text with the task on one line changed. -/
def patchLine (text : String) (number : Int) (changes : List Change) : Except Fault String := do
  return String.ofList (Text.unlines (← patchLines (Text.linesOf text.toList) number changes))

/-! ## Changes as JSON -/

/-- The positions that a value lists; a text is the list of its characters and an object that of
its keys. -/
def positions : Json → Except Fault (List Int)
  | .list items => items.mapM Json.integer
  | .text s => s.toList.mapM fun c => Text.readInt [c]
  | .object fields => fields.mapM fun (key, _) => Text.readInt key.toList
  | j => .error (.misfit (.notIterable j.kind))

/-- Whether a note given as a list takes quotes: it does if an entry is blank or a lone `@`. Every
entry up to the first blank one must be a text. -/
def entriesQuoted (isAt : Bool) : List Json → Except Misfit Bool
  | [] => .ok isAt
  | .text s :: rest =>
    if !s.isEmpty && s.toList.all Text.isBlank then .ok true
    else entriesQuoted (isAt || s == "@") rest
  | j :: _ => .error (.lacks j.kind "isspace")

/-- A note given by its entries and the literal that shows it. -/
def Change.ofEntries (entries : List Json) (value : Json) : Change :=
  match entriesQuoted false entries with
  | .error m => .badNote m
  | .ok true => .noteLiteral ('"' :: (value.literal ++ ['"']))
  | .ok false => .noteLiteral value.literal

namespace Change

/-- The change that comes of an integer, or of the lack of one. -/
def ofInteger? (make : α → Change) (otherwise : Option Change) : Except Fault α → Option Change
  | .ok a => some (make a)
  | .error .infiniteInteger => some (.unset .infiniteInteger)
  | .error _ => otherwise

def ofNote (value : Json) : Change :=
  if value.isNothing then .note none
  else match value with
    | .text s => .note (some s)
    | .list items => ofEntries items value
    | .object fields => ofEntries (fields.map fun (key, _) => .text key) value
    | j => .badNote (.notIterable j.kind)

def ofColor (value : Json) : Change :=
  if value.isNothing then .color none
  else match value with
    | .text s => .color (some s)
    | j => .unset (.misfit (.lacks j.kind "lstrip"))

def ofStart (value : Json) : Change :=
  match value with
  | .text s => .start (Date.ofIso? s.toList)
  | j => if j.isNothing then .start none else .badStart (.lacks j.kind "isoformat")

/-- The change that sets the field `key` to a value, if both mean something. -/
def ofField? (key : String) (value : Json) : Option Change :=
  match key with
  | "title" => some (.title (String.ofList value.shown))
  | "duration" => ofInteger? .duration (some .noDuration) value.integer
  | "dependencies" => ofInteger? .dependencies none (positions value)
  | "start" => some (ofStart value)
  | "is_milestone" => some (.milestone (!value.isNothing))
  | "status" =>
    match value with
    | .text s => (Status.ofName? s).map .status
    | _ => none
  | "color" => some (ofColor value)
  | "linked_note" => some (ofNote value)
  | _ => none

/-- The changes that an object asks for. -/
def ofFields (fields : List (String × Json)) : List Change :=
  fields.filterMap fun (key, value) => ofField? key value

end Change

end Roadmap.Outline
