import Roadmap.Json.Writer
import Roadmap.Service.View
import Roadmap.Text.Lower

/-!
# The console

An interactive console on a session. It opens with an overview of the plan and then takes commands,
one a line. Each command is answered with a text; a fault ends the console.
-/

namespace Roadmap.Console

def prompt : String := "outline-timeline> "

/-- The commands with what they do. -/
def commands : List (String × String) :=
  [("help", "Show this help"),
   ("status", "Show cache status"),
   ("show", "Print the resolved timeline"),
   ("task", "Get task by ID. Usage: task <id>"),
   ("preview", "Preview a drag. Usage: preview <id> <YYYY-MM-DD> [duration]"),
   ("drag", "Commit a drag. Usage: drag <id> <YYYY-MM-DD> [duration]"),
   ("undo", "Undo the last edit"),
   ("redo", "Redo the last undone edit"),
   ("reload", "Re-read the outline from disk"),
   ("quit", "Exit")]

/-! ## Texts -/

def lineOf (s : String) : String := s ++ "\n"

def unlinesOf (ls : List String) : String := String.join (ls.map lineOf)

def intText (n : Int) : String := String.ofList (Text.intDigits n)

def truthText (b : Bool) : String := if b then "True" else "False"

/-- The two ends of a stretch of days. -/
def spanText (start finish : Date) : String := start.iso ++ " -> " ++ finish.iso

/-- What is special about a task. -/
def marks (t : Plan.Task) : List String :=
  (if t.isMilestone then ["milestone"] else [])
    ++ (if t.pinned then ["pinned"] else [])
    ++ (if t.dependencies.isEmpty then []
      else ["after=" ++ ",".intercalate (t.dependencies.map intText)])

/-- A task on one line, further to the right the deeper it is nested. -/
def taskLine (t : Plan.Task) : String :=
  "    " ++ String.join (List.replicate (t.level - 1).toNat "  ")
    ++ "[" ++ t.id ++ "] " ++ t.title ++ " (" ++ intText t.duration ++ "d) "
    ++ spanText t.start t.finish ++ "  " ++ " ".intercalate (marks t)

/-- A word in a column of the given width. -/
def column (width : Nat) (word : String) : String :=
  word ++ String.ofList (List.replicate (width - word.length) ' ')

def helpText : String :=
  unlinesOf (commands.map fun (name, what) => "  " ++ column 12 name ++ " " ++ what)

def dayText (d : Option Date) : String := (d.map Date.iso).getD "None"

/-- A project with its tasks. -/
def projectLines (p : Plan.Project) : List String :=
  ["", "  " ++ p.icon ++ " " ++ p.name ++ "  " ++ spanText p.start p.finish]
    ++ p.walk.map taskLine

/-- The plan of a session with some numbers in front. -/
def overview (s : Session) : String :=
  let start := s.loaded.map (·.outline.start)
  let finish := s.loaded.map (·.plan.finish)
  unlinesOf <|
    ["",
     "=== Smoke Test ===",
     "  Outline:      " ++ s.path.getD "None",
     "  Projects:     " ++ toString s.projects.length,
     "  Tasks:        " ++ toString ((s.projects.map (·.tasks.length)).foldr (· + ·) 0),
     "  Conflicts:    " ++ toString s.conflicts.length,
     "  Start -> end: " ++ dayText start ++ " -> " ++ dayText finish]
    ++ s.projects.flatMap projectLines
    ++ s.conflicts.flatMap (fun c => ["", "  CONFLICT [" ++ c.task ++ "] " ++ c.message])
    ++ ["", "=== Smoke Test Complete ===", ""]

def noTask (id : String) : String := lineOf ("  Task '" ++ id ++ "' not found")

/-- All about one task. -/
def taskText (t : Plan.Task) (p : Plan.Project) : String :=
  unlinesOf <|
    ["  ID:        " ++ t.id,
     "  Title:     " ++ t.title,
     "  Project:   " ++ p.name,
     "  Level:     " ++ intText t.level,
     "  Dates:     " ++ spanText t.start t.finish ++ " (" ++ intText t.duration ++ "d)",
     "  Status:    " ++ t.status.name,
     "  After:     [" ++ ", ".intercalate (t.dependencies.map intText) ++ "]",
     "  Milestone: " ++ truthText t.isMilestone,
     "  Pinned:    " ++ truthText t.pinned,
     "  Line:      " ++ intText t.line]
    ++ (p.childrenOf t).map fun c => "             [" ++ c.id ++ "] " ++ c.title

/-! ## Commands -/

/-- What a command answers, and whether the console goes on after it. -/
inductive Reply where
  | text (s : String)
  | quit
deriving DecidableEq, Repr

/-- The drag that the words after a command ask for: an id, a day and perhaps a duration. -/
inductive DragWords where
  | drag (d : Plan.Drag)
  | invalid (answer : String)

def readDrag (command : String) : List (List Char) → Except Fault DragWords
  | id :: day :: rest =>
    match Date.ofIso? day with
    | none => .ok (.invalid (lineOf ("  Invalid date: " ++ String.ofList day)))
    | some start => do
      let duration ← rest.head?.mapM Text.readInt
      return .drag ⟨String.ofList id, start, duration⟩
  | _ => .ok (.invalid (lineOf ("Usage: " ++ command ++ " <id> <YYYY-MM-DD> [duration]")))

/-- The project of a dragged task as it would be. -/
def previewText (d : Plan.Drag) (after : Plan.Dragged) : String :=
  match after.task with
  | none => noTask d.task
  | some t =>
    unlinesOf ((after.projects.filter (·.id == t.projectId)).flatMap fun p => p.walk.map taskLine)

def preview (words : List (List Char)) : Work String := do
  match ← readDrag "preview" words with
  | .invalid answer => return answer
  | .drag d => return previewText d ((← get).session.preview d)

def drag (words : List (List Char)) : Work String := do
  match ← readDrag "drag" words with
  | .invalid answer => return answer
  | .drag d =>
    match ← Session.commit d with
    | none => return noTask d.task
    | some t => return lineOf ("  Moved [" ++ t.id ++ "] to " ++ spanText t.start t.finish)

def showTask (words : List (List Char)) : Work String := do
  match words with
  | [] => return lineOf "Usage: task <id>"
  | id :: _ =>
    let id := String.ofList id
    match (← get).session.task? id with
    | some (t, p) => return taskText t p
    | none => return noTask id

/-- What is said about an action that was taken back or repeated. -/
def actionText (verb nothing : String) : Option Action → String
  | some a => lineOf ("  " ++ verb ++ " " ++ a.kind.name ++ " of " ++ a.task)
  | none => lineOf ("  Nothing to " ++ nothing)

def unknownCommand (name : String) : String :=
  lineOf ("Unknown command: " ++ name ++ ". Type 'help' for available commands.")

/-- Runs the command `name` with the words after it. -/
def run (name : String) (words : List (List Char)) : Work Reply :=
  match name with
  | "quit" => return .quit
  | "exit" => return .quit
  | "help" => return .text helpText
  | "status" => do
    return .text (lineOf (Service.statusJson (← get).session).indented)
  | "show" => do return .text (overview (← get).session)
  | "task" => do return .text (← showTask words)
  | "preview" => do return .text (← preview words)
  | "drag" => do return .text (← drag words)
  | "undo" => do return .text (actionText "Undid" "undo" (← Session.undo))
  | "redo" => do return .text (actionText "Redid" "redo" (← Session.redo))
  | "reload" => do
    Session.reload
    return .text (lineOf "  Reloaded")
  | _ => return .text (unknownCommand name)

/-- Runs the command on a line; a blank line is no command. -/
def step (line : String) : Work Reply :=
  match Text.words line.toList with
  | [] => return .text ""
  | name :: words => run (String.ofList (Text.lower name)) words

/-! ## Conversations -/

def greeting : String :=
  "Interactive mode. Type 'help' for commands, 'quit' to exit.\n\n"

/-- What has been written so far, how it ended, and the desk at that point. -/
structure Transcript where
  output : String
  outcome : Except Fault Unit
  desk : Desk

/-- A conversation over the given lines; it ends with `quit`, a fault or the last line. -/
def converse (desk : Desk) : List String → Transcript
  | [] => ⟨prompt ++ "\n", .ok (), desk⟩
  | line :: lines =>
    match (step line).on desk with
    | (.error f, desk) => ⟨prompt, .error f, desk⟩
    | (.ok .quit, desk) => ⟨prompt, .ok (), desk⟩
    | (.ok (.text answer), desk) =>
      let rest := converse desk lines
      { rest with output := prompt ++ answer ++ rest.output }

/-- The overview, the greeting and a conversation. -/
def session (desk : Desk) (lines : List String) : Transcript :=
  let talk := converse desk lines
  { talk with output := overview desk.session ++ greeting ++ talk.output }

/-- What the program writes when it is given no file. -/
def usage : String := "Usage: python harness.py <OUTLINE_FILE>\n"

/-- What the program writes before it opens a file. -/
def opening (path : String) : String := lineOf ("Initializing cache from: " ++ path)

def closing : String := "Done.\n"

/-- The whole run of the program on a file. -/
def program (desk : Desk) (path : String) (lines : List String) : Transcript :=
  match (Session.start path true).on desk with
  | (.error f, desk) => ⟨opening path, .error f, desk⟩
  | (.ok (), desk) =>
    let talk := session desk lines
    let output := opening path ++ talk.output
    match talk.outcome with
    | .ok () => { talk with output := output ++ closing }
    | .error _ => { talk with output := output }

end Roadmap.Console
