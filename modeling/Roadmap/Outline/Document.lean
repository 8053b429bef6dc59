import Roadmap.Outline.StartDay
import Roadmap.Text.Line

/-!
# The text of an outline

A text is read line by line. A header opens a project, a task line belongs to the project above
it, and every other line says nothing; so do task lines before the first header.
-/

namespace Roadmap.Outline

/-- What a line says. -/
inductive Statement where
  | header (p : Project)
  | task (t : Task)
  | silent
deriving DecidableEq

/-- What the line with the given number says. -/
def readLine (line : Text.Line) (number : Int) : Except Fault Statement :=
  match readHeader? line number with
  | some p => .ok (.header p)
  | none => (readTask? line number).map fun
    | some t => .task t
    | none => .silent

/-- What all lines say; the first has number `number`. -/
def readLines (number : Int) : List Text.Line → Except Fault (List Statement)
  | [] => .ok []
  | line :: lines => do
    let s ← readLine line number
    let rest ← readLines (number + 1) lines
    return s :: rest

/-- The tasks before the first header, and the projects with their tasks. -/
def gather : List Statement → List Task × List Project
  | [] => ([], [])
  | s :: rest =>
    let (tasks, projects) := gather rest
    match s with
    | .header p => ([], { p with tasks := tasks } :: projects)
    | .task t => (t :: tasks, projects)
    | .silent => (tasks, projects)

/-- The outline that a text stands for. -/
def read (text : String) (today : Date) : Except Fault Outline := do
  let statements ← readLines 1 (Text.linesOf text.toList)
  return ⟨startDay text.toList today, (gather statements).2⟩

/-- The text that a new outline starts with. -/
def starter (today : Date) : String :=
  "# My Projects\n"
    ++ "@start: " ++ today.iso ++ "\n"
    ++ "\n"
    ++ "## Sample Project\n"
    ++ "> Planning phase (5)\n"
    ++ "> Development (10) @after:1\n"
    ++ ">> Backend setup (4)\n"
    ++ ">> Frontend setup (4)\n"
    ++ ">> Integration (2) @after:3 @after:4\n"
    ++ "> Testing (5) @after:2\n"
    ++ "> Deployment (2) @after:6 @milestone\n"


end Roadmap.Outline
