import Roadmap.Calendar.Date

/-!
# Tasks and projects of an outline

The records that the text of an outline stands for, before anything is scheduled: an outline is a
start day and a list of projects, a project a header and its tasks in the order of their lines.
-/

namespace Roadmap

inductive Status where
  | pending
  | inProgress
  | done
  | cancelled
deriving DecidableEq, Repr

namespace Status

def name : Status → String
  | pending => "pending"
  | inProgress => "in_progress"
  | done => "done"
  | cancelled => "cancelled"

def ofName? : String → Option Status
  | "pending" => some pending
  | "in_progress" => some inProgress
  | "done" => some done
  | "cancelled" => some cancelled
  | _ => none

theorem ofName?_name (s : Status) : ofName? s.name = some s := by cases s <;> rfl

end Status

namespace Outline

/-- A task as its line states it. `dependencies` are positions in the project's list of tasks,
counted from 1; a position that names no task is kept and has no effect. -/
structure Task where
  level : Int
  title : String
  duration : Int
  dependencies : List Int := []
  isMilestone : Bool := false
  isDone : Bool := false
  status : Status := .pending
  color : Option String := none
  explicitStart : Option Date := none
  note : Option String := none
  line : Int := 0
deriving DecidableEq

/-- The icon of a project whose header names none. -/
def defaultIcon : String := "📁"

structure Project where
  name : String
  icon : String := defaultIcon
  note : Option String := none
  line : Int := 0
  tasks : List Task := []
deriving DecidableEq

end Outline

/-- The content of an outline: the day from which tasks are scheduled, and the projects. -/
structure Outline where
  start : Date
  projects : List Outline.Project := []
deriving DecidableEq

end Roadmap
