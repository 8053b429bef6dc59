import Roadmap.Json.Integer
import Roadmap.Json.Literal
import Roadmap.Service.View

/-!
# Requests

What the tools and the web interface can ask of a session. Both hand on the same requests and get
the same answers; only the way in and the way out differ.

The arguments of a request are JSON values, and null stands for one that was not given. A value of
the wrong kind is a fault only where it comes to be used.

A request is answered with JSON, or with the id of a task that does not exist. It can also stop
with a fault, after which the session is in the state in which the fault left it.
-/

namespace Roadmap.Service

/-- The fields of a task that are to change. A start, color or note that is the empty text is taken
off the task. -/
structure TaskUpdate where
  title : Json := .null
  duration : Json := .null
  start : Json := .null
  dependencies : Json := .null
  isMilestone : Json := .null
  status : Json := .null
  color : Json := .null
  note : Json := .null

inductive Request where
  | plan
  | conflicts
  | getTask (id : Json)
  | previewDrag (id start duration : Json)
  | drag (id start duration : Json)
  | updateTask (id : Json) (update : TaskUpdate)
  | undo
  | redo
  | editOutline (operation line target text : Json)
  | parse (text today : Json)
  | status

inductive Answer where
  | found (body : Json)
  | noTask (id : String)

namespace Answer

/-- What an answer says about a task that does not exist. -/
def noTaskMessage (id : String) : String := "Task '" ++ id ++ "' not found"

def toJson : Answer → Json
  | found body => body
  | noTask id => .object [("error", .text (noTaskMessage id))]

end Answer

/-! ## Arguments -/

/-- The id that a value gives. One that is no text gives its literal, which no task has. -/
def idOf (value : Json) : String := String.ofList value.shown

/-- A value is not the day that the field `field` needs. -/
def notADay (field : String) (value : Json) : Fault :=
  .invalidDate field (String.ofList value.literal)

/-- The day that a value names; `field` is what the value was given for. -/
def requireDate (field : String) (value : Json) : Except Fault Date :=
  match value with
  | .text s =>
    match Date.ofIso? s.toList with
    | some d => .ok d
    | none => .error (notADay field value)
  | j => .error (if j.isNothing then notADay field j else .misfit (.lacks j.kind "strip"))

/-- The drag that a request asks for. The duration only matters if there is such a task. -/
def dragOf (projects : List Plan.Project) (id : String) (day : Date) (duration : Json) :
    Except Fault Plan.Drag :=
  let drag (n : Option Int) : Plan.Drag := ⟨id, day, n⟩
  if projects.all fun p => (p.find? id).isNone then .ok (drag none)
  else
    match duration with
    | .null => .ok (drag none)
    | value => value.integer.map fun n => drag (some n)

namespace TaskUpdate

/-- The start that an update asks for; a value that counts as nothing asks for none. -/
def startChange (value : Json) : Except Fault Outline.Change :=
  if value.isNothing then .ok (.start none)
  else (requireDate "start" value).map fun d => .start (some d)

/-- The change of the field `key`, unless its value is null. A value without a meaning changes
nothing. -/
def fieldChange? (key : String) (value : Json) : Option Outline.Change :=
  match value with
  | .null => none
  | j => Outline.Change.ofField? key j

/-- The changes that an update asks for. -/
def changes (u : TaskUpdate) : Except Fault (List Outline.Change) := do
  let start ← match u.start with
    | .null => pure none
    | j => (startChange j).map some
  return [
    fieldChange? "title" u.title,
    fieldChange? "duration" u.duration,
    start,
    fieldChange? "dependencies" u.dependencies,
    fieldChange? "is_milestone" u.isMilestone,
    fieldChange? "status" u.status,
    fieldChange? "color" u.color,
    fieldChange? "linked_note" u.note].filterMap id

end TaskUpdate

/-- The structural edit with the given name. -/
def editNamed (operation : String) (line target text : Json) : Except Fault Outline.EditCall :=
  let needing (argument : String) (value : Json) (make : Json → Outline.EditCall) :
      Except Fault Outline.EditCall :=
    match value with
    | .null => .error (.missingArgument operation argument)
    | j => .ok (make j)
  match operation with
  | "indent" => .ok (.indent line)
  | "outdent" => .ok (.outdent line)
  | "insert" => needing "text" text (.insert line)
  | "delete" => .ok (.delete line)
  | "move" => needing "target_line_number" target (.move line)
  | "delete_project" => .ok (.deleteProject line)
  | "move_project" => needing "target_line_number" target (.moveProject line)
  | _ => .error (.unknownOperation (Fault.quote operation))

/-- The structural edit that a request names. -/
def editOf (operation line target text : Json) : Except Fault Outline.EditCall :=
  match operation with
  | .text name => editNamed name line target text
  | .list _ => .error (.misfit (.notAKey operation.kind))
  | .object _ => .error (.misfit (.notAKey operation.kind))
  | j => .error (.unknownOperation (String.ofList j.literal))

/-! ## Answering -/

/-- A task with its children and the name of its project. -/
def taskAnswer (s : Session) (id : String) : Answer :=
  match s.task? id with
  | none => .noTask id
  | some (t, p) => .found (.object (treeFields (p.tree t) ++ [("project_name", .text p.name)]))

/-- A dragged task and all projects. -/
def draggedAnswer (id : String) (d : Plan.Dragged) : Answer :=
  match d.task with
  | none => .noTask id
  | some t =>
    .found (.object
      [("task", .object (taskFields t)), ("projects", .list (d.projects.map projectJson))])

/-- A task that an edit has answered, as the session has it now. -/
def editedAnswer (id : String) (task : Option Plan.Task) : Work Answer := do
  match task with
  | none => return .noTask id
  | some t => return taskAnswer (← get).session t.id

/-- What undo and redo answer. -/
def stepAnswer (action : Option Action) : Work Answer := do
  let history := (← get).session.history
  return .found (.object
    [("action", .ofOption actionJson action),
     ("can_undo", .bool history.canUndo),
     ("can_redo", .bool history.canRedo)])

/-- The plan of a text that has nothing to do with the session. -/
def parsedAnswer (text : String) (today : Date) : Except Fault Answer := do
  let outline ← Outline.read text today
  let plan := Plan.ofOutline outline
  return .found (planJson (some outline.start) (some plan.finish) plan.projects plan.conflicts)

/-- The text that a request gives to be read. -/
def requireText : Json → Except Fault String
  | .text s => .ok s
  | j => .error (.misfit (.lacks j.kind "split"))

/-- The day that counts as today for a text; a value that counts as nothing stands for the
session's. -/
def todayFor (s : Session) (today : Json) : Except Fault Date :=
  if today.isNothing then .ok s.today else requireDate "today" today

/-- Answers a request. -/
def answer : Request → Work Answer
  | .plan => do
    let s := (← get).session
    return .found (planJson (s.loaded.map (·.outline.start)) (s.loaded.map (·.plan.finish))
      s.projects s.conflicts)
  | .conflicts => do
    return .found (.list ((← get).session.conflicts.map conflictJson))
  | .getTask id => do
    return taskAnswer (← get).session (idOf id)
  | .previewDrag id start duration => do
    let day ← requireDate "start" start
    let s := (← get).session
    return draggedAnswer (idOf id) (s.preview (← dragOf s.projects (idOf id) day duration))
  | .drag id start duration => do
    let day ← requireDate "start" start
    let d ← dragOf (← get).session.projects (idOf id) day duration
    editedAnswer (idOf id) (← Session.commit d)
  | .updateTask id update => do
    editedAnswer (idOf id) (← Session.update (idOf id) (← update.changes))
  | .undo => do stepAnswer (← Session.undo)
  | .redo => do stepAnswer (← Session.redo)
  | .editOutline operation line target text => do
    let changed ← Session.call (← editOf operation line target text)
    return .found (.object [("operation", operation), ("changed", .bool changed)])
  | .parse text today => do
    let day ← todayFor (← get).session today
    parsedAnswer (← requireText text) day
  | .status => do
    return .found (statusJson (← get).session)

end Roadmap.Service
