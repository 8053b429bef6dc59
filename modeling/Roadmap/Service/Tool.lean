import Roadmap.Json.Writer
import Roadmap.Service.Request

/-!
# Tools

The tools by which an assistant works on a session. A tool takes named arguments and always answers
with a text: the JSON of the answer, one item a line, or on one line the message of what went
wrong.
-/

namespace Roadmap.Service

/-- The names of all tools, in order. -/
def toolNames : List String :=
  ["cache_status", "outline_edit", "outline_parse", "task_drag", "task_drag_preview", "task_get",
   "task_update", "timeline_conflicts", "timeline_get", "timeline_redo", "timeline_undo"]

/-! ## Arguments -/

/-- The arguments of a tool: those that have to be given, if only as null, and those that may be
left out. -/
structure Parameters where
  needed : List String := []
  optional : List String := []

/-- The fields of a task that an update names. -/
def updateNames : List String :=
  ["title", "duration", "start", "dependencies", "is_milestone", "status", "color", "linked_note"]

/-- The parameters of a tool, if there is one of that name. -/
def parameters? (tool : String) : Option Parameters :=
  match tool with
  | "timeline_get" => some {}
  | "timeline_conflicts" => some {}
  | "task_get" => some { needed := ["task_id"] }
  | "task_drag_preview" => some { needed := ["task_id", "start"], optional := ["duration"] }
  | "task_drag" => some { needed := ["task_id", "start"], optional := ["duration"] }
  | "task_update" => some { needed := ["task_id"], optional := updateNames }
  | "timeline_undo" => some {}
  | "timeline_redo" => some {}
  | "outline_edit" =>
    some { needed := ["operation", "line_number"], optional := ["target_line_number", "text"] }
  | "outline_parse" => some { needed := ["text"], optional := ["today"] }
  | "cache_status" => some {}
  | _ => none

/-- Nothing that is needed is missing, and nothing else is given. -/
def Parameters.fit (p : Parameters) (names : List String) : Bool :=
  p.needed.all names.contains && names.all (p.needed ++ p.optional).contains

/-- Named arguments. -/
abbrev Arguments := List (String × Json)

namespace Arguments

/-- The value of an argument; one that was not given is null. -/
def value (arguments : Arguments) (name : String) : Json := (arguments.lookup name).getD .null

/-- The fields of a task that the arguments name. -/
def update (arguments : Arguments) : TaskUpdate where
  title := arguments.value "title"
  duration := arguments.value "duration"
  start := arguments.value "start"
  dependencies := arguments.value "dependencies"
  isMilestone := arguments.value "is_milestone"
  status := arguments.value "status"
  color := arguments.value "color"
  note := arguments.value "linked_note"

end Arguments

/-- The request that a tool makes of its arguments. -/
def requestOf? (tool : String) (arguments : Arguments) : Option Request :=
  let value := arguments.value
  match tool with
  | "timeline_get" => some .plan
  | "timeline_conflicts" => some .conflicts
  | "task_get" => some (.getTask (value "task_id"))
  | "task_drag_preview" =>
    some (.previewDrag (value "task_id") (value "start") (value "duration"))
  | "task_drag" => some (.drag (value "task_id") (value "start") (value "duration"))
  | "task_update" => some (.updateTask (value "task_id") arguments.update)
  | "timeline_undo" => some .undo
  | "timeline_redo" => some .redo
  | "outline_edit" =>
    some (.editOutline (value "operation") (value "line_number") (value "target_line_number")
      (value "text"))
  | "outline_parse" => some (.parse (value "text") (value "today"))
  | "cache_status" => some .status
  | _ => none

/-- The request that a call of a tool makes, if its arguments fit. -/
def toolRequest? (tool : String) (arguments : Arguments) : Option Request := do
  let parameters ← parameters? tool
  if parameters.fit (arguments.map (·.1)) then requestOf? tool arguments else none

/-! ## Answers -/

/-- The text that a tool answers with. -/
def toolText : Except Fault Answer → String
  | .ok a => a.toJson.indented
  | .error f => (Json.object [("error", .text f.message)]).line

/-- Calls a tool; whatever goes wrong is part of the text. -/
def callTool (r : Request) : Work String := do
  return toolText (← (answer r).attempt)

end Roadmap.Service
