import Roadmap.Service.Request

/-!
# Routes

The functions that the web interface has behind its paths. A route takes a task from the path and
all else from a body, each argument a value of the kind that is declared for it. It asks the same of
a session as the tool of the same purpose, and makes a status and a JSON value of what comes of it:
200 and the answer, 404 if there is no such task, 400 and the message if it stops with a fault. The
routes that only look at the session let a fault out, and so do undo and redo.
-/

namespace Roadmap.Service

/-! ## Bodies -/

structure DragBody where
  start : String
  duration : Option Int := none

/-- What an update sets; a field that is not given stays as it is. -/
structure UpdateBody where
  title : Option String := none
  duration : Option Int := none
  start : Option String := none
  dependencies : Option (List Int) := none
  isMilestone : Option Bool := none
  status : Option String := none
  color : Option String := none
  note : Option String := none

structure EditBody where
  operation : String
  line : Int
  target : Option Int := none
  text : Option String := none

structure ParseBody where
  text : String
  today : Option String := none

/-- A value as an argument; one that was not given is null. -/
def argument (f : α → Json) : Option α → Json := Json.ofOption f

/-- The fields that an update names. -/
def UpdateBody.update (b : UpdateBody) : TaskUpdate where
  title := argument .text b.title
  duration := argument .int b.duration
  start := argument .text b.start
  dependencies := argument intsJson b.dependencies
  isMilestone := argument .bool b.isMilestone
  status := argument .text b.status
  color := argument .text b.color
  note := argument .text b.note

/-! ## Routes -/

/-- A route with its arguments. -/
inductive Route where
  | plan
  | conflicts
  | task (id : String)
  | update (id : String) (body : UpdateBody)
  | dragPreview (id : String) (body : DragBody)
  | drag (id : String) (body : DragBody)
  | undo
  | redo
  | edit (body : EditBody)
  | parse (body : ParseBody)
  | status

/-- What a route answers. -/
structure Reply where
  status : Nat
  body : Json

/-- A reply that only says what is wrong. -/
def detail (status : Nat) (message : String) : Reply :=
  ⟨status, .object [("detail", .text message)]⟩

namespace Route

/-- What a route asks of the session. -/
def request : Route → Request
  | plan => .plan
  | conflicts => .conflicts
  | task id => .getTask (.text id)
  | update id body => .updateTask (.text id) body.update
  | dragPreview id body =>
    .previewDrag (.text id) (.text body.start) (argument .int body.duration)
  | drag id body => .drag (.text id) (.text body.start) (argument .int body.duration)
  | undo => .undo
  | redo => .redo
  | edit body =>
    .editOutline (.text body.operation) (.int body.line) (argument .int body.target)
      (argument .text body.text)
  | parse body => .parse (.text body.text) (argument .text body.today)
  | status => .status

/-- The route makes a reply of a fault. -/
def catchesFaults : Route → Bool
  | update .. => true
  | dragPreview .. => true
  | drag .. => true
  | edit _ => true
  | parse _ => true
  | _ => false

/-- Asks the session and replies. -/
def reply (r : Route) : Work Reply := do
  match ← (answer r.request).attempt with
  | .ok (.found body) => return ⟨200, body⟩
  | .ok (.noTask id) => return detail 404 (Answer.noTaskMessage id)
  | .error f => if r.catchesFaults then return detail 400 f.message else throw f

end Route

end Roadmap.Service
