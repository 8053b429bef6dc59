import Mathlib
import Roadmap.Service.Route
import Roadmap.Service.Tool

/-!
# Changes and the ways to ask for them

A change can be asked for over the web, where a route has its arguments as values of declared kinds,
and with a tool, which takes them by name. A call of the tool asks for the change if it gives those
values under the names of the tool's parameters, in any order; a value that is not given may be left
out or be null. Both ways then come to the same request (`toolRequest?_of_calls`).
-/

namespace Roadmap.Service

/-- A change that can be asked for, with its arguments. -/
inductive Mutation where
  | drag (id : String) (body : DragBody)
  | update (id : String) (body : UpdateBody)
  | undo
  | redo
  | edit (body : EditBody)

namespace Mutation

def route : Mutation → Route
  | drag id body => .drag id body
  | update id body => .update id body
  | undo => .undo
  | redo => .redo
  | edit body => .edit body

def tool : Mutation → String
  | drag .. => "task_drag"
  | update .. => "task_update"
  | undo => "timeline_undo"
  | redo => "timeline_redo"
  | edit _ => "outline_edit"

/-- The values of the arguments by the names of the tool's parameters. -/
def values : Mutation → Arguments
  | drag id body =>
    [("task_id", .text id), ("start", .text body.start), ("duration", argument .int body.duration)]
  | update id body =>
    [("task_id", .text id),
     ("title", argument .text body.title),
     ("duration", argument .int body.duration),
     ("start", argument .text body.start),
     ("dependencies", argument intsJson body.dependencies),
     ("is_milestone", argument .bool body.isMilestone),
     ("status", argument .text body.status),
     ("color", argument .text body.color),
     ("linked_note", argument .text body.note)]
  | undo => []
  | redo => []
  | edit body =>
    [("operation", .text body.operation), ("line_number", .int body.line),
     ("target_line_number", argument .int body.target), ("text", argument .text body.text)]

/-- The change goes back or forward in the log. -/
def isStep : Mutation → Bool
  | undo => true
  | redo => true
  | _ => false

theorem catchesFaults_route (m : Mutation) : m.route.catchesFaults = !m.isStep := by
  cases m with
  | drag id body => rfl
  | update id body => rfl
  | undo => rfl
  | redo => rfl
  | edit body => rfl

end Mutation

/-- The arguments have these values; null is the value of one that is not given. -/
def Arguments.Have (arguments values : Arguments) : Prop :=
  ∀ p ∈ values, arguments.value p.1 = p.2

/-- A call of the change's tool with these arguments asks for the change. -/
structure Mutation.Calls (m : Mutation) (arguments : Arguments) : Prop where
  fit : ∃ p, parameters? m.tool = some p ∧ p.fit (arguments.map (·.1)) = true
  values : arguments.Have m.values

/-- The tool makes the request that the route makes. -/
theorem toolRequest?_of_calls {m : Mutation} {arguments : Arguments} (h : m.Calls arguments) :
    toolRequest? m.tool arguments = some m.route.request := by
  obtain ⟨p, hp, hfit⟩ := h.fit
  rw [toolRequest?, hp]
  simp only [Option.bind_eq_bind, Option.bind_some, hfit, if_true]
  have hvalues := h.values
  cases m with
  | drag id body =>
      simp only [Mutation.values, Arguments.Have, List.forall_mem_cons] at hvalues
      simp only [Mutation.tool, Mutation.route, Route.request, requestOf?, hvalues]
  | update id body =>
      simp only [Mutation.values, Arguments.Have, List.forall_mem_cons] at hvalues
      simp only [Mutation.tool, Mutation.route, Route.request, requestOf?, Arguments.update,
        UpdateBody.update, hvalues]
  | undo => rfl
  | redo => rfl
  | edit body =>
      simp only [Mutation.values, Arguments.Have, List.forall_mem_cons] at hvalues
      simp only [Mutation.tool, Mutation.route, Route.request, requestOf?, hvalues]

end Roadmap.Service
