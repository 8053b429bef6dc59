import Roadmap.Json
import Roadmap.Session

/-!
# Plans as JSON

The JSON that answers show of plans, tasks, conflicts and actions. A task is shown with its
children nested in it, in the order of the outline; the fields of an object come in a fixed order.
-/

namespace Roadmap.Service

def dateJson (d : Date) : Json := .text d.iso

def intsJson (ns : List Int) : Json := .list (ns.map .int)

/-- The fields of a task, without its children. -/
def taskFields (t : Plan.Task) : List (String × Json) :=
  [("id", .text t.id),
   ("project_id", .text t.projectId),
   ("position", .int t.position),
   ("level", .int t.level),
   ("title", .text t.title),
   ("duration", .int t.duration),
   ("start", dateJson t.start),
   ("end", dateJson t.finish),
   ("dependencies", intsJson t.dependencies),
   ("is_milestone", .bool t.isMilestone),
   ("is_done", .bool t.isDone),
   ("status", .text t.status.name),
   ("color", .ofOption .text t.color),
   ("explicit_start", .ofOption dateJson t.explicitStart),
   ("manually_positioned", .bool t.pinned),
   ("linked_note", .ofOption .text t.note),
   ("line_number", .int t.line)]

mutual

/-- The fields of a task and, if it has any, its children. -/
def treeFields : Plan.Tree → List (String × Json)
  | .node t [] => taskFields t
  | .node t (child :: children) =>
    taskFields t
      ++ [("children", .list (.object (treeFields child) :: treesJson children))]

def treesJson : List Plan.Tree → List Json
  | [] => []
  | tree :: trees => .object (treeFields tree) :: treesJson trees

end

def projectJson (p : Plan.Project) : Json :=
  .object
    [("id", .text p.id),
     ("name", .text p.name),
     ("icon", .text p.icon),
     ("linked_note", .ofOption .text p.note),
     ("start", dateJson p.start),
     ("end", dateJson p.finish),
     ("line_number", .int p.line),
     ("tasks", .list (treesJson p.forest))]

def conflictJson (c : Plan.Conflict) : Json :=
  .object
    [("task_id", .text c.task),
     ("kind", .text "dependency_violation"),
     ("message", .text c.message),
     ("related_task_ids", .list [.text c.dependency])]

def placementJson (p : Placement) : Json :=
  .object [("start", dateJson p.start), ("duration", .int p.duration)]

def actionJson (a : Action) : Json :=
  .object
    [("kind", .text a.kind.name),
     ("task_id", .text a.task),
     ("line_number", .int a.line),
     ("before", placementJson a.before),
     ("after", placementJson a.after)]

/-- A plan between its start and its end; one that was never made has neither. -/
def planJson (start finish : Option Date) (projects : List Plan.Project)
    (conflicts : List Plan.Conflict) : Json :=
  .object
    [("global_start_date", .ofOption dateJson start),
     ("global_end_date", .ofOption dateJson finish),
     ("projects", .list (projects.map projectJson)),
     ("conflicts", .list (conflicts.map conflictJson))]

/-- What a session has loaded, in numbers. -/
def statusJson (s : Session) : Json :=
  .object
    [("file_path", .ofOption .text s.path),
     ("projects", .int s.projects.length),
     ("tasks", .int ((s.projects.map (·.tasks.length)).foldr (· + ·) 0 : Nat)),
     ("conflicts", .int s.conflicts.length),
     ("global_start_date", .ofOption (fun l => dateJson l.outline.start) s.loaded),
     ("global_end_date", .ofOption (fun l => dateJson l.plan.finish) s.loaded),
     ("last_load", .ofOption (fun l => .text l.stamp) s.loaded),
     ("can_undo", .bool s.history.canUndo),
     ("can_redo", .bool s.history.canRedo)]

end Roadmap.Service
