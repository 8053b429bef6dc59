import Roadmap.Plan.Reconcile
import Roadmap.Plan.Resolve

/-!
# From an outline to a plan

Each project is scheduled by itself: its tasks are linked, placed, and the parents fitted to their
children. Fitting can move a finish past the start of a task that was placed by it, and a pinned
task may start too early anyway; every such pair is reported as a conflict.
-/

namespace Roadmap.Plan

/-- A task of the outline before it is placed. -/
def Task.ofOutline (t : Outline.Task) (projectId : String) (index : Nat) (origin : Date) : Task :=
  { t with
    id := taskId projectId index
    projectId := projectId
    index := index
    start := origin
    finish := origin.shift t.duration }

/-- The task on the days of a mark. -/
def Task.atMark (t : Task) : Mark → Task
  | .placed s => { t with start := s.start, finish := s.finish }
  | _ => t

/-- Linked tasks on the days that are found for them. -/
def placeTasks (tasks : List Task) (origin : Date) : List Task :=
  List.zipWith Task.atMark tasks (resolve (sites tasks) origin)

/-- Schedules the tasks of one project. -/
def schedule (tasks : List Outline.Task) (projectId : String) (origin : Date) : List Task :=
  let plain := tasks.zipIdx.map fun (t, i) => Task.ofOutline t projectId i origin
  reconcile (placeTasks (link plain) origin)

/-- Schedules the project at a place in the outline. -/
def Project.ofOutline (p : Outline.Project) (index : Nat) (origin : Date) : Project :=
  let id := projectId index
  let plain : Project :=
    { id := id, name := p.name, icon := p.icon, note := p.note, line := p.line,
      start := origin, finish := origin, tasks := schedule p.tasks id origin }
  plain.withBounds origin

/-- The conflict of a task with one it depends on, if there is one. -/
def conflict? (t dependency : Task) : Option Conflict :=
  if t.start < dependency.finish then
    some {
      task := t.id
      message := "\"" ++ t.title ++ "\" starts before \"" ++ dependency.title ++ "\" ends"
      dependency := dependency.id }
  else none

/-- The conflicts of a project, in the order of its tasks and of their dependencies. -/
def Project.conflicts (p : Project) : List Conflict :=
  p.tasks.flatMap fun t =>
    t.dependencies.filterMap fun position => (p.taskAt? position).bind (conflict? t)

/-- The plan of an outline. -/
def ofOutline (o : Outline) : Plan :=
  let projects := o.projects.zipIdx.map fun (p, i) => Project.ofOutline p i o.start
  { projects := projects
    conflicts := projects.flatMap Project.conflicts
    finish := (projects.map (·.finish)).foldl max o.start }

end Roadmap.Plan
