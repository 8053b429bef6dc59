import Roadmap.Plan.Calculate

/-!
# Dragging a task

Moving a task pins it to a new day and may give it a new duration. Tasks that depend on it are then
pushed later, as far as they have to be, and so are those that depend on them in turn; no task is
ever pulled earlier. Then parents and the bounds of the project are fitted again. Other projects
stay as they are.

Pushing works off a list of pushed tasks, each with the path of tasks that led to it. A task is not
pushed by a path that goes through it, so a cycle does not push itself around; and as each push
moves a start later in a calendar that ends, pushing ends as well.
-/

namespace Roadmap.Plan

/-! ## Pushing dependents -/

/-- A task whose dependents are to be pushed, with the tasks on the way to it and itself. -/
structure Push where
  source : Nat
  path : List Nat
deriving DecidableEq, Repr

/-- The task has to make way for `source`. -/
def Push.moves (p : Push) (source t : Task) : Bool :=
  t.dependencies.contains source.position && !p.path.contains t.index && t.start < source.finish

/-- The task on the same number of days from a new start on. -/
def Task.startAt (t : Task) (d : Date) : Task :=
  { t with start := d, finish := d.shift t.duration }

/-- The tasks after one push. -/
def Push.apply (p : Push) (source : Task) (tasks : List Task) : List Task :=
  tasks.map fun t => if p.moves source t then t.startAt source.finish else t

/-- The pushes that follow from one: one for each task that it moves, the last of them first. -/
def Push.next (p : Push) (source : Task) (tasks : List Task) : List Push :=
  ((tasks.filter (p.moves source)).map fun t => ⟨t.index, t.index :: p.path⟩).reverse

/-- The number of days by which tasks can still move later. -/
def slack (tasks : List Task) : Nat :=
  (tasks.map fun t => 3652059 - t.start.ordinal).foldr (· + ·) 0

theorem slack_apply (p : Push) (source : Task) (tasks : List Task) :
    slack (p.apply source tasks) + (p.next source tasks).length ≤ slack tasks := by
  induction tasks with
  | nil => simp [slack, Push.apply, Push.next]
  | cons t tasks ih =>
    simp only [slack, Push.apply, Push.next, List.length_reverse, List.length_map] at ih
    simp only [slack, Push.apply, Push.next, List.length_reverse, List.length_map, List.map_cons,
      List.foldr_cons, List.filter_cons]
    split
    · next h =>
      have hlt : t.start.ordinal < source.finish.ordinal := by
        simp only [Push.moves, Bool.and_eq_true] at h
        exact of_decide_eq_true h.2
      have := source.finish.le_last
      have hs : (t.startAt source.finish).start = source.finish := rfl
      rw [hs, List.length_cons]
      omega
    · omega

/-- Works off a list of pushes. -/
def push (tasks : List Task) : List Push → List Task
  | [] => tasks
  | p :: rest =>
    match tasks[p.source]? with
    | none => push tasks rest
    | some source => push (p.apply source tasks) (p.next source tasks ++ rest)
termination_by stack => (slack tasks, stack.length)
decreasing_by
  · exact Prod.Lex.right _ (by simp)
  · have h := slack_apply p source tasks
    rcases Nat.eq_zero_or_pos (p.next source tasks).length with h0 | h0
    · rcases Nat.lt_or_eq_of_le (Nat.le_of_add_right_le h) with h | h
      · exact Prod.Lex.left _ _ h
      · rw [h]
        exact Prod.Lex.right _ (by simp [List.length_append, h0])
    · exact Prod.Lex.left _ _ (by omega)

/-- The tasks after those that depend on the task at `index` have been pushed. -/
def pushDependents (tasks : List Task) (index : Nat) : List Task :=
  push tasks [⟨index, [index]⟩]

/-! ## The drag -/

/-- A request to move a task, and to change its duration if one is given. -/
structure Drag where
  task : String
  start : Date
  duration : Option Int := none
deriving DecidableEq

/-- The dragged task on its new days, before anything else moves. -/
def Task.dragged (t : Task) (d : Drag) : Task :=
  let duration := match d.duration with
    | some n => max 0 n
    | none => t.duration
  { t with
    start := d.start
    finish := d.start.shift duration
    duration := duration
    explicitStart := some d.start }

/-- The project after a drag of its task `t`. -/
def Project.drag (p : Project) (t : Task) (d : Drag) : Project :=
  let tasks := link (p.tasks.set t.index (t.dragged d))
  { p with tasks := reconcile (pushDependents tasks t.index) }.withBounds p.start

/-- The outcome of a drag: all projects, and the dragged task as it is in them. -/
structure Dragged where
  projects : List Project
  task : Option Task
deriving DecidableEq

/-- Drags a task, which is looked up in one project after the other. Nothing moves if there is no
such task. -/
def drag (d : Drag) : List Project → Dragged
  | [] => ⟨[], none⟩
  | p :: rest =>
    match p.find? d.task with
    | some t =>
      let moved := p.drag t d
      ⟨moved :: rest, moved.tasks[t.index]?⟩
    | none =>
      let after := drag d rest
      { after with projects := p :: after.projects }

end Roadmap.Plan
