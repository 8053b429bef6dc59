import Roadmap.Plan.Task

/-!
# The forest of tasks

Levels nest tasks: the parent of a task is the nearest task before it that has a lower level. One
walk over the levels finds all parents. It keeps the tasks that later ones can still be nested
under, the deepest first; a new task closes those of its own level and deeper, and what is then on
top is its parent.

The nested view `Tree` lists each task with the trees of its children; `ancestors` goes the other
way.
-/

namespace Roadmap.Plan

/-! ## Links -/

/-- A task under which later tasks can be nested. -/
structure Opening where
  index : Nat
  level : Int
deriving DecidableEq, Repr

/-- The parents of the tasks with the given levels, the first of which is the task `index`. -/
def parentsFrom (openings : List Opening) (index : Nat) : List Int → List (Option Nat)
  | [] => []
  | level :: levels =>
    let still := openings.dropWhile (level ≤ ·.level)
    (still.head?.map (·.index)) :: parentsFrom (⟨index, level⟩ :: still) (index + 1) levels

/-- The parent of each task. -/
def parents (levels : List Int) : List (Option Nat) := parentsFrom [] 0 levels

/-- The tasks with a given parent, in order. -/
def childIndices (parents : List (Option Nat)) (parent : Nat) : List Nat :=
  parents.zipIdx.filterMap fun (p, i) => if p = some parent then some i else none

/-- The tasks with their links set anew from their levels. -/
def link (tasks : List Task) : List Task :=
  let ps := parents (tasks.map (·.level))
  (tasks.zip ps).zipIdx.map fun ((t, p), i) =>
    { t with parent := p, children := childIndices ps i }

/-! ## Siblings -/

/-- Looks for a sibling of `t` of its own level among earlier tasks, the nearest first; a task of
a lower level ends the search. -/
def searchSibling (t : Task) : List (Task × Nat) → Option Nat
  | [] => none
  | (c, i) :: rest =>
    if c.parent = t.parent ∧ c.level = t.level then some i
    else if c.level < t.level then none
    else searchSibling t rest

/-- The nearest earlier task with the same parent and level; a task without a parent has none. -/
def previousSibling? (tasks : List Task) (i : Nat) : Option Nat :=
  tasks[i]?.bind fun t =>
    if t.parent.isNone then none else searchSibling t (tasks.zipIdx.take i).reverse

/-! ## Walks -/

/-- A task with the trees of its children. -/
inductive Tree where
  | node (task : Task) (children : List Tree)

mutual

/-- The tasks of a tree, each before its children. -/
def Tree.preorder : Tree → List Task
  | .node t children => t :: Tree.preorderAll children

def Tree.preorderAll : List Tree → List Task
  | [] => []
  | tree :: trees => tree.preorder ++ Tree.preorderAll trees

end

/-- The tree under a task; `depth` bounds how far it reaches. -/
def Project.treeWithin (p : Project) : Nat → Task → Tree
  | 0, t => .node t []
  | depth + 1, t => .node t ((p.childrenOf t).map (p.treeWithin depth))

/-- The tree under a task. No task lies deeper than there are tasks. -/
def Project.tree (p : Project) (t : Task) : Tree := p.treeWithin p.tasks.length t

/-- The trees of the project. -/
def Project.forest (p : Project) : List Tree := p.roots.map p.tree

/-- The tasks of the project, each before its children. -/
def Project.walk (p : Project) : List Task := Tree.preorderAll p.forest

/-- The ancestors of a task with the given parent, nearest first, at most `bound` of them. -/
def ancestorsWithin (tasks : List Task) : Nat → Option Nat → List Task
  | 0, _ => []
  | bound + 1, parent =>
    match parent.bind (tasks[·]?) with
    | some t => t :: ancestorsWithin tasks bound t.parent
    | none => []

/-- The ancestors of a task, nearest first. A chain of parents is never longer than the list. -/
def Project.ancestors (p : Project) (t : Task) : List Task :=
  ancestorsWithin p.tasks p.tasks.length t.parent

end Roadmap.Plan
