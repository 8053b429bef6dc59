import Roadmap.Plan.Site

/-!
# Placing all tasks

Tasks are placed depth first, those that a task requires before the task itself. The walk keeps its
own stack, so a long chain of dependencies is no deeper than a short one. A task that is still
being worked on when it is required again closes a cycle and is passed over, so every task gets
its days and the walk ends: each step either opens a task that was never seen or shortens what is
left to do.
-/

namespace Roadmap.Plan

inductive Mark where
  | unseen
  /-- The tasks that this one requires are being placed. -/
  | opened
  | placed (s : Span)
deriving DecidableEq

namespace Mark

def span? : Mark → Option Span
  | placed s => some s
  | _ => none

end Mark

/-- The days of a task, if it has been placed. -/
def placedAt (marks : List Mark) (i : Nat) : Option Span := marks[i]?.bind Mark.span?

/-- A task being worked on, with the required tasks that were not yet looked at. -/
structure Frame where
  index : Nat
  pending : List Nat
deriving DecidableEq, Repr

def unseenCount (marks : List Mark) : Nat := marks.countP (· = .unseen)

/-- The number of steps that a stack takes if it opens nothing. -/
def stackWeight : List Frame → Nat
  | [] => 0
  | f :: rest => f.pending.length + 1 + stackWeight rest

theorem unseenCount_set_le (marks : List Mark) (i : Nat) {m : Mark} (hm : m ≠ .unseen) :
    unseenCount (marks.set i m) ≤ unseenCount marks := by
  induction marks generalizing i with
  | nil => simp
  | cons a marks ih =>
    cases i with
    | zero => simp [unseenCount, List.countP_cons, hm]
    | succ i =>
      have := ih (i := i)
      simp only [unseenCount, List.set_cons_succ, List.countP_cons] at this ⊢
      omega

theorem unseenCount_set_lt {marks : List Mark} {i : Nat} {m : Mark} (hm : m ≠ .unseen)
    (hi : marks[i]? = some .unseen) : unseenCount (marks.set i m) < unseenCount marks := by
  induction marks generalizing i with
  | nil => simp at hi
  | cons a marks ih =>
    cases i with
    | zero =>
      simp only [List.getElem?_cons_zero, Option.some.injEq] at hi
      simp [unseenCount, hm, hi]
    | succ i =>
      have := ih (i := i) (by simpa using hi)
      simp only [unseenCount, List.set_cons_succ, List.countP_cons] at this ⊢
      omega

/-- The tasks that the task at an index requires. -/
def requiredBy (sites : List Site) (i : Nat) : List Nat :=
  match sites[i]? with
  | some s => s.requires
  | none => []

/-- The days of the task at an index, given the tasks placed so far. -/
def placeAt (sites : List Site) (origin : Date) (marks : List Mark) (i : Nat) : Mark :=
  match sites[i]? with
  | some s => .placed (s.place origin (placedAt marks))
  | none => .opened

theorem placeAt_ne_unseen (sites : List Site) (origin : Date) (marks : List Mark) (i : Nat) :
    placeAt sites origin marks i ≠ .unseen := by
  unfold placeAt
  split <;> simp

/-- Works off a stack of tasks. -/
def settle (sites : List Site) (origin : Date) (marks : List Mark) :
    List Frame → List Mark
  | [] => marks
  | ⟨i, []⟩ :: rest => settle sites origin (marks.set i (placeAt sites origin marks i)) rest
  | ⟨i, next :: pending⟩ :: rest =>
    if marks[next]? = some .unseen then
      settle sites origin (marks.set next .opened)
        (⟨next, requiredBy sites next⟩ :: ⟨i, pending⟩ :: rest)
    else settle sites origin marks (⟨i, pending⟩ :: rest)
termination_by stack => (unseenCount marks, stackWeight stack)
decreasing_by
  · have h := unseenCount_set_le marks i (placeAt_ne_unseen sites origin marks i)
    rcases Nat.lt_or_eq_of_le h with h | h
    · exact Prod.Lex.left _ _ h
    · rw [h]
      exact Prod.Lex.right _ (by simp [stackWeight])
  · next h => exact Prod.Lex.left _ _ (unseenCount_set_lt (by simp) h)
  · exact Prod.Lex.right _ (by simp [stackWeight])

/-- Places the task at an index, unless that has been done. -/
def visit (sites : List Site) (origin : Date) (marks : List Mark) (i : Nat) : List Mark :=
  if marks[i]? = some .unseen then
    settle sites origin (marks.set i .opened) [⟨i, requiredBy sites i⟩]
  else marks

/-- The days of all tasks, which are taken up in their order. -/
def resolve (sites : List Site) (origin : Date) : List Mark :=
  (List.range sites.length).foldl (visit sites origin) (List.replicate sites.length .unseen)

end Roadmap.Plan
