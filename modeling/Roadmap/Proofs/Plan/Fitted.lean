import Roadmap.Proofs.Plan.Equations
import Roadmap.Proofs.Plan.Settled

/-!
# What fitting fixes

A project is *fitted* when its parents cover their children. Nothing is asked of the durations, so
this holds of every schedule and after every drag, where `Settled` needs durations that are not
negative.

In fitted tasks the days of all tasks are a monotone function of the days of those without children
(`Fitted.later`): if no leaf below a task comes earlier, then neither does the task. So a task stays
on its days as long as the leaves below it do (`Fitted.days`).
-/

namespace Roadmap.Plan

/-- The second span starts no earlier and ends no earlier than the first. -/
structure Span.Later (s s' : Span) : Prop where
  start : s.start ≤ s'.start
  finish : s.finish ≤ s'.finish

theorem Span.Later.refl (s : Span) : s.Later s := ⟨le_refl _, le_refl _⟩

theorem Span.Later.antisymm {s s' : Span} (h : s.Later s') (h' : s'.Later s) : s = s' :=
  congrArg₂ Span.mk (le_antisymm h.start h'.start) (le_antisymm h.finish h'.finish)

/-- Linked tasks whose parents cover their children. -/
structure Fitted (tasks : List Task) : Prop where
  linked : Linked tasks
  indexed : ∀ (i : Nat) (t : Task), tasks[i]? = some t → t.index = i
  cover : ∀ (i : Nat) (t : Task), tasks[i]? = some t → t.hasChildren →
    IsLeast (childDays tasks i (·.start)) t.start
      ∧ IsGreatest (childDays tasks i (·.finish)) t.finish
      ∧ t.duration = max 1 (t.start.daysTo t.finish)

theorem Settled.fitted {tasks : List Task} (h : Settled tasks) : Fitted tasks :=
  ⟨h.linked, h.indexed, h.cover⟩

theorem fitted_reconcile {tasks : List Task} (hl : Linked tasks)
    (hindex : ∀ (i : Nat) (t : Task), tasks[i]? = some t → t.index = i) :
    Fitted (reconcile tasks) := by
  have hagree := agree_reconcile tasks
  refine ⟨hl.of_agree hagree, fun i t ht => ?_, fun i t ht hc => reconcile_cover hl ht hc⟩
  obtain ⟨t₀, ht₀, hu⟩ := hagree.exists ht
  exact (Task.index_of_undated hu).symm.trans (hindex i t₀ ht₀)

theorem fitted_schedule (tasks : List Outline.Task) (projectId : String) (origin : Date) :
    Fitted (schedule tasks projectId origin) := by
  have hagree := agree_placeTasks (linked_link (Task.allOfOutline tasks projectId origin)) origin
  refine fitted_reconcile ((linked_link _).of_agree hagree) fun i t ht => ?_
  obtain ⟨t₁, ht₁, hu⟩ := hagree.exists ht
  rw [link_getElem?, allOfOutline_getElem?, Option.map_map, Option.map_eq_some_iff] at ht₁
  obtain ⟨t₀, -, rfl⟩ := ht₁
  exact (Task.index_of_undated hu).symm

/-- The task at `j` is the one at `i` or below it. -/
def Below (tasks : List Task) : Nat → Nat → Prop :=
  Relation.ReflTransGen fun i j => ∃ c, tasks[j]? = some c ∧ c.parent = some i

/-- What holds of tasks without children, and of a parent if it does of its children, holds of every
task. -/
theorem Linked.of_leaves {xs ys : List Task} (hl : Linked xs) {R : Span → Span → Prop} {i : Nat}
    (hleaf : ∀ {j : Nat} {t t' : Task}, Below xs i j → xs[j]? = some t → ys[j]? = some t' →
      t.hasChildren = false → R t.span t'.span)
    (hparent : ∀ {j : Nat} {t t' : Task}, xs[j]? = some t → ys[j]? = some t' → t.hasChildren →
      (∀ {k : Nat} {c c' : Task}, xs[k]? = some c → ys[k]? = some c' → c.parent = some j →
        R c.span c'.span) → R t.span t'.span)
    {t t' : Task} (ht : xs[i]? = some t) (ht' : ys[i]? = some t') : R t.span t'.span := by
  -- children stand after their parent, so the induction is on the distance from the end
  generalize hn : xs.length - i = n
  induction n using Nat.strongRecOn generalizing i t t' with
  | ind n ih =>
    cases hc : t.hasChildren with
    | false => exact hleaf .refl ht ht' hc
    | true =>
        refine hparent ht ht' hc fun {k c c'} hk hk' hp => ?_
        have hik : i < k := ((hl.parent k c hk i).mp hp).1.1
        have hlt := (List.getElem?_eq_some_iff.mp hk).1
        exact ih (xs.length - k) (by omega) (fun hbelow => hleaf (hbelow.head ⟨c, hk, hp⟩)) hk hk'
          rfl

section

variable {xs ys : List Task} (hx : Fitted xs) (hy : Fitted ys)
  (hlevel : xs.map (·.level) = ys.map (·.level))

include hx hy hlevel

/-- The step: a parent is later if its children are. -/
theorem Fitted.later_of_children {i : Nat} {t t' : Task} (ht : xs[i]? = some t)
    (ht' : ys[i]? = some t') (hc : t.hasChildren)
    (hchild : ∀ {k : Nat} {c c' : Task}, xs[k]? = some c → ys[k]? = some c' → c.parent = some i →
      c.span.Later c'.span) : t.span.Later t'.span := by
  have hlength : xs.length = ys.length := by simpa using congrArg List.length hlevel
  have hc' : t'.hasChildren := by
    rwa [Task.hasChildren, ← (hx.linked.ext hy.linked hlevel ht ht').2]
  obtain ⟨hstart, hfinish, -⟩ := hx.cover i t ht hc
  obtain ⟨hstart', hfinish', -⟩ := hy.cover i t' ht' hc'
  constructor
  · obtain ⟨k, c', hk', hp', heq⟩ := hstart'.1
    obtain ⟨c, hk⟩ : ∃ c, xs[k]? = some c :=
      ⟨_, List.getElem?_eq_getElem (hlength ▸ (List.getElem?_eq_some_iff.mp hk').1)⟩
    have hp := (hx.linked.ext hy.linked hlevel hk hk').1.trans hp'
    calc t.start ≤ c.start := hstart.2 ⟨k, c, hk, hp, rfl⟩
      _ ≤ c'.start := (hchild hk hk' hp).start
      _ = t'.start := heq
  · obtain ⟨k, c, hk, hp, heq⟩ := hfinish.1
    obtain ⟨c', hk'⟩ : ∃ c', ys[k]? = some c' :=
      ⟨_, List.getElem?_eq_getElem (hlength ▸ (List.getElem?_eq_some_iff.mp hk).1)⟩
    have hp' := (hx.linked.ext hy.linked hlevel hk hk').1.symm.trans hp
    calc t.finish = c.finish := heq.symm
      _ ≤ c'.finish := (hchild hk hk' hp).finish
      _ ≤ t'.finish := hfinish'.2 ⟨k, c', hk', hp', rfl⟩

/-- In fitted tasks with the same links, a task is later if all tasks without children below it
are. -/
theorem Fitted.later {i : Nat}
    (hleaf : ∀ {j : Nat} {t t' : Task}, Below xs i j → xs[j]? = some t → ys[j]? = some t' →
      t.hasChildren = false → t.span.Later t'.span) {t t' : Task} (ht : xs[i]? = some t)
    (ht' : ys[i]? = some t') : t.span.Later t'.span :=
  hx.linked.of_leaves hleaf (hx.later_of_children hy hlevel) ht ht'

/-- A task is on the same days if all tasks without children below it are. -/
theorem Fitted.days {i : Nat}
    (hleaf : ∀ {j : Nat} {t t' : Task}, Below xs i j → xs[j]? = some t → ys[j]? = some t' →
      t.hasChildren = false → t'.span = t.span) {t t' : Task} (ht : xs[i]? = some t)
    (ht' : ys[i]? = some t') : t'.span = t.span := by
  refine hx.linked.of_leaves (R := fun s s' => s' = s) hleaf (fun {j s s'} hs hs' hc hsame => ?_)
    ht ht'
  have hlater := hx.later_of_children hy hlevel hs hs' hc fun hk hk' hp =>
    hsame hk hk' hp ▸ Span.Later.refl _
  have hc' : s'.hasChildren := by
    rwa [Task.hasChildren, ← (hx.linked.ext hy.linked hlevel hs hs').2]
  have hearlier := hy.later_of_children hx hlevel.symm hs' hs hc' fun hk' hk hp' =>
    hsame hk hk' ((hx.linked.ext hy.linked hlevel hk hk').1.trans hp') ▸ Span.Later.refl _
  exact hearlier.antisymm hlater

end

end Roadmap.Plan
