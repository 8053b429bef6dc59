import Mathlib
import Roadmap.Proofs.Plan.Recursion

/-!
# The schedule as a system of equations

Read as equations on the days of all tasks at once, the rule for placing tasks says nothing about
an order in which they are taken up: each day is the greatest of the bounds that the days of other
tasks set (`Solves`). If no task requires itself through others, these equations have exactly one
solution, and the walk over the tasks finds it, whatever task it is sent to first.

Two facts carry this, and both speak of one task at a time. Whatever a task looks up is placed when
the task is, unless it waits for the task; so off the cycles the marks in the end still satisfy the
equation by which the task was placed (`Moment.balanced`). And `Requires` is well-founded below a
task from which no cycle is reached (`acc_of_acyclic`), so by induction along it two solutions agree.
-/

namespace Roadmap.Plan

/-! ## The equations -/

/-- The days that the task at `i` waits for, if the tasks are on `days`. -/
inductive Bound (tasks : List Task) (origin : Date) (days : List Span) (i : Nat) (t : Task) :
    Date → Prop where
  | origin : Bound tasks origin days i t origin
  | dependency {j : Nat} {s : Span} (hj : j ∈ t.dependsOn tasks) (hs : days[j]? = some s) :
      Bound tasks origin days i t s.finish
  | sibling {j : Nat} {s : Span} (hj : siblingBefore? tasks i t = some j)
      (hs : days[j]? = some s) : Bound tasks origin days i t s.finish
  | parent {p : Nat} {s : Span} (hfirst : siblingBefore? tasks i t = none)
      (hp : t.parent = some p) (hs : days[p]? = some s) : Bound tasks origin days i t s.start

/-- All tasks are where the rule wants them, given the days of the others. -/
structure Solves (tasks : List Task) (origin : Date) (days : List Span) : Prop where
  length : days.length = tasks.length
  finish : ∀ {i : Nat} {t : Task} {s : Span}, tasks[i]? = some t → days[i]? = some s →
    s.finish = s.start.shift t.duration
  pinned : ∀ {i : Nat} {t : Task} {s : Span} {d : Date}, tasks[i]? = some t →
    days[i]? = some s → t.explicitStart = some d → s.start = d
  free : ∀ {i : Nat} {t : Task} {s : Span}, tasks[i]? = some t → days[i]? = some s →
    t.explicitStart = none → IsGreatest {d | Bound tasks origin days i t d} s.start

def Task.span (t : Task) : Span := ⟨t.start, t.finish⟩

namespace Recursion

theorem placedAt_map_placed (days : List Span) (j : Nat) :
    placedAt (days.map .placed) j = days[j]? := by
  rw [placedAt, List.getElem?_map]
  cases days[j]? <;> rfl

theorem placedAt_resolve {tasks : List Task} (hl : Linked tasks) (origin : Date) (j : Nat) :
    placedAt (resolve tasks origin) j = (placeTasks tasks origin)[j]?.map Task.span := by
  rw [← map_placeTasks hl, placedAt, List.getElem?_map]
  cases (placeTasks tasks origin)[j]? with
  | none => rfl
  | some t => rfl

/-- The first day of a free task is the greatest of its bounds. -/
theorem isGreatest_startDay {tasks : List Task} {origin : Date} {t : Task}
    (hfree : t.explicitStart = none) (days : List Span) (i : Nat) :
    IsGreatest {d | Bound tasks origin days i t d}
      (startDay tasks origin (days.map .placed) i t) := by
  rw [startDay, hfree]
  simp only [placedAt_map_placed]
  convert Date.isGreatest_foldl_max _ _ using 2
  ext d
  rw [List.mem_cons, List.mem_append, List.mem_filterMap, Option.mem_toList]
  constructor
  · intro h
    cases h with
    | origin => exact .inl rfl
    | dependency hj hs => exact .inr (.inl ⟨_, hj, by rw [hs]; rfl⟩)
    | sibling hj hs => exact .inr (.inr (by simp [hj, hs]))
    | parent hfirst hp hs => exact .inr (.inr (by simp [hfirst, hp, hs]))
  · rintro (rfl | ⟨j, hj, hd⟩ | hd)
    · exact .origin
    · obtain ⟨s, hs, rfl⟩ := Option.map_eq_some_iff.mp hd
      exact .dependency hj hs
    · cases hsib : siblingBefore? tasks i t with
      | some j =>
          rw [hsib] at hd
          obtain ⟨s, hs, rfl⟩ := Option.map_eq_some_iff.mp hd
          exact .sibling hsib hs
      | none =>
          rw [hsib] at hd
          obtain ⟨s, hs, rfl⟩ := Option.map_eq_some_iff.mp hd
          obtain ⟨p, hp, hs⟩ := Option.bind_eq_some_iff.mp hs
          exact .parent hsib hp hs

/-- The task at `i` has the mark that the rule makes of all marks. -/
def Balanced (tasks : List Task) (origin : Date) (marks : List Mark) (i : Nat) : Prop :=
  marks[i]? = some (placed tasks origin marks i)

theorem solves_iff {tasks : List Task} {origin : Date} {days : List Span}
    (hlen : days.length = tasks.length) : Solves tasks origin days
      ↔ ∀ i < tasks.length, Balanced tasks origin (days.map .placed) i := by
  constructor
  · intro h i hi
    have ht := List.getElem?_eq_getElem hi
    have hs := List.getElem?_eq_getElem (hlen ▸ hi)
    have hstart : startDay tasks origin (days.map .placed) i tasks[i] = days[i].start := by
      cases hd : tasks[i].explicitStart with
      | some d => rw [startDay_of_pinned hd, h.pinned ht hs hd]
      | none => exact (isGreatest_startDay hd days i).unique (h.free ht hs hd)
    rw [Balanced, List.getElem?_map, hs, placed_eq ht, hstart, ← h.finish ht hs]
    rfl
  · intro h
    have hspan : ∀ {i : Nat} {t : Task} {s : Span}, tasks[i]? = some t → days[i]? = some s →
        s = ⟨startDay tasks origin (days.map .placed) i t,
          (startDay tasks origin (days.map .placed) i t).shift t.duration⟩ := by
      intro i t s ht hs
      have hi := h i (List.getElem?_eq_some_iff.mp ht).1
      rw [Balanced, List.getElem?_map, hs, placed_eq ht] at hi
      exact Mark.placed.inj (Option.some.inj hi)
    refine ⟨hlen, fun ht hs => ?_, fun ht hs hd => ?_, fun ht hs hd => ?_⟩
    · rw [hspan ht hs]
    · rw [hspan ht hs, startDay_of_pinned hd]
    · rw [hspan ht hs]
      exact isGreatest_startDay hd days _

/-! ## The marks in the end balance -/

/-- The first day of a free task rests on what it depends on, the sibling before it and, if there is
none, its parent: on where the former end and where the latter starts. -/
theorem startDay_eq {xs ys : List Task} {i : Nat} {t t' : Task} {a b : List Mark}
    (hpin : t'.explicitStart = t.explicitStart) (hdeps : t'.dependsOn ys = t.dependsOn xs)
    (hsibling : siblingBefore? ys i t' = siblingBefore? xs i t) (hparent : t'.parent = t.parent)
    (hfinish : ∀ j, j ∈ t.dependsOn xs ∨ siblingBefore? xs i t = some j →
      (placedAt b j).map Span.finish = (placedAt a j).map Span.finish)
    (hstart : siblingBefore? xs i t = none → ∀ p, t.parent = some p →
      (placedAt b p).map Span.start = (placedAt a p).map Span.start) (origin : Date) :
    startDay ys origin b i t' = startDay xs origin a i t := by
  have hends : ((t.dependsOn xs).filterMap fun j => (placedAt b j).map Span.finish)
      = (t.dependsOn xs).filterMap fun j => (placedAt a j).map Span.finish :=
    List.filterMap_congr fun j hj => hfinish j (.inl hj)
  rw [startDay, startDay, hpin, hdeps, hsibling, hparent]
  cases t.explicitStart with
  | some d => rfl
  | none =>
      simp only [hends]
      cases hs : siblingBefore? xs i t with
      | some j => simp only [hfinish j (.inr hs)]
      | none =>
          cases hp : t.parent with
          | none => rfl
          | some p => simp only [Option.bind_some, hstart hs p hp]

theorem mem_lookups {tasks : List Task} {i j : Nat} {t : Task} (ht : tasks[i]? = some t)
    (hfree : t.explicitStart = none) : j ∈ lookups tasks i
      ↔ j ∈ t.dependsOn tasks ∨ t.parent = some j ∨ siblingBefore? tasks i t = some j := by
  rw [lookups, ht]
  simp [Task.pinned, hfree]

theorem placed_congr {tasks : List Task} {i : Nat} {a b : List Mark}
    (h : ∀ j ∈ lookups tasks i, placedAt a j = placedAt b j) (origin : Date) :
    placed tasks origin a i = placed tasks origin b i := by
  cases ht : tasks[i]? with
  | none => rw [placed, placed, ht]
  | some t =>
      have hday : startDay tasks origin a i t = startDay tasks origin b i t := by
        cases hd : t.explicitStart with
        | some d => rw [startDay_of_pinned hd, startDay_of_pinned hd]
        | none =>
            have hsame := fun j hj => h j ((mem_lookups ht hd).mpr hj)
            refine startDay_eq rfl rfl rfl rfl (fun j hj => ?_) (fun _ p hp => ?_) origin
            · rw [hsame j (hj.imp_right .inr)]
            · rw [hsame p (.inr (.inl hp))]
      rw [placed_eq ht, placed_eq ht, hday]

end Recursion

theorem Linked.lookups_lt {tasks : List Task} (hl : Linked tasks) {i j : Nat}
    (h : Requires tasks i j) : j < tasks.length := by
  rw [Requires] at h
  cases ht : tasks[i]? with
  | none => simp [lookups, ht] at h
  | some t =>
      have hi := (List.getElem?_eq_some_iff.mp ht).1
      cases hd : t.explicitStart with
      | some d => simp [lookups, ht, Task.pinned, hd] at h
      | none =>
          rcases (Recursion.mem_lookups ht hd).mp h with h | h | h
          · exact (Task.mem_dependsOn.mp h).1
          · exact ((hl.parent i t ht j).mp h).1.1.trans hi
          · exact ((siblingBefore?_eq_some j).mp h).2.1.1.trans hi

namespace Recursion

/-- A task that does not require itself through others is still balanced in the end: nothing that
it looked up was open at its moment. -/
theorem Moment.balanced {tasks : List Task} (hl : Linked tasks) {origin : Date}
    {final marks : List Mark} {i : Nat} (h : Moment tasks origin final i marks)
    (hi : ¬ Relation.TransGen (Requires tasks) i i) : Balanced tasks origin final i := by
  obtain ⟨t, ht, hmark⟩ := h.mark
  have hlooked : ∀ j ∈ lookups tasks i, placedAt marks j = placedAt final j := by
    intro j hj
    have hlt : j < marks.length := h.length ▸ hl.lookups_lt hj
    have hget := List.getElem?_eq_getElem hlt
    cases hm : marks[j] with
    | unseen => exact absurd (hget.trans (congrArg some hm)) (h.looked j hj)
    | opened =>
        have hback := h.waiting j (hget.trans (congrArg some hm))
        exact absurd (Relation.TransGen.head' hj hback) hi
    | placed s =>
        have hs := hget.trans (congrArg some hm)
        rw [placedAt, placedAt, hs, h.kept j s hs]
  rw [Balanced, hmark, ← placed_congr hlooked, placed_eq ht]

end Recursion

/-- A relation along which ranks fall has no cycle. -/
theorem acyclic_of_falling {r : Nat → Nat → Prop} (rank : Nat → Nat)
    (h : ∀ {i j : Nat}, r i j → rank j < rank i) (i : Nat) : ¬ Relation.TransGen r i i := by
  have hrun : ∀ {j : Nat}, Relation.TransGen r i j → rank j < rank i := by
    intro j hj
    induction hj with
    | single hj => exact h hj
    | tail _ hk ih => exact (h hk).trans ih
  exact fun hi => Nat.lt_irrefl _ (hrun hi)

/-- Tasks whose ranks fall from a task to those it looks up have no cycle. -/
theorem acyclic_of_rank {tasks : List Task} (rank : Nat → Nat)
    (h : ∀ i < tasks.length, ∀ j ∈ lookups tasks i, rank j < rank i) (i : Nat) :
    ¬ Relation.TransGen (Requires tasks) i i := by
  refine acyclic_of_falling rank (fun {i j} hj => ?_) i
  by_cases hi : i < tasks.length
  · exact h i hi j hj
  · rw [Requires, lookups, List.getElem?_eq_none (not_lt.mp hi)] at hj
    exact absurd hj List.not_mem_nil

/-! ## There is no second solution -/

/-- Below a place from which no cycle is reached, a relation that leads to finitely many places comes
to an end. -/
theorem acc_of_bounded {r : Nat → Nat → Prop} {n : Nat} (hlt : ∀ {i j : Nat}, r i j → j < n)
    {i : Nat} (h : ∀ j, Relation.ReflTransGen r i j → ¬ Relation.TransGen r j j) :
    Acc (fun j k => r k j) i := by
  -- a transitive and irreflexive relation on the finitely many places within reach
  let Within := {j : Nat // j ∈ insert i (Finset.range n) ∧ Relation.ReflTransGen r i j}
  let Below : Within → Within → Prop := fun j k => Relation.TransGen r k.1 j.1
  have : Finite Within :=
    Finite.of_injective (fun j : Within => (⟨j.1, j.2.1⟩ : ↥(insert i (Finset.range n))))
      fun a b hab => Subtype.ext (congrArg (·.1) hab)
  have : IsTrans Within Below := ⟨fun _ _ _ hab hbc => hbc.trans hab⟩
  have : Std.Irrefl Below := ⟨fun j => h j.1 j.2.2⟩
  have hwf : WellFounded Below := Finite.wellFounded_of_trans_of_irrefl Below
  have hacc : ∀ k : Within, Acc (fun j k => r k j) k.1 := by
    intro k
    induction k using hwf.induction with
    | _ k ih =>
      refine ⟨_, fun j hj => ?_⟩
      have hmem : j ∈ insert i (Finset.range n) :=
        Finset.mem_insert_of_mem (Finset.mem_range.mpr (hlt hj))
      exact ih ⟨j, hmem, k.2.2.tail hj⟩ (.single hj)
  exact hacc ⟨i, Finset.mem_insert_self _ _, .refl⟩

theorem acc_of_acyclic {tasks : List Task} (hl : Linked tasks) {i : Nat}
    (h : ∀ j, Reaches tasks i j → ¬ Relation.TransGen (Requires tasks) j j) :
    Acc (fun j k => Requires tasks k j) i :=
  acc_of_bounded hl.lookups_lt h

namespace Recursion

/-- Marks that balance agree, by induction along `Requires`. -/
theorem Balanced.unique {tasks : List Task} (hl : Linked tasks) {origin : Date} {a b : List Mark}
    (ha : ∀ i < tasks.length, Balanced tasks origin a i)
    (hb : ∀ i < tasks.length, Balanced tasks origin b i) {i : Nat}
    (hacc : Acc (fun j k => Requires tasks k j) i) (hi : i < tasks.length) : a[i]? = b[i]? := by
  induction hacc with
  | intro i _ ih =>
      have hlooked : ∀ j ∈ lookups tasks i, placedAt a j = placedAt b j := by
        intro j hj
        rw [placedAt, placedAt, ih j hj (hl.lookups_lt hj)]
      rw [ha i hi, hb i hi, placed_congr hlooked]

end Recursion

variable {tasks : List Task} {origin : Date}

theorem Solves.unique (hl : Linked tasks)
    (hacyclic : ∀ i, ¬ Relation.TransGen (Requires tasks) i i) {days days' : List Span}
    (h : Solves tasks origin days) (h' : Solves tasks origin days') : days = days' := by
  have hmarks : days.map Mark.placed = days'.map Mark.placed := by
    refine List.ext_getElem? fun i => ?_
    by_cases hi : i < tasks.length
    · exact Recursion.Balanced.unique hl ((Recursion.solves_iff h.length).mp h)
        ((Recursion.solves_iff h'.length).mp h') (acc_of_acyclic hl fun j _ => hacyclic j) hi
    · rw [List.getElem?_eq_none (by simpa [h.length] using hi),
        List.getElem?_eq_none (by simpa [h'.length] using hi)]
  exact List.map_injective_iff.mpr (fun _ _ => Mark.placed.inj) hmarks

/-! ## The walk finds the solution -/

namespace Recursion

theorem exists_days {marks : List Mark}
    (h : ∀ i < marks.length, ∃ s, marks[i]? = some (.placed s)) :
    ∃ days : List Span, marks = days.map .placed := by
  refine ⟨marks.filterMap Mark.span?, ?_⟩
  induction marks with
  | nil => rfl
  | cons m marks ih =>
      obtain ⟨s, hs⟩ := h 0 (Nat.succ_pos _)
      obtain rfl : m = .placed s := Option.some.inj hs
      exact congrArg (Mark.placed s :: ·) (ih fun i hi => h (i + 1) (Nat.succ_lt_succ hi))

/-- In whatever order all tasks are taken up, the marks in the end solve the equations. -/
theorem TakesUp.exists_solves (hl : Linked tasks)
    (hacyclic : ∀ i, ¬ Relation.TransGen (Requires tasks) i i) {order : List Nat}
    {after : List Mark} (h : TakesUp tasks origin (.replicate tasks.length .unseen) order after)
    (hall : ∀ i < tasks.length, i ∈ order) :
    ∃ days, Solves tasks origin days ∧ after = days.map .placed := by
  have hlen : after.length = tasks.length := by rw [h.length, List.length_replicate]
  obtain ⟨days, rfl⟩ := exists_days fun i hi => by
    obtain ⟨m, hm⟩ := h.exists_moment (hlen ▸ hi) (hall i (hlen ▸ hi))
    obtain ⟨t, -, hmark⟩ := hm.mark
    exact ⟨_, hmark⟩
  rw [List.length_map] at hlen
  refine ⟨days, (solves_iff hlen).mpr fun i hi => ?_, rfl⟩
  obtain ⟨m, hm⟩ := h.exists_moment hi (hall i hi)
  exact hm.balanced hl (hacyclic i)

end Recursion

/-- If no task requires itself through others, there is exactly one way to obey the rule, the tasks
are placed that way, and the order in which the walk is sent to them makes no difference. -/
theorem placeTasks_unique_solution (tasks : List Task) (origin : Date)
    (hacyclic : ∀ i, ¬ Relation.TransGen (Requires (link tasks)) i i) :
    (∃! days, Solves (link tasks) origin days)
      ∧ Solves (link tasks) origin ((placeTasks (link tasks) origin).map Task.span)
      ∧ ∀ order : List Nat, (∀ i < tasks.length, i ∈ order) →
        order.foldl (visit (sites (link tasks)) origin) (.replicate tasks.length .unseen)
          = (placeTasks (link tasks) origin).map fun t => .placed t.span := by
  have hl := linked_link tasks
  have hplace := map_placeTasks hl origin
  -- the order of the walk itself is one of those that take up all tasks
  obtain ⟨days, hdays, hresolve⟩ :=
    (Recursion.takesUp_takeUp (link tasks) origin _ _).exists_solves hl hacyclic
      fun i hi => List.mem_range.mpr hi
  have hspans : (placeTasks (link tasks) origin).map Task.span = days := by
    refine List.map_injective_iff.mpr (fun _ _ => Mark.placed.inj) ?_
    rw [List.map_map, ← hresolve]
    exact hplace
  refine ⟨⟨days, hdays, fun days' h => h.unique hl hacyclic hdays⟩, hspans ▸ hdays, ?_⟩
  intro order hall
  have htakes := Recursion.takesUp_takeUp (link tasks) origin
    (.replicate (link tasks).length .unseen) order
  obtain ⟨days', hdays', hafter⟩ := htakes.exists_solves hl hacyclic (length_link tasks ▸ hall)
  obtain rfl := hdays'.unique hl hacyclic hdays
  rw [← length_link tasks, Recursion.foldl_visit hl origin htakes, hafter, ← hspans, List.map_map]
  rfl

/-- A shell that waits for the paint below it, which has a day of its own and so does not wait for
the roof, and keys that wait for the roof. -/
def shed : List Task :=
  let lines : List Outline.Task := [
    { level := 1, title := "Shell", duration := 4, dependencies := [4] },
    { level := 2, title := "Walls", duration := 3 },
    { level := 2, title := "Roof", duration := 2 },
    { level := 1, title := "Paint", duration := 1, dependencies := [3],
      explicitStart := some ⟨737910, by decide, by decide⟩ },
    { level := 1, title := "Keys", duration := 0, dependencies := [3, 9] }]
  lines.zipIdx.map fun (t, i) => Task.ofOutline t "project-0" i ⟨737900, by decide, by decide⟩

theorem placeTasks_unique_solution_shed :
    (∀ i, ¬ Relation.TransGen (Requires (link shed)) i i)
      ∧ (placeTasks (link shed) ⟨737900, by decide, by decide⟩).map
          (fun t => (t.start.ordinal, t.finish.ordinal))
        = [(737911, 737915), (737911, 737914), (737914, 737916), (737910, 737911), (737916, 737916)]
      ∧ ∃! days, Solves (link shed) ⟨737900, by decide, by decide⟩ days := by
  have hacyclic : ∀ i, ¬ Relation.TransGen (Requires (link shed)) i i :=
    acyclic_of_rank (fun i => [1, 2, 3, 0, 4].getD i 0) (by decide +kernel)
  exact ⟨hacyclic, by cbv,
    (placeTasks_unique_solution shed ⟨737900, by decide, by decide⟩ hacyclic).1⟩

end Roadmap.Plan
