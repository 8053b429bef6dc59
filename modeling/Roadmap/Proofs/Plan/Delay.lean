import Roadmap.Proofs.Plan.Fitted
import Roadmap.Proofs.Plan.Seats

/-!
# Delays

If tasks take longer or start later, and so does the outline, nothing in the plan comes earlier.
That is plain as long as no task requires itself. On a cycle a task is passed over while it is open,
so a bound can go missing, and it would do harm if it went missing in the delayed outline only.

It cannot. Which task is open when another one looks it up is settled by what the tasks look up, not
by any day, and delayed tasks look up what they did before (`Delays.lookups`). So the two walks
leave marks of the same kind at every step, with later days in the second (`TakesUp.later`). What is
left is that a day is a monotone function of the marks (`startDay_later`), and a parent's days one of
the days below it (`Fitted.later`).
-/

namespace Roadmap

/-! ## Delayed outlines -/

/-- The task nests and waits as before, but it may take longer and, if it is pinned, start later. -/
structure Outline.Task.Delayed (t t' : Outline.Task) : Prop where
  level : t'.level = t.level
  dependencies : t'.dependencies = t.dependencies
  explicitStart : Option.Rel (· ≤ ·) t.explicitStart t'.explicitStart
  duration : t.duration ≤ t'.duration

/-- The second outline has the tasks of the first, delayed, and starts no earlier. -/
structure Outline.Delayed (o o' : Outline) : Prop where
  start : o.start ≤ o'.start
  projects : List.Forall₂ (fun p p' => List.Forall₂ Outline.Task.Delayed p.tasks p'.tasks)
    o.projects o'.projects

namespace Plan

/-! ## Lists place by place -/

section

variable {α β : Type} {R : α → β → Prop} {xs : List α} {ys : List β}

theorem forall₂_getElem? (h : List.Forall₂ R xs ys) (i : Nat) :
    Option.Rel R xs[i]? ys[i]? := by
  induction h generalizing i with
  | nil => exact .none
  | cons hxy _ ih =>
      cases i with
      | zero => exact .some hxy
      | succ i => exact ih i

theorem rel_of_getElem? (h : List.Forall₂ R xs ys) {i : Nat} {x : α} {y : β}
    (hx : xs[i]? = some x) (hy : ys[i]? = some y) : R x y := by
  have hrel := forall₂_getElem? h i
  rw [hx, hy] at hrel
  cases hrel with
  | some hrel => exact hrel

theorem forall₂_of_getElem? (hlength : xs.length = ys.length)
    (h : ∀ {i : Nat} {x : α} {y : β}, xs[i]? = some x → ys[i]? = some y → R x y) :
    List.Forall₂ R xs ys :=
  List.forall₂_iff_get.mpr ⟨hlength, fun _ hi hi' =>
    h (List.getElem?_eq_getElem hi) (List.getElem?_eq_getElem hi')⟩

theorem forall₂_set (h : List.Forall₂ R xs ys) {x : α} {y : β} (hxy : R x y) (i : Nat) :
    List.Forall₂ R (xs.set i x) (ys.set i y) := by
  induction h generalizing i with
  | nil => exact .nil
  | cons hab hrest ih =>
      cases i with
      | zero => exact .cons hxy hrest
      | succ i => exact .cons hab (ih i)

theorem forall₂_toList {x : Option α} {y : Option β} (h : Option.Rel R x y) :
    List.Forall₂ R x.toList y.toList := by
  cases h with
  | none => exact .nil
  | some h => exact .cons h .nil

end

/-! ## Delayed tasks -/

/-- The lists hold the same linked tasks, delayed in the second. -/
structure Delays (xs ys : List Task) : Prop where
  left : Linked xs
  right : Linked ys
  task : List.Forall₂ (fun t t' => t.toTask.Delayed t'.toTask) xs ys

section

variable {xs ys : List Task} (h : Delays xs ys)

include h

theorem Delays.delayed {i : Nat} {t t' : Task} (ht : xs[i]? = some t) (ht' : ys[i]? = some t') :
    t.toTask.Delayed t'.toTask := rel_of_getElem? h.task ht ht'

theorem Delays.parallel : Parallel xs ys where
  left := h.left
  right := h.right
  length := h.task.length_eq.symm
  level ht ht' := (h.delayed ht ht').level
  dependencies ht ht' := (h.delayed ht ht').dependencies

theorem Delays.lookups (i : Nat) : lookups ys i = lookups xs i := by
  refine h.parallel.lookups fun {t t'} ht ht' => ?_
  have hpin := (h.delayed ht ht').explicitStart
  unfold Task.pinned
  generalize t.explicitStart = d, t'.explicitStart = d' at hpin ⊢
  cases hpin with
  | none => rfl
  | some => rfl

end

/-! ## Later marks -/

/-- Marks of one kind; the days of the second are later if there are any. -/
inductive Mark.Later : Mark → Mark → Prop where
  | unseen : Later .unseen .unseen
  | opened : Later .opened .opened
  | placed {s s' : Span} (h : s.Later s') : Later (.placed s) (.placed s')

namespace Recursion

variable {xs ys : List Task} {origin origin' : Date} {a b : List Mark}

theorem placedAt_later (h : List.Forall₂ Mark.Later a b) (i : Nat) :
    Option.Rel Span.Later (placedAt a i) (placedAt b i) := by
  have hmark := forall₂_getElem? h i
  unfold placedAt
  generalize a[i]? = m, b[i]? = m' at hmark ⊢
  cases hmark with
  | none => exact .none
  | some hmark =>
      cases hmark with
      | unseen => exact .none
      | opened => exact .none
      | placed hs => exact .some hs

theorem map_later {f : Span → Date} (hf : ∀ s s' : Span, s.Later s' → f s ≤ f s')
    {s s' : Option Span} (h : Option.Rel Span.Later s s') :
    Option.Rel (· ≤ ·) (s.map f) (s'.map f) := by
  cases h with
  | none => exact .none
  | some h => exact .some (hf _ _ h)

/-- With later marks, a delayed task starts later. -/
theorem startDay_later (h : Delays xs ys) (ho : origin ≤ origin')
    (hmarks : List.Forall₂ Mark.Later a b) {i : Nat} {t t' : Task} (ht : xs[i]? = some t)
    (ht' : ys[i]? = some t') : startDay xs origin a i t ≤ startDay ys origin' b i t' := by
  have hpin := (h.delayed ht ht').explicitStart
  rw [startDay, startDay, h.parallel.dependsOn ht ht', h.parallel.siblingBefore? ht ht',
    (h.parallel.links ht ht').1]
  generalize t.explicitStart = d, t'.explicitStart = d' at hpin ⊢
  cases hpin with
  | some hle => exact hle
  | none =>
      have hfinish := fun j => map_later (fun _ _ h => h.finish) (placedAt_later hmarks j)
      have hstart := fun j => map_later (fun _ _ h => h.start) (placedAt_later hmarks j)
      refine Date.foldl_max_mono ho (List.rel_append (List.rel_filterMap (R := Eq) ?_ ?_) ?_)
      · rintro j _ rfl
        exact hfinish j
      · exact List.forall₂_refl _
      · refine forall₂_toList ?_
        cases siblingBefore? xs i t with
        | some j => exact hfinish j
        | none =>
            cases t.parent with
            | none => exact .none
            | some p => exact hstart p

theorem placed_later (h : Delays xs ys) (ho : origin ≤ origin')
    (hmarks : List.Forall₂ Mark.Later a b) (i : Nat) :
    (placed xs origin a i).Later (placed ys origin' b i) := by
  cases ht : xs[i]? with
  | none =>
      rw [placed, placed, ht, h.parallel.none ht]
      exact .opened
  | some t =>
      obtain ⟨t', ht'⟩ := h.parallel.exists ht
      have hstart := startDay_later h ho hmarks ht ht'
      rw [placed_eq ht, placed_eq ht']
      exact .placed ⟨hstart, Date.shift_mono hstart (h.delayed ht ht').duration⟩

theorem unseen_iff (h : List.Forall₂ Mark.Later a b) (i : Nat) :
    a[i]? = some .unseen ↔ b[i]? = some .unseen := by
  have hmark := forall₂_getElem? h i
  generalize a[i]? = m, b[i]? = m' at hmark ⊢
  cases hmark with
  | none => exact Iff.rfl
  | some hmark =>
      cases hmark with
      | unseen => exact Iff.rfl
      | opened => simp
      | placed => simp

/-- Both walks take up the same tasks and pass over the same ones, and the marks of the second stay
later. The induction is on the first; the second can only follow, as its marks are of the same
kinds. -/
theorem TakesUp.later (h : Delays xs ys) (ho : origin ≤ origin') {is : List Nat}
    {after after' : List Mark} (hx : TakesUp xs origin a is after)
    (hy : TakesUp ys origin' b is after') (hmarks : List.Forall₂ Mark.Later a b) :
    List.Forall₂ Mark.Later after after' := by
  induction hx generalizing b after' with
  | nil a =>
      cases hy with
      | nil => exact hmarks
  | @seen a after i is hi _ ih =>
      cases hy with
      | seen _ rest => exact ih rest hmarks
      | unseen hi' => exact absurd ((unseen_iff hmarks i).mpr hi') hi
  | @unseen a ready after i is hi _ _ ihfirst ihrest =>
      cases hy with
      | seen hi' => exact absurd ((unseen_iff hmarks i).mp hi) hi'
      | unseen _ first rest =>
          rw [h.lookups] at first
          have hready := ihfirst first (forall₂_set hmarks .opened i)
          exact ihrest rest (forall₂_set hready (placed_later h ho hready i) i)

theorem resolve_later (h : Delays xs ys) (ho : origin ≤ origin') :
    List.Forall₂ Mark.Later (resolve xs origin) (resolve ys origin') := by
  have hy := takesUp_takeUp ys origin' (.replicate ys.length .unseen) (.range ys.length)
  rw [h.parallel.length] at hy
  rw [resolve, resolve, h.parallel.length]
  refine (takesUp_takeUp xs origin _ _).later h ho hy ?_
  exact List.forall₂_same.mpr fun m hm => List.eq_of_mem_replicate hm ▸ .unseen

end Recursion

/-! ## Later tasks -/

theorem placeTasks_later {xs ys : List Task} (h : Delays xs ys) {origin origin' : Date}
    (ho : origin ≤ origin') {i : Nat} {t t' : Task} (ht : (placeTasks xs origin)[i]? = some t)
    (ht' : (placeTasks ys origin')[i]? = some t') : t.span.Later t'.span := by
  have hspan := Recursion.placedAt_later (Recursion.resolve_later h ho) i
  rw [Recursion.placedAt_resolve h.left, Recursion.placedAt_resolve h.right, ht, ht'] at hspan
  cases hspan with
  | some hspan => exact hspan

section

variable {tasks tasks' : List Outline.Task} (h : List.Forall₂ Outline.Task.Delayed tasks tasks')

include h

theorem delays_link (projectId : String) (origin origin' : Date) :
    Delays (link (Task.allOfOutline tasks projectId origin))
      (link (Task.allOfOutline tasks' projectId origin')) := by
  refine ⟨linked_link _, linked_link _, forall₂_of_getElem? ?_ fun {i t t'} ht ht' => ?_⟩
  · simpa [length_link, Task.allOfOutline] using h.length_eq
  · rw [link_getElem?, allOfOutline_getElem?, Option.map_map, Option.map_eq_some_iff] at ht ht'
    obtain ⟨t₀, ht₀, rfl⟩ := ht
    obtain ⟨t₀', ht₀', rfl⟩ := ht'
    have hdelayed := rel_of_getElem? h ht₀ ht₀'
    exact ⟨hdelayed.level, hdelayed.dependencies, hdelayed.explicitStart, hdelayed.duration⟩

theorem levels_delayed : tasks.map (·.level) = tasks'.map (·.level) := by
  induction h with
  | nil => rfl
  | cons hdelayed _ ih => rw [List.map_cons, List.map_cons, hdelayed.level, ih]

/-- Every task of a project ends up later, parents with their children. -/
theorem schedule_later (projectId : String) {origin origin' : Date} (ho : origin ≤ origin') :
    List.Forall₂ (fun t t' => t.span.Later t'.span) (schedule tasks projectId origin)
      (schedule tasks' projectId origin') := by
  have hlevel : (schedule tasks projectId origin).map (·.level)
      = (schedule tasks' projectId origin').map (·.level) := by
    rw [levels_schedule, levels_schedule, levels_delayed h]
  have hfitted := fitted_schedule tasks projectId origin
  have hfitted' := fitted_schedule tasks' projectId origin'
  refine forall₂_of_getElem? (by simpa using congrArg List.length hlevel) fun ht ht' => ?_
  refine hfitted.later hfitted' hlevel (fun {j s s'} _ hs hs' hleaf => ?_) ht ht'
  have hleaf' : s'.hasChildren = false := by
    rwa [Task.hasChildren, ← (hfitted.linked.ext hfitted'.linked hlevel hs hs').2]
  exact placeTasks_later (delays_link h projectId origin origin') ho (placeTasks_of_leaf hs hleaf)
    (placeTasks_of_leaf hs' hleaf')

end

/-! ## Later plans -/

/-- The second project takes up later days, and so do its tasks. -/
structure Project.Later (p p' : Project) : Prop where
  start : p.start ≤ p'.start
  finish : p.finish ≤ p'.finish
  tasks : List.Forall₂ (fun t t' => t.span.Later t'.span) p.tasks p'.tasks

theorem Project.later_ofOutline {p p' : Outline.Project}
    (h : List.Forall₂ Outline.Task.Delayed p.tasks p'.tasks) (index : Nat) {origin origin' : Date}
    (ho : origin ≤ origin') :
    (Project.ofOutline p index origin).Later (Project.ofOutline p' index origin') := by
  have htasks := schedule_later h (projectId index) ho
  refine ⟨Date.earliest_mono ho ?_, Date.latest_mono ho ?_, htasks⟩
  · exact List.rel_map (fun _ _ h => h.start) htasks
  · exact List.rel_map (fun _ _ h => h.finish) htasks

/-- Delaying or lengthening tasks makes nothing earlier, whatever waits for what: no task, no
project and not the end of the plan. -/
theorem later_of_delayed {o o' : Outline} (h : o.Delayed o') :
    List.Forall₂ Project.Later (ofOutline o).projects (ofOutline o').projects
      ∧ (ofOutline o).finish ≤ (ofOutline o').finish := by
  have hprojects : List.Forall₂ Project.Later (ofOutline o).projects (ofOutline o').projects := by
    refine forall₂_of_getElem? (by simpa [ofOutline] using h.projects.length_eq)
      fun {k p p'} hp hp' => ?_
    rw [projects_getElem?, Option.map_eq_some_iff] at hp hp'
    obtain ⟨p₀, hp₀, rfl⟩ := hp
    obtain ⟨p₀', hp₀', rfl⟩ := hp'
    exact Project.later_ofOutline (rel_of_getElem? h.projects hp₀ hp₀') k h.start
  refine ⟨hprojects, Date.foldl_max_mono h.start ?_⟩
  exact List.rel_map (fun _ _ h => h.finish) hprojects

/-- An annex to the hall, begun some days late, whose wiring takes as many days longer. Wiring and
lights wait for each other, and the paint has a day of its own. -/
def annex (late : Int) : Outline where
  start := hall.start.shift late
  projects := [{
    name := "Annex"
    tasks := [
      { level := 1, title := "Wiring", duration := 3 + late, dependencies := [2] },
      { level := 1, title := "Lights", duration := -1, dependencies := [1] },
      { level := 2, title := "Lamps", duration := 2 },
      { level := 2, title := "Paint", duration := 1, explicitStart := some (hall.start.shift 2) }] }]

theorem later_of_delayed_annex :
    (annex 0).Delayed (annex 6)
      ∧ List.Forall₂ Project.Later (ofOutline (annex 0)).projects (ofOutline (annex 6)).projects
      ∧ (ofOutline (annex 0)).finish ≤ (ofOutline (annex 6)).finish := by
  have hdelayed : (annex 0).Delayed (annex 6) := by
    refine ⟨by decide, .cons (.cons ?_ (.cons ?_ (.cons ?_ (.cons ?_ .nil)))) .nil⟩
    · exact ⟨rfl, rfl, .none, by decide⟩
    · exact ⟨rfl, rfl, .none, by decide⟩
    · exact ⟨rfl, rfl, .none, by decide⟩
    · exact ⟨rfl, rfl, .some (le_refl _), by decide⟩
  exact ⟨hdelayed, later_of_delayed hdelayed⟩

end Plan

end Roadmap
