import Roadmap.Proofs.Outline.Canonical
import Roadmap.Proofs.Plan.Pinning
import Roadmap.Proofs.Plan.Untouched

/-!
# Schedules of task lines with other days

A drag pins one task line and changes the durations of some others. Which of the scheduled tasks
stay on their days is known for the tasks without children first (`PinsAt.stay`), as no fitting
touches them; what is above them follows (`PinsAt.days`).

The drag itself affects the dragged task and those that depend on it. If no task names the dragged
one as a dependency, all others without children stay (`drag_getElem?_of_leaf`).
-/

namespace Roadmap.Plan

/-- Nothing but the days on the lines changes. Of the tasks of the list, the one at `i` is pinned,
and all others are pinned or not as before. -/
structure PinsAt (f : Outline.Task → Outline.Task) (xs : List Outline.Task) (i : Nat) : Prop where
  redated : ∀ t, ∃ start duration, f t = t.redated start duration
  pinned : ∀ {t : Outline.Task}, xs[i]? = some t → (f t).explicitStart.isSome
  free : ∀ {j : Nat} {t : Outline.Task}, j ≠ i → xs[j]? = some t →
    (f t).explicitStart = t.explicitStart

/-- What a linked task has from its line. -/
theorem exists_of_link_getElem? {xs : List Outline.Task} {projectId : String} {origin : Date}
    {i : Nat} {t : Task} (ht : (link (Task.allOfOutline xs projectId origin))[i]? = some t) :
    ∃ t₀, xs[i]? = some t₀ ∧ t.level = t₀.level ∧ t.dependencies = t₀.dependencies
      ∧ t.explicitStart = t₀.explicitStart ∧ t.duration = t₀.duration := by
  rw [link_getElem?, allOfOutline_getElem?, Option.map_map, Option.map_eq_some_iff] at ht
  obtain ⟨t₀, ht₀, rfl⟩ := ht
  exact ⟨t₀, ht₀, rfl, rfl, rfl, rfl⟩

section

variable {f : Outline.Task → Outline.Task} {xs : List Outline.Task} {i : Nat} (h : PinsAt f xs i)
  (projectId : String) (origin : Date)

include h

theorem PinsAt.repinned : Repinned (link (Task.allOfOutline xs projectId origin))
    (link (Task.allOfOutline (xs.map f) projectId origin)) i := by
  have hboth : ∀ {j : Nat} {t t' : Task},
      (link (Task.allOfOutline xs projectId origin))[j]? = some t →
      (link (Task.allOfOutline (xs.map f) projectId origin))[j]? = some t' →
      t'.level = t.level ∧ t'.dependencies = t.dependencies
        ∧ (j ≠ i → t'.explicitStart = t.explicitStart) := by
    intro j t t' ht ht'
    obtain ⟨t₀, ht₀, hlevel, hdependencies, hstart, -⟩ := exists_of_link_getElem? ht
    obtain ⟨u₀, hu₀, hlevel', hdependencies', hstart', -⟩ := exists_of_link_getElem? ht'
    rw [List.getElem?_map, ht₀] at hu₀
    obtain rfl := Option.some.inj hu₀
    obtain ⟨start, duration, hf⟩ := h.redated t₀
    refine ⟨?_, ?_, fun hj => ?_⟩
    · rw [hlevel, hlevel', hf]
      rfl
    · rw [hdependencies, hdependencies', hf]
      rfl
    · rw [hstart, hstart', h.free hj ht₀]
  refine
    { left := linked_link _
      right := linked_link _
      length := by simp [length_link, Task.allOfOutline]
      level := fun ht ht' => (hboth ht ht').1
      dependencies := fun ht ht' => (hboth ht ht').2.1
      explicitStart := fun hj ht ht' => (hboth ht ht').2.2 hj
      pinned := fun {t'} ht' => ?_ }
  obtain ⟨u₀, hu₀, -, -, hstart, -⟩ := exists_of_link_getElem? ht'
  obtain ⟨t₀, ht₀, rfl⟩ := Option.map_eq_some_iff.mp (List.getElem?_map .. ▸ hu₀)
  rw [Task.pinned, hstart]
  exact h.pinned ht₀

theorem PinsAt.levels : (schedule xs projectId origin).map (·.level)
    = (schedule (xs.map f) projectId origin).map (·.level) := by
  rw [levels_schedule, levels_schedule, List.map_map]
  refine List.map_congr_left fun t _ => ?_
  obtain ⟨start, duration, hf⟩ := h.redated t
  rw [Function.comp_apply, hf]
  rfl

variable (hacyclic : ∀ j, Reaches (schedule xs projectId origin) i j →
    ¬ Relation.TransGen (Requires (schedule xs projectId origin)) j j)
  (hduration : ∀ {j : Nat} {t₀ : Outline.Task}, j ≠ i → xs[j]? = some t₀ →
    EndAwaited (schedule xs projectId origin) i j → (f t₀).duration = t₀.duration)

include hacyclic hduration

/-- A task without children stays on its days, as long as it keeps its duration and is placed by
nothing that has changed. -/
theorem PinsAt.stay
    (hi : Awaited (schedule xs projectId origin) i → ∀ {t t' : Task},
      (schedule xs projectId origin)[i]? = some t →
      (schedule (xs.map f) projectId origin)[i]? = some t' →
      t.hasChildren = false ∧ t'.span = t.span)
    {j : Nat} {t t' : Task} (hj : j ≠ i) (ht : (schedule xs projectId origin)[j]? = some t)
    (ht' : (schedule (xs.map f) projectId origin)[j]? = some t') (hleaf : t.hasChildren = false)
    (hsame : ∀ {t₀ : Outline.Task}, xs[j]? = some t₀ → (f t₀).duration = t₀.duration) :
    t'.span = t.span := by
  have hrepinned := h.repinned projectId origin
  have hagree := agree_schedule xs projectId origin
  have hchildren : ∀ {k : Nat} {s s' : Task}, (schedule xs projectId origin)[k]? = some s →
      (schedule (xs.map f) projectId origin)[k]? = some s' → s.hasChildren = false →
      s'.hasChildren = false := by
    intro k s s' hs hs' hleaf
    rw [Task.hasChildren, ← (((linked_link _).of_agree hagree).ext
      ((linked_link _).of_agree (agree_schedule _ _ _)) (h.levels projectId origin) hs hs').2]
    exact hleaf
  have hstay := hrepinned.stay
    (fun k hk => by rw [← hagree.requires]; exact hacyclic k (hagree.reaches.mpr hk)) origin
    (fun {k s s'} hk hs hs' hawaited => ?_) (fun hawaited {s s'} hs hs' => ?_) hj
    (placeTasks_of_leaf ht hleaf) (placeTasks_of_leaf ht' (hchildren ht ht' hleaf))
  · obtain ⟨t₀, ht₀, -, hd, -⟩ := schedule_leaf ht hleaf
    obtain ⟨u₀, hu₀, -, hd', -⟩ := schedule_leaf ht' (hchildren ht ht' hleaf)
    rw [List.getElem?_map, ht₀] at hu₀
    obtain rfl := Option.some.inj hu₀
    exact congrArg₂ Span.mk hstay.1 (hstay.2 (hd'.trans ((hsame ht₀).trans hd.symm)))
  · obtain ⟨t₀, ht₀, -, -, -, hd⟩ := exists_of_link_getElem? hs
    obtain ⟨u₀, hu₀, -, -, -, hd'⟩ := exists_of_link_getElem? hs'
    rw [List.getElem?_map, ht₀] at hu₀
    obtain rfl := Option.some.inj hu₀
    rw [hd, hd', hduration hk ht₀ (hagree.symm.endAwaited hawaited)]
  · obtain ⟨u, hu, -⟩ := (agree_reconcile _).symm.exists hs
    obtain ⟨u', hu', -⟩ := (agree_reconcile _).symm.exists hs'
    obtain ⟨hleaf, hspan⟩ := hi (hagree.symm.awaited hawaited) hu hu'
    have hleaf' := hchildren hu hu' hleaf
    obtain rfl := Option.some.inj ((placeTasks_of_leaf hu hleaf).symm.trans hs)
    obtain rfl := Option.some.inj ((placeTasks_of_leaf hu' hleaf').symm.trans hs')
    exact hspan

/-- All tasks stay on their days, if those without children keep their durations, the pinned task
its days, and no change in the lines is one that others are placed by. -/
theorem PinsAt.days (hpos : ∀ t ∈ xs, 0 ≤ t.duration) (hpos' : ∀ t ∈ xs.map f, 0 ≤ t.duration)
    (hleaf : ∀ {j : Nat} {t : Task} {t₀ : Outline.Task}, j ≠ i →
      (schedule xs projectId origin)[j]? = some t → t.hasChildren = false → xs[j]? = some t₀ →
      (f t₀).duration = t₀.duration)
    (hawaited : Awaited (schedule xs projectId origin) i → ∀ {t : Task},
      (schedule xs projectId origin)[i]? = some t → t.hasChildren = false)
    (hself : ∀ {t t' : Task}, (schedule xs projectId origin)[i]? = some t →
      (schedule (xs.map f) projectId origin)[i]? = some t' → t.hasChildren = false →
      t'.span = t.span)
    {j : Nat} {t t' : Task} (ht : (schedule xs projectId origin)[j]? = some t)
    (ht' : (schedule (xs.map f) projectId origin)[j]? = some t') : t'.span = t.span := by
  refine (settled_schedule hpos projectId origin).fitted.days
    (settled_schedule hpos' projectId origin).fitted (h.levels projectId origin)
    (fun {k s s'} _ hs hs' hc => ?_) ht ht'
  by_cases hk : k = i
  · subst hk
    exact hself hs hs' hc
  · exact h.stay projectId origin hacyclic hduration
      (fun ha _ _ hu hu' => ⟨hawaited ha hu, hself hu hu' (hawaited ha hu)⟩) hk hs hs' hc
      (hleaf hk hs hc)

end

/-! ## The drag -/

/-- A drag of a task that nobody names as a dependency leaves all others without children where
they are. -/
theorem drag_getElem?_of_leaf {p : Project} {fallback : Date} (h : p.Settled fallback) {t : Task}
    (ht : t ∈ p.tasks) (hunnamed : ∀ s ∈ p.tasks, t.position ∉ s.dependencies) (d : Drag) {j : Nat}
    (hj : j ≠ t.index) {s : Task} (hs : p.tasks[j]? = some s) (hleaf : s.hasChildren = false) :
    (p.drag t d).tasks[j]? = some s := by
  obtain ⟨k, hk⟩ := List.getElem?_of_mem ht
  obtain rfl := h.tasks.indexed k t hk
  refine drag_getElem?_of_unaffected h.tasks.fitted hk d hs fun i hi hbelow => hj ?_
  have hself : i = t.index := by
    refine hi.least (q := (· = t.index)) rfl fun {i k s} hi hs hnamed => ?_
    obtain rfl : i = t.index := hi
    exact absurd hnamed (hunnamed s (List.mem_of_getElem? hs))
  rcases hbelow.cases_head with heq | ⟨k, ⟨c, hc, hparent⟩, -⟩
  · exact heq.trans hself
  · have hchildren := (h.tasks.linked.hasChildren_iff hs).mpr ⟨k, c, hc, hparent⟩
    rw [hleaf] at hchildren
    exact absurd hchildren Bool.false_ne_true

end Roadmap.Plan
