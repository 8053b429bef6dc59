import Roadmap.Proofs.Plan.Redated
import Roadmap.Proofs.Session.Drag

/-!
# The schedule of rewritten lines

Drags leave an outline whose task lines say other days (`Rewrites`), but only on the lines of the
dragged task and its ancestors, and only one task is newly pinned (`Touches`). So the projects
without that task keep their schedules. In its own project, tasks stay on their days as far as
they are not placed by what has changed (`Undisturbed`).
-/

namespace Roadmap.Session

/-- The line of the text states the duration. -/
def States (text : String) (line duration : Int) : Prop :=
  ∃ t₀, Outline.Holds text t₀ ∧ t₀.line = line ∧ t₀.duration = duration

theorem States.unique {text : String} {line m n : Int} (hm : States text line m)
    (hn : States text line n) : m = n := by
  obtain ⟨t₀, ht₀, hline, rfl⟩ := hm
  obtain ⟨u₀, hu₀, hline', rfl⟩ := hn
  rw [ht₀.eq hu₀ (hline.trans hline'.symm)]

/-- What the task at `x` requires is placed without a cycle, and the durations that its ancestors
state are the same in both texts, or nobody else waits for the ancestor to end. -/
structure Undisturbed (q : Plan.Project) (x : Plan.Task) (text text' : String) : Prop where
  acyclic : ∀ j, Plan.Reaches q.tasks x.index j →
    ¬ Relation.TransGen (Plan.Requires q.tasks) j j
  ancestors : ∀ y ∈ q.ancestors x, Plan.EndAwaited q.tasks x.index y.index →
    ∀ n, States text y.line n → States text' y.line n

/-! ## The lines of a drag -/

/-- `f` changes days on some lines only. It pins the task on one of them and leaves all other pins
alone. -/
structure Touches (f : Outline.Task → Outline.Task) (line : Int) (lines : List Int) : Prop where
  redated : ∀ t₀, ∃ start duration, f t₀ = t₀.redated start duration
  same : ∀ {t₀ : Outline.Task}, t₀.line ∉ lines → f t₀ = t₀
  pinned : ∀ {t₀ : Outline.Task}, t₀.line = line → (f t₀).explicitStart.isSome
  free : ∀ {t₀ : Outline.Task}, t₀.line ≠ line → (f t₀).explicitStart = t₀.explicitStart

theorem Touches.line {f : Outline.Task → Outline.Task} {line : Int} {lines : List Int}
    (h : Touches f line lines) (t₀ : Outline.Task) : (f t₀).line = t₀.line := by
  obtain ⟨start, duration, hf⟩ := h.redated t₀
  rw [hf]
  rfl

theorem Touches.comp {f g : Outline.Task → Outline.Task} {line : Int} {lines : List Int}
    (hg : Touches g line lines) (hf : Touches f line lines) : Touches (g ∘ f) line lines where
  redated t₀ := by
    obtain ⟨start, duration, h⟩ := hf.redated t₀
    obtain ⟨start', duration', h'⟩ := hg.redated (f t₀)
    refine ⟨start', duration', ?_⟩
    rw [Function.comp_apply, h', h]
    rfl
  same {t₀} hline := by
    rw [Function.comp_apply, hf.same hline, hg.same hline]
  pinned {t₀} hline := hg.pinned ((hf.line t₀).trans hline)
  free {t₀} hline := by
    rw [Function.comp_apply, hg.free fun heq => hline ((hf.line t₀).symm.trans heq), hf.free hline]

/-- What a drag writes touches only the lines of the task and its ancestors, which a drag leaves
where they are. -/
theorem touches_afterDrag {u x : Plan.Task} {ancestors : List Plan.Task} {q : Plan.Project}
    (hlines : u.line :: ancestors.map (·.line) = dragLines q x) :
    Touches (afterDrag u ancestors) x.line (dragLines q x) where
  redated t₀ := by
    rw [afterDrag]
    split
    · obtain ⟨duration, h⟩ := exists_withDurations ancestors (t₀.redated (some u.start) u.duration)
      exact ⟨_, duration, h⟩
    · obtain ⟨duration, h⟩ := exists_withDurations ancestors t₀
      exact ⟨_, duration, h⟩
  same hline := afterDrag_of_not_mem (hlines.symm ▸ hline)
  pinned {t₀} hline := by
    obtain ⟨duration, h⟩ := exists_withDurations ancestors (t₀.redated (some u.start) u.duration)
    rw [afterDrag, if_pos (hline.trans (List.cons.inj hlines).1.symm), h]
    rfl
  free {t₀} hline := by
    obtain ⟨duration, h⟩ := exists_withDurations ancestors t₀
    rw [afterDrag, if_neg fun heq => hline (heq.trans (List.cons.inj hlines).1), h]
    rfl

theorem Rewrites.trans {d d' d'' : Desk} {o o' o'' : Outline} {f g : Outline.Task → Outline.Task}
    (h : Rewrites d d' o o' f) (h' : Rewrites d' d'' o' o'' g) : Rewrites d d'' o o'' (g ∘ f) where
  loads := h'.loads
  seats := h'.seats.trans h.seats
  holds t₀ ht₀ := h'.holds _ (h.holds t₀ ht₀)
  start := h'.start.trans h.start
  tasks := by
    have hmap := congrArg (List.map (List.map g)) h.tasks
    rw [List.map_map, List.map_map] at hmap
    rw [h'.tasks]
    refine hmap.trans (List.map_congr_left fun p _ => ?_)
    rw [Function.comp_apply, List.map_map]

/-! ## The schedule of the new lines -/

section

variable {d d' : Desk} {o o' : Outline} {f : Outline.Task → Outline.Task} (h : Loads d o)
  (hf : Rewrites d d' o o' f)

include hf

theorem Rewrites.exists_project {k : Nat} {p : Plan.Project}
    (hp : (Plan.ofOutline o).projects[k]? = some p) :
    ∃ p₀ p', o.projects[k]? = some p₀ ∧ (Plan.ofOutline o').projects[k]? = some p' ∧ p'.id = p.id
      ∧ p.tasks = Plan.schedule p₀.tasks p.id o.start
      ∧ p'.tasks = Plan.schedule (p₀.tasks.map f) p.id o.start := by
  rw [Plan.projects_getElem?, Option.map_eq_some_iff] at hp
  obtain ⟨p₀, hp₀, rfl⟩ := hp
  have htasks := congrArg (·[k]?) hf.tasks
  simp only [List.getElem?_map, hp₀, Option.map_some] at htasks
  obtain ⟨p₁, hp₁, heq⟩ := Option.map_eq_some_iff.mp htasks
  refine ⟨p₀, Plan.Project.ofOutline p₁ k o'.start, hp₀, ?_, rfl, rfl, ?_⟩
  · rw [Plan.projects_getElem?, hp₁]
    rfl
  · show Plan.schedule p₁.tasks (Plan.projectId k) o'.start = _
    rw [heq, hf.start]
    rfl

theorem Rewrites.lasting {p₀ : Outline.Project} (hp₀ : p₀ ∈ o.projects) :
    ∀ t₀ ∈ p₀.tasks.map f, 0 ≤ t₀.duration := by
  have hmem : p₀.tasks.map f ∈ o'.projects.map (·.tasks) := by
    rw [hf.tasks]
    exact List.mem_map.mpr ⟨p₀, hp₀, rfl⟩
  obtain ⟨p₁, hp₁, heq⟩ := List.mem_map.mp hmem
  exact heq ▸ lasting_of_read hf.loads.read p₁ hp₁

/-- The tasks sit where they sat. -/
theorem Rewrites.exists_task (h : Loads d o) {k i : Nat} {p p' : Plan.Project} {t : Plan.Task}
    (hp : (Plan.ofOutline o).projects[k]? = some p) (ht : p.tasks[i]? = some t)
    (hp' : (Plan.ofOutline o').projects[k]? = some p') :
    p'.tasks.map Plan.Task.bare = p.tasks.map Plan.Task.bare
      ∧ ∃ t', p'.tasks[i]? = some t' ∧ t'.bare = t.bare
        ∧ d'.session.task? t.id = some (t', p') := by
  have hseats := congrArg (·[k]?) hf.seats
  simp only [h.projects, hf.loads.projects, List.getElem?_map, hp, hp', Option.map_some] at hseats
  have htasks : p'.tasks.map Plan.Task.bare = p.tasks.map Plan.Task.bare :=
    congrArg Prod.snd (Option.some.inj hseats)
  obtain ⟨t', ht', hbare⟩ := Plan.exists_of_bare htasks ht
  have hid : t'.id = t.id := congrArg (·.id) hbare
  refine ⟨htasks, t', ht', hbare, (task?_eq_some_iff hf.loads.sound).mpr ⟨?_, ?_, hid⟩⟩
  · rw [hf.loads.projects]
    exact List.mem_of_getElem? hp'
  · exact List.mem_of_getElem? ht'

include h

variable {x : Plan.Task} {q : Plan.Project} {id : String}
  (hx : d.session.task? id = some (x, q))

omit hf in
include hx in
/-- The line of an outline's task is one of the lines of a drag only if the drag is about the task
or about one below it. -/
theorem Loads.mem_dragLines {k j : Nat} {p₀ : Outline.Project} {t₀ : Outline.Task}
    (hp₀ : o.projects[k]? = some p₀) (ht₀ : p₀.tasks[j]? = some t₀)
    (hline : t₀.line ∈ dragLines q x) :
    (Plan.ofOutline o).projects[k]? = some q
      ∧ ∃ a, q.tasks[j]? = some a ∧ a.line = t₀.line ∧ a.index = j
        ∧ (a = x ∨ a ∈ q.ancestors x ∧ a.hasChildren) := by
  obtain ⟨hq, hxq, -⟩ := h.mem hx
  have hsettled := (Plan.settled_of_mem (lasting_of_read h.read) hq).tasks
  obtain ⟨i, hi⟩ := List.getElem?_of_mem hxq
  have habove := Plan.ancestors_hasChildren hsettled.linked (n := q.tasks.length) hi
  obtain ⟨a, ha, heq⟩ := List.mem_map.mp (show t₀.line ∈ (x :: q.ancestors x).map (·.line) from hline)
  have hmem : a ∈ q.tasks := by
    rcases List.mem_cons.mp ha with rfl | ha
    · exact hxq
    · exact (habove a ha).1
  obtain ⟨k', q₀, a₀, hk, hq₀, ha₀, hseat, -, -, -, hnumber⟩ := Plan.exists_place hq hmem
  obtain ⟨rfl, rfl⟩ := Plan.eq_of_line (Outline.lines_sorted h.read) hq₀ ha₀ hp₀ ht₀
    (hnumber.symm.trans heq)
  refine ⟨hk, a, hseat, heq, rfl, ?_⟩
  exact (List.mem_cons.mp ha).imp_right fun ha => ⟨ha, (habove a ha).2⟩

include hx

/-- A task without children is on the day and has the duration that its new line states. -/
theorem Rewrites.start_of_leaf {k : Nat} {q' : Plan.Project} {x' : Plan.Task}
    (hk : (Plan.ofOutline o).projects[k]? = some q)
    (hk' : (Plan.ofOutline o').projects[k]? = some q')
    (hx' : q'.tasks[x.index]? = some x') (hleaf : x.hasChildren = false) {start : Date}
    {duration : Int} (hstates : ∀ t₀ : Outline.Task, t₀.line = x.line →
      (f t₀).explicitStart = some start ∧ (f t₀).duration = duration) :
    x'.hasChildren = false ∧ x'.start = start ∧ x'.duration = duration
      ∧ x'.explicitStart = some start := by
  obtain ⟨hq, hxq, -⟩ := h.mem hx
  obtain ⟨k₁, q₁, x₀, hk₁, hq₁, hx₀, hseat, -, -, -, hline⟩ := Plan.exists_place hq hxq
  obtain rfl := Plan.eq_of_projects_getElem? hk hk₁
  obtain ⟨q₀, p', hq₀, hp', -, -, htasks'⟩ := hf.exists_project hk
  obtain rfl := Option.some.inj (hq₀.symm.trans hq₁)
  obtain rfl := Option.some.inj (hk'.symm.trans hp')
  obtain ⟨-, x₁, hx₁, hbare, -⟩ := hf.exists_task h hk hseat hk'
  obtain rfl := Option.some.inj (hx'.symm.trans hx₁)
  have hleaf' : x'.hasChildren = false := (congrArg (·.hasChildren) hbare).trans hleaf
  rw [htasks'] at hx'
  obtain ⟨u₀, hu₀, -, hduration, hpinned, hstart⟩ := Plan.schedule_leaf hx' hleaf'
  rw [List.getElem?_map, hx₀] at hu₀
  obtain rfl := Option.some.inj hu₀
  obtain ⟨hday, hlasts⟩ := hstates x₀ hline.symm
  exact ⟨hleaf', hstart start hday, hduration.trans hlasts, hpinned.trans hday⟩

theorem Rewrites.span_of_leaf {k : Nat} {q' : Plan.Project} {x' : Plan.Task}
    (hk : (Plan.ofOutline o).projects[k]? = some q)
    (hk' : (Plan.ofOutline o').projects[k]? = some q')
    (hx' : q'.tasks[x.index]? = some x') (hleaf : x.hasChildren = false) {start : Date}
    {duration : Int} (hstates : ∀ t₀ : Outline.Task, t₀.line = x.line →
      (f t₀).explicitStart = some start ∧ (f t₀).duration = duration) :
    x'.span = ⟨start, start.shift duration⟩ := by
  obtain ⟨hleaf', hstart, hduration, -⟩ := hf.start_of_leaf h hx hk hk' hx' hleaf hstates
  have hsettled := (Plan.settled_of_mem (lasting_of_read hf.loads.read)
    (List.mem_of_getElem? hk')).tasks
  refine congrArg₂ Plan.Span.mk hstart ?_
  rw [hsettled.leaf x' (List.mem_of_getElem? hx') hleaf', hstart, hduration]

variable (ht : Touches f x.line (dragLines q x))

include ht

omit hf in
/-- In the project of the task, the task is the one that is pinned. -/
theorem Touches.pinsAt {k : Nat} {q₀ : Outline.Project}
    (hk : (Plan.ofOutline o).projects[k]? = some q) (hq₀ : o.projects[k]? = some q₀) :
    Plan.PinsAt f q₀.tasks x.index := by
  obtain ⟨hq, hxq, -⟩ := h.mem hx
  obtain ⟨k', p₀, x₀, hk', hp₀, hx₀, -, -, -, -, hline⟩ := Plan.exists_place hq hxq
  obtain rfl := Plan.eq_of_projects_getElem? hk hk'
  obtain rfl := Option.some.inj (hq₀.symm.trans hp₀)
  refine ⟨ht.redated, fun {t₀} ht₀ => ht.pinned ?_, fun {j t₀} hj ht₀ => ht.free fun heq => hj ?_⟩
  · obtain rfl := Option.some.inj (hx₀.symm.trans ht₀)
    exact hline.symm
  · exact (Plan.eq_of_line (Outline.lines_sorted h.read) hq₀ ht₀ hq₀ hx₀ (heq.trans hline)).2

omit hf in
/-- Lines of other projects stay as they are. -/
theorem Touches.map_of_ne {k : Nat} {p₀ : Outline.Project}
    (hk : (Plan.ofOutline o).projects[k]? ≠ some q) (hp₀ : o.projects[k]? = some p₀) :
    p₀.tasks.map f = p₀.tasks := by
  refine (List.map_congr_left fun t₀ ht₀ => ?_).trans (List.map_id _)
  obtain ⟨j, hj⟩ := List.getElem?_of_mem ht₀
  exact ht.same fun hline => hk (h.mem_dragLines hx hp₀ hj hline).1

omit hf in
/-- A task without children has its duration changed only if it is the dragged one. -/
theorem Touches.duration_of_leaf {k j : Nat} {q₀ : Outline.Project} {t₀ : Outline.Task}
    (hq₀ : o.projects[k]? = some q₀) (ht₀ : q₀.tasks[j]? = some t₀) (hj : j ≠ x.index)
    {t : Plan.Task} (htj : q.tasks[j]? = some t) (hleaf : t.hasChildren = false) :
    (f t₀).duration = t₀.duration := by
  by_cases hline : t₀.line ∈ dragLines q x
  · obtain ⟨-, a, ha, -, rfl, rfl | ⟨-, hchildren⟩⟩ := h.mem_dragLines hx hq₀ ht₀ hline
    · exact absurd rfl hj
    · obtain rfl := Option.some.inj (htj.symm.trans ha)
      rw [hleaf] at hchildren
      cases hchildren
  · rw [ht.same hline]

/-- An undisturbed task has its duration changed only if nobody waits for its end. -/
theorem Touches.duration_of_awaited
    (hcalm : Undisturbed q x d.session.text d'.session.text) {k j : Nat} {q₀ : Outline.Project}
    {t₀ : Outline.Task} (hq₀ : o.projects[k]? = some q₀) (ht₀ : q₀.tasks[j]? = some t₀)
    (hj : j ≠ x.index) (hawaited : Plan.EndAwaited q.tasks x.index j) :
    (f t₀).duration = t₀.duration := by
  by_cases hline : t₀.line ∈ dragLines q x
  · obtain ⟨-, a, ha, hnumber, rfl, rfl | ⟨habove, -⟩⟩ := h.mem_dragLines hx hq₀ ht₀ hline
    · exact absurd rfl hj
    · have hold := Outline.exists_line h.read (List.mem_of_getElem? hq₀) (List.mem_of_getElem? ht₀)
      obtain ⟨u₀, hu₀, hnumber', hduration⟩ :=
        hcalm.ancestors a habove hawaited _ ⟨t₀, hold, hnumber.symm, rfl⟩
      obtain rfl := hu₀.eq (hf.holds t₀ hold)
        (hnumber'.trans (hnumber.trans (ht.line t₀).symm))
      exact hduration
  · rw [ht.same hline]

/-- All tasks of other projects are on the days of before, and so are those of the task's own
project if nobody is placed by what has changed. -/
theorem Rewrites.days {p : Plan.Project} {t : Plan.Task} (hp : p ∈ d.session.projects)
    (htp : t ∈ p.tasks) :
    ∃ t' p', d'.session.task? t.id = some (t', p')
      ∧ (p ≠ q → t'.span = t.span)
      ∧ (p = q → Undisturbed q x d.session.text d'.session.text →
        (Plan.Awaited q.tasks x.index → x.hasChildren = false) →
        (x.hasChildren = false → ∀ t₀ : Outline.Task, t₀.line = x.line →
          (f t₀).explicitStart = some x.start ∧ (f t₀).duration = x.duration) →
        t'.span = t.span) := by
  rw [h.projects] at hp
  obtain ⟨k, p₀, t₀, hk, hp₀, ht₀, hseat, -⟩ := Plan.exists_place hp htp
  obtain ⟨q₀, p', hq₀, hk', hid, htasks, htasks'⟩ := hf.exists_project hk
  obtain rfl := Option.some.inj (hp₀.symm.trans hq₀)
  obtain ⟨-, t', ht', -, htask⟩ := hf.exists_task h hk hseat hk'
  refine ⟨t', p', htask, fun hpq => ?_, fun hpq hcalm hawaited hself => ?_⟩
  · have hsame := ht.map_of_ne h hx (fun heq => hpq (Option.some.inj (hk.symm.trans heq))) hp₀
    rw [htasks', hsame, ← htasks, hseat] at ht'
    rw [Option.some.inj ht']
  · subst hpq
    have hdays := (ht.pinsAt h hx hk hp₀).days p.id o.start
    obtain ⟨hmem, hxp, -⟩ := h.mem hx
    obtain ⟨-, -, -, -, -, -, hxseat, -⟩ := Plan.exists_place hmem hxp
    rw [← htasks, ← htasks'] at hdays
    refine hdays hcalm.acyclic (fun hj ht₀ => ht.duration_of_awaited h hf hx hcalm hp₀ ht₀ hj)
      (lasting_of_read h.read p₀ (List.mem_of_getElem? hp₀)) ?_
      (fun hj htj hleaf ht₀ => ht.duration_of_leaf h hx hp₀ ht₀ hj htj hleaf)
      (fun ha u hu => ?_) (fun hu hu' hleaf => ?_) hseat ht'
    · exact hf.lasting (List.mem_of_getElem? hp₀)
    · obtain rfl := Option.some.inj (hxseat.symm.trans hu)
      exact hawaited ha
    · obtain rfl := Option.some.inj (hxseat.symm.trans hu)
      have hspan := hf.span_of_leaf h hx hk hk' hu' hleaf (hself hleaf)
      have hsettled := (Plan.settled_of_mem (lasting_of_read h.read) hmem).tasks
      rw [hspan, ← hsettled.leaf x hxp hleaf]
      rfl

/-- Where nobody waits for the task, the others without children stay on their days. -/
theorem Rewrites.stay (hcalm : Undisturbed q x d.session.text d'.session.text)
    (hquiet : ¬ Plan.Awaited q.tasks x.index) {k j : Nat} {q' : Plan.Project} {t t' : Plan.Task}
    (hk : (Plan.ofOutline o).projects[k]? = some q)
    (hk' : (Plan.ofOutline o').projects[k]? = some q') (hj : j ≠ x.index)
    (htj : q.tasks[j]? = some t) (htj' : q'.tasks[j]? = some t') (hleaf : t.hasChildren = false) :
    t'.span = t.span := by
  obtain ⟨q₀, p', hq₀, hp', -, htasks, htasks'⟩ := hf.exists_project hk
  obtain rfl := Option.some.inj (hk'.symm.trans hp')
  have hstay := (ht.pinsAt h hx hk hq₀).stay q.id o.start
  rw [← htasks, ← htasks'] at hstay
  exact hstay hcalm.acyclic (fun hj ht₀ => ht.duration_of_awaited h hf hx hcalm hq₀ ht₀ hj)
    (fun ha => absurd ha hquiet) hj htj htj' hleaf
    fun ht₀ => ht.duration_of_leaf h hx hq₀ ht₀ hj htj hleaf

end

end Roadmap.Session
