import Roadmap.Proofs.Session.Rewrite
import Roadmap.Proofs.Session.Undo

/-!
# What a commit does to the schedule

A commit writes durations on the lines of the ancestors, as they are when the drag is done. The drag
moves the dragged task and what it pushes; the schedule that is made of the new lines also moves
those who wait for a sibling, and pulls tasks back to where they can start. So the two need not
agree, and taking the commit back can leave another duration on the line of an ancestor than it had.

Both go well as far as nobody is placed by what has changed (`Undisturbed`): then the schedule is
the one of the drag (`durations_of_commit`), and the one of before after the commit has been taken
back (`days_of_undo`). Other projects never change.
-/

namespace Roadmap.Session

open Work

/-! ## There and back -/

/-- The drag that puts a task back. -/
def backTo (x : Plan.Task) : Plan.Drag := ⟨x.id, x.start, some x.duration⟩

section

variable {d : Desk} {o : Outline} (h : Loads d o) {drag : Plan.Drag} {x u : Plan.Task}
  {q : Plan.Project} (hx : d.session.task? drag.task = some (x, q))

include h hx

theorem Loads.rewritten_of_commit {x₁ : Plan.Task} {d₁ : Desk}
    (hcommit : (commit drag).on d = (.ok (some x₁), d₁)) :
    ∃ u d' o', (q.drag x drag).tasks[x.index]? = some u
      ∧ Rewritten d d' o o' u ((q.drag x drag).ancestors u)
      ∧ d₁ = recorded d' (dragAction drag x u) := by
  obtain ⟨before, u, d', happly, -, rfl⟩ := commit_eq_ok hcommit
  obtain ⟨p, hp⟩ := task?_of_applyDrag happly
  obtain ⟨rfl, rfl⟩ := Prod.mk.inj (Option.some.inj (hx.symm.trans hp))
  obtain ⟨hu, o', hnew⟩ := h.rewritten_of_applyDrag hx happly
  exact ⟨u, d', o', hu, hnew, rfl⟩

/-- An ancestor of the dragged task, as the drag leaves it. -/
theorem Loads.exists_ancestor (hu : (q.drag x drag).tasks[x.index]? = some u) {y : Plan.Task}
    (hy : y ∈ q.ancestors x) :
    ∃ b ∈ (q.drag x drag).ancestors u, (q.drag x drag).tasks[y.index]? = some b ∧ b.bare = y.bare
      ∧ b.hasChildren := by
  obtain ⟨hq, hxq, -⟩ := h.mem hx
  have hsettled := Plan.settled_of_mem (lasting_of_read h.read) hq
  have hparent : u.parent = x.parent :=
    congrArg (·.parent) (bare_of_drag h.read hq hxq hu).1
  have hbare := Plan.Project.bare_ancestors (Plan.bare_drag hsettled.tasks.fitted hxq drag) hparent
  obtain ⟨b, hb, heq⟩ := List.mem_map.mp (hbare.symm ▸ List.mem_map_of_mem hy)
  have hdragged := (Plan.settled_drag hsettled hxq drag).tasks
  obtain ⟨hmem, hchildren⟩ := Plan.ancestors_hasChildren hdragged.linked hu b hb
  obtain ⟨i, hi⟩ := List.getElem?_of_mem hmem
  have hindex : y.index = i :=
    (congrArg (·.index) heq).symm.trans (hdragged.indexed i b hi)
  exact ⟨b, hb, hindex ▸ hi, heq, hchildren⟩

/-- Its line states the duration that it has then. -/
theorem Rewritten.states {d' : Desk} {o' : Outline}
    (hnew : Rewritten d d' o o' u ((q.drag x drag).ancestors u))
    (hu : (q.drag x drag).tasks[x.index]? = some u) {y b : Plan.Task} (hy : y ∈ q.ancestors x)
    (hb : b ∈ (q.drag x drag).ancestors u) (hbare : b.bare = y.bare) :
    States d'.session.text y.line b.duration := by
  obtain ⟨hq, hxq, -⟩ := h.mem hx
  have hsettled := (Plan.settled_of_mem (lasting_of_read h.read) hq).tasks
  obtain ⟨i, hi⟩ := List.getElem?_of_mem hxq
  have hyq := (Plan.ancestors_hasChildren hsettled.linked hi y hy).1
  obtain ⟨k, q₀, y₀, -, hq₀, hy₀, -, -, -, -, hline⟩ := Plan.exists_place hq hyq
  have hnodup := (bare_of_drag h.read hq hxq hu).2.symm ▸ nodup_dragLines h.read hq hxq
  have hnumber : y₀.line = b.line := hline.symm.trans (congrArg (·.line) hbare).symm
  have hold := Outline.exists_line h.read (List.mem_of_getElem? hq₀) (List.mem_of_getElem? hy₀)
  have hwritten := hnew.holds y₀ hold
  rw [afterDrag_of_ancestor hnodup hb hnumber] at hwritten
  exact ⟨_, hwritten, hline.symm, rfl⟩

/-- Where the tasks without children below it are on the days of the drag, it has the duration of
the drag. -/
theorem Loads.duration_of_below {q₁ : Plan.Project} (hq₁ : Plan.Settled q₁.tasks)
    (hbare : q₁.tasks.map Plan.Task.bare = q.tasks.map Plan.Task.bare) {i : Nat}
    {b y₁ : Plan.Task} (hb : (q.drag x drag).tasks[i]? = some b) (hchildren : b.hasChildren)
    (hy₁ : q₁.tasks[i]? = some y₁)
    (hbelow : ∀ {j : Nat} {t t₁ : Plan.Task}, Plan.Below (q.drag x drag).tasks i j →
      (q.drag x drag).tasks[j]? = some t → q₁.tasks[j]? = some t₁ → t.hasChildren = false →
      t₁.span = t.span) : y₁.duration = b.duration := by
  obtain ⟨hq, hxq, -⟩ := h.mem hx
  have hsettled := Plan.settled_of_mem (lasting_of_read h.read) hq
  have hdragged := (Plan.settled_drag hsettled hxq drag).tasks
  have hsame := (Plan.bare_drag hsettled.tasks.fitted hxq drag).trans hbare.symm
  have hlevels : (q.drag x drag).tasks.map (·.level) = q₁.tasks.map (·.level) := by
    have hmap := congrArg (List.map (·.level)) hsame
    rwa [List.map_map, List.map_map] at hmap
  obtain ⟨hstart, hfinish⟩ := Plan.Span.mk.inj (hdragged.fitted.days hq₁.fitted hlevels hbelow hb hy₁)
  have hchildren₁ : y₁.hasChildren := by
    rw [Plan.Task.hasChildren, ← (hdragged.linked.ext hq₁.linked hlevels hb hy₁).2]
    exact hchildren
  rw [(hdragged.cover i b hb hchildren).2.2, (hq₁.cover i y₁ hy₁ hchildren₁).2.2, hstart, hfinish]

/-- If nobody is placed by the task, and none names it as a dependency, the drag leaves tasks without
children where the schedule of the new lines has them. -/
theorem Rewritten.span_of_leaf_of_unnamed {d' : Desk} {o' : Outline}
    (hnew : Rewritten d d' o o' u ((q.drag x drag).ancestors u))
    (hu : (q.drag x drag).tasks[x.index]? = some u)
    (hcalm : Undisturbed q x d.session.text d'.session.text)
    (hquiet : ¬ Plan.Awaited q.tasks x.index)
    (hunnamed : ∀ t ∈ q.tasks, x.position ∉ t.dependencies) {k j : Nat} {q₁ : Plan.Project}
    (hk : (Plan.ofOutline o).projects[k]? = some q)
    (hk₁ : (Plan.ofOutline o').projects[k]? = some q₁) {t t₁ : Plan.Task}
    (htj : (q.drag x drag).tasks[j]? = some t) (ht₁ : q₁.tasks[j]? = some t₁)
    (hleaf : t.hasChildren = false) : t₁.span = t.span := by
  obtain ⟨hq, hxq, -⟩ := h.mem hx
  have hsettled := Plan.settled_of_mem (lasting_of_read h.read) hq
  obtain ⟨-, -, -, -, -, -, hseat, -⟩ := Plan.exists_place hq hxq
  have hlines := (bare_of_drag h.read hq hxq hu).2
  -- the task at the same place before the drag
  obtain ⟨s, hs, hsame⟩ := Plan.exists_of_bare (Plan.bare_drag hsettled.tasks.fitted hxq drag).symm htj
  have hleaf' : s.hasChildren = false := (congrArg (·.hasChildren) hsame).trans hleaf
  by_cases hj : j = x.index
  · subst hj
    obtain rfl := Option.some.inj (hseat.symm.trans hs)
    obtain rfl := Option.some.inj (hu.symm.trans htj)
    have hnodup := (List.nodup_cons.mp (hlines.symm ▸ nodup_dragLines h.read hq hxq)).1
    have hspan := hnew.span_of_leaf h hx hk hk₁ ht₁ hleaf' fun t₀ hline => by
      rw [afterDrag_of_task hnodup (hline.trans (List.cons.inj hlines).1.symm)]
      exact ⟨rfl, rfl⟩
    have hdragged := (Plan.settled_drag hsettled hxq drag).tasks
    rw [hspan, ← hdragged.leaf u (List.mem_of_getElem? hu) hleaf]
    rfl
  · have hsame := Plan.drag_getElem?_of_leaf hsettled hxq hunnamed drag hj hs hleaf'
    obtain rfl := Option.some.inj (hsame.symm.trans htj)
    exact hnew.stay h hx (touches_afterDrag hlines) hcalm hquiet hk hk₁ hj hs ht₁ hleaf

/-- The undo that follows a commit works, and drags the task back to where it was. -/
theorem Loads.exists_undo {d' : Desk} {o' : Outline}
    (hnew : Rewritten d d' o o' u ((q.drag x drag).ancestors u)) {k : Nat}
    (hk : (Plan.ofOutline o).projects[k]? = some q) :
    ∃ d₂ o₂ x' q' v, undo.on (recorded d' (dragAction drag x u))
        = (.ok (some (dragAction drag x u)), d₂)
      ∧ (Plan.ofOutline o').projects[k]? = some q' ∧ q'.tasks[x.index]? = some x'
      ∧ (q'.drag x' (backTo x)).tasks[x.index]? = some v
      ∧ Rewrites d' d₂ o' o₂ (afterDrag v ((q'.drag x' (backTo x)).ancestors v))
      ∧ v.line :: ((q'.drag x' (backTo x)).ancestors v).map (·.line) = dragLines q x
      ∧ (x.hasChildren = false → v.start = x.start ∧ v.duration = x.duration) := by
  obtain ⟨hq, hxq, -⟩ := h.mem hx
  obtain ⟨-, -, -, -, -, -, hseat, -⟩ := Plan.exists_place hq hxq
  obtain ⟨-, q', -, hk', -⟩ := hnew.exists_project hk
  obtain ⟨htasks, x', hx', hbare, htask⟩ := hnew.exists_task h hk hseat hk'
  have hid' : x'.id = x.id := congrArg (·.id) hbare
  have hindex : x'.index = x.index := congrArg (·.index) hbare
  have hline : x'.line = x.line := congrArg (·.line) hbare
  have hchildren : x'.hasChildren = x.hasChildren := congrArg (·.hasChildren) hbare
  have hq' := List.mem_of_getElem? hk'
  have hxq' := List.mem_of_getElem? hx'
  have hsettled := Plan.settled_of_mem (lasting_of_read h.read) hq
  have hsettled' := Plan.settled_of_mem (lasting_of_read hnew.loads.read) hq'
  -- the task as the second drag leaves it
  obtain ⟨v, hv, -⟩ := Plan.exists_of_bare (Plan.bare_drag hsettled'.tasks.fitted hxq' (backTo x)) hx'
  rw [← hindex] at hv
  have hpos := hsettled.tasks.lasting x hxq
  have hback : x.hasChildren = false → v.start = x.start ∧ v.duration = x.duration := by
    intro hleaf
    have hdragged := Plan.drag_leaf hsettled' hxq' (hchildren.trans hleaf) (backTo x)
    obtain rfl := Option.some.inj (hdragged.symm.trans hv)
    exact ⟨rfl, max_eq_right hpos⟩
  have hfits : Text.Fits v.duration := by
    refine fits_of_drag hnew.loads.read hq' hxq' hv fun hleaf => ?_
    have hduration : (x'.dragged (backTo x)).duration = x.duration := max_eq_right hpos
    rw [hduration]
    exact fits_of_leaf h.clean h.read hq hxq (hchildren.symm.trans hleaf)
  have hlimit : d'.session.history.limit = 50 := hnew.loads.sound.limit
  obtain ⟨back, -, hundo, -, hlimit', -⟩ :=
    undo_push d'.session.history (by omega) (dragAction drag x u)
  have hloads : Loads (withHistory (recorded d' (dragAction drag x u)) back) o' :=
    ⟨⟨hnew.loads.sound.loaded, hnew.loads.sound.path, hlimit'.trans hlimit⟩, hnew.loads.clean,
      hnew.loads.read, hnew.loads.projects⟩
  have htask' : (withHistory (recorded d' (dragAction drag x u)) back).session.task?
      (backTo x).task = some (x', q') := htask
  obtain ⟨d₂, o₂, happly, hagain⟩ :=
    hloads.exists_applyDrag htask' (Disk.writable_of_file hnew.file) hv hfits
  have honline : d'.session.taskOnLine? x.line = some x' :=
    (taskOnLine?_eq_some_iff hnew.loads.sound).mpr
      ⟨q', hnew.loads.projects ▸ hq', hxq', hline⟩
  have hlines := (bare_of_drag hnew.loads.read hq' hxq' hv).2.trans (dragLines_of_bare htasks hbare)
  refine ⟨d₂, o₂, x', q', v, ?_, hk', hx', hindex ▸ hv, ⟨hagain.loads, hagain.seats, hagain.holds,
    hagain.start, hagain.tasks⟩, hlines, hback⟩
  rw [undo_eq_replay]
  refine on_replay_of hundo honline ?_ (r := some (x', v))
  rw [hid']
  exact happly

end

/-! ## A house -/

namespace Sample

/-- The projects' tasks are all that a drag looks at. -/
theorem drag_congr {p q : Plan.Project} (h : p.tasks = q.tasks) (t : Plan.Task) (drag : Plan.Drag) :
    (p.drag t drag).tasks = (q.drag t drag).tasks := by
  show Plan.reconcile (Plan.pushDependents (Plan.link (p.tasks.set t.index (t.dragged drag))) t.index)
    = _
  rw [h]
  rfl

theorem ancestors_congr {p q : Plan.Project} (h : p.tasks = q.tasks) (t : Plan.Task) :
    p.ancestors t = q.ancestors t := by
  rw [Plan.Project.ancestors, Plan.Project.ancestors, h]

/-- The house with other days on its lines. -/
def redone (lines : List Outline.Task) : Plan.Project :=
  { houseProject with tasks := Plan.schedule lines "project-0" monday }

theorem tasks_redone (lines : List Outline.Task) :
    (redone lines).tasks = Plan.schedule lines "project-0" monday := rfl

theorem exists_redone {d' : Desk} {o' : Outline} {f : Outline.Task → Outline.Task}
    (hf : Rewrites houseDesk d' house o' f) :
    ∃ q', (Plan.ofOutline o').projects[0]? = some q'
      ∧ q'.tasks = (redone (houseLines.map f)).tasks
      ∧ ∀ t ∈ q'.tasks, d'.session.task? t.id = some (t, q') := by
  have hhouse : (Plan.ofOutline house).projects[0]? = some houseProject := by
    rw [projects_house]
    rfl
  obtain ⟨q₀, q', hq₀, hq', -, -, htasks⟩ := hf.exists_project hhouse
  have hblock : house.projects[0]? = some houseBlock := rfl
  obtain rfl := Option.some.inj (hblock.symm.trans hq₀)
  have hid : houseProject.id = "project-0" := rfl
  rw [hid] at htasks
  refine ⟨q', hq', htasks.trans (tasks_redone _).symm, fun t ht =>
    (task?_eq_some_iff hf.loads.sound).mpr ⟨?_, ht, rfl⟩⟩
  rw [hf.loads.projects]
  exact List.mem_of_getElem? hq'

/-- A drag of a task of the house, and the way back. -/
theorem exists_return_house {drag : Plan.Drag} {x x' u v : Plan.Task}
    {f g : Outline.Task → Outline.Task}
    (hx : houseProject.tasks.find? (·.id == drag.task) = some x)
    (hu : (houseProject.drag x drag).tasks[x.index]? = some u) (hfits : Text.Fits u.duration)
    (hf : f = afterDrag u ((houseProject.drag x drag).ancestors u))
    (hx' : (redone (houseLines.map f)).tasks[x.index]? = some x')
    (hv : ((redone (houseLines.map f)).drag x' (backTo x)).tasks[x.index]? = some v)
    (hg : g = afterDrag v (((redone (houseLines.map f)).drag x' (backTo x)).ancestors v)) :
    ∃ x₁ d' o' d₂ o₂, (commit drag).on houseDesk
        = (.ok (some x₁), recorded d' (dragAction drag x u))
      ∧ Rewrites houseDesk d' house o' f
      ∧ undo.on (recorded d' (dragAction drag x u)) = (.ok (some (dragAction drag x u)), d₂)
      ∧ Rewrites houseDesk d₂ house o₂ (g ∘ f) := by
  subst hf hg
  have htask := task?_house hx
  obtain ⟨x₁, d', o', hcommit, hnew⟩ := loads_house.exists_commit htask writable_house hu hfits
  have hhouse : (Plan.ofOutline house).projects[0]? = some houseProject := by
    rw [projects_house]
    rfl
  obtain ⟨d₂, o₂, y', q', w, hundo, hq', hy', hw, hagain, -⟩ :=
    loads_house.exists_undo htask hnew hhouse
  obtain ⟨p', hp', htasks, -⟩ := exists_redone hnew.toRewrites
  obtain rfl := Option.some.inj (hq'.symm.trans hp')
  rw [htasks] at hy'
  obtain rfl := Option.some.inj (hx'.symm.trans hy')
  have hdrag := drag_congr htasks x' (backTo x)
  rw [hdrag] at hw
  obtain rfl := Option.some.inj (hv.symm.trans hw)
  rw [ancestors_congr hdrag] at hagain
  exact ⟨x₁, d', o', d₂, o₂, hcommit, hnew.toRewrites, hundo, hnew.toRewrites.trans hagain⟩

/-- What the lines say after the drag of the northern wall. -/
def northLines : Outline.Task → Outline.Task :=
  afterDrag northLater ((houseProject.drag north northDrag).ancestors northLater)

/-- The walls of the outline. -/
def wallsLine : Outline.Task := { level := 1, title := "Walls", duration := 2, line := 2 }

theorem holds_walls {d' : Desk} {o' : Outline} {f : Outline.Task → Outline.Task}
    (hf : Rewrites houseDesk d' house o' f) : Outline.Holds d'.session.text (f wallsLine) :=
  hf.holds wallsLine (Outline.exists_line read_houseText (p := houseBlock) List.mem_cons_self
    List.mem_cons_self)

theorem return_north : (redone (houseLines.map northLines)).tasks[1]? = some northLater
    ∧ ((redone (houseLines.map northLines)).drag northLater (backTo north)).tasks[1]?
      = some { north with explicitStart := some monday } := by
  constructor
  · cbv
  · cbv

/-- The southern wall is put off for a day and not built. -/
def southDrag : Plan.Drag := ⟨"project-0-task-2", monday.shift 2, some 0⟩

def southLater : Plan.Task :=
  { south with start := monday.shift 2, duration := 0, explicitStart := some (monday.shift 2) }

theorem drag_south : (houseProject.drag south southDrag).tasks[2]? = some southLater := by cbv

def southLines : Outline.Task → Outline.Task :=
  afterDrag southLater ((houseProject.drag south southDrag).ancestors southLater)

theorem return_south : (redone (houseLines.map southLines)).tasks[2]? = some southLater
    ∧ ((redone (houseLines.map southLines)).drag southLater (backTo south)).tasks[2]?
      = some { south with explicitStart := some (monday.shift 1) } := by
  constructor
  · cbv
  · cbv

/-- The drag of the southern wall disturbs nobody as long as the walls last as long as before. -/
theorem undisturbed_house {text : String} (h : States text walls.line 2) :
    Undisturbed houseProject south houseDesk.session.text text where
  acyclic j _ := Plan.acyclic_of_rank id (by decide) j
  ancestors y hy _ n hn := by
    obtain rfl : y = walls := List.mem_singleton.mp hy
    have hold : States houseText walls.line 2 := ⟨wallsLine, Outline.exists_line read_houseText
      (p := houseBlock) List.mem_cons_self List.mem_cons_self, rfl, rfl⟩
    rwa [hn.unique hold]

end Sample

open Sample

/-! ## What becomes of the schedule -/

/-- The undo that follows a commit at once brings all tasks of other projects back to their days. It
does so with those of the task's own project if nobody is placed by what has changed: neither by a
parent that was dragged nor by the end of an ancestor whose line states another duration than
before. -/
theorem days_of_undo {d d₁ : Desk} (hd : d.Reachable)
    (hcanonical : Outline.Canonical d.session.text) {drag : Plan.Drag} {x x₁ : Plan.Task}
    {q : Plan.Project} (hx : d.session.task? drag.task = some (x, q))
    (hcommit : (commit drag).on d = (.ok (some x₁), d₁)) :
    ∃ (a : Action) (d₂ : Desk), undo.on d₁ = (.ok (some a), d₂) ∧ a.task = drag.task
      ∧ d₂.session.projects.map Plan.Project.seats = d.session.projects.map Plan.Project.seats
      ∧ ∀ p ∈ d.session.projects, ∀ t ∈ p.tasks, ∃ t₂ p₂, d₂.session.task? t.id = some (t₂, p₂)
        ∧ (p ≠ q ∨ Undisturbed q x d.session.text d₂.session.text
            ∧ (Plan.Awaited q.tasks x.index → x.hasChildren = false) →
          t₂.start = t.start ∧ t₂.finish = t.finish) := by
  obtain ⟨o, h⟩ := exists_loads hd.sound hcanonical hx
  obtain ⟨u, d', o', hu, hnew, rfl⟩ := h.rewritten_of_commit hx hcommit
  obtain ⟨hq, hxq, -⟩ := h.mem hx
  obtain ⟨k, hk⟩ := List.getElem?_of_mem hq
  obtain ⟨d₂, o₂, x', q', v, hundo, -, -, -, hagain, hlines', hback⟩ := h.exists_undo hx hnew hk
  have hlines := (bare_of_drag h.read hq hxq hu).2
  have hboth := hnew.toRewrites.trans hagain
  -- both drags are of the same lines
  have htouches := (touches_afterDrag hlines').comp (touches_afterDrag hlines)
  refine ⟨_, d₂, hundo, rfl, hboth.seats, fun p hp t ht => ?_⟩
  obtain ⟨t₂, p₂, htask, hother, hown⟩ := hboth.days h hx htouches hp ht
  refine ⟨t₂, p₂, htask, fun hcalm => Plan.Span.mk.inj ?_⟩
  by_cases hpq : p = q
  · obtain ⟨hcalm, hawaited⟩ := hcalm.resolve_left (fun hne => hne hpq)
    refine hown hpq hcalm hawaited fun hleaf t₀ hline => ?_
    obtain ⟨hstart, hduration⟩ := hback hleaf
    have hnodup := (List.nodup_cons.mp (hlines'.symm ▸ nodup_dragLines h.read hq hxq)).1
    have hline' : (afterDrag u ((q.drag x drag).ancestors u) t₀).line = v.line := by
      rw [afterDrag_line, hline, (List.cons.inj hlines').1]
    rw [Function.comp_apply, afterDrag_of_task hnodup hline', ← hstart, ← hduration]
    exact ⟨rfl, rfl⟩
  · exact hother hpq

/-- The southern wall is put off and back again, and the roof is where it was. -/
theorem days_of_undo_house : ∃ x₁ d₁ a d₂ t₂ q₂,
    (commit southDrag).on houseDesk = (.ok (some x₁), d₁) ∧ undo.on d₁ = (.ok (some a), d₂)
      ∧ d₂.session.task? roof.id = some (t₂, q₂)
      ∧ t₂.start = roof.start ∧ t₂.finish = roof.finish := by
  have hfind : houseProject.tasks.find? (·.id == southDrag.task) = some south := rfl
  obtain ⟨x₁, d', o', d₂, o₂, hcommit, -, hundo, hback⟩ := exists_return_house hfind drag_south
    (Text.fits_of_digit (by decide)) rfl return_south.1 return_south.2 rfl
  obtain ⟨a, e₂, hundo', -, -, hdays⟩ := days_of_undo reachable_house loads_house.clean.canonical
    (task?_house hfind) hcommit
  obtain ⟨-, rfl⟩ := Prod.mk.inj (hundo.symm.trans hundo')
  have hhouse : houseProject ∈ houseDesk.session.projects := by
    rw [loads_house.projects, projects_house]
    exact List.mem_singleton_self _
  have hroof : roof ∈ houseProject.tasks :=
    List.mem_cons_of_mem _ (List.mem_cons_of_mem _ (List.mem_cons_of_mem _ List.mem_cons_self))
  obtain ⟨t₂, q₂, hfound, hsame⟩ := hdays _ hhouse _ hroof
  have hstates : States d₂.session.text walls.line 2 := by
    refine ⟨_, holds_walls hback, ?_, ?_⟩
    · cbv
    · cbv
  exact ⟨x₁, _, a, d₂, t₂, q₂, hcommit, hundo', hfound,
    hsame (.inr ⟨undisturbed_house hstates, fun _ => rfl⟩)⟩

/-- The northern wall is put off for a week and back again. The southern one had waited for it, so
the walls last too long on the way back, and the roof that waits for them stays put off. -/
theorem not_returned_house : ∃ x₁ d₁ a d₂ t₂ q₂,
    (commit northDrag).on houseDesk = (.ok (some x₁), d₁) ∧ undo.on d₁ = (.ok (some a), d₂)
      ∧ houseDesk.Reachable ∧ Outline.Canonical houseDesk.session.text
      ∧ houseDesk.session.task? roof.id = some (roof, houseProject)
      ∧ d₂.session.task? roof.id = some (t₂, q₂) ∧ t₂.start = roof.start.shift 7
      ∧ t₂.start ≠ roof.start := by
  have hfind : houseProject.tasks.find? (·.id == northDrag.task) = some north := rfl
  obtain ⟨x₁, d', o', d₂, o₂, hcommit, -, hundo, hback⟩ := exists_return_house hfind drag_north
    (Text.fits_of_digit (by decide)) rfl return_north.1 return_north.2 rfl
  obtain ⟨q₂, -, htasks, hfound⟩ := exists_redone hback
  have hroof : q₂.tasks[3]?.map (fun t => (t.id, t.start))
      = some ("project-0-task-3", roof.start.shift 7) := by
    rw [htasks]
    cbv
  obtain ⟨t₂, ht₂, heq⟩ := Option.map_eq_some_iff.mp hroof
  obtain ⟨hid, hstart⟩ := Prod.mk.inj heq
  have hfound := hfound t₂ (List.mem_of_getElem? ht₂)
  rw [hid] at hfound
  have hlate : roof.start.shift 7 ≠ roof.start := by decide
  exact ⟨x₁, _, _, d₂, t₂, q₂, hcommit, hundo, reachable_house, loads_house.clean.canonical,
    task?_house rfl, hfound, hstart, fun heq => hlate (hstart.symm.trans heq)⟩

/-- After a commit, the lines of the ancestors state the durations which these have when the drag is
done. The new schedule has the same durations where it has the tasks below the ancestor on the days
of the drag, and so where nobody is placed by what has changed. -/
theorem durations_of_commit {d d₁ : Desk} (hd : d.Reachable)
    (hcanonical : Outline.Canonical d.session.text) {drag : Plan.Drag} {x x₁ : Plan.Task}
    {q : Plan.Project} (hx : d.session.task? drag.task = some (x, q))
    (hcommit : (commit drag).on d = (.ok (some x₁), d₁)) {y : Plan.Task}
    (hy : y ∈ q.ancestors x) :
    ∃ (b y₁ : Plan.Task) (q₁ : Plan.Project), (q.drag x drag).tasks[y.index]? = some b
      ∧ b.id = y.id ∧ d₁.session.task? y.id = some (y₁, q₁)
      ∧ States d₁.session.text y.line b.duration
      ∧ ((∀ {j : Nat} {t t₁ : Plan.Task}, Plan.Below (q.drag x drag).tasks y.index j →
          (q.drag x drag).tasks[j]? = some t → q₁.tasks[j]? = some t₁ → t.hasChildren = false →
          t₁.span = t.span) →
        States d₁.session.text y.line y₁.duration)
      ∧ (Undisturbed q x d.session.text d₁.session.text → ¬ Plan.Awaited q.tasks x.index →
        (∀ t ∈ q.tasks, x.position ∉ t.dependencies) →
        States d₁.session.text y.line y₁.duration) := by
  obtain ⟨o, h⟩ := exists_loads hd.sound hcanonical hx
  obtain ⟨u, d', o', hu, hnew, rfl⟩ := h.rewritten_of_commit hx hcommit
  obtain ⟨hq, hxq, -⟩ := h.mem hx
  have hsettled := Plan.settled_of_mem (lasting_of_read h.read) hq
  have hdragged := (Plan.settled_drag hsettled hxq drag).tasks
  obtain ⟨b, hbu, hb, hbare, hchildren⟩ := h.exists_ancestor hx hu hy
  -- the ancestor in the schedule of the new lines
  obtain ⟨k, -, -, hk, -, -, hseat, -⟩ := Plan.exists_place hq hxq
  obtain ⟨hyq, -⟩ := Plan.ancestors_hasChildren hsettled.tasks.linked hseat y hy
  obtain ⟨-, -, -, -, -, -, hyseat, -⟩ := Plan.exists_place hq hyq
  obtain ⟨-, q₁, -, hk₁, -⟩ := hnew.exists_project hk
  obtain ⟨htasks, y₁, hy₁, -, htask⟩ := hnew.exists_task h hk hyseat hk₁
  have hsettled₁ := (Plan.settled_of_mem (lasting_of_read hnew.loads.read)
    (List.mem_of_getElem? hk₁)).tasks
  have hstates := hnew.states h hx hu hy hbu hbare
  have hagree := h.duration_of_below hx hsettled₁ htasks hb hchildren hy₁
  refine ⟨b, y₁, q₁, hb, congrArg (·.id) hbare, htask, hstates, fun hbelow => hagree hbelow ▸ hstates,
    fun hcalm hquiet hunnamed => hagree (fun _ htj ht₁ hleaf => ?_) ▸ hstates⟩
  exact hnew.span_of_leaf_of_unnamed h hx hu hcalm hquiet hunnamed hk hk₁ htj ht₁ hleaf

/-- The southern wall is put off and not built, which leaves the duration of the walls as it was. -/
theorem durations_of_commit_house : ∃ x₁ d₁ y₁ q₁,
    (commit southDrag).on houseDesk = (.ok (some x₁), d₁)
      ∧ d₁.session.task? walls.id = some (y₁, q₁)
      ∧ States d₁.session.text walls.line y₁.duration := by
  have htask : houseDesk.session.task? southDrag.task = some (south, houseProject) :=
    task?_house rfl
  obtain ⟨x₁, d', o', hcommit, hnew⟩ := loads_house.exists_commit htask writable_house drag_south
    (Text.fits_of_digit (by decide))
  obtain ⟨b, y₁, q₁, hb, -, hfound, hstates, -, hcalm⟩ := durations_of_commit reachable_house
    loads_house.clean.canonical htask hcommit (y := walls) List.mem_cons_self
  have hwalls : (houseProject.drag south southDrag).tasks[walls.index]?.map (·.duration) = some 2 := by
    cbv
  have hduration : b.duration = 2 := Option.some.inj ((congrArg _ hb).symm.trans hwalls)
  rw [hduration] at hstates
  exact ⟨x₁, _, y₁, q₁, hcommit, hfound,
    hcalm (undisturbed_house hstates) (by decide) (by decide)⟩

/-- When the drag of the northern wall is done, the southern one stands where it stood, and the walls
last from there to the end of the northern one. In the new schedule it has followed. -/
theorem not_states_house : ∃ x₁ d₁ y₁ q₁, (commit northDrag).on houseDesk = (.ok (some x₁), d₁)
    ∧ houseDesk.Reachable ∧ Outline.Canonical houseDesk.session.text
    ∧ houseDesk.session.task? northDrag.task = some (north, houseProject)
    ∧ walls ∈ houseProject.ancestors north ∧ d₁.session.task? walls.id = some (y₁, q₁)
    ∧ States d₁.session.text walls.line 7 ∧ y₁.duration = 2
    ∧ ¬ States d₁.session.text walls.line y₁.duration := by
  have htask : houseDesk.session.task? northDrag.task = some (north, houseProject) :=
    task?_house rfl
  obtain ⟨x₁, d', o', hcommit, hnew⟩ := loads_house.exists_commit htask writable_house drag_north
    (Text.fits_of_digit (by decide))
  have hholds := holds_walls hnew.toRewrites
  obtain ⟨q₁, -, htasks, hfind⟩ := exists_redone hnew.toRewrites
  have hwalls : (redone (houseLines.map northLines)).tasks[0]?.map
      (fun t => (t.id, t.duration)) = some ("project-0-task-0", 2) := by cbv
  obtain ⟨y₁, hy₁, heq⟩ := Option.map_eq_some_iff.mp hwalls
  obtain ⟨hid, hduration⟩ := Prod.mk.inj heq
  have hstates : States d'.session.text walls.line 7 := by
    refine ⟨_, hholds, ?_, ?_⟩
    · cbv
    · cbv
  have hfound := hfind y₁ (List.mem_of_getElem? (htasks ▸ hy₁))
  rw [hid] at hfound
  refine ⟨x₁, _, y₁, q₁, hcommit, reachable_house, loads_house.clean.canonical, htask,
    List.mem_cons_self, hfound, hstates, hduration, fun hsame => ?_⟩
  have heq := hsame.unique hstates
  omega

end Roadmap.Session
