import Roadmap.Proofs.Outline.Dates
import Roadmap.Proofs.Plan.Leaf
import Roadmap.Proofs.Session.Log

/-!
# What a drag writes

A drag writes the new days on the line of its task and the durations of the ancestors, as they are
after the drag, on theirs; all other lines stay as they are. So what the new text stands for is
known line by line (`afterDrag`), and as the lines keep their shapes it is the old outline with
these days (`tasks_of_read`).

The task lines of the text have to be canonical, as a drag writes them in this form. A task with
children is written as it is fitted to them, so it need not be where the drag asked for it.
-/

namespace Roadmap

/-- Whatever is written to the path, writing works. -/
def Disk.Writable (disk : Disk) : Prop :=
  ∀ path text : String, ∃ disk', disk.write path text = .ok disk'

theorem Disk.writable_of_file {disk : Disk} {contents : Contents} {time : Int}
    (h : disk.node = .file contents time) : disk.Writable := by
  intro path text
  rw [write, h]
  exact ⟨_, rfl⟩

namespace Session

open Work

/-- The numbers of the lines that dragging a task can change: its own and those of its ancestors. -/
def dragLines (p : Plan.Project) (t : Plan.Task) : List Int :=
  t.line :: (p.ancestors t).map (·.line)

/-- Tasks in the same seats change the same lines. -/
theorem dragLines_of_bare {p q : Plan.Project} {t u : Plan.Task}
    (h : p.tasks.map Plan.Task.bare = q.tasks.map Plan.Task.bare) (ht : t.bare = u.bare) :
    dragLines p t = dragLines q u := by
  have hline : t.line = u.line := congrArg (·.line) ht
  have hancestors := congrArg (List.map (·.line))
    (Plan.Project.bare_ancestors h (congrArg (·.parent) ht))
  rw [List.map_map, List.map_map] at hancestors
  exact congrArg₂ List.cons hline hancestors

/-! ## Other days on some lines -/

/-- What a task line says after the durations of some tasks have been written on theirs. -/
def withDurations (tasks : List Plan.Task) (t₀ : Outline.Task) : Outline.Task :=
  tasks.foldl (fun t₀ a => if t₀.line = a.line then t₀.redated t₀.explicitStart a.duration else t₀) t₀

/-- What a task line says after a drag, with the dragged task and its ancestors as they are then. -/
def afterDrag (u : Plan.Task) (ancestors : List Plan.Task) (t₀ : Outline.Task) : Outline.Task :=
  withDurations ancestors
    (if t₀.line = u.line then t₀.redated (some u.start) u.duration else t₀)

/-- Only the duration can be another one. -/
theorem exists_withDurations (tasks : List Plan.Task) (t₀ : Outline.Task) :
    ∃ duration, withDurations tasks t₀ = t₀.redated t₀.explicitStart duration := by
  induction tasks generalizing t₀ with
  | nil => exact ⟨t₀.duration, rfl⟩
  | cons a tasks ih =>
      rw [withDurations, List.foldl_cons]
      split
      · exact ih (t₀.redated t₀.explicitStart a.duration)
      · exact ih t₀

theorem withDurations_of_not_mem {tasks : List Plan.Task} {t₀ : Outline.Task}
    (h : t₀.line ∉ tasks.map (·.line)) : withDurations tasks t₀ = t₀ := by
  induction tasks with
  | nil => rfl
  | cons a tasks ih =>
      rw [List.map_cons, List.mem_cons, not_or] at h
      rw [withDurations, List.foldl_cons, if_neg h.1]
      exact ih h.2

theorem withDurations_of_mem {tasks : List Plan.Task} (hlines : (tasks.map (·.line)).Nodup)
    {a : Plan.Task} (ha : a ∈ tasks) {t₀ : Outline.Task} (hline : t₀.line = a.line) :
    withDurations tasks t₀ = t₀.redated t₀.explicitStart a.duration := by
  induction tasks with
  | nil => cases ha
  | cons b tasks ih =>
      rw [List.map_cons, List.nodup_cons] at hlines
      rw [withDurations, List.foldl_cons]
      rcases List.mem_cons.mp ha with rfl | ha
      · rw [if_pos hline]
        refine withDurations_of_not_mem ?_
        show t₀.line ∉ tasks.map (·.line)
        rw [hline]
        exact hlines.1
      · have hne : t₀.line ≠ b.line := fun heq =>
          hlines.1 (List.mem_map.mpr ⟨a, ha, hline.symm.trans heq⟩)
        rw [if_neg hne]
        exact ih hlines.2 ha

/-! ## The text -/

theorem writeDurations_dates {text : String} (h : Outline.Clean text) {tasks : List Plan.Task}
    (hfits : ∀ t ∈ tasks, 0 ≤ t.duration ∧ Text.Fits t.duration) :
    ∃ text', writeDurations text tasks = .ok text'
      ∧ Outline.Dated text text' (tasks.map (·.line))
      ∧ ∀ t₀, Outline.Holds text t₀ → Outline.Holds text' (withDurations tasks t₀) := by
  induction tasks generalizing text with
  | nil => exact ⟨text, rfl, .refl h _, fun _ ht => ht⟩
  | cons t tasks ih =>
      obtain ⟨hpos, hshort⟩ := hfits t List.mem_cons_self
      obtain ⟨next, hnext, hdated, hholds⟩ := Outline.patchLine_dates h id
        (fun u => Outline.renderChanged_duration u hpos) hpos hshort t.line
      obtain ⟨text', htext', hdated', hholds'⟩ :=
        ih hdated.clean fun u hu => hfits u (List.mem_cons_of_mem t hu)
      refine ⟨text', ?_, hdated.trans hdated', fun t₀ ht₀ => ?_⟩
      · rw [writeDurations, hnext]
        exact htext'
      · rw [withDurations, List.foldl_cons]
        split
        · next hline => exact hholds' _ (hholds t₀ ht₀ hline)
        · next hline =>
            exact hholds' _ (hdated.holds ht₀ fun hmem => hline (List.mem_singleton.mp hmem))

theorem draggedText_of_find {text next : String} {after : Plan.Dragged} {t : Plan.Task}
    {p : Plan.Project} (hnext : Outline.patchLine text t.line
      [.start (some t.start), .duration t.duration] = .ok next)
    (hfind : after.projects.find? (·.id == t.projectId) = some p) :
    draggedText text after t = writeDurations next (p.ancestors t) := by
  simp only [draggedText, hnext, hfind, bind, Except.bind]

/-- No parent lasts longer than the calendar. -/
theorem fits_of_hasChildren {tasks : List Plan.Task} (h : Plan.Settled tasks) {t : Plan.Task}
    (ht : t ∈ tasks) (hc : t.hasChildren) : Text.Fits t.duration := by
  obtain ⟨i, hi⟩ := List.getElem?_of_mem ht
  obtain ⟨-, -, hduration⟩ := h.cover i t hi hc
  have hstart := t.start.one_le
  have hfinish := t.finish.le_last
  have hsmall : t.duration.natAbs < 10 ^ 7 := by
    rw [hduration, Date.daysTo]
    omega
  exact Nat.le_trans ((Text.length_natDigits_le_iff (by decide)).mpr hsmall) (by decide)

section

variable {text : String} {today : Date} {o : Outline} (hclean : Outline.Clean text)
  (hread : Outline.read text today = .ok o)

include hread

theorem lasting_of_read : ∀ p ∈ o.projects, ∀ t ∈ p.tasks, 0 ≤ t.duration := by
  intro p hp t ht
  obtain ⟨i, line, -, -, hline⟩ := Outline.exists_line hread hp ht
  exact (Outline.readTask?_eq_some hline).choose_spec.2.2.2.1

/-- The task and its ancestors stand on different lines. -/
theorem nodup_dragLines {p : Plan.Project} (hp : p ∈ (Plan.ofOutline o).projects) {t : Plan.Task}
    (ht : t ∈ p.tasks) : (dragLines p t).Nodup := by
  have hdistinct := Plan.distinct_ofOutline (Outline.lines_sorted hread)
  have hsettled := (Plan.settled_of_mem (lasting_of_read hread) hp).tasks
  obtain ⟨i, hi⟩ := List.getElem?_of_mem ht
  have hindex := hsettled.indexed i t hi
  obtain ⟨hsorted, hbelow⟩ := Plan.ancestors_sorted hsettled.toPlaced (n := p.tasks.length) hi
  have hmem : ∀ a ∈ t :: p.ancestors t, a ∈ p.tasks := by
    intro a ha
    rcases List.mem_cons.mp ha with rfl | ha
    · exact ht
    · exact (Plan.ancestors_hasChildren hsettled.linked hi a ha).1
  have hall : (t :: p.ancestors t).Pairwise (fun a b => b.index < a.index) :=
    List.pairwise_cons.mpr ⟨fun a ha => hindex ▸ hbelow a ha, hsorted⟩
  show List.Pairwise (· ≠ ·) ((t :: p.ancestors t).map (·.line))
  refine List.pairwise_map.mpr (hall.imp_of_mem fun ha hb hlt heq => ?_)
  obtain ⟨-, rfl⟩ := hdistinct.line p hp p hp _ (hmem _ ha) _ (hmem _ hb) heq
  exact Nat.lt_irrefl _ hlt

/-- The dragged task sits where it sat. -/
theorem bare_of_drag {p : Plan.Project} (hp : p ∈ (Plan.ofOutline o).projects) {t u : Plan.Task}
    (ht : t ∈ p.tasks) {drag : Plan.Drag} (hu : (p.drag t drag).tasks[t.index]? = some u) :
    u.bare = t.bare
      ∧ u.line :: ((p.drag t drag).ancestors u).map (·.line) = dragLines p t := by
  have hbare := Plan.bare_drag (Plan.settled_of_mem (lasting_of_read hread) hp).tasks.fitted ht drag
  obtain ⟨-, -, -, -, -, -, hseat, -⟩ := Plan.exists_place hp ht
  have hsame : u.bare = t.bare := by
    obtain ⟨s, hs, hsame⟩ := Plan.exists_of_bare hbare hseat
    obtain rfl := Option.some.inj (hu.symm.trans hs)
    exact hsame
  exact ⟨hsame, dragLines_of_bare hbare hsame⟩

/-- The duration of a task that has been dragged can be written, unless the drag itself asks for one
that cannot. -/
theorem fits_of_drag {p : Plan.Project} (hp : p ∈ (Plan.ofOutline o).projects) {t u : Plan.Task}
    (ht : t ∈ p.tasks) {drag : Plan.Drag} (hu : (p.drag t drag).tasks[t.index]? = some u)
    (hfits : t.hasChildren = false → Text.Fits (t.dragged drag).duration) : Text.Fits u.duration := by
  have hsettled := Plan.settled_of_mem (lasting_of_read hread) hp
  cases hc : t.hasChildren with
  | false =>
      obtain rfl := Option.some.inj ((Plan.drag_leaf hsettled ht hc drag).symm.trans hu)
      exact hfits hc
  | true =>
      have hbare := (bare_of_drag hread hp ht hu).1
      exact fits_of_hasChildren (Plan.settled_drag hsettled ht drag).tasks (List.mem_of_getElem? hu)
        ((congrArg (·.hasChildren) hbare).trans hc)

include hclean

theorem fits_of_leaf {p : Plan.Project} (hp : p ∈ (Plan.ofOutline o).projects) {t : Plan.Task}
    (ht : t ∈ p.tasks) (hleaf : t.hasChildren = false) : Text.Fits t.duration := by
  obtain ⟨p₀, hp₀, t₀, ht₀, -, hduration, -⟩ := Plan.exists_of_leaf hp ht hleaf
  obtain ⟨i, line, hi, hnumber, hline⟩ := Outline.exists_line hread hp₀ ht₀
  rw [hnumber] at hline
  rw [hduration]
  exact (Outline.renderWith_eq_ok (hclean.canonical i line t₀ hi hline)).2.1

/-- What a drag writes: the new days on the line of the task, the durations of its ancestors on
theirs, and nothing else. -/
theorem draggedText_dates {p : Plan.Project} (hp : p ∈ (Plan.ofOutline o).projects) {t u : Plan.Task}
    (ht : t ∈ p.tasks) {drag : Plan.Drag} (hid : t.id = drag.task)
    (hu : (p.drag t drag).tasks[t.index]? = some u) (hfits : Text.Fits u.duration) :
    (Plan.drag drag (Plan.ofOutline o).projects).task = some u
      ∧ ∃ text', draggedText text (Plan.drag drag (Plan.ofOutline o).projects) u = .ok text'
        ∧ Outline.Dated text text' (dragLines p t)
        ∧ ∀ t₀, Outline.Holds text t₀ →
          Outline.Holds text' (afterDrag u ((p.drag t drag).ancestors u) t₀) := by
  have hdistinct := Plan.distinct_ofOutline (Outline.lines_sorted hread)
  have hsettled := Plan.settled_of_mem (lasting_of_read hread) hp
  obtain ⟨htask, hproject⟩ := Plan.drag_of_mem hdistinct hp ht hid
  have hdragged := (Plan.settled_drag hsettled ht drag).tasks
  have hpos := hdragged.lasting u (List.mem_of_getElem? hu)
  obtain ⟨hsame, hlines⟩ := bare_of_drag hread hp ht hu
  obtain ⟨-, -, -, -, -, -, -, -, hprojectId, -⟩ := Plan.exists_place hp ht
  have hidOfProject : u.projectId = p.id := (congrArg (·.projectId) hsame).trans hprojectId
  obtain ⟨next, hnext, hdated, hholds⟩ := Outline.patchLine_dates hclean (fun _ => some u.start)
    (fun v => Outline.renderChanged_dates v (some u.start) hpos) hpos hfits u.line
  have hancestors : ∀ a ∈ (p.drag t drag).ancestors u, 0 ≤ a.duration ∧ Text.Fits a.duration := by
    intro a ha
    obtain ⟨hmem, hc⟩ := Plan.ancestors_hasChildren hdragged.linked hu a ha
    exact ⟨hdragged.lasting a hmem, fits_of_hasChildren hdragged hmem hc⟩
  obtain ⟨text', htext', hdated', hholds'⟩ := writeDurations_dates hdated.clean hancestors
  have hboth : Outline.Dated text text' (dragLines p t) := hlines ▸ hdated.trans hdated'
  refine ⟨htask.trans hu, text', ?_, hboth, fun t₀ ht₀ => ?_⟩
  · rw [draggedText_of_find hnext (hidOfProject ▸ hproject)]
    exact htext'
  · refine hholds' _ ?_
    split
    · next h => exact hholds t₀ ht₀ h
    · next h => exact hdated.holds ht₀ fun hmem => h (List.mem_singleton.mp hmem)

end

/-! ## The outline of the text -/

theorem afterDrag_line (u : Plan.Task) (ancestors : List Plan.Task) (t₀ : Outline.Task) :
    (afterDrag u ancestors t₀).line = t₀.line := by
  rw [afterDrag]
  obtain ⟨duration, h⟩ := exists_withDurations ancestors
    (if t₀.line = u.line then t₀.redated (some u.start) u.duration else t₀)
  rw [h]
  split
  · rfl
  · rfl

theorem afterDrag_of_task {u : Plan.Task} {ancestors : List Plan.Task}
    (h : u.line ∉ ancestors.map (·.line)) {t₀ : Outline.Task} (hline : t₀.line = u.line) :
    afterDrag u ancestors t₀ = t₀.redated (some u.start) u.duration := by
  rw [afterDrag, if_pos hline]
  refine withDurations_of_not_mem ?_
  show t₀.line ∉ ancestors.map (·.line)
  rwa [hline]

theorem afterDrag_of_ancestor {u : Plan.Task} {ancestors : List Plan.Task}
    (h : (u.line :: ancestors.map (·.line)).Nodup) {a : Plan.Task} (ha : a ∈ ancestors)
    {t₀ : Outline.Task} (hline : t₀.line = a.line) :
    afterDrag u ancestors t₀ = t₀.redated t₀.explicitStart a.duration := by
  obtain ⟨hfirst, hrest⟩ := List.nodup_cons.mp h
  have hne : t₀.line ≠ u.line := fun heq =>
    hfirst (List.mem_map.mpr ⟨a, ha, hline.symm.trans heq⟩)
  rw [afterDrag, if_neg hne, withDurations_of_mem hrest ha hline]

theorem afterDrag_of_not_mem {u : Plan.Task} {ancestors : List Plan.Task} {t₀ : Outline.Task}
    (h : t₀.line ∉ u.line :: ancestors.map (·.line)) : afterDrag u ancestors t₀ = t₀ := by
  rw [List.mem_cons, not_or] at h
  rw [afterDrag, if_neg h.1, withDurations_of_not_mem h.2]

/-! ## One drag -/

/-- What belongs to a session that has loaded something. -/
theorem Sound.exists_loaded {d : Desk} (h : d.session.Sound) {id : String}
    {found : Plan.Task × Plan.Project} (hfound : d.session.task? id = some found) :
    ∃ (o : Outline) (path : String), d.session.path = some path
      ∧ Outline.read d.session.text d.session.today = .ok o
      ∧ d.session.projects = (Plan.ofOutline o).projects ∧ '\r' ∉ d.session.text.toList := by
  obtain ⟨l, hl⟩ := loaded_of_task? hfound
  obtain ⟨path, hpath⟩ := Option.isSome_iff_exists.mp (h.path (by rw [hl]; rfl))
  have hsound := h.loaded l hl
  have htext : d.session.text = l.text := by
    rw [text, hl]
    rfl
  refine ⟨l.outline, path, hpath, htext ▸ hsound.outline, ?_, htext ▸ hsound.unix⟩
  rw [projects, hl, Option.map_some, Option.getD_some, hsound.plan]

/-- The session has loaded a text of canonical task lines, which stands for the outline. -/
structure Loads (d : Desk) (o : Outline) : Prop where
  sound : d.session.Sound
  clean : Outline.Clean d.session.text
  read : Outline.read d.session.text d.session.today = .ok o
  projects : d.session.projects = (Plan.ofOutline o).projects

theorem exists_loads {d : Desk} (h : d.session.Sound) (hc : Outline.Canonical d.session.text)
    {id : String} {found : Plan.Task × Plan.Project} (hfound : d.session.task? id = some found) :
    ∃ o, Loads d o := by
  obtain ⟨o, -, -, hread, hprojects, hunix⟩ := h.exists_loaded hfound
  exact ⟨o, h, ⟨hunix, Outline.exists_read_iff.mp ⟨o, hread⟩, hc⟩, hread, hprojects⟩

/-- Desk `d'` has the outline of desk `d` with `f` done to each task line. -/
structure Rewrites (d d' : Desk) (o o' : Outline) (f : Outline.Task → Outline.Task) : Prop where
  loads : Loads d' o'
  seats : d'.session.projects.map Plan.Project.seats = d.session.projects.map Plan.Project.seats
  holds : ∀ t₀, Outline.Holds d.session.text t₀ → Outline.Holds d'.session.text (f t₀)
  start : o'.start = o.start
  tasks : o'.projects.map (·.tasks) = o.projects.map fun p => p.tasks.map f

/-- Desk `d'` comes of a drag on desk `d` that has left the task at `u`, below `ancestors`. -/
structure Rewritten (d d' : Desk) (o o' : Outline) (u : Plan.Task) (ancestors : List Plan.Task) :
    Prop extends Rewrites d d' o o' (afterDrag u ancestors) where
  log : d'.session.history = d.session.history
  today : d'.session.today = d.session.today
  path : d'.session.path = d.session.path
  file : d'.disk.node = .file (.text d'.session.text) d'.disk.clock
  dated : Outline.Dated d.session.text d'.session.text (u.line :: ancestors.map (·.line))

theorem Loads.mem {d : Desk} {o : Outline} (h : Loads d o) {id : String} {t : Plan.Task}
    {p : Plan.Project} (htask : d.session.task? id = some (t, p)) :
    p ∈ (Plan.ofOutline o).projects ∧ t ∈ p.tasks ∧ t.id = id := by
  rw [← h.projects]
  exact (task?_eq_some_iff h.sound).mp htask

section

variable {d : Desk} {o : Outline} (h : Loads d o) {drag : Plan.Drag} {t u : Plan.Task}
  {p : Plan.Project} (htask : d.session.task? drag.task = some (t, p))

include h htask

theorem Loads.dragged_eq : (d.session.preview drag).task = (p.drag t drag).tasks[t.index]? := by
  obtain ⟨hp, ht, hid⟩ := h.mem htask
  rw [preview, h.projects]
  exact (Plan.drag_of_mem (Plan.distinct_ofOutline (Outline.lines_sorted h.read)) hp ht hid).1

/-- What is written and read back again is known, whatever the drag. -/
theorem Loads.rewritten (hu : (p.drag t drag).tasks[t.index]? = some u) (hfits : Text.Fits u.duration)
    {text path : String} {disk : Disk}
    (htext : draggedText d.session.text (d.session.preview drag) u = .ok text)
    (hwrite : d.disk.write path text = .ok disk) {o' : Outline}
    (hread : Outline.read (Text.unix text) d.session.today = .ok o')
    (hok : (applyDrag drag).on d = (.ok (some (t, u)),
      { session := d.session.withLoaded (Text.unix text) disk.clock o', disk := disk })) :
    Rewritten d { session := d.session.withLoaded (Text.unix text) disk.clock o', disk := disk } o o'
      u ((p.drag t drag).ancestors u) := by
  obtain ⟨hp, ht, hid⟩ := h.mem htask
  have hsteady := steady_applyDrag h.sound drag
  have hsound := keeps_applyDrag soundAt_store drag d h.sound
  rw [hok] at hsteady hsound
  have hshape := draggedText_shape h.clean.unix htext
  have hunix : Text.unix text = text := Text.unix_of_not_mem hshape.unix
  rw [hunix] at hread hsteady hsound ⊢
  obtain ⟨-, text', htext', hdated, hholds⟩ := draggedText_dates h.clean h.read hp ht hid hu hfits
  rw [preview, h.projects] at htext
  obtain rfl := Except.ok.inj (htext.symm.trans htext')
  obtain ⟨hstart, htasks⟩ := Outline.tasks_of_read hshape h.read hread (afterDrag_line u _) hholds
  exact
    { loads := ⟨hsound, hdated.clean, hread, rfl⟩
      log := rfl
      today := rfl
      path := rfl
      file := (Disk.read_of_write hwrite).1
      seats := hsteady.seats
      dated := (bare_of_drag h.read hp ht hu).2 ▸ hdated
      holds := hholds
      start := hstart
      tasks := htasks }

/-- A drag goes well if the duration it comes to can be written. -/
theorem Loads.exists_applyDrag (hdisk : d.disk.Writable)
    (hu : (p.drag t drag).tasks[t.index]? = some u) (hfits : Text.Fits u.duration) :
    ∃ d' o', (applyDrag drag).on d = (.ok (some (t, u)), d')
      ∧ Rewritten d d' o o' u ((p.drag t drag).ancestors u) := by
  obtain ⟨hp, ht, hid⟩ := h.mem htask
  obtain ⟨-, path, hpath, -⟩ := h.sound.exists_loaded htask
  obtain ⟨-, text, htext, hdated, -⟩ := draggedText_dates h.clean h.read hp ht hid hu hfits
  have hpreview : d.session.preview drag = Plan.drag drag (Plan.ofOutline o).projects := by
    rw [preview, h.projects]
  rw [← hpreview] at htext
  obtain ⟨disk, hwrite⟩ := hdisk path text
  obtain ⟨o', hread⟩ : ∃ o', Outline.read (Text.unix text) d.session.today = .ok o' := by
    rw [Text.unix_of_not_mem hdated.clean.unix]
    exact Outline.exists_read_iff.mpr hdated.clean.readable
  have hok := on_applyDrag_of htask ((h.dragged_eq htask).trans hu) htext hpath hwrite hread
  exact ⟨_, o', hok, h.rewritten htask hu hfits htext hwrite hread hok⟩

/-- What a drag has come to if it has gone well. -/
theorem Loads.rewritten_of_applyDrag {d' : Desk}
    (hok : (applyDrag drag).on d = (.ok (some (t, u)), d')) :
    (p.drag t drag).tasks[t.index]? = some u
      ∧ ∃ o', Rewritten d d' o o' u ((p.drag t drag).ancestors u) := by
  obtain ⟨-, text, path, disk, o', -, hafter, htext, -, hwrite, hread, rfl⟩ := applyDrag_eq_ok hok
  have hu := (h.dragged_eq htask).symm.trans hafter
  refine ⟨hu, o', h.rewritten htask hu ?_ htext hwrite hread hok⟩
  -- the duration is on the line of the task, so it could be written
  obtain ⟨hp, ht, hid⟩ := h.mem htask
  have hsettled := Plan.settled_of_mem (lasting_of_read h.read) hp
  have hpos := (Plan.settled_drag hsettled ht drag).tasks.lasting u (List.mem_of_getElem? hu)
  obtain ⟨k, p₀, t₀, -, hp₀, ht₀, -, -, -, -, hline⟩ := Plan.exists_place hp ht
  have hline' : u.line = t₀.line := (congrArg (·.line) (bare_of_drag h.read hp ht hu).1).trans hline
  obtain ⟨next, hnext, -⟩ := Outline.bind_eq_ok htext
  exact Outline.fits_of_patchLine
    (Outline.exists_line h.read (List.mem_of_getElem? hp₀) (List.mem_of_getElem? ht₀))
    (Outline.renderChanged_dates t₀ (some u.start) hpos) (hline' ▸ hnext)

/-- A commit goes well under the same condition. -/
theorem Loads.exists_commit (hdisk : d.disk.Writable)
    (hu : (p.drag t drag).tasks[t.index]? = some u) (hfits : Text.Fits u.duration) :
    ∃ t₁ d' o', (commit drag).on d = (.ok (some t₁), recorded d' (dragAction drag t u))
      ∧ Rewritten d d' o o' u ((p.drag t drag).ancestors u) := by
  obtain ⟨hp, ht, -⟩ := h.mem htask
  obtain ⟨d', o', happly, hnew⟩ := h.exists_applyDrag htask hdisk hu hfits
  obtain ⟨p', hp', -, t', ht', hbare⟩ := exists_seated hnew.seats (h.projects ▸ hp) ht
  have honline : d'.session.taskOnLine? t.line = some t' :=
    (taskOnLine?_eq_some_iff hnew.loads.sound).mpr ⟨p', hp', ht', congrArg (·.line) hbare⟩
  refine ⟨t', d', o', ?_, hnew⟩
  rw [on_commit, happly]
  simp only [honline]

end

/-! ## A house -/

namespace Sample

/-- A house whose roof waits for its walls. -/
def houseLines : List Outline.Task := [
  { level := 1, title := "Walls", duration := 2, line := 2 },
  { level := 2, title := "North", duration := 1, line := 3 },
  { level := 2, title := "South", duration := 1, line := 4 },
  { level := 1, title := "Roof", duration := 1, dependencies := [1], line := 5 }]

def houseBlock : Outline.Project := { name := "House", line := 1, tasks := houseLines }

def house : Outline := ⟨monday, [houseBlock]⟩

def houseText : String := "## House\n> Walls (2)\n>> North (1)\n>> South (1)\n> Roof (1) @after:1"

def walls : Plan.Task where
  level := 1
  title := "Walls"
  duration := 2
  line := 2
  id := "project-0-task-0"
  projectId := "project-0"
  index := 0
  start := monday
  finish := monday.shift 2
  children := [1, 2]

def north : Plan.Task where
  level := 2
  title := "North"
  duration := 1
  line := 3
  id := "project-0-task-1"
  projectId := "project-0"
  index := 1
  start := monday
  finish := monday.shift 1
  parent := some 0

def south : Plan.Task where
  level := 2
  title := "South"
  duration := 1
  line := 4
  id := "project-0-task-2"
  projectId := "project-0"
  index := 2
  start := monday.shift 1
  finish := monday.shift 2
  parent := some 0

def roof : Plan.Task where
  level := 1
  title := "Roof"
  duration := 1
  dependencies := [1]
  line := 5
  id := "project-0-task-3"
  projectId := "project-0"
  index := 3
  start := monday.shift 2
  finish := monday.shift 3

def houseProject : Plan.Project where
  id := "project-0"
  name := "House"
  icon := "📁"
  note := none
  line := 1
  start := monday
  finish := monday.shift 3
  tasks := [walls, north, south, roof]

theorem read_houseText : Outline.read houseText monday = .ok house := by decide +kernel

theorem projects_house : (Plan.ofOutline house).projects = [houseProject] := by cbv

def houseDesk : Desk where
  session :=
    { today := monday
      path := some "roadmap.md"
      loaded := some ⟨houseText, 1000000, house, Plan.ofOutline house, ""⟩ }
  disk := ⟨.file (.text houseText) 1000000, 1000000⟩

theorem start_house : (start "roadmap.md" false).on ⟨{ today := monday }, houseDesk.disk⟩
    = (.ok (), houseDesk) := on_start_of_read false rfl read_houseText

theorem reachable_house : houseDesk.Reachable := by
  have hstep := Desk.Reachable.step (.start "roadmap.md" false) (.fresh monday "" houseDesk.disk)
  rw [Operation.perform, start_house] at hstep
  exact hstep

theorem loads_house : Loads houseDesk house := by
  have hcanonical : Outline.Canonical houseText := by decide +kernel
  exact ⟨reachable_house.sound, ⟨by decide +kernel, Outline.exists_read_iff.mp ⟨_, read_houseText⟩,
    hcanonical⟩, read_houseText, rfl⟩

theorem writable_house : houseDesk.disk.Writable := Disk.writable_of_file rfl

/-- Looking up a task of the house. -/
theorem task?_house {id : String} {t : Plan.Task}
    (h : houseProject.tasks.find? (·.id == id) = some t) :
    houseDesk.session.task? id = some (t, houseProject) := by
  show (Plan.ofOutline house).projects.findSome? _ = _
  rw [projects_house, List.findSome?_cons, Plan.Project.find?, h]
  rfl

/-- The northern wall a week later. -/
def northDrag : Plan.Drag := ⟨"project-0-task-1", later, none⟩

def northLater : Plan.Task :=
  { north with start := later, finish := later.shift 1, explicitStart := some later }

theorem drag_north : (houseProject.drag north northDrag).tasks[1]? = some northLater := by cbv

end Sample

end Session

end Roadmap
