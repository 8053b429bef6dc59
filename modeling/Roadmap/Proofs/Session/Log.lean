import Roadmap.Proofs.Plan.Untouched
import Roadmap.Proofs.Session.Reachable

/-!
# The log names the tasks it was written for

An action notes down a task by its id and by its line. Both stay right for as long as the action is
in the log. What an edit of a task writes has lines of the same shapes as before, so tasks keep
their seats (`Steady`), whatever else becomes of them and whether the edit succeeds or fails. Only
rearranging the lines can move a task, and that empties the log.

So taking an action back or repeating it always acts on the task that the action was recorded for
(`ActsOnTask`): that task is dragged, or the drag fails with a fault of its own. It never comes to a
line without a task.
-/

namespace Roadmap.Session

open Work

/-! ## Looking up -/

theorem Sound.distinct {s : Session} (h : s.Sound) : Plan.Distinct s.projects := by
  rw [projects]
  cases hl : s.loaded with
  | none =>
      exact ⟨List.Pairwise.nil, by rintro p ⟨⟩, by rintro p ⟨⟩⟩
  | some l =>
      have hsound := h.loaded l hl
      rw [Option.map_some, Option.getD_some, hsound.plan]
      exact Plan.distinct_ofOutline (Outline.lines_sorted hsound.outline)

theorem task?_eq_some_iff {s : Session} (h : s.Sound) {id : String} {t : Plan.Task}
    {p : Plan.Project} :
    s.task? id = some (t, p) ↔ p ∈ s.projects ∧ t ∈ p.tasks ∧ t.id = id := by
  rw [← beq_iff_eq (a := t.id)]
  refine Plan.findSome?_eq_some_iff (q := (·.id == id)) fun p hp q hq s hs t ht hsid htid => ?_
  exact h.distinct.id p hp q hq s hs t ht ((beq_iff_eq.mp hsid).trans (beq_iff_eq.mp htid).symm)

theorem taskOnLine?_eq_some_iff {s : Session} (h : s.Sound) {line : Int} {t : Plan.Task} :
    s.taskOnLine? line = some t ↔ ∃ p ∈ s.projects, t ∈ p.tasks ∧ t.line = line := by
  have hpair : s.taskOnLine? line = (s.projects.findSome? fun p =>
      (p.tasks.find? (·.line == line)).map fun t => (t, p)).map Prod.fst := by
    rw [List.map_findSome?, taskOnLine?]
    congr 1
    funext p
    rw [Function.comp_apply, Option.map_map]
    exact Option.map_id'.symm
  have hone : ∀ p ∈ s.projects, ∀ p' ∈ s.projects, ∀ t ∈ p.tasks, ∀ t' ∈ p'.tasks,
      (t.line == line) = true → (t'.line == line) = true → p = p' ∧ t = t' :=
    fun p hp q hq t ht t' ht' hline hline' => h.distinct.line p hp q hq t ht t' ht'
      ((beq_iff_eq.mp hline).trans (beq_iff_eq.mp hline').symm)
  rw [hpair, Option.map_eq_some_iff]
  constructor
  · rintro ⟨⟨t, p⟩, hfind, rfl⟩
    obtain ⟨hp, ht, hline⟩ := (Plan.findSome?_eq_some_iff hone).mp hfind
    exact ⟨p, hp, ht, beq_iff_eq.mp hline⟩
  · rintro ⟨p, hp, ht, hline⟩
    exact ⟨(t, p), (Plan.findSome?_eq_some_iff hone).mpr ⟨hp, ht, beq_iff_eq.mpr hline⟩, rfl⟩

/-! ## Edits of tasks -/

/-- The tasks sit where they sat before, and the log is the same. -/
structure Steady (d d' : Desk) : Prop where
  seats : d'.session.projects.map Plan.Project.seats = d.session.projects.map Plan.Project.seats
  log : d'.session.history = d.session.history

theorem Steady.refl (d : Desk) : Steady d d := ⟨rfl, rfl⟩

/-- Where there are tasks, something is loaded. -/
theorem loaded_of_task? {s : Session} {id : String} {found : Plan.Task × Plan.Project}
    (h : s.task? id = some found) : ∃ l, s.loaded = some l := by
  cases hl : s.loaded with
  | none =>
      rw [task?, projects, hl] at h
      cases h
  | some l => exact ⟨l, rfl⟩

/-- A text of the same shape keeps the tasks in their seats, also if it cannot be written or read
back. -/
theorem steady_store {d : Desk} (hs : d.session.Sound) {l : Loaded}
    (hl : d.session.loaded = some l) {text : String} (hshape : Outline.SameShape l.text text) :
    Steady d ((store text).on d).2 := by
  have hstored := stored_store text d
  generalize (store text).on d = outcome at hstored
  obtain ⟨r, d'⟩ := outcome
  cases hstored with
  | refused => exact .refl _
  | unreadable => exact ⟨rfl, rfl⟩
  | loaded path disk o hpath hwrite hread =>
      have hsound := hs.loaded l hl
      rw [Text.unix_of_not_mem hshape.unix] at hread
      refine ⟨?_, rfl⟩
      rw [projects, projects, hl, Option.map_some, Option.getD_some, hsound.plan]
      exact (Plan.seats_ofOutline (Outline.bare_of_shapes hshape.shape.symm hsound.outline hread)).symm

theorem oneLine_dates (start : Option Date) (duration : Int) :
    ∀ c ∈ [Outline.Change.start start, .duration duration], c.OneLine := by
  intro c hc
  simp only [List.mem_cons, List.not_mem_nil, or_false] at hc
  rcases hc with rfl | rfl
  · trivial
  · trivial

theorem writeDurations_shape {text text' : String} {tasks : List Plan.Task}
    (hunix : '\r' ∉ text.toList) (h : writeDurations text tasks = .ok text') :
    Outline.SameShape text text' := by
  induction tasks generalizing text with
  | nil =>
      cases h
      exact ⟨hunix, rfl, rfl⟩
  | cons t tasks ih =>
      obtain ⟨next, hnext, h⟩ := Outline.bind_eq_ok h
      have hstep := Outline.patchLine_shape hunix (fun c hc => by
        rw [List.mem_singleton.mp hc]
        trivial) hnext
      exact hstep.trans (ih hstep.unix h)

theorem draggedText_shape {text text' : String} {after : Plan.Dragged} {t : Plan.Task}
    (hunix : '\r' ∉ text.toList) (h : draggedText text after t = .ok text') :
    Outline.SameShape text text' := by
  obtain ⟨next, hnext, h⟩ := Outline.bind_eq_ok h
  have hstep := Outline.patchLine_shape hunix (oneLine_dates _ _) hnext
  split at h
  · exact hstep.trans (writeDurations_shape hstep.unix h)
  · cases h
    exact hstep

theorem steady_applyDrag {d : Desk} (hs : d.session.Sound) (drag : Plan.Drag) :
    Steady d ((applyDrag drag).on d).2 := by
  rw [on_applyDrag]
  cases htask : d.session.task? drag.task with
  | none => exact .refl d
  | some found =>
      obtain ⟨l, hl⟩ := loaded_of_task? htask
      have htext : d.session.text = l.text := by
        rw [text, hl]
        rfl
      simp only
      split
      · exact .refl d
      · split
        · exact .refl d
        · next text heq =>
            rw [htext] at heq
            have hsteady := steady_store hs hl (draggedText_shape (hs.loaded l hl).unix heq)
            rcases hstore : (store text).on d with ⟨f | _, d'⟩
            · rwa [hstore] at hsteady
            · rwa [hstore] at hsteady

/-! ## The log -/

/-- The line of the action holds the task that the action names. -/
def Names (s : Session) (a : Action) : Prop :=
  ∃ p ∈ s.projects, ∃ t ∈ p.tasks, t.line = a.line ∧ t.id = a.task

/-- All actions of the log name the tasks on their lines. -/
def Right (s : Session) : Prop :=
  ∀ a, a ∈ s.history.undoable ∨ a ∈ s.history.redoable → s.Names a

/-- The task that sits where another one sits. -/
theorem exists_seated {s s' : Session}
    (h : s'.projects.map Plan.Project.seats = s.projects.map Plan.Project.seats)
    {p : Plan.Project} (hp : p ∈ s.projects) {t : Plan.Task} (ht : t ∈ p.tasks) :
    ∃ p' ∈ s'.projects, p'.tasks.map Plan.Task.bare = p.tasks.map Plan.Task.bare
      ∧ ∃ t' ∈ p'.tasks, t'.bare = t.bare := by
  have hseats : p.seats ∈ s'.projects.map Plan.Project.seats := by
    rw [h]
    exact List.mem_map_of_mem hp
  obtain ⟨p', hp', heq⟩ := List.mem_map.mp hseats
  have htasks : p'.tasks.map Plan.Task.bare = p.tasks.map Plan.Task.bare := congrArg Prod.snd heq
  have hbare : t.bare ∈ p'.tasks.map Plan.Task.bare := by
    rw [htasks]
    exact List.mem_map_of_mem ht
  exact ⟨p', hp', htasks, List.mem_map.mp hbare⟩

theorem names_of_seats {s s' : Session}
    (h : s'.projects.map Plan.Project.seats = s.projects.map Plan.Project.seats) {a : Action}
    (ha : s.Names a) : s'.Names a := by
  obtain ⟨p, hp, t, ht, hline, hid⟩ := ha
  obtain ⟨p', hp', -, t', ht', hbare⟩ := exists_seated h hp ht
  have hline' : t'.line = t.line := congrArg (·.line) hbare
  have hid' : t'.id = t.id := congrArg (·.id) hbare
  exact ⟨p', hp', t', ht', hline'.trans hline, hid'.trans hid⟩

theorem Right.steady {d d' : Desk} (h : d.session.Right) (hsteady : Steady d d') :
    d'.session.Right := by
  intro a ha
  rw [hsteady.log] at ha
  exact names_of_seats hsteady.seats (h a ha)

theorem mem_retain {limit : Int} {actions : List Action} {a : Action}
    (h : a ∈ History.retain limit actions) : a ∈ actions := by
  rw [History.retain] at h
  split at h
  · exact List.mem_of_mem_drop h
  · exact List.mem_of_mem_drop h

theorem Right.recorded {d : Desk} (h : d.session.Right) {a : Action} (ha : d.session.Names a) :
    (recorded d a).session.Right := by
  rintro b (hb | hb)
  · rcases List.mem_append.mp (mem_retain hb) with hb | hb
    · exact h b (.inl hb)
    · rw [List.mem_singleton.mp hb]
      exact ha
  · cases hb

/-- The task that an operation has looked up is what it notes down. -/
theorem names_of_task? {s : Session} (hs : s.Sound) {id : String} {t : Plan.Task}
    {p : Plan.Project} (h : s.task? id = some (t, p)) {a : Action} (hline : a.line = t.line)
    (htask : a.task = id) : s.Names a := by
  obtain ⟨hp, ht, hid⟩ := (task?_eq_some_iff hs).mp h
  exact ⟨p, hp, t, ht, hline.symm, hid.trans htask.symm⟩

theorem task?_of_applyDrag {d d' : Desk} {drag : Plan.Drag} {before after : Plan.Task}
    (h : (applyDrag drag).on d = (.ok (some (before, after)), d')) :
    ∃ p, d.session.task? drag.task = some (before, p) := by
  obtain ⟨p, -, -, -, -, hbefore, -⟩ := applyDrag_eq_ok h
  exact ⟨p, hbefore⟩

theorem right_commit {d : Desk} (hs : d.session.Sound) (h : d.session.Right) (drag : Plan.Drag) :
    ((commit drag).on d).2.session.Right := by
  have hsteady := steady_applyDrag hs drag
  rw [on_commit]
  rcases happly : (applyDrag drag).on d with ⟨f | _ | ⟨before, after⟩, d'⟩
  all_goals rw [happly] at hsteady
  · exact h.steady hsteady
  · exact h.steady hsteady
  · obtain ⟨p, htask⟩ := task?_of_applyDrag happly
    exact (h.steady hsteady).recorded
      (names_of_seats hsteady.seats (names_of_task? hs htask rfl rfl))

theorem right_update {d : Desk} (hs : d.session.Sound) (h : d.session.Right) (id : String)
    {changes : List Outline.Change} (hc : ∀ c ∈ changes, c.OneLine) :
    ((update id changes).on d).2.session.Right := by
  rw [on_update]
  cases htask : d.session.task? id with
  | none => exact h
  | some found =>
      obtain ⟨before, p⟩ := found
      obtain ⟨l, hl⟩ := loaded_of_task? htask
      have htext : d.session.text = l.text := by
        rw [text, hl]
        rfl
      have hnames := names_of_task? hs htask (a := editAction id before before) rfl rfl
      simp only
      split
      · exact h
      · next text heq =>
          rw [htext] at heq
          have hsteady := steady_store hs hl
            (Outline.patchLine_shape (hs.loaded l hl).unix hc heq)
          rcases hstore : (store text).on d with ⟨f | _, d'⟩
          all_goals rw [hstore] at hsteady
          · exact h.steady hsteady
          · simp only
            cases d'.session.taskOnLine? before.line with
            | none => exact h.steady hsteady
            | some after =>
                simp only
                split
                · exact (h.steady hsteady).recorded (names_of_seats hsteady.seats hnames)
                · exact h.steady hsteady

theorem right_call {d : Desk} (h : d.session.Right) (c : Outline.EditCall) :
    ((call c).on d).2.session.Right := by
  rw [on_call]
  split
  · exact h
  · exact h
  · next e _ =>
      rw [on_edit]
      split
      · exact h
      · have hstored := stored_store (e.apply d.session.text) d
        rcases hstore : (store (e.apply d.session.text)).on d with ⟨f | _, d'⟩
        · rw [hstore] at hstored
          cases hstored with
          | refused => exact h
          | unreadable => exact h
        · rintro a (ha | ha)
          · cases ha
          · cases ha

theorem steady_restore {d : Desk} (hs : d.session.Sound) (a : Action) (p : Placement) :
    Steady d ((restore a p).on d).2 := by
  rw [on_restore]
  split
  · exact .refl d
  · next t _ =>
      have hsteady := steady_applyDrag hs
        { task := t.id, start := p.start, duration := some p.duration }
      rcases happly : (applyDrag
        { task := t.id, start := p.start, duration := some p.duration }).on d with ⟨f | _, d'⟩
      · rwa [happly] at hsteady
      · rwa [happly] at hsteady

/-- A move of the log brings no new actions. -/
theorem right_replay {d : Desk} (hs : d.session.Sound) (h : d.session.Right)
    {move : History → History × Option Action}
    (hmove : ∀ log, (move log).1.limit = log.limit ∧ ∀ a,
      a ∈ (move log).1.undoable ∨ a ∈ (move log).1.redoable →
        a ∈ log.undoable ∨ a ∈ log.redoable)
    (aim : Action → Placement) : ((replay move aim).on d).2.session.Right := by
  rw [on_replay]
  obtain ⟨hlimit, hmem⟩ := hmove d.session.history
  rcases hlog : move d.session.history with ⟨log, _ | a⟩
  all_goals
    rw [hlog] at hlimit hmem
    have hright : (withHistory d log).session.Right := fun a ha => h a (hmem a ha)
  · exact hright
  · have hsteady := steady_restore (d := withHistory d log)
      ⟨hs.loaded, hs.path, hlimit.trans hs.limit⟩ a (aim a)
    simp only
    rcases hrestore : (restore a (aim a)).on (withHistory d log) with ⟨f | _, d'⟩
    · rw [hrestore] at hsteady
      exact hright.steady hsteady
    · rw [hrestore] at hsteady
      exact hright.steady hsteady

theorem undo_moves (log : History) : log.undo.1.limit = log.limit ∧ ∀ a,
    a ∈ log.undo.1.undoable ∨ a ∈ log.undo.1.redoable → a ∈ log.undoable ∨ a ∈ log.redoable := by
  refine ⟨log.limit_undo, fun a ha => ?_⟩
  rw [History.undo] at ha
  split at ha
  · exact ha
  · next last hlast =>
      rcases ha with ha | ha
      · exact .inl (List.mem_of_mem_dropLast ha)
      · rcases List.mem_append.mp ha with ha | ha
        · exact .inr ha
        · rw [List.mem_singleton.mp ha]
          exact .inl (List.mem_of_mem_getLast? hlast)

theorem redo_moves (log : History) : log.redo.1.limit = log.limit ∧ ∀ a,
    a ∈ log.redo.1.undoable ∨ a ∈ log.redo.1.redoable → a ∈ log.undoable ∨ a ∈ log.redoable := by
  refine ⟨log.limit_redo, fun a ha => ?_⟩
  rw [History.redo] at ha
  split at ha
  · exact ha
  · next last hlast =>
      rcases ha with ha | ha
      · rcases List.mem_append.mp ha with ha | ha
        · exact .inl ha
        · rw [List.mem_singleton.mp ha]
          exact .inr (List.mem_of_mem_getLast? hlast)
      · exact .inr (List.mem_of_mem_dropLast ha)

/-! ## Runs -/

/-- The operation edits the outline, or goes back or forth in the log. No text that it is given for
a field holds a line end. -/
def Operation.IsWork : Operation → Prop
  | commit _ => True
  | update _ changes => ∀ c ∈ changes, c.OneLine
  | edit _ => True
  | undo => True
  | redo => True
  | _ => False

/-- The desks that come of a session that has started and then worked. Between two operations the
file may become one that cannot be written, or can be again. -/
inductive Worked : Desk → Prop
  | started {path : String} {create : Bool} {today : Date} {stamp : String} {disk : Disk} {d : Desk}
      (h : (start path create).on ⟨{ today := today, stamp := stamp }, disk⟩ = (.ok (), d)) :
      Worked d
  | outside {d : Desk} (node : Node) :
      Worked d → Worked { d with disk := { d.disk with node := node } }
  | step {d : Desk} {o : Operation} (ho : o.IsWork) : Worked d → Worked (o.perform.on d).2

theorem Worked.reachable {d : Desk} (h : Worked d) : d.Reachable := by
  induction h with
  | @started path create today stamp disk d h =>
      have hstep := Desk.Reachable.step (.start path create) (.fresh today stamp disk)
      rw [Operation.perform, h] at hstep
      exact hstep
  | outside node _ ih => exact ih.outside node
  | step _ _ ih => exact ih.step _

theorem right_perform {d : Desk} (hs : d.session.Sound) (h : d.session.Right) {o : Operation}
    (ho : o.IsWork) : (o.perform.on d).2.session.Right := by
  cases o with
  | commit drag =>
      rw [Operation.perform, on_quiet]
      exact right_commit hs h drag
  | update id changes =>
      rw [Operation.perform, on_quiet]
      exact right_update hs h id ho
  | edit call =>
      rw [Operation.perform, on_quiet]
      exact right_call h call
  | undo =>
      rw [Operation.perform, on_quiet]
      exact right_replay hs h undo_moves Action.before
  | redo =>
      rw [Operation.perform, on_quiet]
      exact right_replay hs h redo_moves Action.after
  | _ => exact ho.elim

theorem Worked.right {d : Desk} (h : Worked d) : d.session.Right := by
  induction h with
  | @started path create today stamp disk d h =>
      have hlog := history_start path create ⟨{ today := today, stamp := stamp }, disk⟩
      rw [h] at hlog
      rintro a (ha | ha)
      · rw [hlog] at ha
        cases ha
      · rw [hlog] at ha
        cases ha
  | outside node _ ih => exact ih
  | step ho hworked ih => exact right_perform hworked.reachable.sound ih ho

/-- An action that names the task on its line can be looked up either way. -/
theorem Right.exists_onLine {s : Session} (h : s.Right) (hs : s.Sound) {a : Action}
    (ha : a ∈ s.history.undoable ∨ a ∈ s.history.redoable) :
    ∃ t p, s.taskOnLine? a.line = some t ∧ t.id = a.task ∧ s.task? a.task = some (t, p) := by
  obtain ⟨p, hp, t, ht, hline, hid⟩ := h a ha
  exact ⟨t, p, (taskOnLine?_eq_some_iff hs).mpr ⟨p, hp, ht, hline⟩, hid,
    (task?_eq_some_iff hs).mpr ⟨hp, ht, hid⟩⟩

/-! ## Taking back and repeating -/

theorem mem_of_undo {h log : History} {a : Action} (hundo : h.undo = (log, some a)) :
    a ∈ h.undoable := by
  rw [History.undo] at hundo
  split at hundo
  · cases hundo
  · next hlast =>
      cases hundo
      exact List.mem_of_mem_getLast? hlast

theorem mem_of_redo {h log : History} {a : Action} (hredo : h.redo = (log, some a)) :
    a ∈ h.redoable := by
  rw [History.redo] at hredo
  split at hredo
  · cases hredo
  · next hlast =>
      cases hredo
      exact List.mem_of_mem_getLast? hlast

theorem Sound.seated {s : Session} (h : s.Sound) : Plan.Seated s.projects := by
  rw [projects]
  cases hl : s.loaded with
  | none => exact fun k p hp => nomatch hp
  | some l =>
      rw [Option.map_some, Option.getD_some, (h.loaded l hl).plan]
      exact Plan.seated_ofOutline l.outline

/-- A drag of a task that there is never comes to nothing. -/
theorem applyDrag_of_task {d d' : Desk} (hs : d.session.Sound) {drag : Plan.Drag} {t : Plan.Task}
    {p : Plan.Project} (htask : d.session.task? drag.task = some (t, p))
    {applied : Option (Plan.Task × Plan.Task)}
    (h : (applyDrag drag).on d = (.ok applied, d')) :
    ∃ u, u.id = drag.task ∧ applied = some (t, u) := by
  obtain ⟨hp, ht, hid⟩ := (task?_eq_some_iff hs).mp htask
  obtain ⟨u, hu, huid, -⟩ := hs.seated.task_drag hp ht hid
  have hpreview : (d.session.preview drag).task = some u := hu
  rw [on_applyDrag, htask] at h
  simp only [hpreview] at h
  split at h
  · cases h
  · split at h
    · cases h
      exact ⟨u, huid, rfl⟩
    · cases h

/-- The drag that puts the task which an action names at a placement. -/
def dragOf (a : Action) (q : Placement) : Plan.Drag where
  task := a.task
  start := q.start
  duration := some q.duration

/-- What can come of an action that is taken back or repeated on a desk: the task that it names, on
the line that it notes down, is dragged to a placement, and the action is the answer; or the drag
fails with a fault. -/
inductive ActsOnTask (d : Desk) (a : Action) (q : Placement) :
    Except Fault (Option Action) × Desk → Prop
  | dragged {t u : Plan.Task} {d' : Desk} (hline : t.line = a.line) (hbefore : t.id = a.task)
      (hafter : u.id = a.task)
      (hdrag : (applyDrag (dragOf a q)).on d = (.ok (some (t, u)), d')) :
      ActsOnTask d a q (.ok (some a), d')
  | failed {f : Fault} {d' : Desk}
      (hdrag : (applyDrag (dragOf a q)).on d = (.error f, d')) : ActsOnTask d a q (.error f, d')

/-- The log goes on, and then the task is dragged that the action names. -/
theorem actsOnTask_replay {move : History → History × Option Action} {d : Desk}
    (hs : d.session.Sound) {log : History} {a : Action} (hnames : d.session.Names a)
    (hlimit : log.limit = d.session.history.limit)
    (hmove : move d.session.history = (log, some a)) (aim : Action → Placement) :
    ActsOnTask (withHistory d log) a (aim a) ((replay move aim).on d) := by
  obtain ⟨p, hp, t, ht, hline, hid⟩ := hnames
  have honline : (withHistory d log).session.taskOnLine? a.line = some t :=
    (taskOnLine?_eq_some_iff hs).mpr ⟨p, hp, ht, hline⟩
  have htask : (withHistory d log).session.task? a.task = some (t, p) :=
    (task?_eq_some_iff hs).mpr ⟨hp, ht, hid⟩
  have hsound : (withHistory d log).session.Sound := ⟨hs.loaded, hs.path, hlimit.trans hs.limit⟩
  have hdrag : ({ task := t.id, start := (aim a).start, duration := some (aim a).duration } :
      Plan.Drag) = dragOf a (aim a) := by
    rw [hid]
    rfl
  rw [on_replay, hmove]
  simp only [on_restore, honline, hdrag]
  rcases happly : (applyDrag (dragOf a (aim a))).on (withHistory d log) with ⟨f | applied, d'⟩
  · exact .failed happly
  · obtain ⟨u, huid, rfl⟩ := applyDrag_of_task hsound htask happly
    exact .dragged hline hid huid happly

/-- Whatever a session has been asked for, and whether it worked out or not: each action of its log
is on a line that holds the task which the action names. So undo and redo drag the task that the
last action was recorded for, or fail as its drag does. -/
theorem names_of_worked {d : Desk} (h : Worked d) :
    (∀ a, a ∈ d.session.history.undoable ∨ a ∈ d.session.history.redoable →
        ∃ t p, d.session.taskOnLine? a.line = some t ∧ t.id = a.task
          ∧ d.session.task? a.task = some (t, p))
      ∧ (∀ log a, d.session.history.undo = (log, some a) →
        ActsOnTask (withHistory d log) a a.before (undo.on d))
      ∧ ∀ log a, d.session.history.redo = (log, some a) →
        ActsOnTask (withHistory d log) a a.after (redo.on d) := by
  have hs := h.reachable.sound
  refine ⟨fun a ha => h.right.exists_onLine hs ha, fun log a hundo => ?_, fun log a hredo => ?_⟩
  · have hlimit : log.limit = d.session.history.limit := by
      rw [← d.session.history.limit_undo, hundo]
    rw [undo_eq_replay]
    exact actsOnTask_replay hs (h.right a (.inl (mem_of_undo hundo))) hlimit hundo Action.before
  · have hlimit : log.limit = d.session.history.limit := by
      rw [← d.session.history.limit_redo, hredo]
    rw [redo_eq_replay]
    exact actsOnTask_replay hs (h.right a (.inr (mem_of_redo hredo))) hlimit hredo Action.after

/-- The small session after its task was dragged, and the drag taken back. -/
theorem names_of_worked_sample : ∃ d, Worked d
    ∧ d.session.history.undo = ({ redoable := [Sample.action] }, some Sample.action)
    ∧ ActsOnTask (withHistory d { redoable := [Sample.action] }) Sample.action
        Sample.action.before (undo.on d) := by
  have hstep := Worked.step (o := .commit Sample.drag) trivial (.started Sample.start_desk)
  rw [Operation.perform, on_quiet, Sample.commit_desk] at hstep
  have hundo : ({ undoable := [Sample.action] } : History).undo
      = ({ redoable := [Sample.action] }, some Sample.action) := rfl
  exact ⟨_, hstep, hundo, (names_of_worked hstep).2.1 _ _ hundo⟩

end Roadmap.Session
