import Roadmap.Proofs.Session.Undo

/-!
# Changes from outside

A session that works keeps its tasks on their lines, so the actions of its log stay right. A file
that others have rewritten may hold other tasks on the same lines. Loading it leaves the log as it
is, and an action that is then taken back drags the task that it finds on its line.

So the log is right as long as each load finds the tasks where they were or no action to mislead
(`Tracked`). A load after which a task stands on the line of an action for another one is all that
it takes to drag the wrong task (`exists_wrong_undo`).
-/

namespace Roadmap.Session

open Work

/-- The operation loads the file as it is, or asks for that. -/
def Operation.IsLoad : Operation → Prop
  | start _ _ => True
  | reload => True
  | refresh => True
  | askRefresh => True
  | drain => True
  | _ => False

/-- The desks of sessions that load the file whenever others have rewritten it. -/
inductive Synced : Desk → Prop
  | fresh (today : Date) (stamp : String) (disk : Disk) :
      Synced ⟨{ today := today, stamp := stamp }, disk⟩
  | step {d : Desk} (o : Operation) : Synced d → Synced (o.perform.on d).2
  | outside {d : Desk} (node : Node) {o : Operation} (ho : o = .reload ∨ o = .refresh) :
      Synced d → Synced (o.perform.on { d with disk := { d.disk with node := node } }).2

theorem Synced.reachable {d : Desk} (h : Synced d) : d.Reachable := by
  induction h with
  | fresh today stamp disk => exact .fresh today stamp disk
  | step o _ ih => exact ih.step o
  | outside node _ _ ih => exact (ih.outside node).step _

/-- There is no action to take back or to repeat. -/
def Bare (h : History) : Prop := h.undoable = [] ∧ h.redoable = []

/-- The desks of sessions that work, are asked for loads, and see their file changed by others,
where each load finds the tasks in their seats or an empty log. -/
inductive Tracked : Desk → Prop
  | fresh (today : Date) (stamp : String) (disk : Disk) :
      Tracked ⟨{ today := today, stamp := stamp }, disk⟩
  | outside {d : Desk} (node : Node) :
      Tracked d → Tracked { d with disk := { d.disk with node := node } }
  | work {d : Desk} {o : Operation} (ho : o.IsWork) : Tracked d → Tracked (o.perform.on d).2
  | load {d : Desk} {o : Operation} (ho : o.IsLoad)
      (hkeep : Bare d.session.history ∨ (o.perform.on d).2.session.projects.map Plan.Project.seats
        = d.session.projects.map Plan.Project.seats) :
      Tracked d → Tracked (o.perform.on d).2

theorem Tracked.reachable {d : Desk} (h : Tracked d) : d.Reachable := by
  induction h with
  | fresh today stamp disk => exact .fresh today stamp disk
  | outside node _ ih => exact ih.outside node
  | work _ _ ih => exact ih.step _
  | load _ _ _ ih => exact ih.step _

theorem Worked.tracked {d : Desk} (h : Worked d) : Tracked d := by
  induction h with
  | @started path create today stamp disk d h =>
      have hstep := Tracked.load (o := .start path create) trivial (.inl ⟨rfl, rfl⟩)
        (.fresh today stamp disk)
      rw [Operation.perform, h] at hstep
      exact hstep
  | outside node _ ih => exact ih.outside node
  | step ho _ ih => exact ih.work ho

/-- No load touches the log. -/
theorem history_load {o : Operation} (ho : o.IsLoad) (d : Desk) :
    (o.perform.on d).2.session.history = d.session.history := by
  have hreload := keeps_history_reload d.session.history
  cases o with
  | start path create => exact history_start path create d
  | reload => exact hreload d rfl
  | refresh => exact (keeps_refresh hreload).quiet d rfl
  | askRefresh => rfl
  | drain => exact keeps_drain (fun _ _ h => h) hreload d rfl
  | _ => exact ho.elim

theorem right_load {d : Desk} (h : d.session.Right) {o : Operation} (ho : o.IsLoad)
    (hkeep : Bare d.session.history ∨ (o.perform.on d).2.session.projects.map Plan.Project.seats
      = d.session.projects.map Plan.Project.seats) : (o.perform.on d).2.session.Right := by
  have hlog := history_load ho d
  rcases hkeep with ⟨hundoable, hredoable⟩ | hseats
  · intro a ha
    rw [hlog, hundoable, hredoable] at ha
    rcases ha with ha | ha
    · cases ha
    · cases ha
  · exact h.steady ⟨hseats, hlog⟩

theorem Tracked.right {d : Desk} (h : Tracked d) : d.session.Right := by
  induction h with
  | fresh today stamp disk =>
      rintro a (ha | ha)
      · cases ha
      · cases ha
  | outside node _ ih => exact ih
  | work ho htracked ih => exact right_perform htracked.reachable.sound ih ho
  | load ho hkeep _ ih => exact right_load ih ho hkeep

/-! ## What is taken back -/

/-- The desk `d'` comes of putting the task on the line of an action at a placement. Where the line
holds no task, only the log has gone on. -/
inductive Replayed (d d' : Desk) (a : Action) (q : Placement) : Prop
  | missing (log : History) (hline : d.session.taskOnLine? a.line = none)
      (hdesk : d' = withHistory d log)
  | dragged (log : History) (t : Plan.Task) (hline : d.session.taskOnLine? a.line = some t)
      (hdesk : (applyDrag { task := t.id, start := q.start, duration := some q.duration }).quiet.on
        (withHistory d log) = (.ok (), d'))

theorem replayed_of_replay {move : History → History × Option Action} {aim : Action → Placement}
    {d d' : Desk} {a : Action} (h : (replay move aim).on d = (.ok (some a), d')) :
    Replayed d d' a (aim a) ∧ ∃ log, move d.session.history = (log, some a) := by
  rw [on_replay] at h
  split at h
  · cases h
  · next log b hmove =>
      split at h
      · cases h
      · next hrestore =>
          cases h
          refine ⟨?_, log, hmove⟩
          rw [on_restore] at hrestore
          split at hrestore
          · next hline =>
              cases hrestore
              exact .missing log hline rfl
          · next t hline =>
              refine .dragged log t hline ?_
              rw [on_quiet]
              split at hrestore
              · cases hrestore
              · next happly =>
                  cases hrestore
                  rw [happly]
                  rfl

namespace Sample

/-- What others make of the house: the roof stands on the line of the northern wall. -/
def openHouse : Outline := ⟨monday, [{
  name := "House"
  line := 1
  tasks := [{ level := 1, title := "Roof", duration := 2, line := 3 }] }]⟩

def openText : String := "## House\n\n> Roof (2)"

def openRoof : Plan.Task where
  level := 1
  title := "Roof"
  duration := 2
  line := 3
  id := "project-0-task-0"
  projectId := "project-0"
  index := 0
  start := monday
  finish := monday.shift 2

def openProject : Plan.Project where
  id := "project-0"
  name := "House"
  icon := "📁"
  note := none
  line := 1
  start := monday
  finish := monday.shift 2
  tasks := [openRoof]

theorem read_openText : Outline.read openText monday = .ok openHouse := by decide +kernel

theorem projects_openHouse : (Plan.ofOutline openHouse).projects = [openProject] := by cbv

/-- The desk after others have written that and the session has loaded it. -/
def afterOthers (d : Desk) : Desk where
  session := d.session.withLoaded openText 0 openHouse
  disk := { d.disk with node := .file (.text openText) 0 }

end Sample

open Sample

/-- An action that is taken back or repeated puts the task that stands on its line by then where it
aims, and nothing else is asked for. That task is the one which the action was recorded for, as
long as each load has found the tasks in their seats or the log empty. -/
theorem replayed_of_ok {d d' : Desk} {a : Action} :
    (undo.on d = (.ok (some a), d') → Replayed d d' a a.before)
      ∧ (redo.on d = (.ok (some a), d') → Replayed d d' a a.after)
      ∧ (Tracked d → undo.on d = (.ok (some a), d') ∨ redo.on d = (.ok (some a), d') →
        ∃ t p, d.session.taskOnLine? a.line = some t ∧ t.id = a.task
          ∧ d.session.task? a.task = some (t, p)) := by
  refine ⟨fun h => (replayed_of_replay (undo_eq_replay ▸ h)).1,
    fun h => (replayed_of_replay (redo_eq_replay ▸ h)).1, fun htracked h => ?_⟩
  rcases h with h | h
  · obtain ⟨log, hmove⟩ := (replayed_of_replay (undo_eq_replay ▸ h)).2
    exact htracked.right.exists_onLine htracked.reachable.sound (.inl (mem_of_undo hmove))
  · obtain ⟨log, hmove⟩ := (replayed_of_replay (redo_eq_replay ▸ h)).2
    exact htracked.right.exists_onLine htracked.reachable.sound (.inr (mem_of_redo hmove))

/-- The task of the small session goes back to where it was dragged from. -/
theorem replayed_of_ok_sample : ∃ d d', Tracked d ∧ undo.on d = (.ok (some Sample.action), d')
    ∧ Replayed d d' Sample.action Sample.action.before
    ∧ ∃ t p, d.session.taskOnLine? 2 = some t ∧ t.id = "project-0-task-0"
      ∧ d.session.task? "project-0-task-0" = some (t, p) := by
  have hstep := Worked.step (o := .commit Sample.drag) trivial (.started Sample.start_desk)
  rw [Operation.perform, on_quiet, Sample.commit_desk] at hstep
  have hsound := hstep.reachable.sound
  have hcanonical : Outline.Canonical (Sample.text (some Sample.later)) := by decide +kernel
  have htask : (Sample.desk (some Sample.later) 1001000 { undoable := [Sample.action] }).session.task?
      (Sample.task (some Sample.later)).id
        = some (Sample.task (some Sample.later), Sample.project (some Sample.later)) := by
    rw [task?, (Sample.projects_desk _ _).2]
    rfl
  have hlog : History.undo { undoable := [Sample.action] }
      = ({ redoable := [Sample.action] }, some Sample.action) := rfl
  have hready : Ready (Sample.desk (some Sample.later) 1001000 { undoable := [Sample.action] })
      (Sample.project (some Sample.later)) (Sample.task (some Sample.later)) :=
    ⟨hsound, hcanonical, Disk.writable_of_file rfl, htask, rfl⟩
  obtain ⟨d', p', t', hundo, -⟩ := landed_replay hready hlog rfl rfl Action.before (by decide)
    (Text.fits_of_digit (by decide))
  have hundo : undo.on _ = (.ok (some Sample.action), d') := undo_eq_replay ▸ hundo
  exact ⟨_, d', hstep.tracked, hundo, replayed_of_ok.1 hundo,
    replayed_of_ok.2.2 hstep.tracked (.inl hundo)⟩

/-- The northern wall is dragged, then others rewrite the file and the session loads it. Taking the
drag back changes the roof. -/
theorem exists_wrong_undo : ∃ d a t t' d', Synced d ∧ undo.on d = (.ok (some a), d')
    ∧ a.task = "project-0-task-1"
    ∧ d.session.taskOnLine? a.line = some t ∧ t.id = "project-0-task-0" ∧ t.duration = 2
    ∧ d'.session.taskOnLine? a.line = some t' ∧ t'.id = "project-0-task-0" ∧ t'.duration = 1 := by
  obtain ⟨x₁, d₁, o₁, hcommit, hnew⟩ := loads_house.exists_commit (task?_house rfl) writable_house
    drag_north (Text.fits_of_digit (by decide))
  generalize ha : dragAction northDrag north northLater = a at hcommit
  have hsynced : Synced (recorded d₁ a) := by
    have hstart := Synced.step (.start "roadmap.md" false) (.fresh monday "" houseDesk.disk)
    rw [Operation.perform, start_house] at hstart
    have hstep := hstart.step (.commit northDrag)
    rw [Operation.perform, on_quiet, hcommit] at hstep
    exact hstep
  -- others rewrite the file
  have hreload : reload.on { recorded d₁ a with
      disk := { (recorded d₁ a).disk with node := .file (.text openText) 0 } }
        = (.ok (), afterOthers (recorded d₁ a)) :=
    on_reload_of_read hnew.path rfl (hnew.today.symm ▸ read_openText)
  have hsynced' : Synced (afterOthers (recorded d₁ a)) := by
    have hstep := hsynced.outside (.file (.text openText) 0) (.inl rfl)
    rw [Operation.perform, hreload] at hstep
    exact hstep
  have hsound := hsynced'.reachable.sound
  have hmem : openProject ∈ (afterOthers (recorded d₁ a)).session.projects := by
    show openProject ∈ (Plan.ofOutline openHouse).projects
    rw [projects_openHouse]
    exact List.mem_singleton_self _
  have hcanonical : Outline.Canonical openText := by decide +kernel
  have hready : Ready (afterOthers (recorded d₁ a)) openProject openRoof :=
    ⟨hsound, hcanonical, Disk.writable_of_file rfl,
      (task?_eq_some_iff hsound).mpr ⟨hmem, List.mem_singleton_self _, rfl⟩, rfl⟩
  -- the drag is taken back
  have hlimit : d₁.session.history.limit = 50 := hnew.loads.sound.limit
  obtain ⟨back, -, hundo, -, hback, -⟩ := undo_push d₁.session.history (by omega) a
  have hline : a.line = openRoof.line := ha ▸ rfl
  have hbefore : a.before = ⟨monday, 1⟩ := ha ▸ rfl
  obtain ⟨d', p', t', hundone, hlanded⟩ := landed_replay hready hundo (hback.trans hlimit) hline
    Action.before (hbefore ▸ by decide) (hbefore ▸ Text.fits_of_digit (by decide))
  have hduration : t'.duration = 1 :=
    (Placement.mk.inj (hlanded.place.trans hbefore)).2
  have honline := hlanded.ready.onLine
  rw [line_of_landed hlanded, ← hline] at honline
  exact ⟨_, a, openRoof, t', d', hsynced', undo_eq_replay ▸ hundone, ha ▸ rfl,
    hline ▸ hready.onLine, rfl, rfl, honline, hlanded.id, hduration⟩

end Roadmap.Session
