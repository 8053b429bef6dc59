import Mathlib
import Roadmap.History

/-!
# The log as a line with a cursor

What can be undone, followed by what can be redone, the next one first, is one line of actions, and
the log is a place on it (`History.timeline`). Undo and redo leave the line alone and move the place
across one action; recording an action cuts off what lies ahead, puts the action there and lets go
of the oldest ones.

Only recording an action looks at the limit, while redo makes the undoable actions more as well. It
takes from the redoable ones what it adds, though, and so the line as a whole never outgrows the
limit (`History.Bounded`).
-/

namespace Roadmap

/-- A line of actions; those before the cursor are done. -/
structure Timeline where
  actions : List Action
  cursor : Nat

namespace Timeline

def empty : Timeline := ⟨[], 0⟩

/-- Steps back across the last action that is done. -/
def back (t : Timeline) : Timeline × Option Action :=
  match t.cursor with
  | 0 => (t, none)
  | n + 1 => (⟨t.actions, n⟩, t.actions[n]?)

/-- Steps forward across the next action. -/
def forward (t : Timeline) : Timeline × Option Action :=
  match t.actions[t.cursor]? with
  | none => (t, none)
  | some a => (⟨t.actions, t.cursor + 1⟩, some a)

/-- Does an action that is not on the line. It takes the place of all that was ahead, and of what is
done the last `limit` actions stay. -/
def record (limit : Nat) (t : Timeline) (a : Action) : Timeline :=
  let done := (t.actions.take t.cursor ++ [a]).rtake limit
  ⟨done, done.length⟩

/-- On the same line the cursor is one further in `t'` than in `t`, and `a` lies between. -/
structure Crosses (t t' : Timeline) (a : Action) : Prop where
  actions : t'.actions = t.actions
  cursor : t'.cursor = t.cursor + 1
  crossed : t.actions[t.cursor]? = some a

end Timeline

namespace History

/-- The line that the log is a place on. -/
def timeline (h : History) : Timeline := ⟨h.undoable ++ h.redoable.reverse, h.undoable.length⟩

/-- What can be asked of a log. -/
inductive Step where
  | push (a : Action)
  | undo
  | redo
  | clear

/-- Takes a step and answers the action that it crosses. -/
def step (h : History) : Step → History × Option Action
  | .push a => (h.push a, none)
  | .undo => h.undo
  | .redo => h.redo
  | .clear => (h.clear, none)

/-- Takes some steps and gives all their answers. -/
def run (h : History) : List Step → History × List (Option Action)
  | [] => (h, [])
  | s :: ss => ((run (h.step s).1 ss).1, (h.step s).2 :: (run (h.step s).1 ss).2)

end History

namespace Timeline

def step (limit : Nat) (t : Timeline) : History.Step → Timeline × Option Action
  | .push a => (t.record limit a, none)
  | .undo => t.back
  | .redo => t.forward
  | .clear => (empty, none)

def run (limit : Nat) (t : Timeline) : List History.Step → Timeline × List (Option Action)
  | [] => (t, [])
  | s :: ss =>
    ((run limit (t.step limit s).1 ss).1, (t.step limit s).2 :: (run limit (t.step limit s).1 ss).2)

end Timeline

namespace History

/-! ## Undo and redo -/

theorem undo_of_nil {h : History} (hnil : h.undoable = []) : h.undo = (h, none) := by
  simp only [undo, hnil, List.getLast?_nil]

theorem redo_of_nil {h : History} (hnil : h.redoable = []) : h.redo = (h, none) := by
  simp only [redo, hnil, List.getLast?_nil]

theorem undo_of_concat {h : History} {kept : List Action} {a : Action}
    (hlast : h.undoable = kept ++ [a]) :
    h.undo = ({ h with undoable := kept, redoable := h.redoable ++ [a] }, some a) := by
  simp only [undo, hlast, List.getLast?_concat, List.dropLast_concat]

theorem redo_of_concat {h : History} {kept : List Action} {a : Action}
    (hlast : h.redoable = kept ++ [a]) :
    h.redo = ({ h with undoable := h.undoable ++ [a], redoable := kept }, some a) := by
  simp only [redo, hlast, List.getLast?_concat, List.dropLast_concat]

theorem limit_undo (h : History) : h.undo.1.limit = h.limit := by
  rw [undo]
  split
  · rfl
  · rfl

theorem limit_redo (h : History) : h.redo.1.limit = h.limit := by
  rw [redo]
  split
  · rfl
  · rfl

/-- What has been undone lies next on the line. -/
theorem crosses_timeline (limit : Int) (kept ahead : List Action) (a : Action) :
    (timeline ⟨kept, ahead ++ [a], limit⟩).Crosses
      (timeline ⟨kept ++ [a], ahead, limit⟩) a where
  actions := by simp [timeline]
  cursor := by simp [timeline]
  crossed := by simp [timeline]

/-- An undo goes back across the action that it answers, and redo undoes it. -/
theorem undo_crosses (h : History) :
    (h.undoable = [] ∧ h.undo = (h, none)) ∨
      ∃ h' a, h.undo = (h', some a) ∧ h'.redo = (h, some a)
        ∧ h'.timeline.Crosses h.timeline a := by
  rcases List.eq_nil_or_concat' h.undoable with hnil | ⟨kept, a, hlast⟩
  · exact .inl ⟨hnil, undo_of_nil hnil⟩
  · obtain ⟨_, ahead, limit⟩ := h
    obtain rfl := hlast
    exact .inr
      ⟨_, a, undo_of_concat rfl, redo_of_concat rfl, crosses_timeline limit kept ahead a⟩

/-- A redo goes forward across the action that it answers, and undo undoes it. -/
theorem redo_crosses (h : History) :
    (h.redoable = [] ∧ h.redo = (h, none)) ∨
      ∃ h' a, h.redo = (h', some a) ∧ h'.undo = (h, some a)
        ∧ h.timeline.Crosses h'.timeline a := by
  rcases List.eq_nil_or_concat' h.redoable with hnil | ⟨ahead, a, hlast⟩
  · exact .inl ⟨hnil, redo_of_nil hnil⟩
  · obtain ⟨kept, _, limit⟩ := h
    obtain rfl := hlast
    exact .inr
      ⟨_, a, redo_of_concat rfl, undo_of_concat rfl, crosses_timeline limit kept ahead a⟩

/-! ## On the line -/

theorem back_of_crosses {t t' : Timeline} {a : Action} (hcrosses : t'.Crosses t a) :
    t.back = (t', some a) := by
  simp only [Timeline.back, hcrosses.cursor, hcrosses.actions, hcrosses.crossed]

theorem forward_of_crosses {t t' : Timeline} {a : Action} (hcrosses : t.Crosses t' a) :
    t.forward = (t', some a) := by
  simp only [Timeline.forward, hcrosses.crossed]
  rw [← hcrosses.cursor, ← hcrosses.actions]

theorem back_of_nil {h : History} (hnil : h.undoable = []) :
    h.timeline.back = (h.timeline, none) := by
  simp [timeline, Timeline.back, hnil]

theorem forward_of_nil {h : History} (hnil : h.redoable = []) :
    h.timeline.forward = (h.timeline, none) := by
  simp [timeline, Timeline.forward, hnil]

/-! ## One step -/

/-- The log keeps its limit, and the line is no longer than that. -/
structure Bounded (limit : Nat) (h : History) : Prop where
  limit_eq : h.limit = limit
  length_le : h.undoable.length + h.redoable.length ≤ limit

theorem retain_eq_rtake {limit : Nat} (hlimit : 1 ≤ limit) (actions : List Action) :
    retain limit actions = actions.rtake limit := by
  rw [retain, if_pos (by omega), Int.toNat_natCast]
  rfl

section

variable {limit : Nat} {h : History} (hbounded : h.Bounded limit)

include hbounded

/-- On the same line it is the same bound. -/
theorem Bounded.of_actions {h' : History} (hlimit : h'.limit = h.limit)
    (hactions : h'.timeline.actions = h.timeline.actions) : h'.Bounded limit where
  limit_eq := hlimit.trans hbounded.limit_eq
  length_le := by
    have hlength := congrArg List.length hactions
    simp only [timeline, List.length_append, List.length_reverse] at hlength
    exact hlength ▸ hbounded.length_le

variable (hlimit : 1 ≤ limit)

include hlimit

theorem Bounded.push_eq (a : Action) :
    h.push a = { h with undoable := (h.undoable ++ [a]).rtake limit, redoable := [] } := by
  rw [History.push, hbounded.limit_eq, retain_eq_rtake hlimit]

theorem Bounded.push (a : Action) : (h.push a).Bounded limit := by
  rw [hbounded.push_eq hlimit]
  refine ⟨hbounded.limit_eq, ?_⟩
  simp only [List.rtake, List.length_drop, List.length_nil]
  omega

/-- The log takes every step as its line does, and keeps the bound. -/
theorem Bounded.step_eq (s : Step) :
    ((h.step s).1.timeline, (h.step s).2) = h.timeline.step limit s
      ∧ (h.step s).1.Bounded limit := by
  cases s with
  | push a =>
      refine ⟨?_, hbounded.push hlimit a⟩
      rw [step, hbounded.push_eq hlimit]
      simp [timeline, Timeline.step, Timeline.record]
  | undo =>
      rw [step, Timeline.step]
      obtain ⟨hnil, hundo⟩ | ⟨h', a, hundo, -, hcrosses⟩ := h.undo_crosses
      · rw [hundo]
        exact ⟨(back_of_nil hnil).symm, hbounded⟩
      · rw [hundo, back_of_crosses hcrosses]
        refine ⟨rfl, hbounded.of_actions ?_ hcrosses.actions.symm⟩
        rw [← congrArg Prod.fst hundo, limit_undo]
  | redo =>
      rw [step, Timeline.step]
      obtain ⟨hnil, hredo⟩ | ⟨h', a, hredo, -, hcrosses⟩ := h.redo_crosses
      · rw [hredo]
        exact ⟨(forward_of_nil hnil).symm, hbounded⟩
      · rw [hredo, forward_of_crosses hcrosses]
        refine ⟨rfl, hbounded.of_actions ?_ hcrosses.actions⟩
        rw [← congrArg Prod.fst hredo, limit_redo]
  | clear => exact ⟨rfl, hbounded.limit_eq, Nat.zero_le _⟩

/-! ## A whole run -/

/-- Along a whole run the log answers as its line does. -/
theorem Bounded.run_eq (steps : List Step) :
    ((h.run steps).1.timeline, (h.run steps).2) = h.timeline.run limit steps
      ∧ (h.run steps).1.Bounded limit := by
  induction steps generalizing h with
  | nil => exact ⟨rfl, hbounded⟩
  | cons s steps ih =>
      obtain ⟨hstep, hbounded'⟩ := hbounded.step_eq hlimit s
      obtain ⟨hrun, hbounded''⟩ := ih hbounded'
      refine ⟨?_, hbounded''⟩
      rw [run, Timeline.run, ← hstep, ← hrun]

end

/-- A log that starts empty is, after any steps, a place on a line of at most `limit` actions that
takes the same steps with the same answers. Recording an action keeps the last `limit` of what is
done and drops what lies ahead; undo and redo go across one action, and back if taken in turn, or
find none there and change nothing. -/
theorem timeline_of_run (limit : Nat) (hlimit : 1 ≤ limit) (steps : List Step) :
    let log := (run { limit := limit } steps).1
    (log.timeline, (run { limit := limit } steps).2) = Timeline.empty.run limit steps
      ∧ log.undoable.length + log.redoable.length ≤ limit
      ∧ (∀ a, log.push a
          = { log with undoable := (log.undoable ++ [a]).rtake limit, redoable := [] })
      ∧ ((log.undoable = [] ∧ log.undo = (log, none)) ∨
          ∃ log' a, log.undo = (log', some a) ∧ log'.redo = (log, some a)
            ∧ log'.timeline.Crosses log.timeline a)
      ∧ ((log.redoable = [] ∧ log.redo = (log, none)) ∨
          ∃ log' a, log.redo = (log', some a) ∧ log'.undo = (log, some a)
            ∧ log.timeline.Crosses log'.timeline a) := by
  intro log
  have hempty : Bounded limit { limit := limit } := ⟨rfl, Nat.zero_le _⟩
  obtain ⟨hrun, hbounded⟩ := hempty.run_eq hlimit steps
  exact ⟨hrun, hbounded.length_le, hbounded.push_eq hlimit, log.undo_crosses, log.redo_crosses⟩

namespace Sample

/-- A task is made a day longer. -/
def longer (days : Int) : Action where
  kind := .resize
  task := "project-0-task-0"
  line := 2
  before := ⟨.first, days⟩
  after := ⟨.first, days + 1⟩

def steps : List Step := [.push (longer 1), .push (longer 2), .push (longer 3), .undo, .undo, .redo]

/-- The oldest action is gone, and the line stands between the other two. -/
def log : History := ⟨[longer 2], [longer 3], 2⟩

theorem run_steps : run { limit := (2 : Nat) } steps
    = (log, [none, none, none, some (longer 3), some (longer 2), some (longer 2)]) := by
  decide

end Sample

theorem timeline_of_run_longer :
    1 ≤ 2
      ∧ (Timeline.empty.run 2 Sample.steps).1 = Sample.log.timeline
      ∧ (Timeline.empty.run 2 Sample.steps).2 = (run { limit := (2 : Nat) } Sample.steps).2
      ∧ Sample.log.undoable.length + Sample.log.redoable.length ≤ 2
      ∧ Sample.log.push (Sample.longer 4) = ⟨[Sample.longer 2, Sample.longer 4], [], 2⟩
      ∧ ∃ log' a, Sample.log.redo = (log', some a) ∧ log'.undo = (Sample.log, some a)
          ∧ Sample.log.timeline.Crosses log'.timeline a := by
  have hlimit : 1 ≤ 2 := by decide
  obtain ⟨hrun, hlength, hpush, -, hredo⟩ := timeline_of_run 2 hlimit Sample.steps
  rw [Sample.run_steps] at hrun hlength hpush hredo
  refine ⟨hlimit, (congrArg Prod.fst hrun).symm, ?_, hlength, hpush _, ?_⟩
  · rw [Sample.run_steps]
    exact (congrArg Prod.snd hrun).symm
  · exact hredo.resolve_left (fun hnil => List.cons_ne_nil _ _ hnil.1)

end History

end Roadmap
