import Roadmap.Proofs.Outline.Overlong
import Roadmap.Proofs.Session.Reachable

/-!
# Operations that fail

An edit changes nothing in the session before its text is written, and everything at once after the
text has been read back. So a failed edit leaves the session as it was, whatever made it fail. The
file is another matter: it is written before the text is read, and a text with an overlong duration
cannot be read. Then the file stays ahead of the session (`Stopped.unread`).

Taking an action back moves the log first and puts the task back second. So if the second fails the
log has moved all the same, and the action is no longer the next in turn.
-/

namespace Roadmap.Session

open Work

/-! ## Edits -/

/-- What a fault leaves of a desk. -/
inductive Stopped (d : Desk) (f : Fault) : Desk → Prop
  /-- All is as it was. -/
  | unchanged : Stopped d f d
  /-- The session is as it was, but the file holds a text with a duration that is too long to be
  read. -/
  | unread (path text : String) (disk : Disk) (digits : Nat) (hpath : d.session.path = some path)
      (hwrite : d.disk.write path text = .ok disk)
      (hread : Outline.read (Text.unix text) d.session.today = .error f)
      (hlong : Fault.maxDigits < digits) (hfault : f = .integerTooLong digits) :
      Stopped d f { d with disk := disk }

theorem Stopped.session {d d' : Desk} {f : Fault} (h : Stopped d f d') :
    d'.session = d.session := by
  cases h with
  | unchanged => rfl
  | unread => rfl

section

variable {d d' : Desk} {f : Fault}

theorem stopped_store {text : String} (h : (store text).on d = (.error f, d')) :
    Stopped d f d' := by
  have hs := stored_store text d
  rw [h] at hs
  cases hs with
  | refused => exact .unchanged
  | unreadable path disk _ hpath hwrite hread =>
      obtain ⟨digits, hlong, hfault⟩ := Outline.read_error hread
      exact .unread path text disk digits hpath hwrite hread hlong hfault

theorem stopped_applyDrag {drag : Plan.Drag} (h : (applyDrag drag).on d = (.error f, d')) :
    Stopped d f d' := by
  rw [on_applyDrag] at h
  split at h
  · cases h
  · split at h
    · cases h
    · split at h
      · cases h
        exact .unchanged
      · split at h
        · cases h
        · next heq =>
            cases h
            exact stopped_store heq

theorem stopped_commit {drag : Plan.Drag} (h : (commit drag).on d = (.error f, d')) :
    Stopped d f d' := by
  rw [on_commit] at h
  split at h
  · next heq =>
      cases h
      exact stopped_applyDrag heq
  · cases h
  · cases h

theorem stopped_update {id : String} {changes : List Outline.Change}
    (h : (update id changes).on d = (.error f, d')) : Stopped d f d' := by
  rw [on_update] at h
  split at h
  · cases h
  · split at h
    · cases h
      exact .unchanged
    · split at h
      · next heq =>
          cases h
          exact stopped_store heq
      · split at h
        · cases h
        · cases h

theorem stopped_call {c : Outline.EditCall} (h : (call c).on d = (.error f, d')) :
    Stopped d f d' := by
  rw [on_call] at h
  split at h
  · cases h
    exact .unchanged
  · cases h
  · rw [on_edit] at h
    split at h
    · cases h
    · split at h
      · next heq =>
          cases h
          exact stopped_store heq
      · cases h

theorem quiet_error {α : Type} {w : Work α} (h : w.quiet.on d = (.error f, d')) :
    w.on d = (.error f, d') := by
  rw [on_quiet] at h
  rcases hw : w.on d with ⟨g | a, d₁⟩
  · rw [hw] at h
    cases h
    rfl
  · rw [hw] at h
    cases h

/-- An edit that fails leaves the session alone, and the file too unless what was written to it has
a duration that is too long to be read. -/
theorem stopped_of_error {o : Operation} (ho : o.IsEdit) (h : o.perform.on d = (.error f, d')) :
    Stopped d f d' := by
  cases o with
  | commit drag => exact stopped_commit (quiet_error h)
  | update id changes => exact stopped_update (quiet_error h)
  | edit call => exact stopped_call (quiet_error h)
  | _ => exact ho.elim

end

/-! ### A text that cannot be read back -/

/-- A session on an outline that is one header. -/
def shed : Desk :=
  ((Operation.start "roadmap.md" false).perform.on
    ⟨{ today := Sample.monday }, { node := .file (.text "## P") 0 }⟩).2

/-- The line of a task with a duration of the given digits. -/
def lasting (digits : List Char) : List Char := Outline.written 1 ['T'] digits []

/-- The header with that line after it. -/
def shedText (digits : List Char) : String :=
  String.ofList ("## P".toList ++ '\n' :: lasting digits)

def insertLasting (digits : List Char) : Operation :=
  .edit (.insert (.int 1) (.text (String.ofList (lasting digits))))

section

variable {digits : List Char} (hdigits : ∀ c ∈ digits, Text.isDigit c)
  (hlong : Fault.maxDigits < digits.length)

include hdigits

theorem oneLine_lasting : Outline.OneLine (lasting digits) := by
  have hnot : ∀ c : Char, Text.isDigit c = false → c ∉ digits :=
    fun c hc hmem => Bool.false_ne_true (hc.symm.trans (hdigits c hmem))
  constructor
  · simpa [lasting, Outline.written] using hnot '\n' rfl
  · simpa [lasting, Outline.written] using hnot '\r' rfl

include hlong

theorem read_shedText (today : Date) :
    Outline.read (shedText digits) today = .error (.integerTooLong digits.length) := by
  refine (Outline.read_error_iff today).mpr ⟨digits.length, ?_, rfl⟩
  rw [shedText, String.toList_ofList]
  exact Outline.findSome?_overlong?_endless hdigits hlong

theorem perform_insertLasting : (insertLasting digits).perform.on shed
    = (.error (.integerTooLong digits.length),
        ⟨shed.session, ⟨.file (.text (shedText digits)) 1001000, 1001000⟩⟩) := by
  have htext : shed.session.text = "## P" := rfl
  have hunix : Text.unix (shedText digits) = shedText digits := by
    refine Text.unix_of_not_mem ?_
    rw [shedText, String.toList_ofList]
    simpa using (oneLine_lasting hdigits).2
  have hresolve : (Outline.EditCall.insert (.int 1) (.text (String.ofList (lasting digits)))).resolve
      (Text.linesOf shed.session.text.toList)
      = .ok (some (.insert 1 (String.ofList (lasting digits)))) := rfl
  have happly : (Outline.Edit.insert 1 (String.ofList (lasting digits))).apply shed.session.text
      = shedText digits := by
    rw [Outline.Edit.apply, Outline.Edit.onLines, String.toList_ofList]
    rfl
  have hne : shedText digits ≠ shed.session.text := by
    intro h
    have hlength := congrArg String.length h
    rw [shedText, String.length_ofList, List.length_append, List.length_cons,
      show shed.session.text.length = "## P".toList.length from rfl] at hlength
    omega
  simp only [insertLasting, Operation.perform, on_quiet, on_call, hresolve, on_edit, happly,
    if_neg hne, on_store, show shed.session.path = some "roadmap.md" from rfl,
    show shed.disk.write "roadmap.md" (shedText digits)
      = .ok ⟨.file (.text (shedText digits)) 1001000, 1001000⟩ from rfl,
    hunix, read_shedText hdigits hlong]
  rfl

end

/-- One digit more than can be read. -/
def ones : List Char := List.replicate 4301 '1'

theorem ones_overlong : (∀ c ∈ ones, Text.isDigit c) ∧ Fault.maxDigits < ones.length := by
  refine ⟨fun c hc => ?_, ?_⟩
  · rw [List.eq_of_mem_replicate hc]
    rfl
  · rw [ones, List.length_replicate]
    decide

theorem stopped_of_error_shed : (insertLasting ones).IsEdit
    ∧ (insertLasting ones).perform.on shed = (.error (.integerTooLong ones.length),
        ⟨shed.session, ⟨.file (.text (shedText ones)) 1001000, 1001000⟩⟩)
    ∧ Stopped shed (.integerTooLong ones.length)
        ⟨shed.session, ⟨.file (.text (shedText ones)) 1001000, 1001000⟩⟩ := by
  have hrun := perform_insertLasting ones_overlong.1 ones_overlong.2
  exact ⟨trivial, hrun, stopped_of_error (o := insertLasting ones) trivial hrun⟩

/-- A failed edit can leave another file behind than it found. -/
theorem not_unchanged_shed : shed.Reachable
    ∧ ∃ (d' : Desk) (f : Fault), (insertLasting ones).perform.on shed = (.error f, d')
      ∧ d'.disk.node ≠ shed.disk.node := by
  refine ⟨.step _ (.fresh _ _ _), _, _,
    perform_insertLasting ones_overlong.1 ones_overlong.2, fun h => ?_⟩
  have htext : shedText ones = "## P" := by
    injection h with h
    injection h
  have hlength := congrArg String.length htext
  rw [shedText, String.length_ofList, List.length_append, List.length_cons,
    show "## P".length = "## P".toList.length from rfl] at hlength
  omega

section

variable {d d' : Desk} {f : Fault}

/-! ## Taking back and repeating -/

theorem stopped_restore {a : Action} {p : Placement} (h : (restore a p).on d = (.error f, d')) :
    Stopped d f d' := by
  rw [on_restore] at h
  split at h
  · cases h
  · split at h
    · next heq =>
        cases h
        exact stopped_applyDrag heq
    · cases h

/-- The log moves before anything can fail. -/
theorem replay_error {move : History → History × Option Action} {aim : Action → Placement}
    (h : (replay move aim).on d = (.error f, d')) :
    ∃ log a, move d.session.history = (log, some a) ∧ Stopped (withHistory d log) f d' := by
  rw [on_replay] at h
  split at h
  · cases h
  · next log a hmove =>
      split at h
      · next heq =>
          cases h
          exact ⟨log, a, hmove, stopped_restore heq⟩
      · cases h

/-- When an undo fails, the last action that could be undone has become one that can be redone, and
when a redo fails the other way round. Nothing else in the session changes. -/
theorem log_of_error :
    (undo.on d = (.error f, d') → ∃ (kept : List Action) (a : Action),
      d.session.history.undoable = kept ++ [a]
        ∧ d'.session = { d.session with history := { d.session.history with
            undoable := kept, redoable := d.session.history.redoable ++ [a] } })
    ∧ (redo.on d = (.error f, d') → ∃ (kept : List Action) (a : Action),
      d.session.history.redoable = kept ++ [a]
        ∧ d'.session = { d.session with history := { d.session.history with
            undoable := d.session.history.undoable ++ [a], redoable := kept } }) := by
  constructor
  · intro h
    obtain ⟨log, a, hmove, hstopped⟩ := replay_error (undo_eq_replay ▸ h)
    rw [History.undo] at hmove
    split at hmove
    · cases hmove
    · next hlast =>
        cases hmove
        refine ⟨d.session.history.undoable.dropLast, a, ?_, hstopped.session⟩
        rw [List.dropLast_append_getLast? _ hlast]
  · intro h
    obtain ⟨log, a, hmove, hstopped⟩ := replay_error (redo_eq_replay ▸ h)
    rw [History.redo] at hmove
    split at hmove
    · cases hmove
    · next hlast =>
        cases hmove
        refine ⟨d.session.history.redoable.dropLast, a, ?_, hstopped.session⟩
        rw [List.dropLast_append_getLast? _ hlast]

end

/-! ### A log that has moved -/

/-- The small session after its task was dragged, with a directory in place of the file. -/
def blocked : Desk :=
  { Sample.desk (some Sample.later) 1001000 { undoable := [Sample.action] } with
    disk := (Sample.desk (some Sample.later) 1001000 {}).disk.block }

theorem undo_blocked : undo.on blocked = (.error (.isDirectory "roadmap.md"),
    withHistory blocked { redoable := [Sample.action] }) := by
  have hprojects : (withHistory blocked { redoable := [Sample.action] }).session.projects
      = [Sample.project (some Sample.later)] :=
    (Sample.projects_desk 1001000 { redoable := [Sample.action] }).2
  have hline : (withHistory blocked { redoable := [Sample.action] }).session.taskOnLine? 2
      = some (Sample.task (some Sample.later)) := by
    rw [taskOnLine?, hprojects]
    rfl
  have htask : (withHistory blocked { redoable := [Sample.action] }).session.task? "project-0-task-0"
      = some (Sample.task (some Sample.later), Sample.project (some Sample.later)) := by
    rw [task?, hprojects]
    rfl
  have hdrag : Plan.drag ⟨"project-0-task-0", Sample.monday, some 1⟩
      [Sample.project (some Sample.later)]
        = ⟨[Sample.project (some Sample.monday)], some (Sample.task (some Sample.monday))⟩ := by
    cbv
  have hpreview : (withHistory blocked { redoable := [Sample.action] }).session.preview
      ⟨"project-0-task-0", Sample.monday, some 1⟩
        = ⟨[Sample.project (some Sample.monday)], some (Sample.task (some Sample.monday))⟩ :=
    (congrArg (Plan.drag _) hprojects).trans hdrag
  have htext : draggedText (Sample.text (some Sample.later))
      ⟨[Sample.project (some Sample.monday)], some (Sample.task (some Sample.monday))⟩
        (Sample.task (some Sample.monday)) = .ok (Sample.text (some Sample.monday)) := by
    decide +kernel
  rw [undo_eq_replay, on_replay, show blocked.session.history.undo
    = ({ redoable := [Sample.action] }, some Sample.action) from rfl]
  simp only [on_restore, show Sample.action.line = 2 from rfl, hline, on_applyDrag,
    show (Sample.task (some Sample.later)).id = "project-0-task-0" from rfl, htask,
    show Sample.action.before = ⟨Sample.monday, 1⟩ from rfl, hpreview,
    show (withHistory blocked { redoable := [Sample.action] }).session.text
      = Sample.text (some Sample.later) from rfl, htext, on_store,
    show (withHistory blocked { redoable := [Sample.action] }).session.path
      = some "roadmap.md" from rfl,
    show (withHistory blocked { redoable := [Sample.action] }).disk.write "roadmap.md"
      (Sample.text (some Sample.monday)) = .error (.isDirectory "roadmap.md") from rfl]

theorem reachable_blocked : blocked.Reachable := by
  have hstep := Desk.Reachable.step (.commit Sample.drag) Sample.reachable_desk
  have hcommit : ((Operation.commit Sample.drag).perform.on (Sample.desk none 1000000 {})).2
      = Sample.desk (some Sample.later) 1001000 { undoable := [Sample.action] } := by
    rw [Operation.perform, on_quiet]
    exact Sample.commit_desk
  rw [hcommit] at hstep
  exact hstep.outside (.directory 1001000)

theorem log_of_error_blocked :
    undo.on blocked = (.error (.isDirectory "roadmap.md"),
        withHistory blocked { redoable := [Sample.action] })
      ∧ ∃ (kept : List Action) (a : Action), [Sample.action] = kept ++ [a]
        ∧ (withHistory blocked { redoable := [Sample.action] }).session
          = { blocked.session with history := { blocked.session.history with
              undoable := kept, redoable := [] ++ [a] } } :=
  ⟨undo_blocked, log_of_error.1 undo_blocked⟩

/-- After a failed undo the action is not there to be undone again. -/
theorem not_kept_blocked : blocked.Reachable
    ∧ ∃ (d' : Desk) (f : Fault), undo.on blocked = (.error f, d')
      ∧ d'.session.history.undoable ≠ blocked.session.history.undoable
      ∧ d'.session.history.redoable ≠ blocked.session.history.redoable := by
  refine ⟨reachable_blocked, _, _, undo_blocked, ?_, ?_⟩
  · exact (List.cons_ne_nil _ _).symm
  · exact List.cons_ne_nil _ _

end Roadmap.Session
