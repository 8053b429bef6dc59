import Mathlib
import Roadmap.Session

/-!
# What a session's work comes to

Work is opened once, here: `on` of each primitive, and from it what writing a text and rebuilding
from it can come to (`Stored`). There are three ways: the write is refused and nothing happens; the
text is on the disk but cannot be read as an outline; or the session has loaded it. Every edit ends
in such a store, so what can happen to an edit is said by these three and by what comes before it.
-/

namespace Roadmap

/-! ## Primitives -/

namespace Work

variable {α β : Type}

theorem on_pure (a : α) (d : Desk) : (pure a : Work α).on d = (.ok a, d) := rfl

theorem on_throw (f : Fault) (d : Desk) : (throw f : Work α).on d = (.error f, d) := rfl

theorem on_get (d : Desk) : (get : Work Desk).on d = (.ok d, d) := rfl

theorem on_modify (g : Desk → Desk) (d : Desk) :
    (modify g : Work Unit).on d = (.ok (), g d) := rfl

theorem on_lift (e : Except Fault α) (d : Desk) : (liftM e : Work α).on d = (e, d) := by
  cases e with
  | error f => rfl
  | ok a => rfl

theorem on_bind (w : Work α) (k : α → Work β) (d : Desk) :
    (w >>= k).on d = match w.on d with
      | (.ok a, d') => (k a).on d'
      | (.error f, d') => (.error f, d') := by
  simp only [on, ExceptT.run_bind, StateT.run_bind]
  rcases (ExceptT.run w).run d with ⟨f | a, d'⟩
  · rfl
  · rfl

end Work

/-! ## The file -/

namespace Text

/-- The text with line feeds for all line ends, which is how a file is read. -/
def unix (text : String) : String := String.ofList (universal text.toList)

theorem carriageReturn_not_mem_universal (s : List Char) : '\r' ∉ universal s := by
  fun_induction universal s with
  | case1 => exact List.not_mem_nil
  | case2 rest ih => exact fun h => (List.mem_cons.mp h).elim (absurd · (by decide)) ih
  | case3 rest _ ih => exact fun h => (List.mem_cons.mp h).elim (absurd · (by decide)) ih
  | case4 c rest _ hne ih =>
      exact fun h => (List.mem_cons.mp h).elim (fun heq => hne heq.symm) ih

theorem universal_of_not_mem {s : List Char} (h : '\r' ∉ s) : universal s = s := by
  fun_induction universal s with
  | case1 => rfl
  | case2 rest ih => exact absurd List.mem_cons_self h
  | case3 rest _ ih => exact absurd List.mem_cons_self h
  | case4 c rest _ hne ih => rw [ih fun hc => h (List.mem_cons_of_mem c hc)]

theorem unix_of_not_mem {text : String} (h : '\r' ∉ text.toList) : unix text = text := by
  rw [unix, universal_of_not_mem h, String.ofList_toList]

theorem carriageReturn_not_mem_unix (text : String) : '\r' ∉ (unix text).toList := by
  rw [unix, String.toList_ofList]
  exact carriageReturn_not_mem_universal text.toList

end Text

namespace Disk

/-- Only a file that holds a text can be read. -/
theorem exists_node_of_read {disk : Disk} {path text : String} {time : Int}
    (h : disk.read path = .ok (text, time)) :
    ∃ s, disk.node = .file (.text s) time ∧ text = Text.unix s := by
  unfold read at h
  split at h
  case h_7 s _ hnode =>
    cases h
    exact ⟨s, hnode, rfl⟩
  all_goals cases h

theorem time?_of_read {disk : Disk} {path text : String} {time : Int}
    (h : disk.read path = .ok (text, time)) : disk.time? = some time := by
  obtain ⟨s, hnode, -⟩ := exists_node_of_read h
  rw [time?, hnode]

/-- What has been written is what is read. -/
theorem read_of_write {disk disk' : Disk} {path text : String}
    (h : disk.write path text = .ok disk') :
    disk'.node = .file (.text text) disk'.clock
      ∧ disk'.read path = .ok (Text.unix text, disk'.clock) := by
  unfold write at h
  split at h
  all_goals first
    | cases h
      exact ⟨rfl, rfl⟩
    | cases h

end Disk

namespace Session

open Work

/-! ## Loading -/

theorem on_requirePath (d : Desk) : requirePath.on d = (match d.session.path with
    | some path => .ok path
    | none => .error .noFile, d) := by
  rw [requirePath, on_bind, on_get]
  cases h : d.session.path with
  | none => simp only [h, on_throw]
  | some path => simp only [h, on_pure]

/-- The session after it has loaded a text with what it stands for. -/
def withLoaded (s : Session) (text : String) (time : Int) (o : Outline) : Session :=
  { s with loaded := some ⟨text, time, o, Plan.ofOutline o, s.stamp⟩ }

theorem on_reload (d : Desk) :
    reload.on d = match d.session.path with
      | none => (.error .noFile, d)
      | some path =>
        match d.disk.read path with
        | .error f => (.error f, d)
        | .ok (text, time) =>
          match Outline.read text d.session.today with
          | .error f => (.error f, d)
          | .ok o => (.ok (), { d with session := d.session.withLoaded text time o }) := by
  simp only [reload, on_bind, on_requirePath]
  cases d.session.path with
  | none => rfl
  | some path =>
      simp only [on_get, on_lift]
      rcases d.disk.read path with f | ⟨text, time⟩
      · rfl
      · simp only
        cases Outline.read text d.session.today with
        | error f => rfl
        | ok o => rfl

theorem on_reload_of_read {d : Desk} {path text : String} {time : Int} {o : Outline}
    (hpath : d.session.path = some path) (hfile : d.disk.read path = .ok (text, time))
    (hread : Outline.read text d.session.today = .ok o) :
    reload.on d = (.ok (), { d with session := d.session.withLoaded text time o }) := by
  simp only [on_reload, hpath, hfile, hread]

/-- Starting on a file that can be read loads it. -/
theorem on_start_of_read {d : Desk} {path text : String} {time : Int} {o : Outline}
    (create : Bool) (hfile : d.disk.read path = .ok (text, time))
    (hread : Outline.read text d.session.today = .ok o) :
    (start path create).on d = (.ok (),
      { d with session := { d.session with path := some path }.withLoaded text time o }) := by
  have htime : d.disk.time?.isNone = false := by
    rw [Disk.time?_of_read hfile]
    rfl
  simp only [start, modifySession, on_bind, on_modify, on_get, htime, Bool.false_eq_true, if_false,
    on_reload, hfile, hread]

/-! ## Writing and rebuilding -/

theorem on_changeDisk (f : Disk → String → Except Fault Disk) (d : Desk) :
    (changeDisk f).on d = match d.session.path with
      | none => (.error .noFile, d)
      | some path =>
        match f d.disk path with
        | .error e => (.error e, d)
        | .ok disk => (.ok (), { d with disk := disk }) := by
  simp only [changeDisk, on_bind, on_requirePath]
  cases d.session.path with
  | none => rfl
  | some path =>
      simp only [on_get, on_lift]
      cases f d.disk path with
      | error e => rfl
      | ok disk => rfl

theorem on_store (text : String) (d : Desk) :
    (store text).on d = match d.session.path with
      | none => (.error .noFile, d)
      | some path =>
        match d.disk.write path text with
        | .error f => (.error f, d)
        | .ok disk =>
          match Outline.read (Text.unix text) d.session.today with
          | .error f => (.error f, { d with disk := disk })
          | .ok o => (.ok (),
              { session := d.session.withLoaded (Text.unix text) disk.clock o, disk := disk }) := by
  simp only [store, save, on_bind, on_changeDisk]
  cases hpath : d.session.path with
  | none => rfl
  | some path =>
      simp only
      cases hwrite : d.disk.write path text with
      | error f => rfl
      | ok disk => simp only [on_reload, hpath, (Disk.read_of_write hwrite).2]

/-- What storing a text can come to. -/
inductive Stored (text : String) (d : Desk) : Except Fault Unit → Desk → Prop
  /-- Nothing is written. -/
  | refused (f : Fault) : Stored text d (.error f) d
  /-- The text is written but stands for no outline. -/
  | unreadable (path : String) (disk : Disk) (f : Fault) (hpath : d.session.path = some path)
      (hwrite : d.disk.write path text = .ok disk)
      (hread : Outline.read (Text.unix text) d.session.today = .error f) :
      Stored text d (.error f) { d with disk := disk }
  /-- The text is written and loaded. -/
  | loaded (path : String) (disk : Disk) (o : Outline) (hpath : d.session.path = some path)
      (hwrite : d.disk.write path text = .ok disk)
      (hread : Outline.read (Text.unix text) d.session.today = .ok o) :
      Stored text d (.ok ())
        { session := d.session.withLoaded (Text.unix text) disk.clock o, disk := disk }

theorem stored_store (text : String) (d : Desk) :
    Stored text d ((store text).on d).1 ((store text).on d).2 := by
  rw [on_store]
  cases hpath : d.session.path with
  | none => exact .refused _
  | some path =>
      simp only
      cases hwrite : d.disk.write path text with
      | error f => exact .refused f
      | ok disk =>
          simp only
          cases hread : Outline.read (Text.unix text) d.session.today with
          | error f => exact .unreadable path disk f hpath hwrite hread
          | ok o => exact .loaded path disk o hpath hwrite hread

/-! ## Edits -/

/-- The desk with an action recorded. -/
def recorded (d : Desk) (a : Action) : Desk :=
  { d with session := { d.session with history := d.session.history.push a } }

/-- The action that a drag is recorded as. -/
def dragAction (drag : Plan.Drag) (before after : Plan.Task) : Action where
  kind := if before.duration = after.duration then .move else .resize
  task := drag.task
  line := before.line
  before := placement before
  after := placement after

/-- The action that a change of fields is recorded as. -/
def editAction (id : String) (before after : Plan.Task) : Action where
  kind := .edit
  task := id
  line := before.line
  before := placement before
  after := placement after

theorem on_applyDrag (drag : Plan.Drag) (d : Desk) :
    (applyDrag drag).on d = match d.session.task? drag.task with
      | none => (.ok none, d)
      | some (before, _) =>
        match (d.session.preview drag).task with
        | none => (.ok none, d)
        | some t =>
          match draggedText d.session.text (d.session.preview drag) t with
          | .error f => (.error f, d)
          | .ok text =>
            match (store text).on d with
            | (.ok (), d') => (.ok (some (before, t)), d')
            | (.error f, d') => (.error f, d') := by
  simp only [applyDrag, on_bind, on_get]
  cases d.session.task? drag.task with
  | none => rfl
  | some found =>
      cases (d.session.preview drag).task with
      | none => rfl
      | some t =>
          simp only [on_bind, on_lift]
          cases draggedText d.session.text (d.session.preview drag) t with
          | error f => rfl
          | ok text =>
              simp only
              rcases (store text).on d with ⟨f | _, d'⟩
              · rfl
              · rfl

/-- A drag that goes well: what it writes has been read back. -/
theorem on_applyDrag_of {d : Desk} {drag : Plan.Drag} {before after : Plan.Task}
    {p : Plan.Project} {text path : String} {disk : Disk} {o : Outline}
    (hbefore : d.session.task? drag.task = some (before, p))
    (hafter : (d.session.preview drag).task = some after)
    (htext : draggedText d.session.text (d.session.preview drag) after = .ok text)
    (hpath : d.session.path = some path) (hwrite : d.disk.write path text = .ok disk)
    (hread : Outline.read (Text.unix text) d.session.today = .ok o) :
    (applyDrag drag).on d = (.ok (some (before, after)),
      { session := d.session.withLoaded (Text.unix text) disk.clock o, disk := disk }) := by
  rw [on_applyDrag, hbefore]
  simp only [hafter, htext, on_store, hpath, hwrite, hread]

/-- Every drag that changes something has gone that way. -/
theorem applyDrag_eq_ok {d d' : Desk} {drag : Plan.Drag} {before after : Plan.Task}
    (h : (applyDrag drag).on d = (.ok (some (before, after)), d')) :
    ∃ (p : Plan.Project) (text path : String) (disk : Disk) (o : Outline),
      d.session.task? drag.task = some (before, p)
        ∧ (d.session.preview drag).task = some after
        ∧ draggedText d.session.text (d.session.preview drag) after = .ok text
        ∧ d.session.path = some path ∧ d.disk.write path text = .ok disk
        ∧ Outline.read (Text.unix text) d.session.today = .ok o
        ∧ d' = { session := d.session.withLoaded (Text.unix text) disk.clock o, disk := disk } := by
  rw [on_applyDrag] at h
  split at h
  · cases h
  · next p hbefore =>
      split at h
      · cases h
      · next hafter =>
          split at h
          · cases h
          · next text htext =>
              have hstored := stored_store text d
              split at h
              · next d₁ hstore =>
                  rw [hstore] at hstored
                  cases h
                  cases hstored with
                  | loaded path disk o hpath hwrite hread =>
                      exact ⟨p, text, path, disk, o, hbefore, hafter, htext, hpath, hwrite, hread, rfl⟩
              · cases h

theorem on_commit (drag : Plan.Drag) (d : Desk) :
    (commit drag).on d = match (applyDrag drag).on d with
      | (.error f, d') => (.error f, d')
      | (.ok none, d') => (.ok none, d')
      | (.ok (some (before, after)), d') =>
        (.ok (d'.session.taskOnLine? before.line), recorded d' (dragAction drag before after)) := by
  rw [commit, on_bind]
  rcases (applyDrag drag).on d with ⟨f | _ | ⟨before, after⟩, d'⟩
  · rfl
  · rfl
  · rfl

/-- A commit that answers with a task has done its drag and recorded it. -/
theorem commit_eq_ok {d d₁ : Desk} {drag : Plan.Drag} {t₁ : Plan.Task}
    (h : (commit drag).on d = (.ok (some t₁), d₁)) :
    ∃ before after d', (applyDrag drag).on d = (.ok (some (before, after)), d')
      ∧ d'.session.taskOnLine? before.line = some t₁
      ∧ d₁ = recorded d' (dragAction drag before after) := by
  rw [on_commit] at h
  split at h
  · cases h
  · cases h
  · next before after d' happly =>
      obtain ⟨htask, rfl⟩ := Prod.mk.inj h
      exact ⟨before, after, d', happly, Except.ok.inj htask, rfl⟩

theorem on_update (id : String) (changes : List Outline.Change) (d : Desk) :
    (update id changes).on d = match d.session.task? id with
      | none => (.ok none, d)
      | some (before, _) =>
        match Outline.patchLine d.session.text before.line changes with
        | .error f => (.error f, d)
        | .ok text =>
          match (store text).on d with
          | (.error f, d') => (.error f, d')
          | (.ok (), d') =>
            match d'.session.taskOnLine? before.line with
            | none => (.ok none, d')
            | some after => (.ok (some after),
                if changes.any (·.isDated) then recorded d' (editAction id before after) else d') := by
  simp only [update, on_bind, on_get]
  cases d.session.task? id with
  | none => rfl
  | some found =>
      simp only [on_bind, on_lift]
      cases Outline.patchLine d.session.text found.1.line changes with
      | error f => rfl
      | ok text =>
          simp only
          rcases (store text).on d with ⟨f | _, d'⟩
          · rfl
          · simp only [on_get]
            cases d'.session.taskOnLine? found.1.line with
            | none => rfl
            | some after =>
                cases changes.any (·.isDated) with
                | false => rfl
                | true => rfl

theorem on_edit (e : Outline.Edit) (d : Desk) :
    (edit e).on d = if e.apply d.session.text = d.session.text then (.ok false, d)
      else match (store (e.apply d.session.text)).on d with
        | (.error f, d') => (.error f, d')
        | (.ok (), d') => (.ok true, { d' with session :=
            { d'.session with history := d'.session.history.clear } }) := by
  simp only [edit, on_bind, on_get]
  split
  · rfl
  · rw [on_bind]
    rcases (store (e.apply d.session.text)).on d with ⟨f | _, d'⟩
    · rfl
    · rfl

theorem on_call (c : Outline.EditCall) (d : Desk) :
    (call c).on d = match c.resolve (Text.linesOf d.session.text.toList) with
      | .error f => (.error f, d)
      | .ok none => (.ok false, d)
      | .ok (some e) => (edit e).on d := by
  simp only [call, on_bind, on_get, on_lift]
  rcases c.resolve (Text.linesOf d.session.text.toList) with f | _ | e
  · rfl
  · rfl
  · rfl

/-! ## The log -/

/-- The desk with another log. -/
def withHistory (d : Desk) (h : History) : Desk :=
  { d with session := { d.session with history := h } }

theorem on_restore (a : Action) (p : Placement) (d : Desk) :
    (restore a p).on d = match d.session.taskOnLine? a.line with
      | none => (.ok (), d)
      | some t =>
        match (applyDrag { task := t.id, start := p.start, duration := some p.duration }).on d with
        | (.error f, d') => (.error f, d')
        | (.ok _, d') => (.ok (), d') := by
  simp only [restore, on_bind, on_get]
  cases d.session.taskOnLine? a.line with
  | none => rfl
  | some t =>
      simp only [on_bind]
      rcases (applyDrag { task := t.id, start := p.start, duration := some p.duration }).on d
        with ⟨f | r, d'⟩
      · rfl
      · rfl

/-- Takes an action out of the log and puts its task at a placement: the log goes on by `move`, the
placement is picked by `aim`. -/
def replay (move : History → History × Option Action) (aim : Action → Placement) :
    Work (Option Action) := do
  let (history, action) := move (← get).session.history
  modifySession fun s => { s with history := history }
  match action with
  | none => return none
  | some a =>
    restore a (aim a)
    return some a

theorem undo_eq_replay : undo = replay History.undo Action.before := rfl

theorem redo_eq_replay : redo = replay History.redo Action.after := rfl

theorem on_replay (move : History → History × Option Action) (aim : Action → Placement)
    (d : Desk) :
    (replay move aim).on d = match move d.session.history with
      | (h, none) => (.ok none, withHistory d h)
      | (h, some a) =>
        match (restore a (aim a)).on (withHistory d h) with
        | (.error f, d') => (.error f, d')
        | (.ok (), d') => (.ok (some a), d') := by
  simp only [replay, on_bind, on_get, modifySession, on_modify]
  rcases move d.session.history with ⟨h, _ | a⟩
  · rfl
  · simp only [on_bind, withHistory]
    rcases (restore a (aim a)).on _ with ⟨f | _, d'⟩
    · rfl
    · rfl

/-- An action is taken out of the log and the task on its line dragged where it aims. -/
theorem on_replay_of {move : History → History × Option Action} {aim : Action → Placement}
    {d d' : Desk} {log : History} {a : Action} {t : Plan.Task} {r : Option (Plan.Task × Plan.Task)}
    (hmove : move d.session.history = (log, some a))
    (honline : d.session.taskOnLine? a.line = some t)
    (happly : (applyDrag { task := t.id, start := (aim a).start, duration := some (aim a).duration }).on
      (withHistory d log) = (.ok r, d')) : (replay move aim).on d = (.ok (some a), d') := by
  have honline' : (withHistory d log).session.taskOnLine? a.line = some t := honline
  rw [on_replay, hmove]
  simp only [on_restore, honline', happly]

end Session

end Roadmap
