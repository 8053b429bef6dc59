import Roadmap.Proofs.Session.Log

/-!
# What a session writes over

An operation edits the text that the session has loaded, and writes all of it. It does not look at
the file first, so what others have written since the load is lost (`not_spares_behind`). What is
written is a function of the session alone (`Operation.edited?`), and so is whether anything is
written at all, as far as the disk lets it (`disk_of_work`). A session that has just refreshed has
the text of the file, and its next operation starts from that.
-/

namespace Roadmap

/-- The disk after a text has been written over the file. Nothing changes if there is no text, or
if it cannot be written. -/
def Desk.written (d : Desk) : Option String → Disk
  | none => d.disk
  | some text =>
    match d.session.path with
    | none => d.disk
    | some path =>
      match d.disk.write path text with
      | .ok disk => disk
      | .error _ => d.disk

namespace Session

open Work

/-! ## Edited texts -/

/-- The loaded text after a drag, if there is such a task and the text can be patched. -/
def dragged? (s : Session) (drag : Plan.Drag) : Option String :=
  (s.task? drag.task).bind fun _ => (s.preview drag).task.bind fun t =>
    (draggedText s.text (s.preview drag) t).toOption

/-- The loaded text with the task of an action put at a placement. -/
def restored? (s : Session) (a : Action) (p : Placement) : Option String :=
  (s.taskOnLine? a.line).bind fun t =>
    s.dragged? { task := t.id, start := p.start, duration := some p.duration }

/-- The loaded text with fields of a task changed. -/
def updated? (s : Session) (id : String) (changes : List Outline.Change) : Option String :=
  (s.task? id).bind fun found => (Outline.patchLine s.text found.1.line changes).toOption

/-- The loaded text with its lines rearranged, if that changes it. -/
def rearranged? (s : Session) (c : Outline.EditCall) : Option String :=
  match c.resolve (Text.linesOf s.text.toList) with
  | .ok (some e) => if e.apply s.text = s.text then none else some (e.apply s.text)
  | _ => none

/-- The text that an operation makes of what the session has loaded, if it makes one. -/
def Operation.edited? (s : Session) : Operation → Option String
  | commit drag => s.dragged? drag
  | update id changes => s.updated? id changes
  | edit call => s.rearranged? call
  | undo => s.history.undo.2.bind fun a => s.restored? a a.before
  | redo => s.history.redo.2.bind fun a => s.restored? a a.after
  | _ => none

/-! ## What is on the disk afterwards -/

theorem disk_store (text : String) (d : Desk) :
    ((store text).on d).2.disk = d.written (some text) := by
  rw [on_store]
  unfold Desk.written
  cases d.session.path with
  | none => rfl
  | some path =>
      simp only
      cases d.disk.write path text with
      | error f => rfl
      | ok disk =>
          simp only
          cases Outline.read (Text.unix text) d.session.today with
          | error f => rfl
          | ok o => rfl

theorem disk_applyDrag (drag : Plan.Drag) (d : Desk) :
    ((applyDrag drag).on d).2.disk = d.written (d.session.dragged? drag) := by
  unfold dragged?
  rw [on_applyDrag]
  cases d.session.task? drag.task with
  | none => rfl
  | some found =>
      simp only [Option.bind_some]
      cases (d.session.preview drag).task with
      | none => rfl
      | some t =>
          simp only [Option.bind_some]
          cases draggedText d.session.text (d.session.preview drag) t with
          | error f => rfl
          | ok text =>
              have hstore := disk_store text d
              simp only
              rcases heq : (store text).on d with ⟨f | _, d'⟩
              all_goals
                rw [heq] at hstore
                exact hstore

theorem disk_commit (drag : Plan.Drag) (d : Desk) :
    ((commit drag).on d).2.disk = d.written (d.session.dragged? drag) := by
  rw [← disk_applyDrag, on_commit]
  rcases (applyDrag drag).on d with ⟨f | _ | ⟨before, after⟩, d'⟩
  · rfl
  · rfl
  · rfl

theorem disk_update (id : String) (changes : List Outline.Change) (d : Desk) :
    ((update id changes).on d).2.disk = d.written (d.session.updated? id changes) := by
  unfold updated?
  rw [on_update]
  cases d.session.task? id with
  | none => rfl
  | some found =>
      simp only [Option.bind_some]
      cases Outline.patchLine d.session.text found.1.line changes with
      | error f => rfl
      | ok text =>
          have hstore := disk_store text d
          simp only
          rcases heq : (store text).on d with ⟨f | _, d'⟩
          all_goals rw [heq] at hstore
          · exact hstore
          · refine Eq.trans ?_ hstore
            simp only
            split
            · rfl
            · split
              · rfl
              · rfl

theorem disk_call (c : Outline.EditCall) (d : Desk) :
    ((call c).on d).2.disk = d.written (d.session.rearranged? c) := by
  unfold rearranged?
  rw [on_call]
  rcases c.resolve (Text.linesOf d.session.text.toList) with f | _ | e
  · rfl
  · rfl
  · simp only [on_edit]
    split
    · rfl
    · have hstore := disk_store (e.apply d.session.text) d
      rcases heq : (store (e.apply d.session.text)).on d with ⟨f | _, d'⟩
      all_goals
        rw [heq] at hstore
        exact hstore

theorem disk_restore (a : Action) (p : Placement) (d : Desk) :
    ((restore a p).on d).2.disk = d.written (d.session.restored? a p) := by
  unfold restored?
  rw [on_restore]
  cases d.session.taskOnLine? a.line with
  | none => rfl
  | some t =>
      have hdrag := disk_applyDrag { task := t.id, start := p.start, duration := some p.duration } d
      simp only [Option.bind_some]
      rcases heq : (applyDrag { task := t.id, start := p.start, duration := some p.duration }).on d
        with ⟨f | _, d'⟩
      all_goals
        rw [heq] at hdrag
        exact hdrag

/-- The log has moved when the task is put back, which makes no difference to the text. -/
theorem disk_replay (move : History → History × Option Action) (aim : Action → Placement)
    (d : Desk) : ((replay move aim).on d).2.disk
      = d.written ((move d.session.history).2.bind fun a => d.session.restored? a (aim a)) := by
  rw [on_replay]
  rcases move d.session.history with ⟨log, _ | a⟩
  · rfl
  · have hrestore := disk_restore a (aim a) (withHistory d log)
    simp only [Option.bind_some]
    rcases heq : (restore a (aim a)).on (withHistory d log) with ⟨f | _, d'⟩
    all_goals
      rw [heq] at hrestore
      exact hrestore

/-! ## What others have written -/

/-- The operation leaves the file as it is, or writes over it what it makes of the file's own
text. -/
def Operation.Spares (o : Operation) (d : Desk) : Prop :=
  (o.perform.on d).2.disk = d.disk ∨ ∃ (path text : String) (time : Int) (outline : Outline),
    d.session.path = some path ∧ d.disk.read path = .ok (text, time)
      ∧ Outline.read text d.session.today = .ok outline
      ∧ (o.perform.on d).2.disk = d.written (o.edited? (d.session.withLoaded text time outline))

/-- A refresh that goes well has loaded the text of the file. -/
theorem refresh_eq_true {d : Desk} (h : (refresh.on d).1 = .ok true) :
    ∃ (path text : String) (time : Int) (outline : Outline), d.session.path = some path
      ∧ d.disk.read path = .ok (text, time) ∧ Outline.read text d.session.today = .ok outline
      ∧ (refresh.on d).2 = { d with session := d.session.withLoaded text time outline } := by
  simp only [refresh, on_bind, on_get] at h ⊢
  cases hstale : d.isStale with
  | false =>
      rw [hstale] at h
      nomatch h
  | true =>
      simp only [hstale, if_true, on_bind, on_reload] at h ⊢
      cases hpath : d.session.path with
      | none => simp [hpath] at h
      | some path =>
          cases hread : d.disk.read path with
          | error f => simp [hpath, hread] at h
          | ok found =>
              obtain ⟨text, time⟩ := found
              cases houtline : Outline.read text d.session.today with
              | error f => simp [hpath, hread, houtline] at h
              | ok outline =>
                  simp only [hread, houtline]
                  exact ⟨path, text, time, outline, rfl, hread, houtline, rfl⟩

/-- An edit, an undo or a redo leaves the file as it is or writes over it what it makes of the text
that the session has loaded, whatever the file holds by then. Right after a refresh that has loaded
the file, that is the text of the file. -/
theorem disk_of_operation {o : Operation} (ho : o.IsEdit ∨ o = .undo ∨ o = .redo) (d : Desk) :
    (o.perform.on d).2.disk = d.written (o.edited? d.session)
      ∧ ((refresh.on d).1 = .ok true → o.Spares (refresh.on d).2) := by
  have hdisk : ∀ d : Desk, (o.perform.on d).2.disk = d.written (o.edited? d.session) := by
    intro d
    cases o with
    | commit drag => rw [Operation.perform, on_quiet, disk_commit, Operation.edited?]
    | update id changes => rw [Operation.perform, on_quiet, disk_update, Operation.edited?]
    | edit c => rw [Operation.perform, on_quiet, disk_call, Operation.edited?]
    | undo => rw [Operation.perform, on_quiet, undo_eq_replay, disk_replay, Operation.edited?]
    | redo => rw [Operation.perform, on_quiet, redo_eq_replay, disk_replay, Operation.edited?]
    | _ =>
        rcases ho with ho | ho | ho
        · exact ho.elim
        · cases ho
        · cases ho
  refine ⟨hdisk d, fun hfresh => .inr ?_⟩
  obtain ⟨path, text, time, outline, hpath, hread, houtline, heq⟩ := refresh_eq_true hfresh
  rw [heq]
  exact ⟨path, text, time, outline, hpath, hread, houtline, hdisk _⟩

/-- The text of a drag comes of patching the loaded text. -/
theorem dragged?_eq_some {s : Session} {drag : Plan.Drag} {text : String}
    (h : s.dragged? drag = some text) :
    ∃ t, draggedText s.text (s.preview drag) t = .ok text := by
  obtain ⟨found, -, h⟩ := Option.bind_eq_some_iff.mp h
  obtain ⟨t, -, h⟩ := Option.bind_eq_some_iff.mp h
  cases htext : draggedText s.text (s.preview drag) t with
  | error f =>
      rw [htext] at h
      cases h
  | ok text' =>
      rw [htext] at h
      exact ⟨t, htext.trans (congrArg Except.ok (Option.some.inj h))⟩

/-! ### A lost line -/

namespace Sample

/-- The outline, to which others have added a task. -/
def longer : String := "## P\n> T (1)\n> U (2)"

/-- The small session, which has not loaded that. -/
def behind : Desk :=
  { desk none 1000000 {} with disk := ⟨.file (.text longer) 1001000, 1000000⟩ }

theorem reachable_behind : behind.Reachable :=
  reachable_desk.outside (.file (.text longer) 1001000)

theorem edited?_behind :
    (Operation.commit drag).edited? behind.session = some (text (some later)) := by
  show (desk none 1000000 {}).session.dragged? drag = _
  rw [dragged?, task?_desk, Option.bind_some, preview_desk, Option.bind_some,
    ← preview_desk 1000000 {}, draggedText_desk]
  rfl

theorem refresh_behind : (refresh.on behind).1 = .ok true := by
  obtain ⟨o, ho⟩ : ∃ o, Outline.read (Text.unix longer) monday = .ok o :=
    Outline.exists_eq_ok (by decide +kernel)
  have hfile : behind.disk.read "roadmap.md" = .ok (Text.unix longer, 1001000) := rfl
  have hreload := on_reload_of_read (d := behind) rfl hfile ho
  simp only [refresh, on_bind, on_get, show behind.isStale = true from rfl, if_true, hreload]
  rfl

end Sample

theorem disk_of_operation_behind :
    ((Operation.commit Sample.drag).perform.on Sample.behind).2.disk
        = Sample.behind.written (some (Sample.text (some Sample.later)))
      ∧ (Operation.commit Sample.drag).Spares (refresh.on Sample.behind).2 := by
  have h := disk_of_operation (o := .commit Sample.drag) (.inl trivial) Sample.behind
  rw [Sample.edited?_behind] at h
  exact ⟨h.1, h.2 Sample.refresh_behind⟩

/-- The drag writes the outline without the task that others have added. -/
theorem not_spares_behind : Sample.behind.Reachable ∧ Sample.behind.isStale
    ∧ ¬ (Operation.commit Sample.drag).Spares Sample.behind := by
  have hdisk : ((Operation.commit Sample.drag).perform.on Sample.behind).2.disk
      = ⟨.file (.text (Sample.text (some Sample.later))) 1001000, 1001000⟩ := by
    rw [Operation.perform, on_quiet]
    exact (disk_commit _ _).trans (congrArg Sample.behind.written Sample.edited?_behind)
  have hchanged : ((Operation.commit Sample.drag).perform.on Sample.behind).2.disk
      ≠ Sample.behind.disk := by
    intro h
    rw [hdisk] at h
    exact absurd (congrArg Disk.clock h) (by decide)
  refine ⟨Sample.reachable_behind, rfl, ?_⟩
  rintro (h | ⟨path, text, time, outline, hpath, hread, -, h⟩)
  · exact hchanged h
  · cases hedited : (Operation.commit Sample.drag).edited?
        (Sample.behind.session.withLoaded text time outline) with
    | none =>
        rw [hedited] at h
        exact hchanged h
    | some edited =>
        obtain ⟨t, htext⟩ := dragged?_eq_some hedited
        obtain ⟨rfl, rfl⟩ := Prod.mk.inj (Except.ok.inj hread)
        rw [hedited, hdisk] at h
        have hsame : Sample.text (some Sample.later) = edited := by
          injection congrArg Disk.node h with h
          injection h
        subst hsame
        -- a drag leaves the number of lines as it is
        have hshape := draggedText_shape (Text.carriageReturn_not_mem_unix Sample.longer) htext
        have hlines := congrArg List.length hshape.shape
        rw [List.length_map, List.length_map] at hlines
        exact absurd hlines (by decide +kernel)

end Session

end Roadmap
