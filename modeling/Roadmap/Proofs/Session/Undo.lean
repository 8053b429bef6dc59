import Roadmap.Proofs.Session.Rewrite

/-!
# Taking a drag back

A task without children is put where a drag asks for it, and on its line it is read back there:
after a commit, after the commit has been taken back, and after it has been repeated
(`undo_redo_of_commit`). All three are one drag after the other of the same task
(`landed_applyDrag`), and none touches a line other than those of the task and its ancestors.

The task lines of the text have to be canonical, as a drag writes them in this form.
-/

namespace Roadmap

namespace Session

open Work

/-! ## One drag -/

/-- Task `t` of project `p`, which has no children, can be dragged and the outcome written. -/
structure Ready (d : Desk) (p : Plan.Project) (t : Plan.Task) : Prop where
  sound : d.session.Sound
  canonical : Outline.Canonical d.session.text
  writable : d.disk.Writable
  task : d.session.task? t.id = some (t, p)
  leaf : t.hasChildren = false

/-- On desk `d'` the task has been put at a placement. There it is task `t'`, with the same id on the
same line. -/
structure Landed (d d' : Desk) (p p' : Plan.Project) (t t' : Plan.Task) (q : Placement) : Prop where
  ready : Ready d' p' t'
  log : d'.session.history = d.session.history
  file : d'.disk.node = .file (.text d'.session.text) d'.disk.clock
  dated : Outline.Dated d.session.text d'.session.text (dragLines p t)
  id : t'.id = t.id
  lines : dragLines p' t' = dragLines p t
  place : placement t' = q
  pinned : t'.explicitStart = some q.start

theorem Ready.mem {d : Desk} {p : Plan.Project} {t : Plan.Task} (h : Ready d p t) :
    p ∈ d.session.projects ∧ t ∈ p.tasks := by
  obtain ⟨hp, ht, -⟩ := (task?_eq_some_iff h.sound).mp h.task
  exact ⟨hp, ht⟩

theorem Ready.onLine {d : Desk} {p : Plan.Project} {t : Plan.Task} (h : Ready d p t) :
    d.session.taskOnLine? t.line = some t :=
  (taskOnLine?_eq_some_iff h.sound).mpr ⟨p, h.mem.1, h.mem.2, rfl⟩

/-- The log has no part in it. -/
theorem Ready.withHistory {d : Desk} {p : Plan.Project} {t : Plan.Task} (h : Ready d p t)
    {log : History} (hlimit : log.limit = 50) : Ready (withHistory d log) p t :=
  ⟨⟨h.sound.loaded, h.sound.path, hlimit⟩, h.canonical, h.writable, h.task, h.leaf⟩

theorem Ready.duration {d : Desk} {p : Plan.Project} {t : Plan.Task} (h : Ready d p t) :
    0 ≤ t.duration ∧ Text.Fits t.duration := by
  obtain ⟨o, hloads⟩ := exists_loads h.sound h.canonical h.task
  obtain ⟨hp, ht⟩ := h.mem
  rw [hloads.projects] at hp
  exact ⟨(Plan.settled_of_mem (lasting_of_read hloads.read) hp).tasks.lasting t ht,
    fits_of_leaf hloads.clean hloads.read hp ht h.leaf⟩

theorem fits_dragged {t : Plan.Task} (ht : Text.Fits t.duration) {drag : Plan.Drag}
    (hdrag : ∀ n ∈ drag.duration, Text.Fits n) : Text.Fits (t.dragged drag).duration := by
  obtain ⟨id, start, duration⟩ := drag
  cases duration with
  | none => exact ht
  | some n =>
      have hle : (max 0 n).natAbs ≤ n.natAbs := by omega
      exact Text.fits_iff.mpr (Nat.lt_of_le_of_lt hle (Text.fits_iff.mp (hdrag n rfl)))

/-- A task that is dragged lands where the drag says. -/
theorem landed_applyDrag {d : Desk} {p : Plan.Project} {t : Plan.Task} (h : Ready d p t)
    (drag : Plan.Drag) (hid : t.id = drag.task) (hfits : ∀ n ∈ drag.duration, Text.Fits n) :
    ∃ d' p' t', (applyDrag drag).on d = (.ok (some (t, t.dragged drag)), d')
      ∧ Landed d d' p p' t t' (placement (t.dragged drag)) := by
  obtain ⟨o, hloads⟩ := exists_loads h.sound h.canonical h.task
  have htask : d.session.task? drag.task = some (t, p) := hid ▸ h.task
  obtain ⟨hp, ht, -⟩ := hloads.mem htask
  have hu := Plan.drag_leaf (Plan.settled_of_mem (lasting_of_read hloads.read) hp) ht h.leaf drag
  obtain ⟨d', o', happly, hnew⟩ :=
    hloads.exists_applyDrag htask h.writable hu (fits_dragged h.duration.2 hfits)
  have hlines := (bare_of_drag hloads.read hp ht hu).2
  have hfirst := (List.nodup_cons.mp (hlines.symm ▸ nodup_dragLines hloads.read hp ht)).1
  -- the task in the new plan has its line's dates
  obtain ⟨k, -, -, hk, -, -, hseat, -⟩ := Plan.exists_place hp ht
  obtain ⟨-, p', -, hk', -⟩ := hnew.exists_project hk
  obtain ⟨htasks, t', ht', hbare, htask'⟩ := hnew.exists_task hloads hk hseat hk'
  obtain ⟨hleaf, hstart, hduration, hpinned⟩ :=
    hnew.start_of_leaf hloads htask hk hk' ht' h.leaf fun t₀ hline => by
      rw [afterDrag_of_task hfirst hline]
      exact ⟨rfl, rfl⟩
  have hid' : t'.id = t.id := congrArg (·.id) hbare
  exact ⟨d', p', t', happly,
    { ready := ⟨hnew.loads.sound, hnew.loads.clean.canonical, Disk.writable_of_file hnew.file,
        hid'.symm ▸ htask', hleaf⟩
      log := hnew.log
      file := hnew.file
      dated := hlines ▸ hnew.dated
      id := hid'
      lines := dragLines_of_bare htasks hbare
      place := congrArg₂ Placement.mk hstart hduration
      pinned := hpinned }⟩

/-! ## Going back and forth in the log -/

/-- What was recorded last is what is taken back first and repeated first after that. -/
theorem undo_push (log : History) (h : 0 < log.limit) (a : Action) :
    ∃ back forth, (log.push a).undo = (back, some a) ∧ back.redo = (forth, some a)
      ∧ back.limit = log.limit ∧ forth.limit = log.limit := by
  have hlast : (log.push a).undoable.getLast? = some a := by
    rw [History.push, History.retain, if_pos h, List.getLast?_drop, List.length_append,
      List.length_singleton, if_neg (by omega), List.getLast?_append]
    rfl
  have hback : (log.push a).undo = ({ log.push a with
      undoable := (log.push a).undoable.dropLast, redoable := [a] }, some a) := by
    rw [History.undo, hlast]
    rfl
  exact ⟨_, _, hback, rfl, rfl, rfl⟩

/-- An action of the log puts the task that sits on its line where the action aims. -/
theorem landed_replay {d : Desk} {p : Plan.Project} {t : Plan.Task} (h : Ready d p t)
    {move : History → History × Option Action} {log : History} {a : Action}
    (hmove : move d.session.history = (log, some a)) (hlimit : log.limit = 50)
    (hline : a.line = t.line) (aim : Action → Placement) (hpos : 0 ≤ (aim a).duration)
    (hfits : Text.Fits (aim a).duration) :
    ∃ d' p' t', (replay move aim).on d = (.ok (some a), d')
      ∧ Landed (withHistory d log) d' p p' t t' (aim a) := by
  obtain ⟨d', p', t', happly, hlanded⟩ := landed_applyDrag (h.withHistory hlimit)
    { task := t.id, start := (aim a).start, duration := some (aim a).duration } rfl
    (by rintro n ⟨⟩; exact hfits)
  have hplace : placement (t.dragged
      { task := t.id, start := (aim a).start, duration := some (aim a).duration }) = aim a := by
    show (⟨(aim a).start, max 0 (aim a).duration⟩ : Placement) = aim a
    rw [max_eq_right hpos]
  exact ⟨d', p', t', on_replay_of hmove (hline ▸ h.onLine) happly, hplace ▸ hlanded⟩

theorem line_of_landed {d d' : Desk} {p p' : Plan.Project} {t t' : Plan.Task} {q : Placement}
    (h : Landed d d' p p' t t' q) : t'.line = t.line := (List.cons.inj h.lines).1

/-- A task without children is where it is asked to be after each of three steps: after its drag is
committed, after that is taken back, and after that is repeated. Only the lines of the task and its
ancestors change, and they stay as many. -/
theorem undo_redo_of_commit {d : Desk} (hd : d.Reachable)
    (hcanonical : Outline.Canonical d.session.text) (hdisk : d.disk.Writable) {drag : Plan.Drag}
    {t : Plan.Task} {p : Plan.Project} (ht : d.session.task? drag.task = some (t, p))
    (hleaf : t.hasChildren = false) (hfits : ∀ n ∈ drag.duration, Text.Fits n) :
    ∃ (a : Action) (t₁ t₂ t₃ : Plan.Task) (d₁ d₂ d₃ : Desk),
      (commit drag).on d = (.ok (some t₁), d₁)
      ∧ undo.on d₁ = (.ok (some a), d₂) ∧ redo.on d₂ = (.ok (some a), d₃)
      ∧ (t₁.id = drag.task ∧ t₁.line = t.line ∧ t₁.start = drag.start
        ∧ t₁.explicitStart = some drag.start
        ∧ t₁.duration = (drag.duration.map (max 0)).getD t.duration)
      ∧ (d₂.session.taskOnLine? t.line = some t₂ ∧ t₂.id = drag.task ∧ t₂.start = t.start
        ∧ t₂.duration = t.duration)
      ∧ (d₃.session.taskOnLine? t.line = some t₃ ∧ t₃.id = drag.task ∧ t₃.start = drag.start
        ∧ t₃.duration = t₁.duration)
      ∧ ∀ d' ∈ [d₁, d₂, d₃], Outline.Dated d.session.text d'.session.text (dragLines p t)
        ∧ d'.disk.node = .file (.text d'.session.text) d'.disk.clock := by
  have hs := hd.sound
  have hid : t.id = drag.task := ((task?_eq_some_iff hs).mp ht).2.2
  have hready : Ready d p t := ⟨hs, hcanonical, hdisk, hid ▸ ht, hleaf⟩
  obtain ⟨d₀, p₁, t₁, happly, h₁⟩ := landed_applyDrag hready drag hid hfits
  have hline₁ := line_of_landed h₁
  have hlimit : d₀.session.history.limit = 50 := h₁.ready.sound.limit
  generalize ha : dragAction drag t (t.dragged drag) = a
  have haline : a.line = t.line := ha ▸ rfl
  have hcommit : (commit drag).on d = (.ok (some t₁), recorded d₀ a) := by
    rw [on_commit, happly]
    simp only [← hline₁, h₁.ready.onLine, ha]
  obtain ⟨back, forth, hundo, hredo, hback, hforth⟩ :=
    undo_push d₀.session.history (by omega) a
  -- back to where the task was
  have hready₁ : Ready (recorded d₀ a) p₁ t₁ := h₁.ready.withHistory hlimit
  have hbefore : a.before = placement t := ha ▸ rfl
  obtain ⟨d₂, p₂, t₂, hundone, h₂⟩ := landed_replay hready₁ hundo (hback.trans hlimit)
    (haline.trans hline₁.symm) Action.before (hbefore ▸ hready.duration.1)
    (hbefore ▸ hready.duration.2)
  -- and forth to where it was dragged
  have hline₂ := (line_of_landed h₂).trans hline₁
  have hafter : a.after = placement t₁ := h₁.place ▸ ha ▸ rfl
  have hlog₂ : d₂.session.history = back := h₂.log
  obtain ⟨d₃, p₃, t₃, hredone, h₃⟩ := landed_replay h₂.ready (hlog₂ ▸ hredo) (hforth.trans hlimit)
    (haline.trans hline₂.symm) Action.after (hafter ▸ h₁.ready.duration.1)
    (hafter ▸ h₁.ready.duration.2)
  have hline₃ := (line_of_landed h₃).trans hline₂
  have hduration : (t.dragged drag).duration = (drag.duration.map (max 0)).getD t.duration := by
    rw [Plan.Task.dragged]
    cases drag.duration with
    | none => rfl
    | some n => rfl
  have hplace₁ := Placement.mk.inj h₁.place
  have hplace₂ := Placement.mk.inj (h₂.place.trans hbefore)
  have hplace₃ := Placement.mk.inj (h₃.place.trans hafter)
  have hid₂ := h₂.id.trans (h₁.id.trans hid)
  have hdated₂ : Outline.Dated d.session.text d₂.session.text (dragLines p t) :=
    (h₁.dated.trans h₂.dated).mono (by simp [h₁.lines])
  have hdated₃ : Outline.Dated d.session.text d₃.session.text (dragLines p t) :=
    (hdated₂.trans h₃.dated).mono (by simp [h₂.lines, h₁.lines])
  refine ⟨a, t₁, t₂, t₃, recorded d₀ a, d₂, d₃, hcommit, hundone, hredone,
    ⟨h₁.id.trans hid, hline₁, hplace₁.1, h₁.pinned, hplace₁.2.trans hduration⟩,
    ⟨hline₂ ▸ h₂.ready.onLine, hid₂, hplace₂⟩,
    ⟨hline₃ ▸ h₃.ready.onLine, h₃.id.trans hid₂, hplace₃.1.trans hplace₁.1, hplace₃.2⟩,
    fun d' hd' => ?_⟩
  simp only [List.mem_cons, List.not_mem_nil, or_false] at hd'
  rcases hd' with rfl | rfl | rfl
  · exact ⟨h₁.dated, h₁.file⟩
  · exact ⟨hdated₂, h₂.file⟩
  · exact ⟨hdated₃, h₃.file⟩

/-- The only task of the small session is dragged to the week after, and back. -/
theorem undo_redo_of_commit_sample : ∃ (a : Action) (t₁ t₂ t₃ : Plan.Task) (d₁ d₂ d₃ : Desk),
    (commit Sample.drag).on (Sample.desk none 1000000 {}) = (.ok (some t₁), d₁)
      ∧ undo.on d₁ = (.ok (some a), d₂) ∧ redo.on d₂ = (.ok (some a), d₃)
      ∧ t₁.start = Sample.later
      ∧ (d₂.session.taskOnLine? 2 = some t₂ ∧ t₂.start = Sample.monday)
      ∧ (d₃.session.taskOnLine? 2 = some t₃ ∧ t₃.start = Sample.later) := by
  have hcanonical : Outline.Canonical (Sample.text none) := by decide +kernel
  have hdisk : (Sample.desk none 1000000 {}).disk.Writable := Disk.writable_of_file rfl
  have hleaf : (Sample.task none).hasChildren = false := rfl
  have hfits : ∀ n ∈ Sample.drag.duration, Text.Fits n := by
    intro n hn
    exact absurd hn (Option.not_mem_none n)
  obtain ⟨a, t₁, t₂, t₃, d₁, d₂, d₃, hcommit, hundo, hredo, h₁, h₂, h₃, -⟩ :=
    undo_redo_of_commit Sample.reachable_desk hcanonical hdisk (Sample.task?_desk 1000000 {}) hleaf
      hfits
  have hlater : Sample.drag.start = Sample.later := by rw [Sample.drag]
  rw [hlater] at h₁ h₃
  exact ⟨a, t₁, t₂, t₃, d₁, d₂, d₃, hcommit, hundo, hredo, h₁.2.2.1, ⟨h₂.1, h₂.2.2.1⟩,
    ⟨h₃.1, h₃.2.2.1⟩⟩

end Session

end Roadmap
