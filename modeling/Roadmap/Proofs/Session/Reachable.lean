import Roadmap.Proofs.History
import Roadmap.Proofs.Session.Work

/-!
# Sessions that can be reached

A session does what it is asked to, one operation after the other, while others do what they like
to the file in between. What an operation did before it failed stays done, so the desk after a
failure is one that can be reached as well.

Text, outline and plan of such a session belong together (`Session.Sound`): all that any operation
does to them is to load a file.
-/

namespace Roadmap

/-- The work without its answer. -/
def Work.quiet {α : Type} (w : Work α) : Work Unit := do
  let _ ← w

theorem Work.on_quiet {α : Type} (w : Work α) (d : Desk) :
    w.quiet.on d = ((w.on d).1.map fun _ => (), (w.on d).2) := by
  rw [quiet, on_bind]
  rcases w.on d with ⟨f | a, d'⟩
  · rfl
  · rfl

namespace Session

/-- What a session can be asked for. -/
inductive Operation where
  | start (path : String) (create : Bool)
  | reload
  | refresh
  | askRefresh
  | drain
  | commit (drag : Plan.Drag)
  | update (id : String) (changes : List Outline.Change)
  | edit (call : Outline.EditCall)
  | undo
  | redo

namespace Operation

/-- Does what is asked for. -/
def perform : Operation → Work Unit
  | start path create => Session.start path create
  | reload => Session.reload
  | refresh => Session.refresh.quiet
  | askRefresh => Session.askRefresh
  | drain => Session.drain
  | commit drag => (Session.commit drag).quiet
  | update id changes => (Session.update id changes).quiet
  | edit call => (Session.call call).quiet
  | undo => Session.undo.quiet
  | redo => Session.redo.quiet

/-- The operation changes the outline as it is asked to, not as the log says. -/
def IsEdit : Operation → Prop
  | commit _ => True
  | update _ _ => True
  | edit _ => True
  | _ => False

end Operation

end Session

/-- The desks that can come about. -/
inductive Desk.Reachable : Desk → Prop
  | fresh (today : Date) (stamp : String) (disk : Disk) :
      Reachable ⟨{ today := today, stamp := stamp }, disk⟩
  | outside {d : Desk} (node : Node) :
      Reachable d → Reachable { d with disk := { d.disk with node := node } }
  | step {d : Desk} (o : Session.Operation) : Reachable d → Reachable (o.perform.on d).2

/-! ## What operations keep -/

namespace Work

variable {α β : Type} {P : Desk → Prop}

/-- Whether it fails or not, the work leaves `P` true. -/
def Keeps (P : Desk → Prop) (w : Work α) : Prop := ∀ d, P d → P (w.on d).2

theorem keeps_pure (a : α) : Keeps P (pure a : Work α) := fun _ h => h

theorem keeps_throw (f : Fault) : Keeps P (throw f : Work α) := fun _ h => h

theorem keeps_get : Keeps P (get : Work Desk) := fun _ h => h

theorem keeps_lift (e : Except Fault α) : Keeps P (liftM e : Work α) := by
  intro d h
  rwa [on_lift]

theorem keeps_modify {g : Desk → Desk} (hg : ∀ d, P d → P (g d)) :
    Keeps P (modify g : Work Unit) := hg

theorem Keeps.bind {w : Work α} {k : α → Work β} (hw : Keeps P w) (hk : ∀ a, Keeps P (k a)) :
    Keeps P (w >>= k) := by
  intro d h
  have hd := hw d h
  rw [on_bind]
  rcases heq : w.on d with ⟨f | a, d'⟩
  · rwa [heq] at hd
  · rw [heq] at hd
    exact hk a d' hd

theorem Keeps.quiet {w : Work α} (hw : Keeps P w) : Keeps P w.quiet :=
  hw.bind fun _ => keeps_pure ()

theorem Keeps.attempt {w : Work α} (hw : Keeps P w) : Keeps P w.attempt := hw

end Work

/-! ## Text, outline and plan -/

theorem Disk.carriageReturn_not_mem_of_read {disk : Disk} {path text : String} {time : Int}
    (h : disk.read path = .ok (text, time)) : '\r' ∉ text.toList := by
  obtain ⟨s, -, rfl⟩ := exists_node_of_read h
  exact Text.carriageReturn_not_mem_unix s

/-- What is loaded belongs together: the outline is that of the text, and the plan that of the
outline. -/
structure Loaded.Sound (l : Loaded) (today : Date) : Prop where
  unix : '\r' ∉ l.text.toList
  outline : Outline.read l.text today = .ok l.outline
  plan : l.plan = Plan.ofOutline l.outline

structure Session.Sound (s : Session) : Prop where
  loaded : ∀ l ∈ s.loaded, l.Sound s.today
  path : s.loaded.isSome → s.path.isSome
  limit : s.history.limit = 50

namespace Session

open Work

theorem keeps_requirePath {P : Desk → Prop} : Keeps P requirePath := by
  refine keeps_get.bind fun d => ?_
  split
  · exact keeps_pure _
  · exact keeps_throw _

theorem keeps_changeDisk {P : Desk → Prop} (hP : ∀ d disk, P d → P { d with disk := disk })
    (f : Disk → String → Except Fault Disk) : Keeps P (changeDisk f) :=
  keeps_requirePath.bind fun _ => keeps_get.bind fun _ => (keeps_lift _).bind fun disk =>
    keeps_modify fun d => hP d disk

/-- Starting loads a file at most. -/
theorem keeps_start {P : Desk → Prop} (hdisk : ∀ d disk, P d → P { d with disk := disk })
    (hpath : ∀ (d : Desk) path, P d → P { d with session := { d.session with path := some path } })
    (hreload : Keeps P reload) (path : String) (create : Bool) : Keeps P (start path create) := by
  refine Keeps.bind (keeps_modify fun d => hpath d path) fun _ => keeps_get.bind fun d => ?_
  split
  · split
    · exact (keeps_changeDisk hdisk _).bind fun _ =>
        (keeps_changeDisk hdisk _).bind fun _ => hreload
    · exact (keeps_throw _).bind fun _ => hreload
  · exact hreload

/-- Loading a file leaves the log alone. -/
theorem keeps_history_reload (log : History) : Keeps (fun d => d.session.history = log) reload := by
  intro d h
  rw [on_reload]
  split
  · exact h
  · split
    · exact h
    · split
      · exact h
      · exact h

theorem history_start (path : String) (create : Bool) (d : Desk) :
    ((start path create).on d).2.session.history = d.session.history :=
  keeps_start (fun _ _ h => h)
    (fun _ _ h => h) (keeps_history_reload _) path create d rfl

/-- The desk's session is sound. -/
def SoundAt (d : Desk) : Prop := d.session.Sound

theorem keeps_reload : Keeps SoundAt reload := by
  intro d h
  rw [on_reload]
  cases hpath : d.session.path with
  | none => exact h
  | some path =>
      simp only
      rcases hread : d.disk.read path with f | ⟨text, time⟩
      · exact h
      · simp only
        cases houtline : Outline.read text d.session.today with
        | error f => exact h
        | ok o =>
            refine ⟨?_, fun _ => ?_, h.limit⟩
            · rintro l ⟨⟩
              exact ⟨Disk.carriageReturn_not_mem_of_read hread, houtline, rfl⟩
            · show d.session.path.isSome
              rw [hpath]
              rfl

theorem keeps_store {P : Desk → Prop} (hdisk : ∀ d disk, P d → P { d with disk := disk })
    (hreload : Keeps P reload) (text : String) : Keeps P (store text) :=
  (keeps_changeDisk hdisk _).bind fun _ => hreload

theorem keeps_refresh {P : Desk → Prop} (hreload : Keeps P reload) : Keeps P refresh := by
  refine keeps_get.bind fun d => ?_
  split
  · exact hreload.bind fun _ => keeps_pure true
  · exact keeps_pure false

theorem keeps_drain {P : Desk → Prop}
    (hwaiting : ∀ (d : Desk) n, P d → P { d with session := { d.session with waiting := n } })
    (hreload : Keeps P reload) : Keeps P drain := by
  have htimes : ∀ n, Keeps P (refreshTimes n) := by
    intro n
    induction n with
    | zero => exact keeps_pure ()
    | succ n ih => exact (keeps_refresh hreload).attempt.bind fun _ => ih
  exact keeps_get.bind fun _ => (keeps_modify fun d => hwaiting d 0).bind fun _ => htimes _

/-! ### Edits, undo and redo

All they do is to store texts and to move on in the log, which keeps its limit. -/

section

variable {P : Desk → Prop} (hstore : ∀ text, Keeps P (store text))
  (hlog : ∀ (d : Desk) (log : History), log.limit = d.session.history.limit → P d →
    P (withHistory d log))

include hstore

theorem keeps_applyDrag (drag : Plan.Drag) : Keeps P (applyDrag drag) := by
  refine keeps_get.bind fun d => ?_
  dsimp only
  split
  · exact keeps_pure none
  · split
    · exact keeps_pure none
    · exact (keeps_lift _).bind fun text => (hstore text).bind fun _ => keeps_pure _

theorem keeps_restore (a : Action) (p : Placement) : Keeps P (restore a p) := by
  refine keeps_get.bind fun d => ?_
  split
  · exact keeps_pure ()
  · exact (keeps_applyDrag hstore _).bind fun _ => keeps_pure ()

include hlog

theorem keeps_commit (drag : Plan.Drag) : Keeps P (commit drag) := by
  refine (keeps_applyDrag hstore drag).bind fun applied => ?_
  split
  · exact keeps_pure none
  · exact Keeps.bind (keeps_modify fun d => hlog d _ rfl) fun _ =>
      keeps_get.bind fun _ => keeps_pure _

theorem keeps_update (id : String) (changes : List Outline.Change) :
    Keeps P (update id changes) := by
  refine keeps_get.bind fun d => ?_
  dsimp only
  split
  · exact keeps_pure none
  · refine (keeps_lift _).bind fun text => (hstore text).bind fun _ => keeps_get.bind fun d => ?_
    split
    · exact keeps_pure none
    · split
      · exact Keeps.bind (keeps_modify fun d => hlog d _ rfl) fun _ => keeps_pure _
      · exact keeps_pure _

theorem keeps_call (c : Outline.EditCall) : Keeps P (call c) := by
  have hedit : ∀ e, Keeps P (edit e) := by
    intro e
    refine keeps_get.bind fun d => ?_
    dsimp only
    split
    · exact keeps_pure false
    · exact (hstore _).bind fun _ =>
        Keeps.bind (keeps_modify fun d => hlog d _ rfl) fun _ => keeps_pure true
  refine keeps_get.bind fun d => (keeps_lift _).bind fun e => ?_
  split
  · exact keeps_pure false
  · exact hedit _

theorem keeps_replay {move : History → History × Option Action}
    (hmove : ∀ log, (move log).1.limit = log.limit) (aim : Action → Placement) :
    Keeps P (replay move aim) := by
  intro d h
  rw [on_replay]
  have hlimit := hmove d.session.history
  rcases heq : move d.session.history with ⟨log, _ | a⟩
  all_goals
    rw [heq] at hlimit
    have hd := hlog d log hlimit h
  · exact hd
  · have hd := keeps_restore hstore a (aim a) _ hd
    simp only
    rcases hrestore : (restore a (aim a)).on (withHistory d log) with ⟨f | _, d'⟩
    · rwa [hrestore] at hd
    · rwa [hrestore] at hd

theorem keeps_edit {o : Operation} (ho : o.IsEdit ∨ o = .undo ∨ o = .redo) :
    Keeps P o.perform := by
  cases o with
  | commit drag => exact (keeps_commit hstore hlog drag).quiet
  | update id changes => exact (keeps_update hstore hlog id changes).quiet
  | edit call => exact (keeps_call hstore hlog call).quiet
  | undo => exact (keeps_replay hstore hlog History.limit_undo Action.before).quiet
  | redo => exact (keeps_replay hstore hlog History.limit_redo Action.after).quiet
  | _ =>
      rcases ho with ho | ho | ho
      · exact ho.elim
      · cases ho
      · cases ho

end

theorem soundAt_store (text : String) : Keeps SoundAt (store text) :=
  keeps_store (fun _ _ h => h) keeps_reload text

theorem keeps_perform (o : Operation) : Keeps SoundAt o.perform := by
  have hedit := fun ho => keeps_edit soundAt_store
    (fun _ _ hlimit h => ⟨h.loaded, h.path, hlimit.trans h.limit⟩) (o := o) ho
  cases o with
  | start path create =>
      exact keeps_start (fun _ _ h => h) (fun _ _ h => ⟨h.loaded, fun _ => rfl, h.limit⟩)
        keeps_reload path create
  | reload => exact keeps_reload
  | refresh => exact (keeps_refresh keeps_reload).quiet
  | askRefresh => exact keeps_modify fun _ h => ⟨h.loaded, h.path, h.limit⟩
  | drain => exact keeps_drain (fun _ _ h => ⟨h.loaded, h.path, h.limit⟩) keeps_reload
  | commit drag => exact hedit (.inl trivial)
  | update id changes => exact hedit (.inl trivial)
  | edit call => exact hedit (.inl trivial)
  | undo => exact hedit (.inr (.inl rfl))
  | redo => exact hedit (.inr (.inr rfl))

end Session

/-- In every session that can be reached, text, outline and plan belong together. -/
theorem Desk.Reachable.sound {d : Desk} (h : d.Reachable) : d.session.Sound := by
  induction h with
  | fresh today stamp disk => exact ⟨by rintro l ⟨⟩, by rintro ⟨⟩, rfl⟩
  | outside node _ ih => exact ih
  | step o _ ih => exact Session.keeps_perform o _ ih

/-! ## A small session

An outline of one task, and its drag to the week after. -/

namespace Session.Sample

open Work

def monday : Date := .nearest 738000

def later : Date := monday.shift 7

/-- The outline, whose task may be pinned to a day. -/
def outline (pin : Option Date) : Outline where
  start := monday
  projects := [{
    name := "P"
    line := 1
    tasks := [{ level := 1, title := "T", duration := 1, explicitStart := pin, line := 2 }] }]

def text : Option Date → String
  | none => "## P\n> T (1)"
  | some d => "## P\n> T (1) @start:" ++ d.iso

def task (pin : Option Date) : Plan.Task where
  level := 1
  title := "T"
  duration := 1
  explicitStart := pin
  line := 2
  id := "project-0-task-0"
  projectId := "project-0"
  index := 0
  start := pin.getD monday
  finish := (pin.getD monday).shift 1

def project (pin : Option Date) : Plan.Project where
  id := "project-0"
  name := "P"
  icon := "📁"
  note := none
  line := 1
  start := pin.getD monday
  finish := (pin.getD monday).shift 1
  tasks := [task pin]

/-- A session that has loaded the outline. -/
def desk (pin : Option Date) (time : Int) (log : History) : Desk where
  session :=
    { today := monday
      path := some "roadmap.md"
      loaded := some ⟨text pin, time, outline pin, Plan.ofOutline (outline pin), ""⟩
      history := log }
  disk := ⟨.file (.text (text pin)) time, time⟩

def drag : Plan.Drag := ⟨"project-0-task-0", later, none⟩

def action : Action := ⟨.move, "project-0-task-0", 2, ⟨monday, 1⟩, ⟨later, 1⟩⟩

theorem read_text : Outline.read (text none) monday = .ok (outline none)
    ∧ Outline.read (text (some later)) monday = .ok (outline (some later)) := by decide +kernel

theorem projects_desk (time : Int) (log : History) :
    (desk none time log).session.projects = [project none]
      ∧ (desk (some later) time log).session.projects = [project (some later)] := by
  constructor
  · show (Plan.ofOutline (outline none)).projects = _
    cbv
  · show (Plan.ofOutline (outline (some later))).projects = _
    cbv

theorem task?_desk (time : Int) (log : History) :
    (desk none time log).session.task? drag.task = some (task none, project none) := by
  rw [task?, (projects_desk time log).1]
  rfl

theorem start_desk : (start "roadmap.md" false).on ⟨{ today := monday }, (desk none 1000000 {}).disk⟩
    = (.ok (), desk none 1000000 {}) :=
  on_start_of_read false rfl read_text.1

theorem reachable_desk : (desk none 1000000 {}).Reachable := by
  have hstep := Desk.Reachable.step (.start "roadmap.md" false)
    (.fresh monday "" (desk none 1000000 {}).disk)
  rw [Operation.perform, start_desk] at hstep
  exact hstep

theorem preview_desk (time : Int) (log : History) : (desk none time log).session.preview drag
    = ⟨[project (some later)], some (task (some later))⟩ := by
  have hdrag : Plan.drag drag [project none] = ⟨[project (some later)], some (task (some later))⟩ := by
    cbv
  exact (congrArg (Plan.drag drag) (projects_desk time log).1).trans hdrag

theorem draggedText_desk (time : Int) (log : History) :
    draggedText (desk none time log).session.text ((desk none time log).session.preview drag)
      (task (some later)) = .ok (text (some later)) := by
  have htext : draggedText (text none) ⟨[project (some later)], some (task (some later))⟩
      (task (some later)) = .ok (text (some later)) := by
    decide +kernel
  exact preview_desk time log ▸ htext

/-- What the session does with the drag, whatever is on the disk that it writes to. -/
theorem commit_of_write (disk : Disk) (hwrite : disk.write "roadmap.md" (text (some later))
      = .ok (desk (some later) 1001000 {}).disk) :
    ((commit drag).on { desk none 1000000 {} with disk := disk }).2
      = desk (some later) 1001000 { undoable := [action] } := by
  have hunix : Text.unix (text (some later)) = text (some later) :=
    Text.unix_of_not_mem (by decide +kernel)
  have hlog : ({} : History).push (dragAction drag (task none) (task (some later)))
      = { undoable := [action] } := by
    decide +kernel
  have happly := on_applyDrag_of (d := { desk none 1000000 {} with disk := disk })
    (task?_desk 1000000 {}) (congrArg Plan.Dragged.task (preview_desk 1000000 {}))
    (draggedText_desk 1000000 {}) rfl hwrite (hunix.symm ▸ read_text.2)
  rw [on_commit, happly]
  simp only [recorded, withLoaded, desk, hunix]
  rw [hlog]

theorem commit_desk : ((commit drag).on (desk none 1000000 {})).2
    = desk (some later) 1001000 { undoable := [action] } := commit_of_write _ rfl

end Session.Sample

end Roadmap
