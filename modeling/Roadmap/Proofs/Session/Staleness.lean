import Roadmap.Proofs.Session.Overwrite

/-!
# Files that a session takes for its own

Whether the file has changed is judged by its time alone: it has if the time is later than that of
the last load. So a session that is not stale has the text of the file as long as whatever came
over the file since that load made it newer (`Noted`). One step either leaves both the file and
what is loaded, or ends with the file loaded, or fails (`Turn`), and this carries the invariant
`Abreast` along a run.

Nothing else tells a change. A file that is put in place with the very time of the load, or an
earlier one, is taken for the one that was loaded (`not_current_unnoticed`).
-/

namespace Roadmap

namespace Session

open Work

/-- The session has loaded the file as it is. -/
def Current (d : Desk) : Prop :=
  ∃ (text : String) (time : Int), d.disk.node = .file (.text text) time
    ∧ d.session.text = Text.unix text

/-- What an operation on `d` can come to, as far as the file and what is loaded are concerned. -/
inductive Turn {α : Type} (d : Desk) : Except Fault α × Desk → Prop
  | kept {r : Except Fault α} {d' : Desk} (hloaded : d'.session.loaded = d.session.loaded)
      (hdisk : d'.disk = d.disk) : Turn d (r, d')
  | current {r : Except Fault α} {d' : Desk} (h : Current d') : Turn d (r, d')
  /-- Something else may be on the disk by now. -/
  | unread {f : Fault} {d' : Desk} (hloaded : d'.session.loaded = d.session.loaded) :
      Turn d (.error f, d')

/-! ## One step -/

section

variable {α β : Type} {d d' : Desk} {f : Fault}

/-- A fault is passed on. -/
theorem Turn.error (h : Turn d ((.error f, d') : Except Fault α × Desk)) :
    Turn d ((.error f, d') : Except Fault β × Desk) := by
  cases h with
  | kept hloaded hdisk => exact .kept hloaded hdisk
  | current h => exact .current h
  | unread hloaded => exact .unread hloaded

/-- Once all went well, only the log moves on. -/
theorem Turn.ok {a : α} (h : Turn d (.ok a, d')) (log : History) (b : β) :
    Turn d (.ok b, withHistory d' log) := by
  cases h with
  | kept hloaded hdisk => exact .kept hloaded hdisk
  | current h => exact .current h

/-- What is done does not depend on the rest of the session. -/
theorem Turn.of_loaded {d₀ : Desk} {p : Except Fault α × Desk} (h : Turn d₀ p)
    (hloaded : d₀.session.loaded = d.session.loaded) (hdisk : d₀.disk = d.disk) : Turn d p := by
  cases h with
  | kept hkept hsame => exact .kept (hkept.trans hloaded) (hsame.trans hdisk)
  | current h => exact .current h
  | unread hkept => exact .unread (hkept.trans hloaded)

theorem current_of_read {path text : String} {time : Int} {o : Outline}
    (hread : d.disk.read path = .ok (text, time)) :
    Current { d with session := d.session.withLoaded text time o } := by
  obtain ⟨s, hnode, htext⟩ := Disk.exists_node_of_read hread
  exact ⟨s, time, hnode, htext⟩

theorem turn_reload (d : Desk) : Turn d (reload.on d) := by
  rw [on_reload]
  split
  · exact .kept rfl rfl
  · split
    · exact .kept rfl rfl
    · next hread =>
        split
        · exact .kept rfl rfl
        · exact .current (current_of_read hread)

theorem turn_store (text : String) (d : Desk) : Turn d ((store text).on d) := by
  have hs := stored_store text d
  rcases heq : (store text).on d with ⟨r, d'⟩
  rw [heq] at hs
  cases hs with
  | refused f => exact .kept rfl rfl
  | unreadable path disk f hpath hwrite hread => exact .unread rfl
  | loaded path disk o hpath hwrite hread =>
      exact .current ⟨text, _, (Disk.read_of_write hwrite).1, rfl⟩

/-- The directories that a start creates are there even if it fails after that. -/
theorem turn_create (text : String) (d : Desk) :
    Turn d ((do changeDisk Disk.makeWay; store text).on d) := by
  simp only [on_bind, on_changeDisk]
  cases d.session.path with
  | none => exact .kept rfl rfl
  | some path =>
      simp only
      cases d.disk.makeWay path with
      | error f => exact .kept rfl rfl
      | ok disk =>
          show Turn d ((store text).on { d with disk := disk })
          have hs := stored_store text { d with disk := disk }
          rcases heq : (store text).on { d with disk := disk } with ⟨r, d'⟩
          rw [heq] at hs
          cases hs with
          | refused f => exact .unread rfl
          | unreadable path disk f hpath hwrite hread => exact .unread rfl
          | loaded path disk o hpath hwrite hread =>
              exact .current ⟨text, _, (Disk.read_of_write hwrite).1, rfl⟩

theorem turn_applyDrag (drag : Plan.Drag) (d : Desk) : Turn d ((applyDrag drag).on d) := by
  rw [on_applyDrag]
  split
  · exact .kept rfl rfl
  · split
    · exact .kept rfl rfl
    · split
      · exact .kept rfl rfl
      · next text _ =>
          have hstore := turn_store text d
          rcases heq : (store text).on d with ⟨f | _, d'⟩
          all_goals rw [heq] at hstore
          · exact hstore.error
          · exact hstore.ok d'.session.history _

theorem turn_commit (drag : Plan.Drag) (d : Desk) : Turn d ((commit drag).on d) := by
  have hdrag := turn_applyDrag drag d
  rw [on_commit]
  rcases heq : (applyDrag drag).on d with ⟨f | _ | ⟨before, after⟩, d'⟩
  all_goals rw [heq] at hdrag
  · exact hdrag.error
  · exact hdrag.ok d'.session.history _
  · exact hdrag.ok _ _

theorem turn_update (id : String) (changes : List Outline.Change) (d : Desk) :
    Turn d ((update id changes).on d) := by
  rw [on_update]
  split
  · exact .kept rfl rfl
  · split
    · exact .kept rfl rfl
    · next text _ =>
        have hstore := turn_store text d
        rcases heq : (store text).on d with ⟨f | _, d'⟩
        all_goals rw [heq] at hstore
        · exact hstore.error
        · simp only
          split
          · exact hstore.ok d'.session.history _
          · split
            · exact hstore.ok _ _
            · exact hstore.ok d'.session.history _

theorem turn_call (c : Outline.EditCall) (d : Desk) : Turn d ((call c).on d) := by
  rw [on_call]
  split
  · exact .kept rfl rfl
  · exact .kept rfl rfl
  · next e _ =>
      rw [on_edit]
      split
      · exact .kept rfl rfl
      · have hstore := turn_store (e.apply d.session.text) d
        rcases heq : (store (e.apply d.session.text)).on d with ⟨f | _, d'⟩
        all_goals rw [heq] at hstore
        · exact hstore.error
        · exact hstore.ok _ _

theorem turn_restore (a : Action) (p : Placement) (d : Desk) : Turn d ((restore a p).on d) := by
  rw [on_restore]
  split
  · exact .kept rfl rfl
  · next t _ =>
      have hdrag := turn_applyDrag { task := t.id, start := p.start, duration := some p.duration } d
      rcases heq : (applyDrag { task := t.id, start := p.start, duration := some p.duration }).on d
        with ⟨f | _, d'⟩
      all_goals rw [heq] at hdrag
      · exact hdrag.error
      · exact hdrag.ok d'.session.history _

theorem turn_replay (move : History → History × Option Action) (aim : Action → Placement)
    (d : Desk) : Turn d ((replay move aim).on d) := by
  rw [on_replay]
  split
  · exact .kept rfl rfl
  · next log a _ =>
      have hrestore : Turn d ((restore a (aim a)).on (withHistory d log)) :=
        (turn_restore a (aim a) (withHistory d log)).of_loaded rfl rfl
      rcases heq : (restore a (aim a)).on (withHistory d log) with ⟨f | _, d'⟩
      all_goals rw [heq] at hrestore
      · exact hrestore.error
      · exact hrestore.ok d'.session.history _

theorem turn_start (path : String) (create : Bool) (d : Desk) :
    Turn d ((start path create).on d) := by
  generalize hd₀ : ({ d with session := { d.session with path := some path } } : Desk) = d₀
  have hturn : Turn d₀ ((start path create).on d) := by
    simp only [start, modifySession, on_bind, on_modify, on_get, hd₀]
    split
    · split
      · exact turn_create (Outline.starter d₀.session.today) d₀
      · exact .kept rfl rfl
    · exact turn_reload d₀
  exact hturn.of_loaded (hd₀ ▸ rfl) (hd₀ ▸ rfl)

/-- Loading does not write. -/
theorem keeps_turn (d₀ : Desk) : Keeps (fun d => d.disk = d₀.disk
    ∧ (d.session.loaded = d₀.session.loaded ∨ Current d)) reload := by
  rintro d ⟨hdisk, h⟩
  rw [on_reload]
  split
  · exact ⟨hdisk, h⟩
  · split
    · exact ⟨hdisk, h⟩
    · next hread =>
        split
        · exact ⟨hdisk, h⟩
        · exact ⟨hdisk, .inr (current_of_read hread)⟩

theorem turn_of_loads {w : Work α} {d : Desk} (h : (w.on d).2.disk = d.disk
    ∧ ((w.on d).2.session.loaded = d.session.loaded ∨ Current (w.on d).2)) : Turn d (w.on d) := by
  rcases heq : w.on d with ⟨r, d'⟩
  rw [heq] at h
  obtain ⟨hdisk, hloaded | hcurrent⟩ := h
  · exact .kept hloaded hdisk
  · exact .current hcurrent

theorem turn_quiet {w : Work α} (h : Turn d (w.on d)) : Turn d (w.quiet.on d) := by
  rw [on_quiet]
  rcases heq : w.on d with ⟨f | a, d'⟩
  all_goals rw [heq] at h
  · exact h.error
  · exact h.ok d'.session.history _

theorem turn_perform (o : Operation) (d : Desk) : Turn d (o.perform.on d) := by
  have hrefl : d.disk = d.disk ∧ (d.session.loaded = d.session.loaded ∨ Current d) :=
    ⟨rfl, .inl rfl⟩
  cases o with
  | start path create => exact turn_start path create d
  | reload => exact turn_reload d
  | refresh => exact turn_quiet (turn_of_loads (keeps_refresh (keeps_turn d) d hrefl))
  | askRefresh => exact .kept rfl rfl
  | drain => exact turn_of_loads (keeps_drain (fun _ _ h => h) (keeps_turn d) d hrefl)
  | commit drag => exact turn_quiet (turn_commit drag d)
  | update id changes => exact turn_quiet (turn_update id changes d)
  | edit c => exact turn_quiet (turn_call c d)
  | undo => exact turn_quiet (turn_replay History.undo Action.before d)
  | redo => exact turn_quiet (turn_replay History.redo Action.after d)

end

/-! ## A run -/

/-- The node holds no file, or one that is newer than what is loaded. -/
def Newer (s : Session) (node : Node) : Prop :=
  ∀ contents time, node = .file contents time → s.time < time

/-- The operation has loaded something else, or has written the file and read it back. -/
def Operation.Loads (o : Operation) (d : Desk) : Prop :=
  (o.perform.on d).2.session.loaded ≠ d.session.loaded
    ∨ (o.perform.on d).1 = .ok () ∧ (o.perform.on d).2.disk ≠ d.disk

/-- The desks at the end of a run in which whatever has come over the file since the last load made
it newer. What came before that load does not matter. -/
inductive Noted : Desk → Prop
  | fresh (today : Date) (stamp : String) (disk : Disk)
      (hnewer : Newer { today := today, stamp := stamp } disk.node) :
      Noted ⟨{ today := today, stamp := stamp }, disk⟩
  | outside {d : Desk} (node : Node) (hnewer : d.session.Newer node) :
      d.Reachable → Noted { d with disk := { d.disk with node := node } }
  | load {d : Desk} {o : Operation} (hload : o.Loads d) :
      d.Reachable → Noted (o.perform.on d).2
  /-- A text that is written but cannot be read back comes over the file like any other. -/
  | step {d : Desk} (o : Operation) (hnewer : ∀ f, (o.perform.on d).1 = .error f →
      (o.perform.on d).2.disk ≠ d.disk → d.session.Newer (o.perform.on d).2.disk.node) :
      Noted d → Noted (o.perform.on d).2

theorem Noted.reachable {d : Desk} (h : Noted d) : d.Reachable := by
  induction h with
  | fresh today stamp disk => exact .fresh today stamp disk
  | outside node _ h => exact h.outside node
  | load _ h => exact h.step _
  | step o _ _ ih => exact ih.step o

/-- The file is newer than what is loaded, or it is what is loaded. -/
def Abreast (d : Desk) : Prop :=
  ∀ contents time, d.disk.node = .file contents time →
    d.session.time < time ∨ ∃ text, contents = .text text ∧ d.session.text = Text.unix text

section

variable {d d' : Desk}

theorem abreast_of_newer (h : d.session.Newer d.disk.node) : Abreast d :=
  fun contents time hnode => .inl (h contents time hnode)

theorem Current.abreast (h : Current d) : Abreast d := by
  obtain ⟨text, time, hnode, htext⟩ := h
  intro contents time' hnode'
  obtain ⟨rfl, rfl⟩ := Node.file.inj (hnode.symm.trans hnode')
  exact .inr ⟨text, rfl, htext⟩

theorem Abreast.congr (h : Abreast d) (hloaded : d'.session.loaded = d.session.loaded)
    (hdisk : d'.disk = d.disk) : Abreast d' := by
  intro contents time hnode
  rw [hdisk] at hnode
  rw [Session.time, Session.text, hloaded]
  exact h contents time hnode

end

theorem Noted.abreast {d : Desk} (h : Noted d) : Abreast d := by
  induction h with
  | fresh _ _ _ hnewer => exact abreast_of_newer hnewer
  | outside _ hnewer => exact abreast_of_newer hnewer
  | @load d o hload =>
      have hturn := turn_perform o d
      rw [Operation.Loads] at hload
      rcases heq : o.perform.on d with ⟨r, d'⟩
      rw [heq] at hturn hload
      cases hturn with
      | kept hloaded hdisk => exact (hload.elim (· hloaded) (·.2 hdisk)).elim
      | current h => exact h.abreast
      | unread hloaded => exact (hload.elim (· hloaded) fun h => nomatch h.1).elim
  | @step d o hnewer _ ih =>
      have hturn := turn_perform o d
      rcases heq : o.perform.on d with ⟨r, d'⟩
      rw [heq] at hturn hnewer
      cases hturn with
      | kept hloaded hdisk => exact ih.congr hloaded hdisk
      | current h => exact h.abreast
      | @unread f _ hloaded =>
          by_cases hdisk : d'.disk = d.disk
          · exact ih.congr hloaded hdisk
          · refine abreast_of_newer fun contents time hnode => ?_
            rw [Session.time, hloaded]
            exact hnewer f rfl hdisk contents time hnode

/-- A session that is not stale has the text of the file, if whatever came over the file since the
last load made it newer. -/
theorem text_of_not_stale {d : Desk} (h : Noted d) (hpath : d.session.path.isSome) {text : String}
    {time : Int} (hnode : d.disk.node = .file (.text text) time) (hstale : d.isStale = false) :
    d.session.text = Text.unix text := by
  rcases h.abreast _ _ hnode with hlater | ⟨s, hs, htext⟩
  · rw [Desk.isStale, hpath, Disk.time?, hnode] at hstale
    exact absurd hlater (of_decide_eq_false hstale)
  · cases hs
    exact htext

/-! ### An unnoticed rewrite -/

namespace Sample

/-- The small session, after others have put a longer outline in the place of its file, with the
time that the file had. -/
def unnoticed : Desk :=
  { desk none 1000000 {} with disk := ⟨.file (.text longer) 1000000, 1000000⟩ }

theorem reachable_unnoticed : unnoticed.Reachable :=
  reachable_desk.outside (.file (.text longer) 1000000)

theorem perform_unnoticed : ((Operation.commit drag).perform.on unnoticed).2
    = desk (some later) 1001000 { undoable := [action] } := by
  rw [Operation.perform, on_quiet]
  exact commit_of_write unnoticed.disk rfl

/-- The session has the file again that it has written. -/
theorem noted_desk : Noted (desk (some later) 1001000 { undoable := [action] }) := by
  have hloads : (Operation.commit drag).Loads unnoticed := by
    refine .inl fun h => ?_
    rw [perform_unnoticed] at h
    exact absurd (congrArg Loaded.time (Option.some.inj h)) (by decide)
  have hnoted := Noted.load hloads reachable_unnoticed
  rwa [perform_unnoticed] at hnoted

end Sample

theorem text_of_not_stale_desk :
    Noted (Sample.desk (some Sample.later) 1001000 { undoable := [Sample.action] })
      ∧ (Sample.desk (some Sample.later) 1001000 { undoable := [Sample.action] }).isStale = false
      ∧ (Sample.desk (some Sample.later) 1001000 { undoable := [Sample.action] }).session.text
        = Text.unix (Sample.text (some Sample.later)) :=
  ⟨Sample.noted_desk, rfl, text_of_not_stale Sample.noted_desk rfl rfl rfl⟩

/-- A file that is not newer than the one that was loaded passes for it. -/
theorem not_current_unnoticed : Sample.unnoticed.Reachable
    ∧ Sample.unnoticed.session.path.isSome ∧ Sample.unnoticed.isStale = false
    ∧ Sample.unnoticed.disk.node = .file (.text Sample.longer) 1000000
    ∧ Sample.unnoticed.session.text ≠ Text.unix Sample.longer := by
  refine ⟨Sample.reachable_unnoticed, rfl, rfl, rfl, ?_⟩
  rw [Text.unix_of_not_mem (by decide)]
  decide

end Session

end Roadmap
