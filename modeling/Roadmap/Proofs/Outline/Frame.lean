import Roadmap.Proofs.Outline.Shape

/-!
# The frame of an outline

What remains of an outline when all is forgotten but which projects it has, which lines hold their
tasks, and the levels of these (`Project.bare`). It is a matter of the shapes of the lines alone, so
a patch keeps it.

Each task is what its line says, and the lines of the tasks increase from the first project to the
last, so a line holds at most one task.
-/

namespace Roadmap.Outline

/-! ## Bare outlines -/

def Task.bare (t : Task) : Task := { level := t.level, title := "", duration := 0, line := t.line }

def Project.bare (p : Project) : Project := { name := "", tasks := p.tasks.map Task.bare }

def Statement.bare : Statement → Statement
  | .header _ => .header { name := "" }
  | .task t => .task t.bare
  | .silent => .silent

theorem gather_header (p : Project) (ss : List Statement) : gather (.header p :: ss)
    = ([], { p with tasks := (gather ss).1 } :: (gather ss).2) := rfl

theorem gather_task (t : Task) (ss : List Statement) :
    gather (.task t :: ss) = (t :: (gather ss).1, (gather ss).2) := rfl

theorem gather_silent (ss : List Statement) : gather (.silent :: ss) = gather ss := rfl

/-- What is done to statements one by one is done to the tasks and projects that they come to. -/
theorem gather_map {ofStatement : Statement → Statement} {ofTask : Task → Task}
    {ofProject : Project → Project} (htask : ∀ t, ofStatement (.task t) = .task (ofTask t))
    (hsilent : ofStatement .silent = .silent)
    (hheader : ∀ p ts, ∃ q, ofStatement (.header p) = .header q
      ∧ { q with tasks := ts.map ofTask } = ofProject { p with tasks := ts })
    (ss : List Statement) : gather (ss.map ofStatement)
      = ((gather ss).1.map ofTask, (gather ss).2.map ofProject) := by
  induction ss with
  | nil => rfl
  | cons s ss ih =>
      rw [List.map_cons]
      cases s with
      | header p =>
          obtain ⟨q, hq, hproject⟩ := hheader p (gather ss).1
          rw [hq, gather_header, gather_header, ih, hproject]
          rfl
      | task t =>
          rw [htask, gather_task, gather_task, ih]
          rfl
      | silent => rw [hsilent, gather_silent, gather_silent, ih]

theorem gather_bare (ss : List Statement) :
    gather (ss.map Statement.bare)
      = ((gather ss).1.map Task.bare, (gather ss).2.map Project.bare) :=
  gather_map (fun _ => rfl) rfl (fun _ _ => ⟨_, rfl, rfl⟩) ss

/-- What a line of a shape says, as far as the shape tells. -/
def Shape.statement (number : Int) : Shape → Statement
  | .header => .header { name := "" }
  | .task level => .task { level := level, title := "", duration := 0, line := number }
  | .silent => .silent

theorem readLine_eq_ok {line : Text.Line} {number : Int} {s : Statement}
    (h : readLine line number = .ok s) :
    match s with
    | .header _ => isHeader (Text.dropTrailing (· == '\r') line)
    | .task t => isHeader (Text.dropTrailing (· == '\r') line) = false
        ∧ readTask? line number = .ok (some t)
    | .silent => isHeader (Text.dropTrailing (· == '\r') line) = false
        ∧ readTask? line number = .ok none := by
  rw [readLine, readHeader?] at h
  rw [isHeader]
  cases hheader : headerText? (Text.dropTrailing (· == '\r') line) with
  | some text =>
      rw [hheader] at h
      cases h
      rfl
  | none =>
      rw [hheader] at h
      cases ht : readTask? line number with
      | error f =>
          rw [ht] at h
          cases h
      | ok t? =>
          rw [ht] at h
          cases t? with
          | none =>
              cases h
              exact ⟨rfl, rfl⟩
          | some t =>
              cases h
              exact ⟨rfl, rfl⟩

theorem readLine_bare {line : Text.Line} {number : Int} {s : Statement}
    (h : readLine line number = .ok s) : s.bare = (shape line).statement number := by
  have hs := readLine_eq_ok h
  cases s with
  | header p =>
      rw [shape, if_pos hs]
      rfl
  | task t =>
      obtain ⟨p, hp, hlevel, -, -, hline, -⟩ := readTask?_eq_some hs.2
      rw [shape]
      simp only [hs.1, hp, Bool.false_eq_true, if_false]
      rw [Statement.bare, Task.bare, Shape.statement, hlevel, hline]
  | silent =>
      have hp : taskParts? (Text.dropTrailing (· == '\r') line) = none := by
        cases hp : taskParts? (Text.dropTrailing (· == '\r') line) with
        | none => rfl
        | some p =>
            have h := hs.2
            rw [readTask?_of_parts number hp] at h
            split at h
            · cases h
            · cases h
      rw [shape]
      simp only [hs.1, hp, Bool.false_eq_true, if_false]
      rfl

theorem readLines_cons_eq_ok {line : Text.Line} {lines : List Text.Line} {number : Int}
    {ss : List Statement} (h : readLines number (line :: lines) = .ok ss) :
    ∃ s rest, ss = s :: rest ∧ readLine line number = .ok s
      ∧ readLines (number + 1) lines = .ok rest := by
  obtain ⟨s, hs, h⟩ := bind_eq_ok h
  obtain ⟨rest, hrest, h⟩ := bind_eq_ok h
  cases h
  exact ⟨s, rest, rfl, hs, hrest⟩

/-- Lines of the same shapes say the same, as far as shapes tell. -/
theorem readLines_bare {lines lines' : List Text.Line} (hshape : lines.map shape = lines'.map shape)
    {number : Int} {ss ss' : List Statement} (h : readLines number lines = .ok ss)
    (h' : readLines number lines' = .ok ss') : ss.map Statement.bare = ss'.map Statement.bare := by
  induction lines generalizing lines' number ss ss' with
  | nil =>
      obtain rfl := List.map_eq_nil_iff.mp hshape.symm
      cases h
      cases h'
      rfl
  | cons line lines ih =>
      cases lines' with
      | nil => cases hshape
      | cons line' lines' =>
          rw [List.map_cons, List.map_cons] at hshape
          obtain ⟨hline, hlines⟩ := List.cons.inj hshape
          obtain ⟨s, rest, rfl, hs, hrest⟩ := readLines_cons_eq_ok h
          obtain ⟨s', rest', rfl, hs', hrest'⟩ := readLines_cons_eq_ok h'
          rw [List.map_cons, List.map_cons, readLine_bare hs, readLine_bare hs', hline,
            ih hlines hrest hrest']

theorem read_eq_ok {text : String} {today : Date} {o : Outline} (h : read text today = .ok o) :
    ∃ ss, readLines 1 (Text.linesOf text.toList) = .ok ss ∧ o.projects = (gather ss).2 := by
  obtain ⟨ss, hss, h⟩ := bind_eq_ok h
  cases h
  exact ⟨ss, hss, rfl⟩

/-- Texts whose lines have the same shapes stand for outlines of one frame. -/
theorem bare_of_shapes {text text' : String} {today today' : Date} {o o' : Outline}
    (hshape : (Text.linesOf text.toList).map shape = (Text.linesOf text'.toList).map shape)
    (h : read text today = .ok o) (h' : read text' today' = .ok o') :
    o.projects.map Project.bare = o'.projects.map Project.bare := by
  obtain ⟨ss, hss, ho⟩ := read_eq_ok h
  obtain ⟨ss', hss', ho'⟩ := read_eq_ok h'
  have hgather := congrArg gather (readLines_bare hshape hss hss')
  rw [gather_bare, gather_bare] at hgather
  rw [ho, ho']
  exact congrArg Prod.snd hgather

/-! ## Headers and their lines -/

/-- The numbers of the headers of statements in their order. -/
def headersOf (ss : List Statement) : List Int :=
  ss.filterMap fun
    | .header p => some p.line
    | _ => none

theorem gather_headers (ss : List Statement) : (gather ss).2.map (·.line) = headersOf ss := by
  induction ss with
  | nil => rfl
  | cons s ss ih =>
      rw [gather]
      cases s with
      | header p => exact congrArg (p.line :: ·) ih
      | task t => exact ih
      | silent => exact ih

theorem line_of_header {line : Text.Line} {number : Int} {p : Project}
    (h : readLine line number = .ok (.header p)) : p.line = number := by
  rw [readLine] at h
  split at h
  · next q hheader =>
      cases h
      obtain ⟨text, -, rfl⟩ := Option.map_eq_some_iff.mp hheader
      rfl
  · generalize readTask? line number = found at h
    rcases found with f | _ | t
    · cases h
    · cases h
    · cases h

theorem headersOf_of_shapes {lines lines' : List Text.Line}
    (hshape : lines.map shape = lines'.map shape) {number : Int} {ss ss' : List Statement}
    (h : readLines number lines = .ok ss) (h' : readLines number lines' = .ok ss') :
    headersOf ss = headersOf ss' := by
  induction lines generalizing lines' number ss ss' with
  | nil =>
      obtain rfl := List.map_eq_nil_iff.mp hshape.symm
      cases h
      cases h'
      rfl
  | cons line lines ih =>
      cases lines' with
      | nil => cases hshape
      | cons line' lines' =>
          rw [List.map_cons, List.map_cons] at hshape
          obtain ⟨hline, hlines⟩ := List.cons.inj hshape
          obtain ⟨s, rest, rfl, hs, hrest⟩ := readLines_cons_eq_ok h
          obtain ⟨s', rest', rfl, hs', hrest'⟩ := readLines_cons_eq_ok h'
          have hbare : s.bare = s'.bare := by
            rw [readLine_bare hs, readLine_bare hs', hline]
          have hheaders := ih hlines hrest hrest'
          cases s with
          | header p =>
              cases s' with
              | header p' =>
                  have hp : p.line = p'.line := (line_of_header hs).trans (line_of_header hs').symm
                  exact congrArg₂ List.cons hp hheaders
              | task t' => cases hbare
              | silent => cases hbare
          | task t =>
              cases s' with
              | header p' => cases hbare
              | task t' => exact hheaders
              | silent => cases hbare
          | silent =>
              cases s' with
              | header p' => cases hbare
              | task t' => cases hbare
              | silent => exact hheaders

/-- The line of a project and those of its tasks. -/
def Project.spots (p : Project) : Int × List Int := (p.line, p.tasks.map (·.line))

/-- Texts whose lines have the same shapes have their projects and tasks on the same lines. -/
theorem spots_of_shapes {text text' : String} {today today' : Date} {o o' : Outline}
    (hshape : (Text.linesOf text.toList).map shape = (Text.linesOf text'.toList).map shape)
    (h : read text today = .ok o) (h' : read text' today' = .ok o') :
    o.projects.map Project.spots = o'.projects.map Project.spots := by
  have hspots : ∀ ps : List Project, ps.map Project.spots
      = (ps.map (·.line)).zip ((ps.map Project.bare).map fun p => p.tasks.map (·.line)) := by
    intro ps
    rw [List.map_map, List.zip_map']
    refine List.map_congr_left fun p _ => congrArg (Prod.mk p.line) ?_
    rw [Function.comp_apply, Project.bare, List.map_map]
    rfl
  have hheaders : o.projects.map (·.line) = o'.projects.map (·.line) := by
    obtain ⟨ss, hss, ho⟩ := read_eq_ok h
    obtain ⟨ss', hss', ho'⟩ := read_eq_ok h'
    rw [ho, ho', gather_headers, gather_headers]
    exact headersOf_of_shapes hshape hss hss'
  rw [hspots, hspots, hheaders, bare_of_shapes hshape h h']

/-! ## Tasks and their lines -/

/-- The statement of a line can be replaced with the line. -/
theorem readLines_set {lines : List Text.Line} {number : Int} {ss : List Statement}
    (h : readLines number lines = .ok ss) {i : Nat} {s : Statement} (hi : ss[i]? = some s) :
    ∃ line, lines[i]? = some line ∧ readLine line (number + i) = .ok s
      ∧ ∀ line' s', readLine line' (number + i) = .ok s' →
        readLines number (lines.set i line') = .ok (ss.set i s') := by
  induction lines generalizing number ss i with
  | nil =>
      cases h
      cases hi
  | cons line lines ih =>
      obtain ⟨s₀, rest, rfl, hs₀, hrest⟩ := readLines_cons_eq_ok h
      cases i with
      | zero =>
          obtain rfl := Option.some.inj hi
          rw [Nat.cast_zero, add_zero]
          refine ⟨line, rfl, hs₀, fun line' s' hs' => ?_⟩
          rw [List.set_cons_zero, readLines, hs', hrest]
          rfl
      | succ i =>
          obtain ⟨l, hl, hs, hset⟩ := ih hrest hi
          have hshift : number + 1 + i = number + (i + 1 : Nat) := by omega
          rw [hshift] at hs hset
          refine ⟨l, hl, hs, fun line' s' hs' => ?_⟩
          rw [List.set_cons_succ, readLines, hs₀, hset line' s' hs']
          rfl

theorem readLines_getElem? {lines : List Text.Line} {number : Int} {ss : List Statement}
    (h : readLines number lines = .ok ss) {s : Statement} (hs : s ∈ ss) :
    ∃ (i : Nat) (line : Text.Line), lines[i]? = some line
      ∧ readLine line (number + i) = .ok s := by
  obtain ⟨i, hi⟩ := List.mem_iff_getElem?.mp hs
  obtain ⟨line, hline, hread, -⟩ := readLines_set h hi
  exact ⟨i, line, hline, hread⟩

/-- The tasks of statements in their order. -/
def tasksOf (ss : List Statement) : List Task :=
  ss.filterMap fun
    | .task t => some t
    | _ => none

theorem gather_tasks (ss : List Statement) :
    (gather ss).1 ++ (gather ss).2.flatMap (·.tasks) = tasksOf ss := by
  induction ss with
  | nil => rfl
  | cons s ss ih =>
      rw [gather]
      cases s with
      | header p => exact ih
      | task t => exact congrArg (t :: ·) ih
      | silent => exact ih

theorem tasksOf_sorted {lines : List Text.Line} {number : Int} {ss : List Statement}
    (h : readLines number lines = .ok ss) :
    ((tasksOf ss).map (·.line)).Pairwise (· < ·) ∧ ∀ t ∈ tasksOf ss, number ≤ t.line := by
  induction lines generalizing number ss with
  | nil =>
      cases h
      exact ⟨List.Pairwise.nil, by rintro t ⟨⟩⟩
  | cons line lines ih =>
      obtain ⟨s, rest, rfl, hs, hrest⟩ := readLines_cons_eq_ok h
      obtain ⟨hsorted, hleast⟩ := ih hrest
      have hlater : ∀ t ∈ tasksOf rest, number ≤ t.line := by
        intro t ht
        have := hleast t ht
        omega
      cases s with
      | header p => exact ⟨hsorted, hlater⟩
      | silent => exact ⟨hsorted, hlater⟩
      | task t =>
          obtain ⟨-, -, -, -, -, hline, -⟩ := readTask?_eq_some (readLine_eq_ok hs).2
          refine ⟨List.pairwise_cons.mpr ⟨fun l hl => ?_, hsorted⟩, fun t' ht' => ?_⟩
          · obtain ⟨t', ht', rfl⟩ := List.mem_map.mp hl
            have := hleast t' ht'
            show t.line < t'.line
            omega
          · rcases List.mem_cons.mp ht' with rfl | ht'
            · omega
            · exact hlater t' ht'

/-- The lines of the tasks increase through the whole outline. -/
theorem lines_sorted {text : String} {today : Date} {o : Outline} (h : read text today = .ok o) :
    ((o.projects.flatMap (·.tasks)).map (·.line)).Pairwise (· < ·) := by
  obtain ⟨ss, hss, ho⟩ := read_eq_ok h
  have hsorted := (tasksOf_sorted hss).1
  rw [← gather_tasks, List.map_append] at hsorted
  rw [ho]
  exact (List.pairwise_append.mp hsorted).2.1

/-- Each task is what its line says. -/
theorem exists_line {text : String} {today : Date} {o : Outline} (h : read text today = .ok o)
    {p : Project} (hp : p ∈ o.projects) {t : Task} (ht : t ∈ p.tasks) :
    ∃ (i : Nat) (line : Text.Line), (Text.linesOf text.toList)[i]? = some line ∧ t.line = i + 1
      ∧ readTask? line t.line = .ok (some t) := by
  obtain ⟨ss, hss, ho⟩ := read_eq_ok h
  have hmem : t ∈ tasksOf ss := by
    rw [← gather_tasks]
    exact List.mem_append_right _ (List.mem_flatMap.mpr ⟨p, ho ▸ hp, ht⟩)
  obtain ⟨s, hs, heq⟩ := List.mem_filterMap.mp hmem
  cases s with
  | header q => cases heq
  | silent => cases heq
  | task t' =>
      cases heq
      obtain ⟨i, line, hi, hread⟩ := readLines_getElem? hss hs
      have hread := (readLine_eq_ok hread).2
      obtain ⟨-, -, -, -, -, hline, -⟩ := readTask?_eq_some hread
      have hnumber : t.line = i + 1 := by omega
      exact ⟨i, line, hi, hnumber, by rw [hline]; exact hread⟩

end Roadmap.Outline
