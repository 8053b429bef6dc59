import Roadmap.Outline.Edit
import Roadmap.Proofs.Outline.Overlong

/-!
# Outlines as rows of sections

The lines of a text are a preamble and a row of sections, each a header with the lines up to the
next one (`Layout`). Reading goes by sections, one project for each (`Layout.gather_meaning`), and
what a section says does not depend on where it stands, except for the numbers of its lines. So
deleting or moving a project is deleting or moving its section in the row.

What has to line up is where a section starts, in the row as it is and in the row without the
section that is moved (`Layout.first_delete`, `Layout.first_delete_add`).
-/

namespace Roadmap.Outline

/-! ## Lines wherever they stand -/

def Task.unnumbered (t : Task) : Task := { t with line := 0 }

def Project.unnumbered (p : Project) : Project :=
  { p with line := 0, tasks := p.tasks.map Task.unnumbered }

def Statement.unnumbered : Statement → Statement
  | .header p => .header p.unnumbered
  | .task t => .task t.unnumbered
  | .silent => .silent

theorem gather_unnumbered (ss : List Statement) : gather (ss.map Statement.unnumbered)
    = ((gather ss).1.map Task.unnumbered, (gather ss).2.map Project.unnumbered) :=
  gather_map (fun _ => rfl) rfl (fun _ _ => ⟨_, rfl, rfl⟩) ss

theorem applyAll_unnumbered (t : Task) (ms : List Modifier) :
    (t.applyAll ms).unnumbered = t.unnumbered.applyAll ms := by
  rw [Task.applyAll, Task.applyAll]
  induction ms generalizing t with
  | nil => rfl
  | cons m ms ih =>
      have hm : (t.apply m).unnumbered = t.unnumbered.apply m := by cases m <;> rfl
      rw [List.foldl_cons, List.foldl_cons, ih, hm]

theorem readTask?_unnumbered (line : Text.Line) (number : Int) :
    (readTask? line number).map (·.map Task.unnumbered) = readTask? line 0 := by
  cases hparts : taskParts? (Text.dropTrailing (· == '\r') line) with
  | none =>
      rw [readTask?_of_no_parts number hparts, readTask?_of_no_parts 0 hparts]
      rfl
  | some p =>
      rw [readTask?_of_parts number hparts, readTask?_of_parts 0 hparts]
      split
      · rfl
      · exact congrArg (fun t => Except.ok (some t)) (applyAll_unnumbered (p.plain number) _)

theorem readLine_unnumbered (line : Text.Line) (number : Int) :
    (readLine line number).map Statement.unnumbered = readLine line 0 := by
  rw [readLine, readLine, readHeader?, readHeader?]
  cases headerText? (Text.dropTrailing (· == '\r') line) with
  | some text => rfl
  | none =>
      rw [Option.map_none, Option.map_none, ← readTask?_unnumbered line number]
      rcases readTask? line number with f | _ | t
      · rfl
      · rfl
      · rfl

/-- What a line says wherever it stands; a line that cannot be read says nothing. -/
def meaning (line : Text.Line) : Statement :=
  match readLine line 0 with
  | .ok s => s
  | .error _ => .silent

theorem meaning_of_readLine {line : Text.Line} {number : Int} {s : Statement}
    (h : readLine line number = .ok s) : meaning line = s.unnumbered := by
  rw [meaning, ← readLine_unnumbered line number, h]
  rfl

theorem map_meaning {lines : List Text.Line} {number : Int} {ss : List Statement}
    (h : readLines number lines = .ok ss) : lines.map meaning = ss.map Statement.unnumbered := by
  induction lines generalizing number ss with
  | nil =>
      cases h
      rfl
  | cons line lines ih =>
      obtain ⟨s, rest, rfl, hs, hrest⟩ := readLines_cons_eq_ok h
      rw [List.map_cons, List.map_cons, meaning_of_readLine hs, ih hrest]

/-- The text reads as these projects, up to the numbers of the lines. -/
def ReadsAs (text : String) (today : Date) (ps : List Project) : Prop :=
  ∃ o, read text today = .ok o ∧ o.projects.map Project.unnumbered = ps.map Project.unnumbered

theorem projects_eq_meaning {text : String} {today : Date} {o : Outline}
    (h : read text today = .ok o) :
    o.projects.map Project.unnumbered = (gather ((Text.linesOf text.toList).map meaning)).2 := by
  obtain ⟨ss, hss, ho⟩ := read_eq_ok h
  rw [ho, map_meaning hss, gather_unnumbered]

theorem readsAs_of_meaning {lines : List Text.Line} (hlines : ∀ l ∈ lines, '\n' ∉ l)
    (hshort : ∀ l ∈ lines, overlong? l = none) (today : Date) {ps : List Project}
    (hps : (gather (lines.map meaning)).2 = ps.map Project.unnumbered) :
    ReadsAs (String.ofList (Text.unlines lines)) today ps := by
  -- a text has a line even if nothing is left of it
  obtain ⟨lines', hsplit, hshort', hps'⟩ : ∃ lines',
      Text.linesOf (Text.unlines lines) = lines' ∧ (∀ l ∈ lines', overlong? l = none)
      ∧ (gather (lines'.map meaning)).2 = ps.map Project.unnumbered := by
    by_cases hne : lines = []
    · subst hne
      refine ⟨[[]], rfl, fun l hl => ?_, ?_⟩
      · rw [List.mem_singleton.mp hl]
        rfl
      · rw [← hps]
        rfl
    · exact ⟨lines, Text.linesOf_unlines hne hlines, hshort, hps⟩
  obtain ⟨ss, hss⟩ := (exists_readLines_iff_short lines' 1).mpr hshort'
  have hread : read (String.ofList (Text.unlines lines)) today
      = .ok ⟨startDay (Text.unlines lines) today, (gather ss).2⟩ := by
    rw [read, String.toList_ofList, hsplit, hss]
    rfl
  refine ⟨_, hread, ?_⟩
  rw [projects_eq_meaning hread, String.toList_ofList, hsplit, hps']

/-! ## Sections -/

/-- A header with the lines below it that are none. -/
structure Section where
  head : Text.Line
  body : List Text.Line
  opens : isHeader head
  plain : ∀ l ∈ body, isHeader l = false

/-- The lines of a text, cut before each header. -/
structure Layout where
  preamble : List Text.Line
  sections : List Section
  plain : ∀ l ∈ preamble, isHeader l = false

def Section.lines (s : Section) : List Text.Line := s.head :: s.body

namespace Layout

def lines (l : Layout) : List Text.Line := l.preamble ++ l.sections.flatMap Section.lines

theorem exists_lines_eq (lines : List Text.Line) : ∃ l : Layout, l.lines = lines := by
  induction lines with
  | nil => exact ⟨⟨[], [], by rintro l ⟨⟩⟩, rfl⟩
  | cons line lines ih =>
      obtain ⟨⟨preamble, sections, plain⟩, rfl⟩ := ih
      cases hline : isHeader line with
      | true => exact ⟨⟨[], ⟨line, preamble, hline, plain⟩ :: sections, by rintro l ⟨⟩⟩, rfl⟩
      | false =>
          exact ⟨⟨line :: preamble, sections, List.forall_mem_cons.mpr ⟨hline, plain⟩⟩, rfl⟩

end Layout

/-! ## What sections say -/

/-- The project of a section, without the numbers of its lines. -/
def Section.project (s : Section) : Project :=
  match meaning s.head with
  | .header p => { p with tasks := (gather (s.body.map meaning)).1 }
  | _ => { name := "" }

theorem meaning_of_opens {line : Text.Line} (hone : OneLine line) (h : isHeader line) :
    ∃ p, meaning line = .header p := by
  obtain ⟨text, htext⟩ := Option.isSome_iff_exists.mp h
  rw [meaning, readLine, readHeader?, dropTrailing_of_oneLine hone, htext]
  exact ⟨_, rfl⟩

theorem meaning_of_plain {line : Text.Line} (hone : OneLine line) (h : isHeader line = false)
    (p : Project) : meaning line ≠ .header p := by
  intro heq
  rw [meaning] at heq
  split at heq
  · next s hread =>
      subst heq
      have hheader := readLine_eq_ok hread
      rw [dropTrailing_of_oneLine hone, h] at hheader
      cases hheader
  · cases heq

theorem gather_append {ss : List Statement} (h : ∀ s ∈ ss, ∀ p, s ≠ .header p)
    (rest : List Statement) :
    gather (ss ++ rest) = ((gather ss).1 ++ (gather rest).1, (gather rest).2) := by
  induction ss with
  | nil => rfl
  | cons s ss ih =>
      have hrest := ih fun s' hs' => h s' (List.mem_cons_of_mem s hs')
      cases s with
      | header p => exact absurd rfl (h _ List.mem_cons_self p)
      | task t => rw [List.cons_append, gather_task, gather_task, hrest, List.cons_append]
      | silent => rw [List.cons_append, gather_silent, gather_silent, hrest]

theorem gather_meaning_append {lines : List Text.Line} (hone : ∀ l ∈ lines, OneLine l)
    (h : ∀ l ∈ lines, isHeader l = false) (ss : List Statement) :
    gather (lines.map meaning ++ ss)
      = ((gather (lines.map meaning)).1 ++ (gather ss).1, (gather ss).2) := by
  refine gather_append (fun s hs => ?_) ss
  obtain ⟨line, hline, rfl⟩ := List.mem_map.mp hs
  exact meaning_of_plain (hone line hline) (h line hline)

/-- Each section is a project, whatever the other sections say. -/
theorem gather_sections {sections : List Section}
    (hone : ∀ l ∈ sections.flatMap Section.lines, OneLine l) :
    gather ((sections.flatMap Section.lines).map meaning)
      = ([], sections.map Section.project) := by
  induction sections with
  | nil => rfl
  | cons s sections ih =>
      rw [List.flatMap_cons, List.forall_mem_append, Section.lines, List.forall_mem_cons] at hone
      obtain ⟨⟨hhead, hbody⟩, hrest⟩ := hone
      obtain ⟨p, hp⟩ := meaning_of_opens hhead s.opens
      rw [List.flatMap_cons, Section.lines, List.cons_append, List.map_cons, List.map_append, hp,
        gather_header, gather_meaning_append hbody s.plain, ih hrest, List.append_nil,
        List.map_cons, Section.project, hp]

namespace Layout

variable {l : Layout}

theorem gather_meaning (hone : ∀ line ∈ l.lines, OneLine line) :
    (gather (l.lines.map meaning)).2 = l.sections.map Section.project := by
  rw [lines, List.forall_mem_append] at hone
  rw [lines, List.map_append, gather_meaning_append hone.1 l.plain, gather_sections hone.2]

/-! ## Where sections start -/

/-- The lines in front of the section with an index. -/
def before (l : Layout) (k : Nat) : List Text.Line :=
  l.preamble ++ (l.sections.take k).flatMap Section.lines

/-- The lines from a section on. -/
def after (l : Layout) (k : Nat) : List Text.Line := (l.sections.drop k).flatMap Section.lines

/-- The index of the first line of a section. -/
def first (l : Layout) (k : Nat) : Nat := (l.before k).length

theorem before_append_after (k : Nat) : l.before k ++ l.after k = l.lines := by
  rw [before, after, List.append_assoc, ← List.flatMap_append, List.take_append_drop, lines]

theorem isHeader_after {k : Nat} : ∀ line ∈ (l.after k).head?, isHeader line := by
  rw [after]
  cases l.sections.drop k with
  | nil => rintro line ⟨⟩
  | cons s sections =>
      rintro line ⟨⟩
      exact s.opens

section

variable {k : Nat} {s : Section} (hk : l.sections[k]? = some s)

include hk

theorem after_eq : l.after k = s.lines ++ l.after (k + 1) := by
  obtain ⟨hlt, rfl⟩ := List.getElem?_eq_some_iff.mp hk
  rw [after, List.drop_eq_getElem_cons hlt, List.flatMap_cons, after]

theorem before_succ : l.before (k + 1) = l.before k ++ s.lines := by
  rw [before, List.take_add_one, hk, List.flatMap_append, before, List.append_assoc]
  simp

theorem first_succ : l.first (k + 1) = l.first k + s.lines.length := by
  rw [first, before_succ hk, List.length_append, first]

end

theorem take_first (k : Nat) : l.lines.take (l.first k) = l.before k := by
  rw [← l.before_append_after k, first, List.take_left]

theorem drop_first (k : Nat) : l.lines.drop (l.first k) = l.after k := by
  rw [← l.before_append_after k, first, List.drop_left]

theorem first_of_length_le {k : Nat} (h : l.sections.length ≤ k) : l.first k = l.lines.length := by
  rw [first, before, List.take_of_length_le h, lines]

theorem first_le (k : Nat) : l.first k ≤ l.lines.length := by
  rw [← l.before_append_after k, List.length_append, first]
  exact Nat.le_add_right _ _

theorem first_mono {j k : Nat} (h : j ≤ k) : l.first j ≤ l.first k := by
  obtain ⟨d, rfl⟩ := Nat.exists_eq_add_of_le h
  have hprefix : l.before j <+: l.before (j + d) := by
    rw [before, before, List.take_add, List.flatMap_append, ← List.append_assoc]
    exact List.prefix_append _ _
  exact hprefix.length_le

end Layout

theorem readLines_append {xs ys : List Text.Line} {number : Int} {ss : List Statement}
    (h : readLines number (xs ++ ys) = .ok ss) : ∃ as bs, ss = as ++ bs
      ∧ readLines number xs = .ok as ∧ readLines (number + xs.length) ys = .ok bs := by
  induction xs generalizing number ss with
  | nil => exact ⟨[], ss, rfl, rfl, by simpa using h⟩
  | cons x xs ih =>
      obtain ⟨s, rest, rfl, hs, hrest⟩ := readLines_cons_eq_ok h
      obtain ⟨as, bs, rfl, has, hbs⟩ := ih hrest
      refine ⟨s :: as, bs, rfl, by rw [readLines, hs, has]; rfl, ?_⟩
      rwa [List.length_cons, Nat.cast_add, Nat.cast_one, add_comm (xs.length : Int) 1, ← add_assoc]

/-- The number of a project's line is that of the line its section starts with. -/
theorem Layout.line_of_section {l : Layout} (hone : ∀ line ∈ l.lines, OneLine line) {number : Int}
    {ss : List Statement} (h : readLines number l.lines = .ok ss) {k : Nat} {s : Section}
    (hk : l.sections[k]? = some s) :
    ((gather ss).2.map (·.line))[k]? = some (number + l.first k) := by
  rw [← l.before_append_after k, after_eq hk, Section.lines, List.cons_append] at h hone
  obtain ⟨as, bs, rfl, has, hbs⟩ := readLines_append h
  obtain ⟨t, bs, rfl, ht, -⟩ := readLines_cons_eq_ok hbs
  obtain ⟨hbefore, hafter⟩ := List.forall_mem_append.mp hone
  obtain ⟨q, hq⟩ := meaning_of_opens (List.forall_mem_cons.mp hafter).1 s.opens
  rw [meaning_of_readLine ht] at hq
  cases t with
  | task => cases hq
  | silent => cases hq
  | header p =>
      have hlength : (headersOf as).length = k := by
        have hprojects : (gather ((l.before k).map meaning)).2
            = (l.sections.take k).map Section.project :=
          gather_meaning (l := { l with sections := l.sections.take k }) hbefore
        rw [map_meaning has, gather_unnumbered] at hprojects
        have hk := (List.getElem?_eq_some_iff.mp hk).1
        have := congrArg List.length hprojects
        simp only [List.length_map, List.length_take] at this
        rw [← gather_headers, List.length_map]
        omega
      have hline := line_of_header ht
      rw [gather_headers, headersOf, List.filterMap_append, ← headersOf,
        List.getElem?_append_right (by omega), hlength, Nat.sub_self]
      exact congrArg some hline

/-- The outline has a project for each section, on the line that the section starts with. -/
structure Layout.Shows (l : Layout) (o : Outline) : Prop where
  projects : o.projects.map Project.unnumbered = l.sections.map Section.project
  exists_section : ∀ (k : Nat) (p : Project), o.projects[k]? = some p →
    ∃ s, l.sections[k]? = some s ∧ p.line = l.first k + 1

theorem length_of_projects {ps : List Project} {sections : List Section}
    (h : ps.map Project.unnumbered = sections.map Section.project) :
    ps.length = sections.length := by
  simpa only [List.length_map] using congrArg List.length h

theorem Layout.shows_of_read {text : String} {today : Date} {o : Outline}
    (hunix : '\r' ∉ text.toList) (h : read text today = .ok o) {l : Layout}
    (hl : l.lines = Text.linesOf text.toList) : l.Shows o := by
  have hone : ∀ line ∈ l.lines, OneLine line :=
    fun line hline => oneLine_of_mem_linesOf hunix (hl ▸ hline)
  have hprojects : o.projects.map Project.unnumbered = l.sections.map Section.project := by
    rw [projects_eq_meaning h, ← hl, gather_meaning hone]
  refine ⟨hprojects, fun k p hp => ?_⟩
  have hlt : k < l.sections.length :=
    length_of_projects hprojects ▸ (List.getElem?_eq_some_iff.mp hp).1
  obtain ⟨ss, hss, ho⟩ := read_eq_ok h
  rw [← hl] at hss
  have hline := line_of_section hone hss (List.getElem?_eq_getElem hlt)
  rw [← ho, List.getElem?_map, hp] at hline
  have hnumber : p.line = 1 + l.first k := Option.some.inj hline
  exact ⟨_, List.getElem?_eq_getElem hlt, by omega⟩

/-! ## Edits of the row -/

theorem insertIdx_of_le {α : Type} {row : List α} {i : Nat} (h : i ≤ row.length) (a : α) :
    row.insertIdx i a = row.take i ++ a :: row.drop i := by
  induction row generalizing i with
  | nil =>
      obtain rfl := Nat.le_zero.mp h
      rfl
  | cons b row ih =>
      cases i with
      | zero => rfl
      | succ i =>
          rw [List.insertIdx_succ_cons, ih (Nat.le_of_succ_le_succ h)]
          rfl

namespace Layout

variable {l : Layout} {k : Nat} {s : Section}

def delete (l : Layout) (k : Nat) : Layout := { l with sections := l.sections.eraseIdx k }

def insert (l : Layout) (k : Nat) (s : Section) : Layout :=
  { l with sections := l.sections.insertIdx k s }

theorem lines_delete (k : Nat) : (l.delete k).lines = l.before k ++ l.after (k + 1) := by
  rw [lines, delete, List.eraseIdx_eq_take_drop_succ, List.flatMap_append, ← List.append_assoc]
  rfl

theorem lines_insert (hk : k ≤ l.sections.length) (s : Section) :
    (l.insert k s).lines = l.before k ++ s.lines ++ l.after k := by
  rw [lines, insert, insertIdx_of_le hk, List.flatMap_append, List.flatMap_cons, before, after]
  simp only [List.append_assoc]

theorem first_delete {j : Nat} (h : j ≤ k) : (l.delete k).first j = l.first j := by
  rw [first, first, before, before, delete, List.take_eraseIdx_eq_take_of_le _ _ _ h]

theorem first_delete_add (hk : l.sections[k]? = some s) (d : Nat) :
    (l.delete k).first (k + d) + s.lines.length = l.first (k + 1 + d) := by
  have hlength : (l.sections.take k).length = k :=
    List.length_take_of_le (Nat.le_of_lt (List.getElem?_eq_some_iff.mp hk).1)
  have htake : (l.sections.eraseIdx k).take (k + d)
      = l.sections.take k ++ (l.sections.drop (k + 1)).take d := by
    have happend := @List.take_length_add_append _ (l.sections.take k) (l.sections.drop (k + 1)) d
    rwa [hlength, ← List.eraseIdx_eq_take_drop_succ] at happend
  rw [first, first, before, before, delete, htake, List.take_add]
  have hbefore := congrArg List.length (before_succ hk)
  simp only [before, List.flatMap_append, List.length_append] at hbefore ⊢
  omega

theorem projectBlock?_first (hk : l.sections[k]? = some s) :
    projectBlock? l.lines (l.first k + 1) = some ⟨l.first k, s.lines.length⟩ := by
  have hlines : l.lines = l.before k ++ s.head :: (s.body ++ l.after (k + 1)) := by
    rw [← l.before_append_after k, after_eq hk]
    rfl
  have hindex : lineIndex? l.lines (l.first k + 1) = some (l.first k) := by
    refine lineIndex?_eq_some.mpr ⟨?_, rfl⟩
    rw [hlines, List.length_append, first]
    exact Nat.lt_add_of_pos_right (Nat.succ_pos _)
  have hhead : l.lines.getD (l.first k) [] = s.head := by
    rw [hlines, List.getD_eq_getElem?_getD, first, List.getElem?_append_right (Nat.le_refl _),
      Nat.sub_self]
    rfl
  have hbody : (l.lines.drop (l.first k + 1)).takeWhile (!isHeader ·) = s.body := by
    rw [hlines, ← List.drop_drop, first, List.drop_left]
    refine Text.takeWhile_append_stop (fun line hline => ?_) fun line hline => ?_
    · rw [s.plain line hline]
      rfl
    · rw [isHeader_after line hline]
      rfl
  rw [projectBlock?, hindex]
  simp only [hhead, s.opens, if_true, hbody]
  rw [Section.lines, List.length_cons, Nat.add_comm]

theorem remove_first (hk : l.sections[k]? = some s) :
    (Block.mk (l.first k) s.lines.length).remove l.lines = (l.delete k).lines := by
  show l.lines.take (l.first k) ++ l.lines.drop (l.first k + s.lines.length) = _
  rw [lines_delete, take_first, ← first_succ hk, drop_first]

theorem cut_first (hk : l.sections[k]? = some s) :
    (Block.mk (l.first k) s.lines.length).cut l.lines = s.lines := by
  show (l.lines.drop (l.first k)).take s.lines.length = _
  rw [drop_first, after_eq hk, List.take_left]

theorem deleteProject_first (hk : l.sections[k]? = some s) :
    deleteProject l.lines (l.first k + 1) = (l.delete k).lines := by
  rw [deleteProject, projectBlock?_first hk]
  exact remove_first hk

/-- A section that was cut out lands where the target is without it, or as far back as there are
lines. -/
theorem moveProject_first (hk : l.sections[k]? = some s) {j : Nat}
    (hj : j ≤ (l.delete k).sections.length) {target : Int}
    (houtside : target ≤ l.first k ∨ l.first k + s.lines.length < target)
    (hindex : max 0 (min
      (if l.first k < target - 1 then target - 1 - s.lines.length else target - 1)
      (l.delete k).lines.length) = (l.delete k).first j) :
    moveProject l.lines (l.first k + 1) target = ((l.delete k).insert j s).lines := by
  have hblock : ¬ ((l.first k : Int) + 1 ≤ target ∧ target ≤ l.first k + s.lines.length) := by omega
  rw [moveProject, projectBlock?_first hk]
  simp only [Block.numbers, remove_first hk, cut_first hk, if_neg hblock]
  rw [paste]
  simp only [hindex, Int.toNat_natCast]
  rw [take_first, drop_first, lines_insert hj]

theorem le_length_delete (hk : l.sections[k]? = some s) {j : Nat} (hj : j < l.sections.length) :
    j ≤ (l.delete k).sections.length := by
  rw [delete, List.length_eraseIdx_of_lt (List.getElem?_eq_some_iff.mp hk).1]
  omega

/-- To the first line of a section in front. -/
theorem moveProject_front (hk : l.sections[k]? = some s) {j : Nat} {t : Section}
    (hj : l.sections[j]? = some t) (hjk : j < k) :
    moveProject l.lines (l.first k + 1) (l.first j + 1) = ((l.delete k).insert j s).lines := by
  have hfirst : (l.delete k).first j = l.first j := first_delete (Nat.le_of_lt hjk)
  have hend : l.first j + t.lines.length ≤ l.first k := first_succ hj ▸ first_mono hjk
  have hpos : 0 < t.lines.length := Nat.succ_pos _
  have hle := (l.delete k).first_le j
  refine moveProject_first hk (le_length_delete hk (List.getElem?_eq_some_iff.mp hj).1) ?_ ?_
  · omega
  · rw [if_neg (by omega)]
    omega

/-- To the first line of a section behind. -/
theorem moveProject_behind (hk : l.sections[k]? = some s) {j : Nat} {t : Section}
    (hj : l.sections[j]? = some t) (hkj : k < j) :
    moveProject l.lines (l.first k + 1) (l.first j + 1)
      = ((l.delete k).insert (j - 1) s).lines := by
  obtain ⟨d, rfl⟩ := Nat.exists_eq_add_of_lt hkj
  have hlt := (List.getElem?_eq_some_iff.mp hj).1
  have hfirst : (l.delete k).first (k + d) + s.lines.length = l.first (k + d + 1) := by
    rw [first_delete_add hk d, Nat.add_right_comm]
  have hend : l.first k + s.lines.length ≤ l.first (k + d + 1) := first_succ hk ▸ first_mono hkj
  have hpos : 0 < s.lines.length := Nat.succ_pos _
  have hle := (l.delete k).first_le (k + d)
  refine moveProject_first hk (le_length_delete hk (by omega)) (by omega) ?_
  rw [if_pos (by omega), Nat.add_sub_cancel]
  omega

/-- To a line past the end. -/
theorem moveProject_end (hk : l.sections[k]? = some s) {target : Int}
    (htarget : l.lines.length < target) : moveProject l.lines (l.first k + 1) target
      = ((l.delete k).insert (l.sections.length - 1) s).lines := by
  have hlt := (List.getElem?_eq_some_iff.mp hk).1
  obtain ⟨d, hd⟩ := Nat.exists_eq_add_of_lt hlt
  have hlast : l.sections.length - 1 = k + d := by omega
  have hfirst := first_delete_add hk d
  have hall : l.first (k + 1 + d) = l.lines.length := first_of_length_le (by omega)
  have hrest : (l.delete k).first (k + d) = (l.delete k).lines.length :=
    first_of_length_le (by rw [delete, List.length_eraseIdx_of_lt hlt]; omega)
  have hend : l.first k + s.lines.length ≤ l.lines.length := first_succ hk ▸ first_le (k + 1)
  have hpos : 0 < s.lines.length := Nat.succ_pos _
  rw [hlast]
  refine moveProject_first hk (le_length_delete hk (by omega)) (by omega) ?_
  rw [if_pos (by omega)]
  omega

theorem perm_insert_delete (hk : l.sections[k]? = some s) {j : Nat}
    (hj : j ≤ (l.delete k).sections.length) :
    ((l.delete k).insert j s).lines.Perm l.lines := by
  obtain ⟨hlt, rfl⟩ := List.getElem?_eq_some_iff.mp hk
  have hsections : ((l.delete k).insert j l.sections[k]).sections.Perm l.sections :=
    (List.perm_insertIdx _ _ hj).trans (List.getElem_cons_eraseIdx_perm hlt)
  exact (hsections.flatMap_right Section.lines).append_left l.preamble

end Layout

/-! ## Deleting and moving projects -/

section

variable {text : String} {today : Date} {o : Outline} (hunix : '\r' ∉ text.toList)
  (h : read text today = .ok o) {l : Layout} (hl : l.lines = Text.linesOf text.toList)

include hunix h hl

/-- Lines of the text that are laid out anew read as their sections. -/
theorem readsAs_of_sections {l' : Layout} (hsub : ∀ line ∈ l'.lines, line ∈ l.lines)
    {ps : List Project} (hps : l'.sections.map Section.project = ps.map Project.unnumbered) :
    ReadsAs (String.ofList (Text.unlines l'.lines)) today ps := by
  obtain ⟨ss, hss, -⟩ := read_eq_ok h
  have hshort := (exists_readLines_iff_short _ _).mp ⟨ss, hss⟩
  have hmem : ∀ line ∈ l'.lines, line ∈ Text.linesOf text.toList :=
    fun line hline => hl ▸ hsub line hline
  refine readsAs_of_meaning (fun line hline => (of_mem_linesOf (hmem line hline)).1)
    (fun line hline => hshort line (hmem line hline)) today ?_
  rw [Layout.gather_meaning fun line hline => oneLine_of_mem_linesOf hunix (hmem line hline), hps]

variable {k : Nat} {p : Project} (hp : o.projects[k]? = some p)

include hp

theorem readsAs_deleteProject :
    ReadsAs ((Edit.deleteProject p.line).apply text) today (o.projects.eraseIdx k) := by
  have hshows := Layout.shows_of_read hunix h hl
  obtain ⟨s, hk, hline⟩ := hshows.exists_section k p hp
  rw [Edit.apply, Edit.onLines, ← hl, hline, Layout.deleteProject_first hk]
  refine readsAs_of_sections hunix h hl (fun line hmem => ?_) ?_
  · rw [← l.before_append_after k, Layout.after_eq hk]
    rw [Layout.lines_delete] at hmem
    exact (List.mem_append.mp hmem).elim (List.mem_append_left _)
      fun hafter => List.mem_append_right _ (List.mem_append_right _ hafter)
  · show (l.sections.eraseIdx k).map Section.project = _
    rw [← List.eraseIdx_map, ← hshows.projects, List.eraseIdx_map]

/-- The section of the project comes to stand at the index `j` of the row without it. -/
theorem readsAs_moveProject {s : Section} (hk : l.sections[k]? = some s) {j : Nat}
    (hj : j < o.projects.length) {target : Int}
    (hmove : moveProject l.lines (l.first k + 1) target = ((l.delete k).insert j s).lines) :
    ReadsAs ((Edit.moveProject p.line target).apply text) today
        ((o.projects.eraseIdx k).insertIdx j p)
      ∧ (Text.linesOf ((Edit.moveProject p.line target).apply text).toList).Perm
        (Text.linesOf text.toList) := by
  have hshows := Layout.shows_of_read hunix h hl
  obtain ⟨-, -, hline⟩ := hshows.exists_section k p hp
  have hproject : p.unnumbered = s.project := by
    have hk' := congrArg (·[k]?) hshows.projects
    simpa only [List.getElem?_map, hp, hk, Option.map_some, Option.some.injEq] using hk'
  have hperm := Layout.perm_insert_delete hk
    (Layout.le_length_delete hk (length_of_projects hshows.projects ▸ hj))
  have happly : (Edit.moveProject p.line target).apply text
      = String.ofList (Text.unlines ((l.delete k).insert j s).lines) := by
    rw [Edit.apply, Edit.onLines, ← hl, hline, hmove]
  rw [happly]
  constructor
  · refine readsAs_of_sections hunix h hl (fun line hmem => hperm.subset hmem) ?_
    show ((l.sections.eraseIdx k).insertIdx j s).map Section.project = _
    rw [List.map_insertIdx, ← List.eraseIdx_map, ← hshows.projects, ← hproject, List.eraseIdx_map,
      List.map_insertIdx]
  · have hne : ((l.delete k).insert j s).lines ≠ [] := by
      intro hnil
      have hempty := hl ▸ (hnil ▸ hperm).nil_eq
      exact Text.linesOf_ne_nil _ hempty.symm
    rw [String.toList_ofList, Text.linesOf_unlines hne fun line hmem =>
      (of_mem_linesOf (hl ▸ hperm.subset hmem)).1, ← hl]
    exact hperm

end

/-- Deleting a project takes it out of the outline with exactly its tasks. Moving it to the header
of another one puts it in front of that, and to a target past the end behind all others; a move keeps
the lines. What changes besides are only the numbers of lines. -/
theorem projects_rearranged {text : String} {today : Date} {o : Outline}
    (hunix : '\r' ∉ text.toList) (h : read text today = .ok o) {k : Nat} {p : Project}
    (hp : o.projects[k]? = some p) :
    ReadsAs ((Edit.deleteProject p.line).apply text) today (o.projects.eraseIdx k)
    ∧ (∀ (j : Nat) (q : Project), j ≠ k → o.projects[j]? = some q →
      ReadsAs ((Edit.moveProject p.line q.line).apply text) today
          ((o.projects.eraseIdx k).insertIdx (if k < j then j - 1 else j) p)
        ∧ (Text.linesOf ((Edit.moveProject p.line q.line).apply text).toList).Perm
          (Text.linesOf text.toList))
    ∧ ∀ target : Int, (Text.linesOf text.toList).length < target →
      ReadsAs ((Edit.moveProject p.line target).apply text) today (o.projects.eraseIdx k ++ [p])
        ∧ (Text.linesOf ((Edit.moveProject p.line target).apply text).toList).Perm
          (Text.linesOf text.toList) := by
  obtain ⟨l, hl⟩ := Layout.exists_lines_eq (Text.linesOf text.toList)
  have hshows := Layout.shows_of_read hunix h hl
  obtain ⟨s, hk, -⟩ := hshows.exists_section k p hp
  refine ⟨readsAs_deleteProject hunix h hl hp, fun j q hne hq => ?_, fun target htarget => ?_⟩
  · obtain ⟨t, hj, hline⟩ := hshows.exists_section j q hq
    have hlt := (List.getElem?_eq_some_iff.mp hq).1
    rw [hline]
    split
    · next hkj =>
        exact readsAs_moveProject hunix h hl hp hk (by omega) (l.moveProject_behind hk hj hkj)
    · next hkj =>
        exact readsAs_moveProject hunix h hl hp hk hlt (l.moveProject_front hk hj (by omega))
  · have hlt := (List.getElem?_eq_some_iff.mp hp).1
    have hend : o.projects.eraseIdx k ++ [p]
        = (o.projects.eraseIdx k).insertIdx (o.projects.length - 1) p := by
      rw [← List.length_eraseIdx_of_lt hlt, List.insertIdx_length_self]
    have hlength := length_of_projects hshows.projects
    rw [hend, hlength]
    exact readsAs_moveProject hunix h hl hp hk (by omega) (l.moveProject_end hk (hl ▸ htarget))

def estate : String :=
  "# Estate\n> Survey (1)\n\n## Cellar\n## 🏠 Hall\n> Roof (3)\n## \n"
    ++ "## Yard\n> Pond (2)\n>> Fish (1) @after:1\n\n"

def cellar : Project where
  name := "Cellar"
  line := 4

def hall : Project where
  name := "Hall"
  icon := "🏠"
  line := 5
  tasks := [{ level := 1, title := "Roof", duration := 3, line := 6 }]

def yard : Project where
  name := "Yard"
  line := 8
  tasks := [{ level := 1, title := "Pond", duration := 2, line := 9 },
    { level := 2, title := "Fish", duration := 1, dependencies := [1], line := 10 }]

/-- A task before the first header, a project without tasks, marks that are no header and a blank
tail. -/
theorem projects_rearranged_estate :
    read estate Date.first = .ok ⟨Date.first, [cellar, hall, yard]⟩
      ∧ ReadsAs ((Edit.deleteProject 5).apply estate) Date.first [cellar, yard]
      ∧ ReadsAs ((Edit.moveProject 4 8).apply estate) Date.first [hall, cellar, yard]
      ∧ ReadsAs ((Edit.moveProject 8 4).apply estate) Date.first [yard, cellar, hall]
      ∧ ReadsAs ((Edit.moveProject 5 100).apply estate) Date.first [cellar, yard, hall] := by
  have hunix : '\r' ∉ estate.toList := by decide
  have hread : read estate Date.first = .ok ⟨Date.first, [cellar, hall, yard]⟩ := by decide +kernel
  have hend : ((Text.linesOf estate.toList).length : Int) < 100 := by decide +kernel
  exact ⟨hread, (projects_rearranged hunix hread (k := 1) rfl).1,
    ((projects_rearranged hunix hread (k := 0) rfl).2.1 2 yard (by decide) rfl).1,
    ((projects_rearranged hunix hread (k := 2) rfl).2.1 0 cellar (by decide) rfl).1,
    ((projects_rearranged hunix hread (k := 1) rfl).2.2 100 hend).1⟩

end Roadmap.Outline
