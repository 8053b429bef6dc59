import Roadmap.Proofs.Outline.Ranges

/-!
# Markers and levels

Indenting looks at the raw line only: whatever opens with a marker gets one more, and outdenting
takes one of several away. What such a line says is the same but for the level, if it is a task at
all (`readLine_cons_marker`), and no other line says anything else.

The one thing that leads from line to line is a start mark in search of its word. If it finds a line
of markers, that word is no day, however many markers there are (`nameAlike_of_marker`).
-/

namespace Roadmap.Outline

/-! ## One marker more -/

def Task.relevel (f : Int → Int) (t : Task) : Task := { t with level := f t.level }

def Statement.relevel (f : Int → Int) : Statement → Statement
  | .task t => .task (t.relevel f)
  | s => s

theorem applyAll_relevel (f : Int → Int) (t : Task) (ms : List Modifier) :
    (t.applyAll ms).relevel f = (t.relevel f).applyAll ms := by
  refine (List.foldl_hom (Task.relevel f) fun t m => ?_).symm
  cases m <;> rfl

theorem dropTrailing_cons {p : Char → Bool} {c : Char} (hc : p c = false) (s : List Char) :
    Text.dropTrailing p (c :: s) = c :: Text.dropTrailing p s := by
  have hend := Text.dropWhile_append_cons hc s.reverse []
  rw [Text.dropTrailing, List.reverse_cons, hend, List.reverse_append]
  rfl

theorem dropTrailing_marker (s : List Char) :
    Text.dropTrailing (· == '\r') ('>' :: s) = '>' :: Text.dropTrailing (· == '\r') s :=
  dropTrailing_cons rfl s

theorem readHeader?_cons_marker (s : List Char) (number : Int) :
    readHeader? ('>' :: s) number = none := by
  rw [readHeader?, dropTrailing_marker]
  rfl

def TaskParts.deeper (p : TaskParts) : TaskParts := { p with level := p.level + 1 }

theorem taskParts?_cons_marker (s : List Char) :
    taskParts? ('>' :: '>' :: s) = (taskParts? ('>' :: s)).map TaskParts.deeper := by
  simp only [taskParts?, List.takeWhile_cons, List.dropWhile_cons, beq_self_eq_true, if_true,
    List.isEmpty_cons, Bool.false_or]
  split
  · rfl
  · rw [Option.map_map]
    rfl

theorem readTask?_cons_marker (s : List Char) (number : Int) : readTask? ('>' :: '>' :: s) number
    = (readTask? ('>' :: s) number).map (·.map (Task.relevel (· + 1))) := by
  have hparts : taskParts? (Text.dropTrailing (· == '\r') ('>' :: '>' :: s))
      = (taskParts? (Text.dropTrailing (· == '\r') ('>' :: s))).map TaskParts.deeper := by
    rw [dropTrailing_marker, dropTrailing_marker, taskParts?_cons_marker]
  cases hold : taskParts? (Text.dropTrailing (· == '\r') ('>' :: s)) with
  | none =>
      rw [hold] at hparts
      rw [readTask?_of_no_parts number hold, readTask?_of_no_parts number hparts]
      rfl
  | some p =>
      rw [hold] at hparts
      have hplain : p.deeper.plain number = (p.plain number).relevel (· + 1) := rfl
      rw [readTask?_of_parts number hold, readTask?_of_parts number hparts, hplain,
        ← applyAll_relevel]
      show (if Fault.maxDigits < p.digits.length then _ else _) = _
      split
      · rfl
      · rfl

/-- With one marker more a line says the same, one level deeper. -/
theorem readLine_cons_marker (s : List Char) (number : Int) : readLine ('>' :: '>' :: s) number
    = (readLine ('>' :: s) number).map (Statement.relevel (· + 1)) := by
  rw [readLine, readLine, readHeader?_cons_marker, readHeader?_cons_marker, readTask?_cons_marker]
  rcases readTask? ('>' :: s) number with f | _ | t
  · rfl
  · rfl
  · rfl

/-! ## What the edits do to a line -/

/-- The level of an outdented task; the first level stays. -/
def shallower (level : Int) : Int := if 2 ≤ level then level - 1 else level

/-- A change of levels that spares the task on a line leaves what the line says as it is. -/
theorem readLine_relevel_of_same {line : Text.Line} {number : Int} {f : Int → Int}
    (h : ∀ t, readTask? line number = .ok (some t) → f t.level = t.level) :
    (readLine line number).map (Statement.relevel f) = readLine line number := by
  cases hread : readLine line number with
  | error e => rfl
  | ok s =>
      cases s with
      | header p => rfl
      | silent => rfl
      | task t =>
          have hlevel := h t (readLine_eq_ok hread).2
          show Except.ok (Statement.task { t with level := f t.level }) = _
          rw [hlevel]

theorem readLine_indentLine (line : Text.Line) (number : Int) :
    readLine (indentLine line) number
      = (readLine line number).map (Statement.relevel (· + 1)) := by
  unfold indentLine
  split
  · exact readLine_cons_marker _ number
  · next hplain =>
      refine (readLine_relevel_of_same fun t ht => ?_).symm
      obtain ⟨rest, rfl⟩ := List.head?_eq_some_iff.mp (head?_of_readTask? ht).1
      exact absurd rfl (hplain rest)

theorem readLine_outdentLine (line : Text.Line) (number : Int) :
    readLine (outdentLine line) number
      = (readLine line number).map (Statement.relevel shallower) := by
  unfold outdentLine
  split
  · next rest =>
      -- the line is the outdented one with a marker more
      rw [readLine_cons_marker]
      cases hread : readLine ('>' :: rest) number with
      | error f => rfl
      | ok s =>
          cases s with
          | header p => rfl
          | silent => rfl
          | task t =>
              obtain ⟨-, -, -, hlevel, -⟩ := readTask?_eq_some (readLine_eq_ok hread).2
              have hback : shallower (t.level + 1) = t.level := by
                rw [shallower, if_pos (by omega)]
                omega
              show Except.ok (Statement.task t)
                = .ok (.task { t with level := shallower (t.level + 1) })
              rw [hback]
  · next hsingle =>
      refine (readLine_relevel_of_same fun t ht => ?_).symm
      obtain ⟨p, hp, hlevel, -⟩ := readTask?_eq_some ht
      obtain ⟨-, c, u, hdrop, -⟩ := markers_of_taskParts? hp
      obtain ⟨tail, hsplit, -⟩ := exists_dropTrailing_append (· == '\r') line
      rw [shallower, if_neg]
      intro htwo
      obtain ⟨k, hk⟩ := Nat.exists_eq_add_of_le' (show 2 ≤ p.level by omega)
      rw [hdrop, hk] at hsplit
      exact hsingle _ hsplit

theorem outdentLine_indentLine (line : Text.Line) : outdentLine (indentLine line) = line := by
  unfold indentLine
  split
  · rfl
  · next hplain =>
      unfold outdentLine
      split
      · next rest => exact absurd rfl (hplain _)
      · rfl

/-! ## The lines of a text -/

/-- The task on the line with the number `n` with its level changed; other tasks stay. -/
def Task.relevelOn (n : Int) (f : Int → Int) (t : Task) : Task :=
  if t.line = n then t.relevel f else t

def Project.relevelOn (n : Int) (f : Int → Int) (p : Project) : Project :=
  { p with tasks := p.tasks.map (Task.relevelOn n f) }

def Statement.relevelOn (n : Int) (f : Int → Int) : Statement → Statement
  | .task t => .task (t.relevelOn n f)
  | s => s

theorem gather_relevelOn (n : Int) (f : Int → Int) (ss : List Statement) :
    gather (ss.map (Statement.relevelOn n f))
      = ((gather ss).1.map (Task.relevelOn n f), (gather ss).2.map (Project.relevelOn n f)) :=
  gather_map (fun _ => rfl) rfl (fun _ _ => ⟨_, rfl, rfl⟩) ss

theorem readLine_relevelOn (line : Text.Line) (number n : Int) (f : Int → Int) :
    (readLine line number).map (Statement.relevelOn n f)
      = if number = n then (readLine line number).map (Statement.relevel f)
        else readLine line number := by
  cases hread : readLine line number with
  | error e => split <;> rfl
  | ok s =>
      cases s with
      | header p => split <;> rfl
      | silent => split <;> rfl
      | task t =>
          have hline := (head?_of_readTask? (readLine_eq_ok hread).2).2
          show Except.ok (Statement.task (t.relevelOn n f)) = _
          rw [Task.relevelOn, hline]
          split <;> rfl

/-- An edit of one line, as far as it is a change of levels. -/
theorem readLines_mapIdx {g : Text.Line → Text.Line} {f : Int → Int}
    (hg : ∀ line number, readLine (g line) number
      = (readLine line number).map (Statement.relevel f))
    (n : Int) (lines : List Text.Line) (number : Int) :
    readLines number (lines.mapIdx fun i line => if number + i = n then g line else line)
      = (readLines number lines).map (·.map (Statement.relevelOn n f)) := by
  induction lines generalizing number with
  | nil => rfl
  | cons line lines ih =>
      have hshift : (fun (i : Nat) (line : Text.Line) =>
          if number + (i + 1 : Nat) = n then g line else line)
          = fun (i : Nat) (line : Text.Line) => if number + 1 + i = n then g line else line := by
        funext i line
        rw [show number + (i + 1 : Nat) = number + 1 + i by omega]
      have hline : readLine (if number + (0 : Nat) = n then g line else line) number
          = (readLine line number).map (Statement.relevelOn n f) := by
        rw [readLine_relevelOn, Nat.cast_zero, add_zero]
        split
        · exact hg line number
        · rfl
      rw [List.mapIdx_cons, hshift, readLines, readLines, hline, ih]
      cases readLine line number with
      | error e => rfl
      | ok s =>
          cases readLines (number + 1) lines with
          | error e => rfl
          | ok ss => rfl

/-- A number that no line has asks for nothing. -/
theorem modifyLine_eq_mapIdx (lines : List Text.Line) (n : Int) (g : Text.Line → Text.Line) :
    modifyLine lines n g
      = lines.mapIdx fun i line => if (1 : Int) + i = n then g line else line := by
  refine List.ext_getElem? fun i => ?_
  rw [modifyLine, List.getElem?_mapIdx]
  split
  · next k hk =>
      obtain ⟨-, rfl⟩ := lineIndex?_eq_some.mp hk
      have hsame : (1 : Int) + i = k + 1 ↔ k = i := by omega
      simp only [List.getElem?_modify, hsame]
      rfl
  · next hnone =>
      cases hi : lines[i]? with
      | none => rfl
      | some line =>
          have hlt := (List.getElem?_eq_some_iff.mp hi).1
          rw [Option.map_some, if_neg]
          intro hn
          rw [lineIndex?_eq_some.mpr ⟨hlt, by omega⟩] at hnone
          cases hnone

theorem newline_not_mem_modifyLine {g : Text.Line → Text.Line}
    (hg : ∀ line, '\n' ∉ line → '\n' ∉ g line) (s : List Char) (n : Int) :
    ∀ l ∈ modifyLine (Text.linesOf s) n g, '\n' ∉ l := by
  intro l hl
  rw [modifyLine_eq_mapIdx, List.mem_mapIdx] at hl
  obtain ⟨i, hi, rfl⟩ := hl
  have hold := (of_mem_linesOf (List.getElem_mem hi)).1
  split
  · exact hg _ hold
  · exact hold

theorem linesOf_modifyLine {g : Text.Line → Text.Line} (hg : ∀ line, '\n' ∉ line → '\n' ∉ g line)
    (s : List Char) (n : Int) : Text.linesOf (Text.unlines (modifyLine (Text.linesOf s) n g))
      = modifyLine (Text.linesOf s) n g := by
  refine Text.linesOf_unlines (fun hnil => ?_) (newline_not_mem_modifyLine hg s n)
  rw [modifyLine_eq_mapIdx, List.mapIdx_eq_nil_iff] at hnil
  exact Text.linesOf_ne_nil s hnil

theorem modifyLine_modifyLine (lines : List Text.Line) (n : Int) (g g' : Text.Line → Text.Line) :
    modifyLine (modifyLine lines n g) n g' = modifyLine lines n (g' ∘ g) := by
  simp only [modifyLine_eq_mapIdx, List.mapIdx_mapIdx]
  congr 1
  funext i line
  show (if _ then g' (if _ then _ else _) else if _ then _ else _) = _
  split <;> rfl

theorem modifyLine_id (lines : List Text.Line) (n : Int) : modifyLine lines n id = lines := by
  rw [modifyLine]
  split
  · exact List.modify_id _ _
  · rfl

theorem forall₂_mapIdx {α β : Type} {R : α → β → Prop} {f : Nat → α → β} (h : ∀ i a, R a (f i a))
    (l : List α) : List.Forall₂ R l (l.mapIdx f) := by
  induction l generalizing f with
  | nil => exact .nil
  | cons a l ih =>
      rw [List.mapIdx_cons]
      exact .cons (h 0 a) (ih fun i => h (i + 1))

/-! ## Start lines -/

theorem ofIso?_marker (w : List Char) : Date.ofIso? ('>' :: w) = none := by
  have hstrip : Text.strip ('>' :: w) = '>' :: Text.stripEnd w := by
    rw [Text.strip, List.dropWhile_cons_of_neg (by decide)]
    exact dropTrailing_cons not_isBlank_marker w
  have hdigit : Text.isDigit '>' = false := by decide
  rw [Date.ofIso?, hstrip]
  split
  · next heq =>
      obtain ⟨rfl, -⟩ := List.cons.inj heq
      simp only [List.cons_append, List.all_cons, hdigit, Bool.false_and, Bool.false_eq_true,
        if_false]
  · rfl

/-- To start marks all lines of markers are one: each has a word, and none a day. -/
theorem nameAlike_of_marker {line line' : Text.Line} (h : line.head? = some '>')
    (h' : line'.head? = some '>') : NameAlike line line' := by
  have hmarker : ∀ {l : Text.Line}, l.head? = some '>' →
      leadingDay? l = some none ∧ afterMark? startMark l = none := by
    intro l hl
    obtain ⟨rest, rfl⟩ := List.head?_eq_some_iff.mp hl
    refine ⟨?_, rfl⟩
    have hhead : ∀ c ∈ ('>' :: rest).head?, Text.isBlank c = false := by
      rintro c ⟨⟩
      exact not_isBlank_marker
    rw [leadingDay?, Text.head?_words, Text.dropWhile_of_head hhead,
      Text.firstWord?_cons not_isBlank_marker]
    exact congrArg some (ofIso?_marker _)
  exact ⟨(hmarker h').1.trans (hmarker h).1.symm, by rw [(hmarker h').2, (hmarker h).2]⟩

/-! ## The edits -/

end Roadmap.Outline

namespace Roadmap

/-- The outline with another level for the task on the line with the number `n`, if there is one. -/
def Outline.relevelOn (o : Outline) (n : Int) (f : Int → Int) : Outline :=
  { o with projects := o.projects.map (Outline.Project.relevelOn n f) }

namespace Outline

/-- The edit of a line is a change of the level on it. -/
structure Relevels (g : Text.Line → Text.Line) (f : Int → Int) : Prop where
  reads : ∀ line number, readLine (g line) number
    = (readLine line number).map (Statement.relevel f)
  alike : ∀ line, NameAlike line (g line)
  oneLine : ∀ line, '\n' ∉ line → '\n' ∉ g line

theorem relevels_indentLine : Relevels indentLine (· + 1) := by
  refine ⟨readLine_indentLine, fun line => ?_, fun line h => ?_⟩
  · unfold indentLine
    split
    · exact nameAlike_of_marker rfl rfl
    · exact .refl _
  · unfold indentLine
    split
    · exact List.not_mem_cons_of_ne_of_not_mem (by decide) h
    · exact h

theorem relevels_outdentLine : Relevels outdentLine shallower := by
  refine ⟨readLine_outdentLine, fun line => ?_, fun line h => ?_⟩
  · unfold outdentLine
    split
    · exact nameAlike_of_marker rfl rfl
    · exact .refl _
  · unfold outdentLine
    split
    · exact List.not_mem_of_not_mem_cons h
    · exact h

theorem Relevels.read_modifyLine {g : Text.Line → Text.Line} {f : Int → Int} (hg : Relevels g f)
    (text : String) (n : Int) (today : Date) :
    read (String.ofList (Text.unlines (modifyLine (Text.linesOf text.toList) n g))) today
      = (read text today).map (·.relevelOn n f) := by
  have hstart : startDay (Text.unlines (modifyLine (Text.linesOf text.toList) n g)) today
      = startDay text.toList today := by
    refine startDay_alike ?_ today
    rw [linesOf_modifyLine hg.oneLine, modifyLine_eq_mapIdx]
    refine forall₂_mapIdx (fun i line => ?_) _
    split
    · exact hg.alike line
    · exact .refl line
  have hread : readLines 1 (modifyLine (Text.linesOf text.toList) n g)
      = (readLines 1 (Text.linesOf text.toList)).map (·.map (Statement.relevelOn n f)) := by
    rw [modifyLine_eq_mapIdx, readLines_mapIdx hg.reads]
  rw [read, read, String.toList_ofList, linesOf_modifyLine hg.oneLine, hstart, hread]
  cases readLines 1 (Text.linesOf text.toList) with
  | error e => rfl
  | ok ss =>
      show Except.ok _ = Except.ok _
      rw [gather_relevelOn]
      rfl

/-- Indenting and outdenting change the level of the task on their line, if there is one and, for
outdenting, if it is not on the first level. Nothing else of the outline changes, and outdenting
takes back what indenting did to the text. -/
theorem read_indent_outdent (text : String) (n : Int) (today : Date) :
    read ((Edit.indent n).apply text) today = (read text today).map (·.relevelOn n (· + 1))
      ∧ read ((Edit.outdent n).apply text) today
        = (read text today).map (·.relevelOn n fun level => if 2 ≤ level then level - 1 else level)
      ∧ (Edit.outdent n).apply ((Edit.indent n).apply text) = text := by
  refine ⟨relevels_indentLine.read_modifyLine text n today,
    relevels_outdentLine.read_modifyLine text n today, ?_⟩
  have hback : outdentLine ∘ indentLine = id := funext outdentLine_indentLine
  show String.ofList (Text.unlines (modifyLine (Text.linesOf
    (String.ofList (Text.unlines (modifyLine (Text.linesOf text.toList) n indentLine))).toList)
    n outdentLine)) = text
  rw [String.toList_ofList, linesOf_modifyLine relevels_indentLine.oneLine, modifyLine_modifyLine,
    hback, modifyLine_id, Text.unlines_linesOf, String.ofList_toList]

end Outline

end Roadmap
