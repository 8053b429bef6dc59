import Roadmap.Proofs.Outline.TaskLine

/-!
# A task and its line

What a line can say of a task (`Task.Expressible`), it says exactly: the task is read back from its
line with every field as it was. Writing fails for one reason only, a level so deep that the row of
markers cannot be made.
-/

namespace Roadmap.Outline

/-! ## Tasks that a line can state -/

/-- A task that its line can state. Titles are one line without blanks around it, and in a title
nothing must look like a duration with modifiers after it. -/
structure Task.Expressible (t : Task) : Prop where
  level : 1 ≤ t.level
  title : t.title ≠ ""
  stripped : Text.strip t.title.toList = t.title.toList
  oneLine : '\n' ∉ t.title.toList
  unambiguous : Unambiguous t.title.toList
  lasting : 0 ≤ t.duration
  duration : Text.Fits t.duration
  dependencies : ∀ n ∈ t.dependencies, Text.Fits n
  done : t.isDone ↔ t.status = .done
  color : ∀ c ∈ t.color, IsColor c
  note : ∀ n ∈ t.note, IsNote n

/-- The modifiers that state what a plain task does not have, in the order in which they are
written, without the dependencies. -/
def Task.marks (t : Task) : List Modifier :=
  (t.explicitStart.map Modifier.start).toList
    ++ (if t.isMilestone then [.milestone] else [])
    ++ (if t.status = .pending then [] else [.status t.status])
    ++ (t.color.map Modifier.color).toList
    ++ (t.note.map Modifier.note).toList

def Task.modifiers (t : Task) : List Modifier := t.dependencies.map .after ++ t.marks

/-- The modifiers before the color and the note, which alone hold free text. -/
def Task.front (t : Task) : List Modifier :=
  t.dependencies.map .after ++ ((t.explicitStart.map Modifier.start).toList
    ++ (if t.isMilestone then [.milestone] else [])
    ++ (if t.status = .pending then [] else [.status t.status]))

theorem modifiers_eq (t : Task) : t.modifiers
    = t.front ++ ((t.color.map Modifier.color).toList ++ (t.note.map Modifier.note).toList) := by
  simp only [Task.modifiers, Task.marks, Task.front, List.append_assoc]

theorem readable_front {t : Task} (h : ∀ n ∈ t.dependencies, Text.Fits n) :
    ∀ m ∈ t.front, m.Readable := by
  intro m hm
  simp only [Task.front, List.mem_append, List.mem_map, Option.mem_toList,
    Option.map_eq_some_iff] at hm
  rcases hm with ⟨n, hn, rfl⟩ | (⟨d, -, rfl⟩ | hm) | hm
  · exact h n hn
  · trivial
  · split at hm
    · rw [List.mem_singleton.mp hm]
      trivial
    · cases hm
  · split at hm
    · cases hm
    · next hpending =>
        rw [List.mem_singleton.mp hm]
        exact hpending

theorem Task.Expressible.readable {t : Task} (h : t.Expressible) :
    ∀ m ∈ t.modifiers, m.Readable := by
  intro m hm
  simp only [modifiers_eq, List.mem_append, Option.mem_toList, Option.map_eq_some_iff] at hm
  rcases hm with hm | ⟨c, hc, rfl⟩ | ⟨n, hn, rfl⟩
  · exact readable_front h.dependencies m hm
  · exact h.color c hc
  · exact h.note n hn

/-! ## Applying the modifiers of a task -/

theorem applyAll_append (t : Task) (ms ns : List Modifier) :
    t.applyAll (ms ++ ns) = (t.applyAll ms).applyAll ns := List.foldl_append

theorem applyAll_after (t : Task) (positions : List Int) :
    t.applyAll (positions.map .after)
      = { t with dependencies := t.dependencies ++ positions } := by
  induction positions generalizing t with
  | nil => rw [List.append_nil]; rfl
  | cons n positions ih =>
      have hstep := ih (t.apply (.after n))
      rw [show (t.apply (.after n)).dependencies = t.dependencies ++ [n] from rfl,
        List.append_assoc] at hstep
      exact hstep

theorem applyAll_start {t : Task} (h : t.explicitStart = none) (d : Option Date) :
    t.applyAll (d.map Modifier.start).toList = { t with explicitStart := d } := by
  cases d with
  | none => cases t; cases h; rfl
  | some d => rfl

theorem applyAll_milestone {t : Task} (h : t.isMilestone = false) (b : Bool) :
    t.applyAll (if b then [.milestone] else []) = { t with isMilestone := b } := by
  cases b with
  | false => cases t; cases h; rfl
  | true => rfl

theorem applyAll_status {t : Task} (h : t.status = .pending) (s : Status) :
    t.applyAll (if s = .pending then [] else [.status s])
      = { t with status := s, isDone := t.isDone || s == .done } := by
  by_cases hs : s = .pending
  · subst hs
    rw [if_pos rfl, show (t.isDone || Status.pending == .done) = t.isDone from Bool.or_false _]
    cases t; cases h; rfl
  · rw [if_neg hs]
    rfl

theorem applyAll_color {t : Task} (h : t.color = none) (c : Option String) :
    t.applyAll (c.map Modifier.color).toList = { t with color := c } := by
  cases c with
  | none => cases t; cases h; rfl
  | some c => rfl

theorem applyAll_note {t : Task} (h : t.note = none) (n : Option String) :
    t.applyAll (n.map Modifier.note).toList = { t with note := n } := by
  cases n with
  | none => cases t; cases h; rfl
  | some n => rfl

/-- The modifiers of a task make it out of the plain one. -/
theorem applyAll_modifiers {t : Task} (hdone : t.isDone ↔ t.status = .done) :
    Task.applyAll { level := t.level, title := t.title, duration := t.duration, line := t.line }
      t.modifiers = t := by
  have hflag : (false || t.status == .done) = t.isDone := by
    rw [Bool.false_or, Bool.eq_iff_iff, beq_iff_eq]
    exact hdone.symm
  simp only [Task.modifiers, Task.marks, applyAll_append]
  rw [applyAll_after, applyAll_start rfl, applyAll_milestone rfl, applyAll_status rfl,
    applyAll_color rfl, applyAll_note rfl, hflag]
  rfl

/-! ## Writing -/

theorem renderValue_of_plain {v : List Char} (h : ∀ c ∈ v, Text.isBlank c = false ∧ c ≠ '@') :
    renderValue v = v := by
  rw [renderValue, if_neg]
  rw [Bool.or_eq_true, List.any_eq_true, List.contains_iff_mem]
  rintro (⟨c, hc, hblank⟩ | hat)
  · exact Bool.false_ne_true ((h c hc).1.symm.trans hblank)
  · exact (h '@' hat).2 rfl

theorem render_after (n : Int) :
    (Modifier.after n).token.render = "@after:".toList ++ Text.intDigits n :=
  congrArg ("@after:".toList ++ ·)
    (renderValue_of_plain fun _ hc => Text.plain_of_mem (Text.mem_intDigits hc))

theorem render_start (d : Date) :
    (Modifier.start d).token.render = "@start:".toList ++ d.isoChars :=
  congrArg ("@start:".toList ++ ·)
    (renderValue_of_plain fun _ hc => Text.plain_of_mem (Date.mem_isoChars hc))

theorem render_color {c : String}
    (h : ∀ x ∈ c.toList.dropWhile (· == '#'), Text.isBlank x = false ∧ x ≠ '@') :
    (Modifier.color c).token.render = "@color:".toList ++ c.toList.dropWhile (· == '#') :=
  congrArg ("@color:".toList ++ ·) (renderValue_of_plain h)

theorem IsColor.plain {c : String} (h : IsColor c) :
    c ≠ "" ∧ ∀ x ∈ c.toList.dropWhile (· == '#'), Text.isBlank x = false ∧ x ≠ '@' := by
  obtain ⟨v, hc, -, hhash, hv⟩ := h
  refine ⟨?_, fun x hx => ?_⟩
  · rintro rfl
    cases hc
  · rw [hc, (Modifier.dropWhile_color hhash).1] at hx
    exact ⟨(hv x hx).1, (hv x hx).2.1⟩

theorem mapM_renderDependency {positions : List Int} (h : ∀ n ∈ positions, Text.Fits n) :
    positions.mapM renderDependency
      = .ok ((positions.map Modifier.after).map (·.token.render)) := by
  induction positions with
  | nil => rfl
  | cons n positions ih =>
      rw [List.mapM_cons, ih fun k hk => h k (List.mem_cons_of_mem n hk), renderDependency,
        Text.writeInt_of_fits (h n List.mem_cons_self), List.map_cons, List.map_cons, render_after]
      rfl

theorem statusWord_eq {t : Task} (hdone : t.isDone ↔ t.status = .done) :
    (t.statusWord.map String.toList).toList
      = (if t.status = .pending then [] else [Modifier.status t.status]).map (·.token.render) := by
  have hflag : (t.status = .done || t.isDone) = decide (t.status = .done) := by
    rw [Bool.eq_iff_iff, Bool.or_eq_true, decide_eq_true_iff, hdone, or_self]
  rw [Task.statusWord]
  simp only [hflag]
  cases t.status with
  | pending => rfl
  | inProgress => rfl
  | done => rfl
  | cancelled => rfl

theorem renderNote_eq {t : Task} (hnote : ∀ n ∈ t.note, n ≠ "") :
    t.renderNote = (t.note.map Modifier.note).toList.map (·.token.render) := by
  rw [Task.renderNote]
  cases hn : t.note with
  | none => rfl
  | some n =>
      have hsome := String.isEmpty_eq_false_iff.mpr (hnote n hn)
      show (if n.isEmpty then [] else _) = [(Modifier.note n).token.render]
      rw [hsome, if_neg Bool.false_ne_true]
      rfl

/-- The words after the dependencies are the rest of the modifiers. -/
theorem renderMarks_append {t : Task} (hdone : t.isDone ↔ t.status = .done)
    (hcolor : ∀ c ∈ t.color,
      c ≠ "" ∧ ∀ x ∈ c.toList.dropWhile (· == '#'), Text.isBlank x = false ∧ x ≠ '@')
    (hnote : ∀ n ∈ t.note, n ≠ "") :
    t.renderMarks ++ t.renderNote = t.marks.map (·.token.render) := by
  have hstart : (t.explicitStart.map fun d => "@start:".toList ++ d.isoChars).toList
      = (t.explicitStart.map Modifier.start).toList.map (·.token.render) := by
    cases t.explicitStart with
    | none => rfl
    | some d => exact congrArg ([·]) (render_start d).symm
  have hmilestone : (if t.isMilestone then ["@milestone".toList] else [])
      = (if t.isMilestone then [Modifier.milestone] else []).map (·.token.render) := by
    cases t.isMilestone with
    | false => rfl
    | true => rfl
  have hmarks : t.renderMarks = ((t.explicitStart.map Modifier.start).toList
      ++ (if t.isMilestone then [Modifier.milestone] else [])
      ++ (if t.status = Status.pending then [] else [Modifier.status t.status])
      ++ (t.color.map Modifier.color).toList).map fun m : Modifier => m.token.render := by
    rw [Task.renderMarks, hstart, hmilestone, statusWord_eq hdone, List.map_append,
      List.map_append, List.map_append]
    congr 1
    cases hc : t.color with
    | none => rfl
    | some c =>
        have hsome := String.isEmpty_eq_false_iff.mpr (hcolor c hc).1
        show (if c.isEmpty then [] else _) = [(Modifier.color c).token.render]
        rw [hsome, if_neg Bool.false_ne_true, render_color (hcolor c hc).2]
  rw [hmarks, renderNote_eq hnote, Task.marks, ← List.map_append]

/-- There is a line if the row of markers can be made and no number is too long. -/
theorem renderWith_of_fits {t : Task} (hlevel : t.level < levelLimits.1)
    (hduration : Text.Fits t.duration) (hdependencies : ∀ n ∈ t.dependencies, Text.Fits n)
    (words : List (List Char)) : t.renderWith (.ok words)
      = .ok (written t.level.toNat t.title.toList (Text.intDigits t.duration)
        (spaced ((t.dependencies.map Modifier.after).map (·.token.render) ++ words))) := by
  have hword : ¬ levelLimits.2 ≤ t.level := by
    have : levelLimits.1 ≤ levelLimits.2 := by decide
    omega
  have hmarkers : renderLevel t.level = .ok (List.replicate t.level.toNat '>') := by
    rw [renderLevel, if_neg hword, if_neg (by omega)]
  rw [Task.renderWith, Task.renderHead, hmarkers, Text.writeInt_of_fits hduration,
    mapM_renderDependency hdependencies]
  refine congrArg Except.ok ?_
  simp only [written, List.append_assoc, List.cons_append, List.nil_append]

/-- The words of a task are its modifiers. -/
theorem spaced_modifiers {t : Task} (hdone : t.isDone ↔ t.status = .done)
    (hcolor : ∀ c ∈ t.color,
      c ≠ "" ∧ ∀ x ∈ c.toList.dropWhile (· == '#'), Text.isBlank x = false ∧ x ≠ '@')
    (hnote : ∀ n ∈ t.note, n ≠ "") :
    spaced ((t.dependencies.map Modifier.after).map (·.token.render)
      ++ (t.renderMarks ++ t.renderNote)) = Modifier.renderAll t.modifiers := by
  rw [renderMarks_append hdone hcolor hnote, ← List.map_append]
  rfl

/-- The line of a task whose row of markers can be made. -/
theorem render_eq {t : Task} (h : t.Expressible) (hlevel : t.level < levelLimits.1) :
    t.render = .ok (written t.level.toNat t.title.toList (Text.natDigits t.duration.natAbs)
      (Modifier.renderAll t.modifiers)) := by
  rw [Task.render, renderWith_of_fits hlevel h.duration h.dependencies,
    spaced_modifiers h.done (fun c hc => (h.color c hc).plain) fun n hn => (h.note n hn).1,
    Text.intDigits_of_nonneg h.lasting]

theorem renderLevel_error {level : Int} (h : levelLimits.1 ≤ level) :
    renderLevel level
      = .error (if levelLimits.2 ≤ level then .levelTooDeep else .levelOutOfMemory) := by
  rw [renderLevel]
  by_cases hword : levelLimits.2 ≤ level
  · rw [if_pos hword, if_pos hword]
  · rw [if_neg hword, if_neg hword, if_pos h]

/-! ## Reading back -/

/-- A task whose line is cut where it was put together, and behind whose duration its modifiers are
found, is read back. -/
theorem readTask?_of_modifiers {t : Task} (hlevel : 0 ≤ t.level) (hlasting : 0 ≤ t.duration)
    (hduration : Text.Fits t.duration) (hdone : t.isDone ↔ t.status = .done) {text : List Char}
    (hparts : taskParts? (written t.level.toNat t.title.toList (Text.natDigits t.duration.natAbs)
        (Modifier.renderAll t.modifiers))
      = some ⟨t.level.toNat, t.title.toList, Text.natDigits t.duration.natAbs, text⟩)
    (hscan : Modifier.scan text = t.modifiers) :
    readTask? (written t.level.toNat t.title.toList (Text.natDigits t.duration.natAbs)
      (Modifier.renderAll t.modifiers)) t.line = .ok (some t) := by
  have hread := Text.readInt_intDigits hduration
  rw [Text.intDigits_of_nonneg hlasting] at hread
  rw [readTask?, dropTrailing_written (Modifier.endsPlain_renderAll t.modifiers), hparts]
  simp only [hread, hscan, Int.toNat_of_nonneg hlevel, String.ofList_toList]
  exact congrArg (fun t => Except.ok (some t)) (applyAll_modifiers hdone)

theorem readTask?_written {t : Task} (h : t.Expressible) :
    readTask? (written t.level.toNat t.title.toList (Text.natDigits t.duration.natAbs)
      (Modifier.renderAll t.modifiers)) t.line = .ok (some t) := by
  have hline : ∀ m ∈ t.modifiers, ∀ v ∈ m.token.value, '\n' ∉ v :=
    fun m hm v hv => ((Modifier.readable_token (h.readable m hm)).value v hv).2.2
  obtain ⟨text, htail, hscan⟩ := modifierText?_renderAll hline
  rw [Modifier.scan_renderAll h.readable] at hscan
  have hdigits : ∀ c ∈ Text.natDigits t.duration.natAbs, Text.isDigit c :=
    fun c hc => Text.isDigit_of_mem (Text.mem_natDigits hc)
  have htitle : t.title.toList ≠ [] := fun hnil => h.title (String.toList_eq_nil_iff.mp hnil)
  have hone := h.level
  have hmarkers : 1 ≤ t.level.toNat := by omega
  exact readTask?_of_modifiers (by omega) h.lasting h.duration h.done
    (taskParts?_written hmarkers htitle h.stripped h.oneLine h.unambiguous.tail
      (Text.natDigits_ne_nil _) hdigits htail) hscan

/-- A task that its line can state is read back from it as it was, unless its level is so deep that
the line cannot be written. -/
theorem readTask?_render {t : Task} (h : t.Expressible) :
    (t.level < levelLimits.1 →
      ∃ line, t.render = .ok line ∧ readTask? line t.line = .ok (some t))
    ∧ (levelLimits.1 ≤ t.level → t.render
      = .error (if levelLimits.2 ≤ t.level then .levelTooDeep else .levelOutOfMemory)) := by
  constructor
  · intro hlevel
    exact ⟨_, render_eq h hlevel, readTask?_written h⟩
  · intro hlevel
    rw [Task.render, Task.renderWith, Task.renderHead, renderLevel_error hlevel]
    rfl

/-- A task whose title and note could be taken for durations and modifiers. -/
def tricky : Task where
  level := 3
  title := "Phase (2) of 3 @home (4)"
  duration := 7
  dependencies := [2, -5, 2]
  isMilestone := true
  status := .inProgress
  color := some "#(9)ff"
  explicitStart := some ⟨737485, by decide, by decide⟩
  note := some "see @x (1) "
  line := 12

theorem readTask?_render_tricky : tricky.Expressible
    ∧ ∃ line, tricky.render = .ok line ∧ readTask? line 12 = .ok (some tricky) := by
  have h : tricky.Expressible :=
    { level := by decide
      title := by decide
      stripped := by decide
      oneLine := by decide
      unambiguous := unambiguous_of_cuts (by decide)
      lasting := by decide
      duration := by cbv
      dependencies := by
        intro n hn
        have hsmall : ∀ n ∈ tricky.dependencies, n.natAbs < 10 := by decide
        rw [Text.Fits, Text.natDigits_of_lt (hsmall n hn), List.length_singleton]
        decide
      done := by decide
      color := by
        rintro c ⟨⟩
        have hall : "(9)ff".toList.all fun x => !Text.isBlank x && x != '@' && x != '"' := by
          decide
        exact ⟨"(9)ff".toList, rfl, by decide, by decide,
          fun x hx => by simpa [and_assoc] using List.all_eq_true.mp hall x hx⟩
      note := by
        rintro n ⟨⟩
        exact ⟨by decide, by decide, by decide⟩ }
  exact ⟨h, (readTask?_render h).1 (by decide)⟩

/-- A task nested deeper than any row of markers. -/
def abyss : Task where
  level := 9223372036854775808
  title := "T"
  duration := 1

theorem not_readTask?_render_abyss : abyss.Expressible
    ∧ ¬ ∃ line, abyss.render = .ok line ∧ readTask? line abyss.line = .ok (some abyss) := by
  refine ⟨?_, ?_⟩
  · exact
      { level := by decide
        title := by decide
        stripped := by decide
        oneLine := by decide
        unambiguous := unambiguous_of_cuts (by decide)
        lasting := by decide
        duration := by cbv
        dependencies := by rintro n ⟨⟩
        done := by decide
        color := by rintro c ⟨⟩
        note := by rintro n ⟨⟩ }
  · rintro ⟨line, hline, -⟩
    cases hline

end Roadmap.Outline
