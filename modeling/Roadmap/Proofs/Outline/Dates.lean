import Roadmap.Proofs.Outline.Canonical
import Roadmap.Proofs.Outline.Frame

/-!
# Other days in a text

Setting the days of a task in a *clean* text, one that can be read and whose task lines are all
canonical, always works: the line of the task says the new days and is canonical again, and no other
line changes (`patchLine_dates`). So days can be set on one line after the other (`Dated`), and the
text stays clean throughout.
-/

namespace Roadmap.Outline

/-- The text has the task on the task's line. -/
def Holds (text : String) (t : Task) : Prop :=
  ∃ (i : Nat) (line : Text.Line), (Text.linesOf text.toList)[i]? = some line ∧ t.line = i + 1
    ∧ readTask? line t.line = .ok (some t)

theorem Holds.eq {text : String} {t t' : Task} (h : Holds text t) (h' : Holds text t')
    (hline : t.line = t'.line) : t = t' := by
  obtain ⟨i, line, hi, hnumber, hread⟩ := h
  obtain ⟨i', line', hi', hnumber', hread'⟩ := h'
  obtain rfl : i = i' := by omega
  obtain rfl := Option.some.inj (hi.symm.trans hi')
  rw [hline, hread'] at hread
  exact (Option.some.inj (Except.ok.inj hread)).symm

theorem holds_of_read {text : String} {i : Nat} {line : Text.Line} {t : Task}
    (hi : (Text.linesOf text.toList)[i]? = some line)
    (hread : readTask? line (i + 1) = .ok (some t)) : t.line = i + 1 ∧ Holds text t := by
  obtain ⟨-, -, -, -, -, hnumber, -⟩ := readTask?_eq_some hread
  exact ⟨hnumber, i, line, hi, hnumber, by rw [hnumber]; exact hread⟩

/-- Each task line of the text is what its task is written as. -/
def Canonical (text : String) : Prop :=
  ∀ (i : Nat) (line : Text.Line) (t : Task), (Text.linesOf text.toList)[i]? = some line →
    readTask? line (i + 1) = .ok (some t) → t.render = .ok line

/-- The line is no task line or what its task is written as. -/
def canonicalLine (line : Text.Line) (number : Int) : Bool :=
  match readTask? line number with
  | .ok (some t) => t.render = .ok line
  | _ => true

theorem canonical_iff {text : String} : Canonical text
    ↔ (Text.linesOf text.toList).zipIdx.all fun (line, i) => canonicalLine line (i + 1) := by
  have hline : ∀ (line : Text.Line) (number : Int), canonicalLine line number
      ↔ ∀ t, readTask? line number = .ok (some t) → t.render = .ok line := by
    intro line number
    rw [canonicalLine]
    rcases readTask? line number with f | _ | t
    · simp
    · simp
    · simp
  rw [List.all_eq_true]
  constructor
  · rintro h ⟨line, i⟩ hmem
    exact (hline line (i + 1)).mpr fun t => h i line t (List.mem_zipIdx_iff_getElem?.mp hmem)
  · intro h i line t hi
    exact (hline line (i + 1)).mp (h (line, i) (List.mem_zipIdx_iff_getElem?.mpr hi)) t

instance (text : String) : Decidable (Canonical text) := decidable_of_iff _ canonical_iff.symm

structure Clean (text : String) : Prop where
  unix : '\r' ∉ text.toList
  readable : ∀ (i : Nat) (line : Text.Line), (Text.linesOf text.toList)[i]? = some line →
    ∃ t?, readTask? line (i + 1) = .ok t?
  canonical : Canonical text

/-! ## Reading -/

theorem readTask?_of_readLine {line : Text.Line} {number : Int} {s : Statement}
    (h : readLine line number = .ok s) : ∃ t?, readTask? line number = .ok t? := by
  have hs := readLine_eq_ok h
  cases s with
  | header p => exact ⟨none, readTask?_of_no_parts number (taskParts?_of_isHeader hs)⟩
  | task t => exact ⟨some t, hs.2⟩
  | silent => exact ⟨none, hs.2⟩

theorem readLine_of_readTask? {line : Text.Line} {number : Int} {t? : Option Task}
    (h : readTask? line number = .ok t?) : ∃ s, readLine line number = .ok s := by
  rw [readLine]
  split
  · exact ⟨_, rfl⟩
  · rw [h]
    exact ⟨_, rfl⟩

theorem exists_readLines_iff (lines : List Text.Line) (number : Int) :
    (∃ ss, readLines number lines = .ok ss) ↔ ∀ (i : Nat) (line : Text.Line),
      lines[i]? = some line → ∃ t?, readTask? line (number + i) = .ok t? := by
  induction lines generalizing number with
  | nil =>
      constructor
      · rintro - i line ⟨⟩
      · exact fun _ => ⟨[], rfl⟩
  | cons first lines ih =>
      have hshift : ∀ i : Nat, number + 1 + i = number + (i + 1 : Nat) := by
        intro i
        omega
      constructor
      · rintro ⟨ss, hss⟩ i line hi
        obtain ⟨s, rest, -, hs, hrest⟩ := readLines_cons_eq_ok hss
        cases i with
        | zero =>
            obtain rfl := Option.some.inj hi
            rw [Nat.cast_zero, add_zero]
            exact readTask?_of_readLine hs
        | succ i =>
            rw [← hshift]
            exact (ih _).mp ⟨rest, hrest⟩ i line hi
      · intro h
        obtain ⟨t?, ht⟩ := h 0 first rfl
        rw [Nat.cast_zero, add_zero] at ht
        obtain ⟨s, hs⟩ := readLine_of_readTask? ht
        obtain ⟨rest, hrest⟩ := (ih (number + 1)).mpr fun i line hi => by
          rw [hshift]
          exact h (i + 1) line hi
        exact ⟨s :: rest, by rw [readLines, hs, hrest]; rfl⟩

/-- A text can be read if and only if each of its lines can. -/
theorem exists_read_iff {text : String} {today : Date} :
    (∃ o, read text today = .ok o) ↔ ∀ (i : Nat) (line : Text.Line),
      (Text.linesOf text.toList)[i]? = some line → ∃ t?, readTask? line (i + 1) = .ok t? := by
  have hlines := exists_readLines_iff (Text.linesOf text.toList) 1
  simp only [add_comm (1 : Int)] at hlines
  rw [← hlines]
  constructor
  · rintro ⟨o, ho⟩
    obtain ⟨ss, hss, -⟩ := read_eq_ok ho
    exact ⟨ss, hss⟩
  · rintro ⟨ss, hss⟩
    exact ⟨_, by rw [read, hss]; rfl⟩

/-! ## The changes -/

theorem renderChanged_duration (t : Task) {duration : Int} (h : 0 ≤ duration) :
    t.renderChanged [.duration duration] = (t.redated t.explicitStart duration).render := by
  have hchange : t.renderChanged [.duration duration]
      = (t.redated t.explicitStart (max 0 duration)).render := rfl
  rwa [max_eq_right h] at hchange

theorem renderChanged_dates (t : Task) (start : Option Date) {duration : Int} (h : 0 ≤ duration) :
    t.renderChanged [.start start, .duration duration] = (t.redated start duration).render := by
  have hchange : t.renderChanged [.start start, .duration duration]
      = (t.redated start (max 0 duration)).render := rfl
  rwa [max_eq_right h] at hchange

/-! ## One line -/

/-- The second text is clean and has other days than the first at most on the given lines. -/
structure Dated (text text' : String) (numbers : List Int) : Prop where
  clean : Clean text'
  length : (Text.linesOf text'.toList).length = (Text.linesOf text.toList).length
  same : ∀ i : Nat, (i + 1 : Int) ∉ numbers →
    (Text.linesOf text'.toList)[i]? = (Text.linesOf text.toList)[i]?

theorem Dated.refl {text : String} (h : Clean text) (numbers : List Int) :
    Dated text text numbers := ⟨h, rfl, fun _ _ => rfl⟩

theorem Dated.trans {text text' text'' : String} {numbers numbers' : List Int}
    (h : Dated text text' numbers) (h' : Dated text' text'' numbers') :
    Dated text text'' (numbers ++ numbers') := by
  refine ⟨h'.clean, h'.length.trans h.length, fun i hi => ?_⟩
  rw [List.mem_append, not_or] at hi
  exact (h'.same i hi.2).trans (h.same i hi.1)

theorem Dated.mono {text text' : String} {numbers numbers' : List Int}
    (h : Dated text text' numbers) (hsub : ∀ n ∈ numbers, n ∈ numbers') :
    Dated text text' numbers' :=
  ⟨h.clean, h.length, fun i hi => h.same i fun hmem => hi (hsub _ hmem)⟩

theorem Dated.holds {text text' : String} {numbers : List Int} (h : Dated text text' numbers)
    {t : Task} (ht : Holds text t) (hline : t.line ∉ numbers) : Holds text' t := by
  obtain ⟨i, line, hi, hnumber, hread⟩ := ht
  rw [hnumber] at hline
  exact ⟨i, line, (h.same i hline).trans hi, hnumber, hread⟩

/-- The text with one of its lines replaced by a canonical one. -/
theorem dated_set {text : String} (h : Clean text) {i : Nat} {line line' : Text.Line}
    (hi : (Text.linesOf text.toList)[i]? = some line) (hline : OneLine line') {t : Task}
    (hread : readTask? line' (i + 1) = .ok (some t)) (hrender : t.render = .ok line') :
    Dated text (String.ofList (Text.unlines ((Text.linesOf text.toList).set i line'))) [(i + 1 : Int)]
      ∧ Holds (String.ofList (Text.unlines ((Text.linesOf text.toList).set i line'))) t := by
  have hlt := (List.getElem?_eq_some_iff.mp hi).1
  have hone : ∀ l ∈ (Text.linesOf text.toList).set i line', OneLine l := by
    intro l hl
    rcases List.mem_or_eq_of_mem_set hl with hl | rfl
    · exact oneLine_of_mem_linesOf h.unix hl
    · exact hline
  generalize hnew : String.ofList (Text.unlines ((Text.linesOf text.toList).set i line')) = new
  have hlines : Text.linesOf new.toList = (Text.linesOf text.toList).set i line' := by
    rw [← hnew, String.toList_ofList, linesOf_set text.toList i hline.1]
  have hself : (Text.linesOf new.toList)[i]? = some line' := by
    rw [hlines, List.getElem?_set_self hlt]
  have hother : ∀ j : Nat, i ≠ j → (Text.linesOf new.toList)[j]? = (Text.linesOf text.toList)[j]? := by
    intro j hj
    rw [hlines, List.getElem?_set_ne hj]
  refine ⟨⟨⟨?_, fun j l hl => ?_, fun j l u hl hu => ?_⟩, ?_, fun j hj => hother j ?_⟩, ?_⟩
  · rw [← hnew, String.toList_ofList]
    exact carriageReturn_not_mem_unlines hone
  · by_cases hj : i = j
    · subst hj
      obtain rfl := Option.some.inj (hself.symm.trans hl)
      exact ⟨_, hread⟩
    · rw [hother j hj] at hl
      exact h.readable j l hl
  · by_cases hj : i = j
    · subst hj
      obtain rfl := Option.some.inj (hself.symm.trans hl)
      obtain rfl := Option.some.inj (Except.ok.inj (hread.symm.trans hu))
      exact hrender
    · rw [hother j hj] at hl
      exact h.canonical j l u hl hu
  · rw [hlines, List.length_set]
  · rintro rfl
    exact hj (List.mem_singleton_self _)
  · exact (holds_of_read hself hread).2

theorem patchLine_of_same {text : String} {number : Int} {changes : List Change}
    (h : patchLines (Text.linesOf text.toList) number changes = .ok (Text.linesOf text.toList)) :
    patchLine text number changes = .ok text := by
  rw [patchLine, h]
  show Except.ok (String.ofList (Text.unlines (Text.linesOf text.toList))) = _
  rw [Text.unlines_linesOf, String.ofList_toList]

theorem patchLine_of_task {text : String} {i : Nat} {line line' : Text.Line} {t : Task}
    {changes : List Change} (hi : (Text.linesOf text.toList)[i]? = some line) (hline : OneLine line)
    (hread : readTask? line (i + 1) = .ok (some t)) (hrender : t.renderChanged changes = .ok line') :
    patchLine text (i + 1) changes
      = .ok (String.ofList (Text.unlines ((Text.linesOf text.toList).set i line'))) := by
  rw [patchLine_of_read hi rfl hread, hrender, lineEnding_of_oneLine hline]
  show Except.ok (String.ofList (Text.unlines ((Text.linesOf text.toList).set i (line' ++ [])))) = _
  rw [List.append_nil]

/-- Changes that come to a new duration, and a new start or the old one, are made on their line and
nowhere else. Nothing happens if the line has no task. -/
theorem patchLine_dates {text : String} (h : Clean text) {changes : List Change}
    (start : Option Date → Option Date) {duration : Int}
    (hchanges : ∀ t : Task, t.renderChanged changes
      = (t.redated (start t.explicitStart) duration).render)
    (hpos : 0 ≤ duration) (hfits : Text.Fits duration) (number : Int) :
    ∃ text', patchLine text number changes = .ok text' ∧ Dated text text' [number]
      ∧ ∀ t, Holds text t → t.line = number →
        Holds text' (t.redated (start t.explicitStart) duration) := by
  cases hindex : lineIndex? (Text.linesOf text.toList) number with
  | none =>
      refine ⟨text, patchLine_of_same (by rw [patchLines, hindex]), .refl h _, fun t ht hline => ?_⟩
      obtain ⟨i, line, hi, hnumber, -⟩ := ht
      have hsome := lineIndex?_eq_some.mpr
        ⟨(List.getElem?_eq_some_iff.mp hi).1, hline.symm.trans hnumber⟩
      rw [hindex] at hsome
      cases hsome
  | some i =>
      obtain ⟨hlt, rfl⟩ := lineIndex?_eq_some.mp hindex
      have hi := List.getElem?_eq_getElem hlt
      obtain ⟨t?, hread⟩ := h.readable i _ hi
      cases t? with
      | none =>
          refine ⟨text, patchLine_of_same ?_, .refl h _, fun t ht hline => ?_⟩
          · rw [patchLines, hindex]
            simp only [List.getD_eq_getElem _ [] hlt, hread]
            rfl
          · obtain ⟨j, line, hj, hnumber, hread'⟩ := ht
            obtain rfl : j = i := by omega
            obtain rfl := Option.some.inj (hj.symm.trans hi)
            rw [hline, hread] at hread'
            cases hread'
      | some t =>
          have hone := oneLine_of_mem_linesOf h.unix (List.getElem_mem hlt)
          obtain ⟨line', hrender, hline', hread'⟩ := exists_redated hone hread
            (h.canonical i _ t hi hread) (start t.explicitStart) hpos hfits
          obtain ⟨hdated, hholds⟩ := dated_set h hi hline' hread' hrender
          refine ⟨_, ?_, hdated, fun u hu hline => ?_⟩
          · exact patchLine_of_task hi hone hread ((hchanges t).trans hrender)
          · obtain ⟨hnumber, hold⟩ := holds_of_read hi hread
            obtain rfl := hu.eq hold (hline.trans hnumber.symm)
            exact hholds

/-- Days that have been written on a line can be written. -/
theorem fits_of_patchLine {text text' : String} {t : Task} (ht : Holds text t)
    {changes : List Change} {start : Option Date} {duration : Int}
    (hchanges : t.renderChanged changes = (t.redated start duration).render)
    (h : patchLine text t.line changes = .ok text') : Text.Fits duration := by
  obtain ⟨i, line, hi, hnumber, hread⟩ := ht
  rw [patchLine_of_read hi hnumber hread] at h
  obtain ⟨line', hrender, -⟩ := bind_eq_ok h
  rw [hchanges] at hrender
  exact (renderWith_eq_ok hrender).2.1

/-! ## The whole outline -/

theorem start_of_read {text : String} {today : Date} {o : Outline} (h : read text today = .ok o) :
    o.start = startDay text.toList today := by
  obtain ⟨ss, -, h⟩ := bind_eq_ok h
  cases h
  rfl

/-- If the lines keep their shapes and what the task lines say is known, the outline is known as far
as its start and its tasks go. -/
theorem tasks_of_read {text text' : String} {today : Date} {o o' : Outline}
    (hshape : SameShape text text') (h : read text today = .ok o)
    (h' : read text' today = .ok o') {f : Task → Task} (hline : ∀ t, (f t).line = t.line)
    (hf : ∀ t, Holds text t → Holds text' (f t)) :
    o'.start = o.start ∧ o'.projects.map (·.tasks) = o.projects.map fun p => p.tasks.map f := by
  have hbare := bare_of_shapes hshape.shape.symm h h'
  refine ⟨by rw [start_of_read h, start_of_read h', startDay, startDay, hshape.starts],
    List.ext_getElem? fun k => ?_⟩
  have hk := congrArg (·[k]?) hbare
  simp only [List.getElem?_map] at hk ⊢
  cases hp : o.projects[k]? with
  | none =>
      rw [hp, Option.map_none] at hk
      rw [Option.map_eq_none_iff.mp hk.symm]
      rfl
  | some p =>
      rw [hp, Option.map_some] at hk
      obtain ⟨p', hp', hsame⟩ := Option.map_eq_some_iff.mp hk.symm
      rw [hp', Option.map_some, Option.map_some]
      have htasks : p'.tasks.map Task.bare = p.tasks.map Task.bare := congrArg (·.tasks) hsame
      refine congrArg some (List.ext_getElem? fun j => ?_)
      have hj := congrArg (·[j]?) htasks
      simp only [List.getElem?_map] at hj ⊢
      cases ht : p.tasks[j]? with
      | none =>
          rw [ht, Option.map_none] at hj
          rw [Option.map_eq_none_iff.mp hj]
          rfl
      | some t =>
          rw [ht, Option.map_some] at hj
          obtain ⟨t', ht', hsame⟩ := Option.map_eq_some_iff.mp hj
          have hnumber : t'.line = t.line := congrArg (·.line) hsame
          have hold := exists_line h (List.mem_of_getElem? hp) (List.mem_of_getElem? ht)
          have hnew := exists_line h' (List.mem_of_getElem? hp') (List.mem_of_getElem? ht')
          rw [ht', Option.map_some]
          exact congrArg some (Holds.eq hnew (hf t hold) (hnumber.trans (hline t).symm))

end Roadmap.Outline
