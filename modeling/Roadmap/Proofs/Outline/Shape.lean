import Roadmap.Outline.Change
import Roadmap.Proofs.Outline.Reading
import Roadmap.Proofs.Outline.RoundTrip
import Roadmap.Proofs.Outline.Starts

/-!
# Patched lines keep their shape

Whatever a change makes of a task, the line that is written for it is again a task line of the same
level, as long as no text of the change holds a line end. It need not say the same: a new title can
move the place where the line is cut. But there always is such a place, as the number in front of
the modifiers is one that free text may follow (`taskParts?_loose`).

So a patch leaves the *shape* of every line alone: whether it is a header, a task line of some level
or neither.
-/

namespace Roadmap.Outline

/-! ## What rendering comes to -/

theorem fits_of_mapM_renderDependency {positions : List Int} {words : List (List Char)}
    (h : positions.mapM renderDependency = .ok words) : ∀ n ∈ positions, Text.Fits n := by
  induction positions generalizing words with
  | nil => rintro n ⟨⟩
  | cons n positions ih =>
      rw [List.mapM_cons] at h
      obtain ⟨word, hword, h⟩ := bind_eq_ok h
      obtain ⟨rest, hrest, -⟩ := bind_eq_ok h
      obtain ⟨ds, hds, -⟩ := bind_eq_ok hword
      intro k hk
      rcases List.mem_cons.mp hk with rfl | hk
      · exact (Text.writeInt_eq_ok hds).2
      · exact ih hrest k hk

theorem renderLevel_eq_ok {level : Int} {markers : List Char} (h : renderLevel level = .ok markers) :
    level < levelLimits.1 ∧ markers = List.replicate level.toNat '>' := by
  rw [renderLevel] at h
  split at h
  · cases h
  · split at h
    · cases h
    · next hlt =>
        cases h
        exact ⟨Int.not_le.mp hlt, rfl⟩

/-- The line of a task, with what the task must satisfy for there to be one. -/
theorem renderWith_eq_ok {t : Task} {marks : Except Fault (List (List Char))} {line : List Char}
    (h : t.renderWith marks = .ok line) :
    t.level < levelLimits.1 ∧ Text.Fits t.duration ∧ (∀ n ∈ t.dependencies, Text.Fits n)
      ∧ ∃ words, marks = .ok words ∧ line = written t.level.toNat t.title.toList
          (Text.intDigits t.duration)
          (spaced ((t.dependencies.map Modifier.after).map (·.token.render) ++ words)) := by
  obtain ⟨head, hhead, h⟩ := bind_eq_ok h
  obtain ⟨markers, hmarkers, hhead⟩ := bind_eq_ok hhead
  obtain ⟨ds, hds, hhead⟩ := bind_eq_ok hhead
  obtain ⟨deps, hdeps, h⟩ := bind_eq_ok h
  obtain ⟨words, hwords, h⟩ := bind_eq_ok h
  obtain ⟨hlevel, rfl⟩ := renderLevel_eq_ok hmarkers
  obtain ⟨rfl, hfits⟩ := Text.writeInt_eq_ok hds
  have hall := fits_of_mapM_renderDependency hdeps
  rw [mapM_renderDependency hall] at hdeps
  cases hdeps
  cases hhead
  cases h
  refine ⟨hlevel, hfits, hall, words, hwords, ?_⟩
  simp only [written, List.append_assoc, List.cons_append, List.nil_append]

/-! ## Written lines -/

theorem dropFinalBreak_of_line {s : List Char} (h : '\n' ∉ s) : dropFinalBreak s = s := by
  rw [dropFinalBreak]
  exact if_neg fun hlast => h (List.mem_of_mem_getLast? hlast)

theorem freeText?_of_line {tail : List Char} (h : '\n' ∉ tail) : freeText? tail = some tail := by
  have hnone : tail.contains '\n' = false := by
    rwa [← Bool.not_eq_true, List.contains_iff_mem]
  simp only [freeText?, dropFinalBreak_of_line h, hnone, Bool.false_eq_true, if_false]

/-- A cut that free text may follow is enough for a line to be cut somewhere. -/
theorem isSome_chooseCut? {gap body : List Char} {c : Cut} (hc : c ∈ cuts body)
    (hfits : c.titled || c.untitled gap) (hline : '\n' ∉ c.after) :
    (chooseCut? gap body).isSome := by
  have hfree := freeText?_of_line hline
  rw [chooseCut?, Option.isSome_or, Option.isSome_or, Option.isSome_or, Bool.or_eq_true,
    Bool.or_eq_true, Bool.or_eq_true]
  refine .inr (.inr ?_)
  rw [List.findSome?_isSome_iff, List.findSome?_isSome_iff]
  rcases Bool.or_eq_true _ _ ▸ hfits with hfits | hfits
  · refine .inl ⟨c, List.mem_reverse.mpr hc, ?_⟩
    rw [Cut.withTail, hfree, Option.bind_some, if_pos hfits]
    rfl
  · refine .inr ⟨c, hc, ?_⟩
    rw [Cut.withTail, hfree, Option.bind_some, if_pos hfits]
    rfl

/-- A line with markers, a blank and a number in parentheses is a task line, whatever stands between
and after them. -/
theorem taskParts?_loose {level : Nat} {title ds tail : List Char} (hlevel : 1 ≤ level)
    (htitle : '\n' ∉ title) (hne : ds ≠ []) (hds : ∀ c ∈ ds, Text.isDigit c)
    (htail : '\n' ∉ tail) :
    ∃ p, taskParts? (written level title ds tail) = some p ∧ p.level = level := by
  have hlead : '\n' ∉ ' ' :: (title ++ [' ']) := by
    simpa using htitle
  generalize hw : (' ' :: (title ++ [' '])).dropWhile Text.isBlank = w
  have hcut : ⟨w.reverse, ds, tail⟩ ∈ cuts (w ++ '(' :: (ds ++ ')' :: tail)) :=
    mem_cuts.mpr ⟨by rw [Cut.before, List.reverse_reverse], hne, hds⟩
  have hfits : Cut.titled ⟨w.reverse, ds, tail⟩ || Cut.untitled
      ((' ' :: (title ++ [' '])).takeWhile Text.isBlank) ⟨w.reverse, ds, tail⟩ := by
    cases w with
    | nil =>
        have hall : ∀ c ∈ ' ' :: (title ++ [' ']), Text.isBlank c := List.dropWhile_eq_nil_iff.mp hw
        have hany : (title ++ [' ']).any (· != '\n') := List.any_eq_true.mpr ⟨' ', by simp, rfl⟩
        rw [List.takeWhile_eq_self_iff.mpr hall, Bool.or_eq_true]
        exact .inr hany
    | cons a as =>
        have hnone : '\n' ∉ (a :: as).reverse.dropWhile Text.isBlank := by
          intro hc
          have := List.mem_reverse.mp ((List.dropWhile_sublist Text.isBlank).subset hc)
          rw [← hw] at this
          exact hlead ((List.dropWhile_sublist Text.isBlank).subset this)
        rw [Bool.or_eq_true, Cut.titled, Bool.and_eq_true, Bool.not_eq_true', Bool.not_eq_true']
        refine .inl ⟨by simp, ?_⟩
        rwa [← Bool.not_eq_true, List.contains_iff_mem]
  obtain ⟨⟨c, m⟩, hchoose⟩ := Option.isSome_iff_exists.mp (isSome_chooseCut? hcut hfits htail)
  rw [taskParts?_written_eq hlevel, hw, hchoose]
  exact ⟨_, rfl, rfl⟩

/-! ## What writing adds -/

/-- Besides the texts of its task, a line holds printable ASCII only. -/
def isInk (c : Char) : Bool := 0x20 ≤ c.toNat && c.toNat ≤ 0x7e

/-- The texts of the task are without a character. -/
structure Task.Lacks (t : Task) (e : Char) : Prop where
  title : e ∉ t.title.toList
  color : ∀ c ∈ t.color, e ∉ c.toList
  note : ∀ n ∈ t.note, e ∉ n.toList

/-- The texts of the change are without a character. -/
def Change.Lacks (e : Char) : Change → Prop
  | .title s => e ∉ s.toList
  | .color c => ∀ s ∈ c, e ∉ s.toList
  | .note n => ∀ s ∈ n, e ∉ s.toList
  | .noteLiteral value => e ∉ value
  | _ => True

theorem nonEmpty?_eq_some {o : Option String} {s : String} (h : nonEmpty? o = some s) :
    o = some s ∧ s ≠ "" := by
  cases o with
  | none => cases h
  | some u =>
      rw [nonEmpty?] at h
      split at h
      · cases h
      · next hne =>
          cases h
          exact ⟨rfl, fun heq => hne (String.isEmpty_iff.mpr heq)⟩

section

variable {e : Char} (he : ¬ isInk e)

include he

theorem not_mem_of_isInk {s : List Char} (h : s.all isInk) : e ∉ s :=
  fun hmem => he (List.all_eq_true.mp h e hmem)

theorem not_mem_of_digits {s : List Char} (h : ∀ c ∈ s, c = '-' ∨ c ∈ Text.tenDigits) :
    e ∉ s := by
  have hink : e ∉ '-' :: Text.tenDigits := not_mem_of_isInk he rfl
  exact fun hmem => hink (List.mem_cons.mpr (h e hmem))

theorem not_mem_renderValue {v : List Char} (h : e ∉ v) : e ∉ renderValue v := by
  rw [renderValue]
  split
  · rw [List.mem_cons, List.mem_append, List.mem_singleton]
    rintro (rfl | hmem | rfl)
    · exact he rfl
    · exact h hmem
    · exact he rfl
  · exact h

theorem not_mem_spaced {words : List (List Char)} (h : ∀ w ∈ words, e ∉ w) :
    e ∉ spaced words := by
  rw [spaced, List.mem_flatMap]
  rintro ⟨w, hw, hmem⟩
  rcases List.mem_cons.mp hmem with rfl | hmem
  · exact he rfl
  · exact h w hw hmem

theorem not_mem_render_after (n : Int) : e ∉ (Modifier.after n).token.render := by
  rw [render_after, List.mem_append]
  rintro (hmem | hmem)
  · exact not_mem_of_isInk he (by decide) hmem
  · exact not_mem_of_digits he (fun c hc => Text.mem_intDigits hc) hmem

theorem not_mem_written {level : Nat} {title ds tail : List Char} (htitle : e ∉ title)
    (hds : e ∉ ds) (htail : e ∉ tail) : e ∉ written level title ds tail := by
  have hmark : ∀ c, isInk c → e ≠ c := by
    rintro c hc rfl
    exact he hc
  rw [written]
  simp only [List.mem_append, List.mem_cons, List.mem_replicate]
  rintro (⟨-, h⟩ | h | h | h | h | h | h | h)
  · exact hmark '>' rfl h
  · exact hmark ' ' rfl h
  · exact htitle h
  · exact hmark ' ' rfl h
  · exact hmark '(' rfl h
  · exact hds h
  · exact hmark ')' rfl h
  · exact htail h

namespace Task.Lacks

variable {t : Task} (h : t.Lacks e)

include h

theorem renderMarks : ∀ w ∈ t.renderMarks, e ∉ w := by
  intro w hw
  simp only [Task.renderMarks, List.mem_append, Option.mem_toList, Option.map_eq_some_iff] at hw
  rcases hw with ((⟨d, -, rfl⟩ | hw) | ⟨word, hw, rfl⟩) | hw
  · rw [List.mem_append]
    rintro (hmem | hmem)
    · exact not_mem_of_isInk he (by decide) hmem
    · exact not_mem_of_digits he (fun c hc => Date.mem_isoChars hc) hmem
  · split at hw
    · rw [List.mem_singleton.mp hw]
      exact not_mem_of_isInk he rfl
    · cases hw
  · have hwords : word ∈ ["@done", "@progress", "@cancelled"] := by
      rw [Task.statusWord] at hw
      split at hw
      · cases hw
        decide
      · split at hw
        · cases hw
          decide
        · cases hw
          decide
        · cases hw
    exact not_mem_of_isInk he ((by decide : ∀ word ∈ ["@done", "@progress", "@cancelled"],
      word.toList.all isInk) word hwords)
  · split at hw
    · next c hc =>
        split at hw
        · cases hw
        · rw [List.mem_singleton.mp hw, List.mem_append]
          rintro (hmem | hmem)
          · exact not_mem_of_isInk he (by decide) hmem
          · exact h.color c hc ((List.dropWhile_sublist _).subset hmem)
    · cases hw

theorem renderNote : ∀ w ∈ t.renderNote, e ∉ w := by
  intro w hw
  rw [Task.renderNote] at hw
  split at hw
  · next n hn =>
      split at hw
      · cases hw
      · rw [List.mem_singleton.mp hw, List.mem_append]
        rintro (hmem | hmem)
        · exact not_mem_of_isInk he (by decide) hmem
        · exact not_mem_renderValue he (h.note n hn) hmem
  · cases hw

theorem change {c : Change} (hc : c.Lacks e) : (t.change c).Lacks e := by
  cases c with
  | title s =>
      refine ⟨?_, h.color, h.note⟩
      show e ∉ (String.ofList (Text.strip s.toList)).toList
      rw [String.toList_ofList]
      exact fun hmem => hc (mem_of_strip hmem)
  | color c =>
      refine ⟨h.title, fun c' hc' => ?_, h.note⟩
      obtain ⟨s, hs, rfl⟩ := Option.map_eq_some_iff.mp hc'
      rw [normalizeColor, String.toList_ofList, List.mem_cons]
      rintro (rfl | hmem)
      · exact he rfl
      · exact hc s (nonEmpty?_eq_some hs).1 ((List.dropWhile_sublist _).subset hmem)
  | note n => exact ⟨h.title, h.color, fun n' hn' => hc n' (nonEmpty?_eq_some hn').1⟩
  | _ => exact ⟨h.title, h.color, h.note⟩

theorem changeAll {changes : List Change} (hc : ∀ c ∈ changes, c.Lacks e) :
    (t.changeAll changes).Lacks e := by
  rw [Task.changeAll]
  induction changes generalizing t with
  | nil => exact h
  | cons c changes ih =>
      exact ih (h.change he (hc c List.mem_cons_self))
        fun c' hc' => hc c' (List.mem_cons_of_mem c hc')

theorem changedMarks {changes : List Change} (hc : ∀ c ∈ changes, c.Lacks e)
    {words : List (List Char)} (hwords : t.changedMarks changes = .ok words) :
    ∀ w ∈ words, e ∉ w := by
  rw [Task.changedMarks] at hwords
  split at hwords
  · cases hwords
  · cases hwords
  · next value _ _ hvalue =>
      cases hwords
      obtain ⟨c, hmem, heq⟩ := List.exists_of_findSome?_eq_some hvalue
      have hline : e ∉ value := by
        split at heq
        · cases heq
          exact hc _ hmem
        · cases heq
      intro w hw
      rcases List.mem_append.mp hw with hw | hw
      · exact h.renderMarks he w hw
      · rw [List.mem_singleton.mp hw, List.mem_append]
        rintro (hmem | hmem)
        · exact not_mem_of_isInk he (by decide) hmem
        · exact hline hmem
  · cases hwords
    intro w hw
    exact (List.mem_append.mp hw).elim (h.renderMarks he w) (h.renderNote he w)

/-- A changed task's line holds nothing that neither the task nor a change brings. -/
theorem renderChanged {changes : List Change} (hc : ∀ c ∈ changes, c.Lacks e) {line : List Char}
    (hline : t.renderChanged changes = .ok line) : e ∉ line := by
  rw [Task.renderChanged] at hline
  split at hline
  · cases hline
  · obtain ⟨-, -, -, words, hwords, rfl⟩ := renderWith_eq_ok hline
    have ht := h.changeAll he hc
    refine not_mem_written he ht.title (not_mem_of_digits he fun c hc => Text.mem_intDigits hc)
      (not_mem_spaced he fun w hw => ?_)
    rcases List.mem_append.mp hw with hw | hw
    · rw [List.map_map] at hw
      obtain ⟨n, -, rfl⟩ := List.mem_map.mp hw
      exact not_mem_render_after he n
    · exact ht.changedMarks he hc hwords w hw

end Task.Lacks

end

/-! ## Lines without line ends -/

theorem not_isInk_newline : ¬ isInk '\n' := by decide

theorem not_isInk_carriageReturn : ¬ isInk '\r' := by decide

theorem oneLine_of_digits {s : List Char} (h : ∀ c ∈ s, c = '-' ∨ c ∈ Text.tenDigits) :
    OneLine s :=
  ⟨not_mem_of_digits not_isInk_newline h, not_mem_of_digits not_isInk_carriageReturn h⟩

theorem oneLine_spaced {words : List (List Char)} (h : ∀ w ∈ words, OneLine w) :
    OneLine (spaced words) :=
  ⟨not_mem_spaced not_isInk_newline fun w hw => (h w hw).1,
    not_mem_spaced not_isInk_carriageReturn fun w hw => (h w hw).2⟩

theorem oneLine_written {level : Nat} {title ds tail : List Char} (htitle : OneLine title)
    (hds : OneLine ds) (htail : OneLine tail) : OneLine (written level title ds tail) :=
  ⟨not_mem_written not_isInk_newline htitle.1 hds.1 htail.1,
    not_mem_written not_isInk_carriageReturn htitle.2 hds.2 htail.2⟩

namespace Task.OneLine

variable {t : Task} (h : t.OneLine)

include h

theorem lacks_newline : t.Lacks '\n' :=
  ⟨h.title.1, fun c hc => (h.color c hc).1, fun n hn => (h.note n hn).1⟩

theorem lacks_carriageReturn : t.Lacks '\r' :=
  ⟨h.title.2, fun c hc => (h.color c hc).2, fun n hn => (h.note n hn).2⟩

theorem renderMarks : ∀ w ∈ t.renderMarks, Outline.OneLine w := fun w hw =>
  ⟨h.lacks_newline.renderMarks not_isInk_newline w hw,
    h.lacks_carriageReturn.renderMarks not_isInk_carriageReturn w hw⟩

theorem renderNote : ∀ w ∈ t.renderNote, Outline.OneLine w := fun w hw =>
  ⟨h.lacks_newline.renderNote not_isInk_newline w hw,
    h.lacks_carriageReturn.renderNote not_isInk_carriageReturn w hw⟩

end Task.OneLine

/-! ## Changes -/

/-- The texts of the change hold no line ends. -/
def Change.OneLine : Change → Prop
  | .title s => Outline.OneLine s.toList
  | .color c => ∀ s ∈ c, Outline.OneLine s.toList
  | .note n => ∀ s ∈ n, Outline.OneLine s.toList
  | .noteLiteral value => Outline.OneLine value
  | _ => True

theorem Change.OneLine.lacks {c : Change} (h : c.OneLine) : c.Lacks '\n' ∧ c.Lacks '\r' := by
  cases c with
  | title s => exact h
  | color c => exact ⟨fun s hs => (h s hs).1, fun s hs => (h s hs).2⟩
  | note n => exact ⟨fun s hs => (h s hs).1, fun s hs => (h s hs).2⟩
  | noteLiteral value => exact h
  | _ => exact ⟨trivial, trivial⟩

/-- What no change touches. -/
theorem changeAll_keeps {t : Task} (hpos : 0 ≤ t.duration) (changes : List Change) :
    (t.changeAll changes).level = t.level ∧ 0 ≤ (t.changeAll changes).duration := by
  rw [Task.changeAll]
  induction changes generalizing t with
  | nil => exact ⟨rfl, hpos⟩
  | cons c changes ih =>
      have hstep : (t.change c).level = t.level ∧ 0 ≤ (t.change c).duration := by
        cases c with
        | duration n => exact ⟨rfl, le_max_left 0 n⟩
        | _ => exact ⟨rfl, hpos⟩
      have hrest := ih hstep.2
      exact ⟨hrest.1.trans hstep.1, hrest.2⟩

/-- However a task is changed, its line is one task line of its level. -/
theorem renderChanged_eq_ok {t : Task} {changes : List Change} {line : List Char} (ht : t.OneLine)
    (hlevel : 1 ≤ t.level) (hpos : 0 ≤ t.duration) (hc : ∀ c ∈ changes, c.OneLine)
    (h : t.renderChanged changes = .ok line) :
    OneLine line ∧ line.head? = some '>'
      ∧ ∃ p, taskParts? line = some p ∧ (p.level : Int) = t.level := by
  have hnewline := ht.lacks_newline.renderChanged not_isInk_newline
    (fun c hmem => (hc c hmem).lacks.1) h
  have hreturn := ht.lacks_carriageReturn.renderChanged not_isInk_carriageReturn
    (fun c hmem => (hc c hmem).lacks.2) h
  rw [Task.renderChanged] at h
  split at h
  · cases h
  · obtain ⟨hsame, hpos'⟩ := changeAll_keeps hpos changes
    obtain ⟨-, -, -, words, -, rfl⟩ := renderWith_eq_ok h
    rw [hsame, Text.intDigits_of_nonneg hpos'] at hnewline hreturn ⊢
    have hparts : '\n' ∉ (t.changeAll changes).title.toList
        ∧ '\n' ∉ spaced (((t.changeAll changes).dependencies.map Modifier.after).map
          (·.token.render) ++ words) := by
      rw [written] at hnewline
      simp only [List.mem_append, List.mem_cons, not_or] at hnewline
      exact ⟨hnewline.2.2.1, hnewline.2.2.2.2.2.2.2⟩
    have hmarkers : 1 ≤ t.level.toNat := by omega
    obtain ⟨p, hp, hplevel⟩ := taskParts?_loose hmarkers hparts.1 (Text.natDigits_ne_nil _)
      (fun c hc => Text.isDigit_of_mem (Text.mem_natDigits hc)) hparts.2
    refine ⟨⟨hnewline, hreturn⟩, ?_, p, hp, by omega⟩
    obtain ⟨k, hk⟩ := Nat.exists_eq_add_of_le' hmarkers
    rw [written, hk]
    rfl

/-! ## Shapes -/

inductive Shape where
  | header
  | task (level : Nat)
  | silent

/-- What kind of line it is. -/
def shape (line : Text.Line) : Shape :=
  let line := Text.dropTrailing (· == '\r') line
  if isHeader line then .header
  else match taskParts? line with
    | some p => .task p.level
    | none => .silent

theorem dropTrailing_of_oneLine {line : Text.Line} (h : OneLine line) :
    Text.dropTrailing (· == '\r') line = line := by
  refine Text.dropTrailing_of_last fun c hc => ?_
  rw [beq_eq_false_iff_ne]
  rintro rfl
  exact h.2 (List.mem_of_mem_getLast? hc)

theorem shape_of_task {line : Text.Line} (h : OneLine line) (hhead : line.head? = some '>')
    {p : TaskParts} (hp : taskParts? line = some p) : shape line = .task p.level := by
  have hheader : isHeader line = false := by
    cases line with
    | nil => cases hhead
    | cons c line =>
        obtain rfl := Option.some.inj hhead
        rfl
  rw [shape]
  simp only [dropTrailing_of_oneLine h, hheader, hp, Bool.false_eq_true, if_false]

/-- A task line opens with the markers of its level and a blank. -/
theorem markers_of_taskParts? {line : List Char} {p : TaskParts} (h : taskParts? line = some p) :
    1 ≤ p.level ∧ ∃ c u, line = List.replicate p.level '>' ++ c :: u ∧ Text.isBlank c := by
  simp only [taskParts?] at h
  split at h
  · cases h
  · next hmarkers =>
      obtain ⟨cut, -, rfl⟩ := Option.map_eq_some_iff.mp h
      rw [Bool.or_eq_true, not_or, List.isEmpty_iff, List.isEmpty_iff] at hmarkers
      obtain ⟨hmarkers, hgap⟩ := hmarkers
      obtain ⟨c, gap, hgap⟩ := List.exists_cons_of_ne_nil hgap
      have hrow : line.takeWhile (· == '>')
          = List.replicate (line.takeWhile (· == '>')).length '>' :=
        List.eq_replicate_of_mem fun b hb => by simpa using List.mem_takeWhile_imp hb
      refine ⟨List.length_pos_iff.mpr hmarkers, c,
        gap ++ (line.dropWhile (· == '>')).dropWhile Text.isBlank, ?_,
        List.mem_takeWhile_imp (hgap ▸ List.mem_cons_self)⟩
      rw [← hrow, ← List.cons_append, ← hgap, List.takeWhile_append_dropWhile,
        List.takeWhile_append_dropWhile]

theorem marked_of_taskParts? {line : List Char} (hline : '\n' ∉ line) {p : TaskParts}
    (h : taskParts? line = some p) : Marked p.level line :=
  ⟨(markers_of_taskParts? h).1, hline, (markers_of_taskParts? h).2⟩

theorem head?_of_taskParts? {line : List Char} {p : TaskParts} (h : taskParts? line = some p) :
    line.head? = some '>' := by
  obtain ⟨hlevel, c, u, hline, -⟩ := markers_of_taskParts? h
  obtain ⟨n, hn⟩ := Nat.exists_eq_add_of_le' hlevel
  rw [hline, hn]
  rfl

/-- A header opens with another character than a task line. -/
theorem taskParts?_of_isHeader {line : List Char} (h : isHeader line) : taskParts? line = none := by
  cases hparts : taskParts? line with
  | none => rfl
  | some p =>
      obtain ⟨rest, hrest⟩ := List.head?_eq_some_iff.mp (head?_of_taskParts? hparts)
      rw [hrest] at h
      cases h

theorem lineIndex?_eq_some {lines : List Text.Line} {number : Int} {i : Nat} :
    lineIndex? lines number = some i ↔ i < lines.length ∧ number = i + 1 := by
  rw [lineIndex?]
  split
  · rw [Option.some.injEq]
    omega
  · constructor
    · rintro ⟨⟩
    · omega

theorem lineEnding_of_not_mem {line : Text.Line} (h : '\r' ∉ line) : lineEnding line = [] := by
  rw [lineEnding, if_neg]
  exact fun hlast => h (List.mem_of_mem_getLast? hlast)

theorem lineEnding_of_oneLine {line : Text.Line} (h : OneLine line) : lineEnding line = [] :=
  lineEnding_of_not_mem h.2

/-- All that a patch can do: leave the lines, or put the changed task in the place of its line,
with the end of that line. -/
theorem patchLines_eq_ok {lines lines' : List Text.Line} {number : Int} {changes : List Change}
    (h : patchLines lines number changes = .ok lines') :
    lines' = lines ∨ ∃ (i : Nat) (hi : i < lines.length) (t : Task) (new : Text.Line),
      number = i + 1 ∧ readTask? lines[i] number = .ok (some t)
        ∧ t.renderChanged changes = .ok new
        ∧ lines' = lines.set i (new ++ lineEnding lines[i]) := by
  rw [patchLines] at h
  split at h
  · cases h
    exact .inl rfl
  · next i hi =>
      obtain ⟨hlt, hnumber⟩ := lineIndex?_eq_some.mp hi
      rw [List.getD_eq_getElem lines [] hlt] at h
      obtain ⟨t?, ht, h⟩ := bind_eq_ok h
      cases t? with
      | none =>
          cases h
          exact .inl rfl
      | some t =>
          obtain ⟨new, hnew, h⟩ := bind_eq_ok h
          cases h
          exact .inr ⟨i, hlt, t, new, hnumber, ht, hnew, rfl⟩

/-- Patching a line leaves the shapes of all lines as they are, and the start marks. -/
theorem patchLines_shape {lines lines' : List Text.Line} {number : Int} {changes : List Change}
    (hlines : ∀ l ∈ lines, OneLine l) (hc : ∀ c ∈ changes, c.OneLine)
    (h : patchLines lines number changes = .ok lines') :
    (∀ l ∈ lines', OneLine l) ∧ lines'.map shape = lines.map shape
      ∧ startWords true (Text.unlines lines') = startWords true (Text.unlines lines) := by
  obtain rfl | ⟨i, hlt, t, line, rfl, ht, hline, rfl⟩ := patchLines_eq_ok h
  · exact ⟨hlines, rfl, rfl⟩
  · have hold : OneLine lines[i] := hlines _ (List.getElem_mem hlt)
    obtain ⟨p, hp, hplevel, hlevel, hpos, -, hone⟩ := readTask?_eq_some ht
    obtain ⟨hnew, hhead, q, hq, hqlevel⟩ := renderChanged_eq_ok (hone hold) hlevel hpos hc hline
    rw [lineEnding_of_oneLine hold, List.append_nil]
    rw [dropTrailing_of_oneLine hold] at hp
    have hsame : q.level = p.level := by omega
    have hshape : shape line = shape lines[i] := by
      rw [shape_of_task hnew hhead hq, shape_of_task hold (head?_of_taskParts? hp) hp, hsame]
    refine ⟨fun l hl => ?_, ?_, ?_⟩
    · rcases List.mem_or_eq_of_mem_set hl with hl | rfl
      · exact hlines l hl
      · exact hnew
    · rw [List.map_set, hshape, ← List.getElem_map shape (h := by simpa using hlt)]
      exact List.set_getElem_self _
    · exact (startWords_akin (akin_set (List.getElem?_eq_getElem hlt)
        (marked_of_taskParts? hold.1 hp) (hsame ▸ marked_of_taskParts? hnew.1 hq) '\n')
        fun _ => rfl).symm

/-! ## Texts -/

/-- A line is part of its text, and holds no line feed. -/
theorem of_mem_linesOf {s : List Char} {l : Text.Line} (hl : l ∈ Text.linesOf s) :
    '\n' ∉ l ∧ ∀ c ∈ l, c ∈ s := by
  induction s generalizing l with
  | nil =>
      obtain rfl := List.mem_singleton.mp hl
      exact ⟨List.not_mem_nil, fun c hc => hc⟩
  | cons c s ih =>
      have hrest : ∀ {l}, l ∈ Text.linesOf s → '\n' ∉ l ∧ ∀ x ∈ l, x ∈ c :: s :=
        fun hl => ⟨(ih hl).1, fun x hx => List.mem_cons_of_mem c ((ih hl).2 x hx)⟩
      obtain ⟨line, lines, hsplit⟩ := List.exists_cons_of_ne_nil (Text.linesOf_ne_nil s)
      rw [Text.linesOf] at hl
      split at hl
      · rcases List.mem_cons.mp hl with rfl | hl
        · exact ⟨List.not_mem_nil, by rintro x ⟨⟩⟩
        · exact hrest hl
      · next hc =>
          rw [hsplit] at hl hrest
          rcases List.mem_cons.mp hl with rfl | hl
          · obtain ⟨hline, hmem⟩ := hrest List.mem_cons_self
            refine ⟨fun h => ?_, fun x hx => ?_⟩
            · exact (List.mem_cons.mp h).elim (fun h => hc h.symm) hline
            · exact (List.mem_cons.mp hx).elim (fun h => h ▸ List.mem_cons_self) (hmem x)
          · exact hrest (List.mem_cons_of_mem line hl)

/-- The lines of a text after one of them has been replaced. -/
theorem linesOf_set (s : List Char) (i : Nat) {line : Text.Line} (h : '\n' ∉ line) :
    Text.linesOf (Text.unlines ((Text.linesOf s).set i line)) = (Text.linesOf s).set i line := by
  refine Text.linesOf_unlines ?_ fun l hl => ?_
  · rw [Ne, List.set_eq_nil_iff]
    exact Text.linesOf_ne_nil s
  · rcases List.mem_or_eq_of_mem_set hl with hl | rfl
    · exact (of_mem_linesOf hl).1
    · exact h

theorem oneLine_of_mem_linesOf {s : List Char} (h : '\r' ∉ s) {l : Text.Line}
    (hl : l ∈ Text.linesOf s) : OneLine l :=
  ⟨(of_mem_linesOf hl).1, fun hc => h ((of_mem_linesOf hl).2 _ hc)⟩

theorem carriageReturn_not_mem_unlines {lines : List Text.Line} (h : ∀ l ∈ lines, OneLine l) :
    '\r' ∉ Text.unlines lines := by
  induction lines with
  | nil => exact List.not_mem_nil
  | cons line lines ih =>
      have hline := (h line List.mem_cons_self).2
      have hlines := ih fun l hl => h l (List.mem_cons_of_mem line hl)
      cases lines with
      | nil => exact hline
      | cons l ls =>
          rw [Text.unlines, List.mem_append, List.mem_cons]
          · rintro (hc | hc | hc)
            · exact hline hc
            · exact absurd hc (by decide)
            · exact hlines hc
          · rintro ⟨⟩

/-- What a patched text is made of. -/
theorem patchLine_eq_ok {text text' : String} {number : Int} {changes : List Change}
    (h : patchLine text number changes = .ok text') :
    ∃ lines', patchLines (Text.linesOf text.toList) number changes = .ok lines'
      ∧ text' = String.ofList (Text.unlines lines') := by
  obtain ⟨lines', hlines', h⟩ := bind_eq_ok h
  cases h
  exact ⟨lines', hlines', rfl⟩

/-- Patching the line of a task writes the changed task in its place. -/
theorem patchLine_of_read {text : String} {number : Int} {i : Nat} {line : Text.Line} {t : Task}
    (hi : (Text.linesOf text.toList)[i]? = some line) (hnumber : number = i + 1)
    (hread : readTask? line number = .ok (some t)) (changes : List Change) :
    patchLine text number changes = t.renderChanged changes >>= fun line' =>
      .ok (String.ofList (Text.unlines
        ((Text.linesOf text.toList).set i (line' ++ lineEnding line)))) := by
  have hindex := lineIndex?_eq_some.mpr ⟨(List.getElem?_eq_some_iff.mp hi).1, hnumber⟩
  have hlines : patchLines (Text.linesOf text.toList) number changes
      = t.renderChanged changes >>= fun line' =>
        .ok ((Text.linesOf text.toList).set i (line' ++ lineEnding line)) := by
    rw [patchLines, hindex]
    simp only [List.getD_eq_getElem?_getD, hi, Option.getD_some, hread]
    rfl
  rw [patchLine, hlines]
  cases t.renderChanged changes with
  | error f => rfl
  | ok line' => rfl

/-- The texts have the same shapes of lines and the same start marks, and the second has no
carriage returns. -/
structure SameShape (text text' : String) : Prop where
  unix : '\r' ∉ text'.toList
  shape : (Text.linesOf text'.toList).map shape = (Text.linesOf text.toList).map shape
  starts : startWords true text'.toList = startWords true text.toList

theorem SameShape.trans {text text' text'' : String} (h : SameShape text text')
    (h' : SameShape text' text'') : SameShape text text'' :=
  ⟨h'.unix, h'.shape.trans h.shape, h'.starts.trans h.starts⟩

theorem patchLine_shape {text text' : String} {number : Int} {changes : List Change}
    (hunix : '\r' ∉ text.toList) (hc : ∀ c ∈ changes, c.OneLine)
    (h : patchLine text number changes = .ok text') : SameShape text text' := by
  obtain ⟨lines', hlines', rfl⟩ := patchLine_eq_ok h
  obtain ⟨hone, hshape, hstarts⟩ :=
    patchLines_shape (fun l hl => oneLine_of_mem_linesOf hunix hl) hc hlines'
  have hne : lines' ≠ [] := by
    rintro rfl
    exact Text.linesOf_ne_nil _ (List.map_eq_nil_iff.mp hshape.symm)
  rw [Text.unlines_linesOf] at hstarts
  refine ⟨?_, ?_, ?_⟩
  · rw [String.toList_ofList]
    exact carriageReturn_not_mem_unlines hone
  · rw [String.toList_ofList, Text.linesOf_unlines hne fun l hl => (hone l hl).1, hshape]
  · rw [String.toList_ofList, hstarts]

end Roadmap.Outline
