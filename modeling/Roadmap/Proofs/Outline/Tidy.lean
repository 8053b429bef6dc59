import Roadmap.Proofs.Outline.Canonical

/-!
# Tasks and what their lines say of them

A line has no way to say every task. `Task.Tidy` is what holds of a task that was read from a line,
and what sensible changes keep; `Task.Clear` is what its color and an empty title need besides, as
these depend on the words around them. A tidy and clear task is read back from its line, done if it
is flagged as done (`readTask?_of_tidy`).

Values carry the argument. One that was read either holds no quote, and so quotes can enclose it, or
had no need of quotes and is read as it stands (`enclosable_of_readValue?`). Reading and writing
agree on both kinds.
-/

namespace Roadmap.Outline

/-! ## Values -/

/-- A value that can be told from what follows it: quotes can enclose it, or it needs none. -/
def Enclosable (v : List Char) : Prop :=
  '"' ∉ v ∨ ((∀ c ∈ v, isBareValue c) ∧ quotedValue? v = none)

theorem quotedValue?_append {s v rest : List Char} (h : quotedValue? s = some (v, rest))
    (u : List Char) : quotedValue? (s ++ u) = some (v, rest ++ u) := by
  obtain ⟨rfl, hne, hquote⟩ := quotedValue?_eq_some h
  rw [List.cons_append, List.append_assoc, List.cons_append]
  exact quotedValue?_quoted hne hquote

theorem enclosable_of_readValue? {s v rest : List Char} (h : readValue? s = some (v, rest)) :
    v ≠ [] ∧ Enclosable v := by
  rcases Option.or_eq_some_iff.mp h with h | ⟨hnone, h⟩
  · obtain ⟨-, hne, hquote⟩ := quotedValue?_eq_some h
    exact ⟨hne, .inl hquote⟩
  · obtain ⟨rfl, hne, hbare⟩ := bareValue?_eq_some h
    refine ⟨hne, .inr ⟨hbare, ?_⟩⟩
    -- a quoted text at its start would have been read instead
    cases hv : quotedValue? v with
    | none => rfl
    | some p =>
        rw [quotedValue?_append hv rest] at hnone
        cases hnone

theorem readValue?_bare {v rest : List Char} (hne : v ≠ []) (hbare : ∀ c ∈ v, isBareValue c)
    (hnone : quotedValue? (v ++ rest) = none) (hrest : ∀ c ∈ rest.head?, Text.isBlank c) :
    readValue? (renderValue v ++ rest) = some (v, rest) := by
  rw [renderValue_of_plain fun c hc => isBareValue_iff.mp (hbare c hc), readValue?, hnone,
    Option.none_or]
  exact bareValue?_append hne hbare hrest

theorem readValue?_of_enclosable {v : List Char} (hne : v ≠ []) (h : Enclosable v) :
    readValue? (renderValue v ++ []) = some (v, []) := by
  have hend : ∀ c ∈ ([] : List Char).head?, Text.isBlank c := by rintro c ⟨⟩
  rcases h with hquote | ⟨hbare, hnone⟩
  · exact readValue?_renderValue hne hquote hend
  · exact readValue?_bare hne hbare (by rwa [List.append_nil]) hend

theorem value_of_readToken? {s rest : List Char} {t : Token} (h : readToken? s = some (t, rest)) :
    ∀ v ∈ t.value, v ≠ [] ∧ Enclosable v := by
  unfold readToken? at h
  split at h
  · cases h
  · split at h
    · split at h
      · next hvalue =>
          cases h
          rintro v ⟨⟩
          exact enclosable_of_readValue? hvalue
      · cases h
        rintro v ⟨⟩
    · cases h
      rintro v ⟨⟩

theorem value_of_tokens {s : List Char} {t : Token} (ht : t ∈ tokens s) :
    ∀ v ∈ t.value, v ≠ [] ∧ Enclosable v := by
  fun_induction tokens s with
  | case1 => cases ht
  | case2 rest t' after hread ih =>
      rcases List.mem_cons.mp ht with rfl | ht
      · exact value_of_readToken? hread
      · exact ih ht
  | case3 rest hread ih => exact ih ht
  | case4 c rest hne ih => exact ih ht

/-- A color or a note that was read from a text. -/
theorem value_of_scan {s : List Char} {m : Modifier} (hm : m ∈ Modifier.scan s) :
    (∀ c, m = .color c → ∃ v, c = normalizeColor v)
      ∧ ∀ n, m = .note n → n ≠ "" ∧ (∀ c ∈ n.toList, c ∈ s) ∧ Enclosable n.toList := by
  obtain ⟨token, htoken, hof⟩ := List.mem_filterMap.mp hm
  obtain ⟨-, hcolor, hnote⟩ := ofToken?_eq_some hof
  refine ⟨fun c hc => ?_, fun n hn => ?_⟩
  · obtain ⟨v, -, rfl⟩ := hcolor c hc
    exact ⟨v, rfl⟩
  · obtain ⟨v, hv, rfl⟩ := hnote n hn
    obtain ⟨hne, henclosable⟩ := value_of_tokens htoken v hv
    rw [String.toList_ofList]
    refine ⟨fun hnil => hne ?_, mem_of_tokens htoken v hv, henclosable⟩
    rw [← String.toList_ofList (l := v), String.toList_eq_nil_iff, hnil]

theorem toList_normalizeColor (v : List Char) :
    ∃ u, (normalizeColor v).toList = '#' :: u ∧ u.head? ≠ some '#' := by
  refine ⟨v.dropWhile (· == '#'), String.toList_ofList, fun hhead => ?_⟩
  have hnot := List.head?_dropWhile_not (· == '#') v
  rw [hhead] at hnot
  exact absurd hnot (by decide)

/-! ## Tidy tasks -/

/-- What is true of every task that was read from a line, and of what changes make of it. -/
structure Task.Tidy (t : Task) : Prop where
  level : 1 ≤ t.level
  lasting : 0 ≤ t.duration
  stripped : Text.strip t.title.toList = t.title.toList
  oneLine : '\n' ∉ t.title.toList
  unambiguous : Unambiguous t.title.toList.tail
  done : t.status = .done → t.isDone
  color : ∀ c ∈ t.color, ∃ v, c.toList = '#' :: v ∧ v.head? ≠ some '#'
  note : ∀ n ∈ t.note, n ≠ "" ∧ '\n' ∉ n.toList ∧ Enclosable n.toList

theorem done_applyAll {t : Task} (h : t.status = .done → t.isDone) (ms : List Modifier) :
    (t.applyAll ms).status = .done → (t.applyAll ms).isDone := by
  rw [Task.applyAll]
  induction ms generalizing t with
  | nil => exact h
  | cons m ms ih =>
      refine ih ?_
      cases m with
      | status s =>
          rintro rfl
          exact Bool.or_true _
      | _ => exact h

/-- A title that was read has no blanks around it, and no better place to cut the line. -/
theorem title_of_taskParts? {line : List Char} (hline : '\n' ∉ line) {p : TaskParts}
    (h : taskParts? line = some p) : Text.strip p.title = p.title ∧ Unambiguous p.title.tail := by
  simp only [taskParts?] at h
  split at h
  · cases h
  · generalize hbody : (line.dropWhile (· == '>')).dropWhile Text.isBlank = body at h
    obtain ⟨⟨c, m⟩, hchoose, rfl⟩ := Option.map_eq_some_iff.mp h
    refine ⟨strip_strip _, ?_⟩
    have hsplit := (mem_cuts.mp (chooseCut?_eq_some hchoose).1).1
    have hhead : ∀ x ∈ c.before.head?, Text.isBlank x = false := by
      intro x hx
      obtain ⟨as, has⟩ := List.head?_eq_some_iff.mp hx
      have hdrop := List.head?_dropWhile_not Text.isBlank (line.dropWhile (· == '>'))
      rw [hbody, hsplit, has, List.cons_append] at hdrop
      simpa using hdrop
    obtain ⟨rest, hrest⟩ := strip_prefix c.before
    rw [Text.dropWhile_of_head hhead] at hrest
    rw [← hrest, List.append_assoc] at hsplit
    have hnone : '\n' ∉ body := fun hmem =>
      hline ((List.dropWhile_sublist _).subset ((List.dropWhile_sublist _).subset (hbody ▸ hmem)))
    rw [hsplit] at hchoose hnone
    refine unambiguous_of_chosen hnone hchoose ?_
    have hlength : c.before.length = c.seen.length := List.length_reverse
    rw [← hlength]
    exact length_strip_le c.before

/-- A task that was read from a line is tidy. -/
theorem tidy_of_readTask? {line : List Char} {number : Int} {t : Task} (hline : '\n' ∉ line)
    (h : readTask? line number = .ok (some t)) : t.Tidy := by
  obtain ⟨p, hp, -, hlevel, hlasting, -, -⟩ := readTask?_eq_some h
  rw [readTask?_of_parts number hp] at h
  split at h
  · cases h
  · cases h
    have hdrop : '\n' ∉ Text.dropTrailing (· == '\r') line :=
      fun hmem => hline (mem_of_dropTrailing hmem)
    obtain ⟨-, -, -, htitle, hmodifiers⟩ := taskParts?_eq_some hp
    obtain ⟨hstripped, hplain⟩ := title_of_taskParts? hdrop hp
    have hsame :
        ((p.plain number).applyAll (Modifier.scan p.modifiers)).title.toList = p.title := by
      rw [(applyAll_head _ _).2.1, TaskParts.plain, String.toList_ofList]
    have hstems := stems_applyAll (p.plain number) (Modifier.scan p.modifiers)
    refine
      { level := hlevel
        lasting := hlasting
        stripped := by rwa [hsame]
        oneLine := by
          rw [hsame]
          exact fun hmem => hdrop (htitle _ hmem)
        unambiguous := by rwa [hsame]
        done := done_applyAll (by rintro ⟨⟩) _
        color := fun c hc => ?_
        note := fun n hn => ?_ }
    · obtain ⟨v, rfl⟩ :=
        (value_of_scan ((hstems.color c hc).resolve_left (by rintro ⟨⟩))).1 c rfl
      exact toList_normalizeColor v
    · obtain ⟨hne, hmem, henclosable⟩ :=
        (value_of_scan ((hstems.note n hn).resolve_left (by rintro ⟨⟩))).2 n rfl
      exact ⟨hne, fun hc => hdrop (hmodifiers _ (hmem _ hc)), henclosable⟩

/-! ## Done tasks -/

/-- The task with the status that goes with its flag: being flagged as done wins over any status
that is written before or after. -/
def Task.settled (t : Task) : Task := if t.isDone then { t with status := .done } else t

theorem settled_eq (t : Task) :
    t.settled = { t with status := if t.isDone then .done else t.status } := by
  rw [Task.settled]
  split
  · rfl
  · rfl

theorem statusWord_settled (t : Task) : t.settled.statusWord = t.statusWord := by
  rw [Task.settled]
  split
  · next hdone => simp [Task.statusWord, hdone]
  · rfl

theorem renderMarks_settled (t : Task) : t.settled.renderMarks = t.renderMarks := by
  have hword := statusWord_settled t
  rw [settled_eq] at hword ⊢
  rw [Task.renderMarks, Task.renderMarks, hword]

theorem renderNote_settled (t : Task) : t.settled.renderNote = t.renderNote := by
  rw [settled_eq]
  rfl

theorem render_settled (t : Task) : t.settled.render = t.render := by
  rw [Task.render, renderMarks_settled, renderNote_settled, settled_eq]
  rfl

theorem Task.Tidy.settled {t : Task} (h : t.Tidy) : t.settled.Tidy := by
  rw [settled_eq]
  refine { h with done := fun hdone => ?_ }
  split at hdone
  · next hflag => exact hflag
  · exact h.done hdone

theorem Task.Tidy.done_settled {t : Task} (h : t.Tidy) :
    t.settled.isDone ↔ t.settled.status = .done := by
  refine ⟨fun hdone => ?_, h.settled.done⟩
  rw [settled_eq] at hdone ⊢
  exact if_pos hdone

/-! ## Clear tasks -/

/-- What the words of a tidy task need besides: a color needs no quotes, as none are written, and
without a title no number behind the duration may look like another one. -/
structure Task.Clear (t : Task) : Prop where
  color : ∀ c ∈ t.color, c.toList.dropWhile (· == '#') ≠ []
    ∧ (∀ x ∈ c.toList.dropWhile (· == '#'), isBareValue x)
    ∧ quotedValue? (c.toList.dropWhile (· == '#') ++ spaced t.renderNote) = none
  untitled : t.title = "" →
    ∀ c ∈ cuts (spaced (t.renderMarks ++ t.renderNote)), modifierText? c.after = none

theorem Task.Clear.settled {t : Task} (h : t.Clear) : t.settled.Clear := by
  have hmarks := renderMarks_settled t
  have hnote := renderNote_settled t
  constructor
  · intro c hc
    rw [hnote]
    rw [settled_eq] at hc
    exact h.color c hc
  · intro htitle
    rw [hmarks, hnote]
    rw [settled_eq] at htitle
    exact h.untitled htitle

/-! ## Reading back -/

section

variable {t : Task} (ht : t.Tidy)

include ht

theorem scan_note :
    Modifier.scan (Modifier.renderAll (t.note.map Modifier.note).toList)
      = (t.note.map Modifier.note).toList := by
  cases hn : t.note with
  | none => exact Modifier.scan_nil
  | some n =>
      obtain ⟨hne, -, henclosable⟩ := ht.note n hn
      have hvalue : n.toList ≠ [] := fun hnil => hne (String.toList_eq_nil_iff.mp hnil)
      exact (Modifier.scan_cons_of_value rfl (Modifier.ofToken?_note n)
        (readValue?_of_enclosable hvalue henclosable)).trans
        (congrArg (Modifier.note n :: ·) Modifier.scan_nil)

variable (hclear : t.Clear)

include hclear

theorem scan_color_note :
    Modifier.scan (Modifier.renderAll
        ((t.color.map Modifier.color).toList ++ (t.note.map Modifier.note).toList))
      = (t.color.map Modifier.color).toList ++ (t.note.map Modifier.note).toList := by
  cases hc : t.color with
  | none => exact scan_note ht
  | some c =>
      obtain ⟨v, hv, hhash⟩ := ht.color c hc
      obtain ⟨hne, hbare, hnone⟩ := hclear.color c hc
      rw [renderNote_eq fun n hn => (ht.note n hn).1] at hnone
      have hrest : ∀ x ∈ (Modifier.renderAll (t.note.map Modifier.note).toList).head?,
          Text.isBlank x := by
        cases t.note with
        | none => rintro x ⟨⟩
        | some n => rintro x ⟨⟩; rfl
      exact (Modifier.scan_cons_of_value rfl (Modifier.ofToken?_color hv hhash)
        (readValue?_bare hne hbare hnone hrest)).trans
        (congrArg (Modifier.color c :: ·) (scan_note ht))

theorem plain_color : ∀ c ∈ t.color,
    c ≠ "" ∧ ∀ x ∈ c.toList.dropWhile (· == '#'), Text.isBlank x = false ∧ x ≠ '@' := by
  intro c hc
  obtain ⟨v, hv, -⟩ := ht.color c hc
  refine ⟨?_, fun x hx => isBareValue_iff.mp ((hclear.color c hc).2.1 x hx)⟩
  rintro rfl
  cases hv

variable (hfits : ∀ n ∈ t.dependencies, Text.Fits n)

include hfits

/-- The modifiers of a tidy and clear task are found where they are written. -/
theorem scan_modifiers : Modifier.scan (Modifier.renderAll t.modifiers) = t.modifiers := by
  have hnext : ∀ c ∈ (Modifier.renderAll ((t.color.map Modifier.color).toList
      ++ (t.note.map Modifier.note).toList)).head?, Text.isBlank c := by
    cases (t.color.map Modifier.color).toList ++ (t.note.map Modifier.note).toList with
    | nil => rintro c ⟨⟩
    | cons m ms => rintro c ⟨⟩; rfl
  rw [modifiers_eq, Modifier.renderAll, List.map_append, spaced, List.flatMap_append]
  exact (Modifier.scan_renderAll_append (readable_front hfits) hnext).trans
    (congrArg (t.front ++ ·) (scan_color_note ht hclear))

theorem newline_not_mem_modifiers : ∀ m ∈ t.modifiers, ∀ v ∈ m.token.value, '\n' ∉ v := by
  intro m hm v hv
  simp only [modifiers_eq, List.mem_append, Option.mem_toList, Option.map_eq_some_iff] at hm
  rcases hm with hm | ⟨c, hc, rfl⟩ | ⟨n, hn, rfl⟩
  · exact ((Modifier.readable_token (readable_front hfits m hm)).value v hv).2.2
  · obtain rfl := Option.some.inj hv
    exact fun hmem => absurd ((hclear.color c hc).2.1 _ hmem) (by decide)
  · obtain rfl := Option.some.inj hv
    exact (ht.note n hn).2.1

end

theorem open_not_mem_dependencies (t : Task) :
    '(' ∉ spaced ((t.dependencies.map Modifier.after).map (·.token.render)) := by
  have hlead : (t.redated none 0).lead = t.dependencies.map .after := List.append_nil _
  intro hmem
  have hmem' : '(' ∈ Modifier.renderAll (t.redated none 0).lead := by
    rw [hlead]
    exact hmem
  exact absurd (mem_lead hmem') (by decide)

/-- The line of a tidy and clear task is cut where it was put together. -/
theorem taskParts?_of_tidy {t : Task} (ht : t.Tidy) (hclear : t.Clear) {m : List Char}
    (hm : modifierText? (spaced ((t.dependencies.map Modifier.after).map (·.token.render)
      ++ (t.renderMarks ++ t.renderNote))) = some m) :
    taskParts? (written t.level.toNat t.title.toList (Text.natDigits t.duration.natAbs)
        (spaced ((t.dependencies.map Modifier.after).map (·.token.render)
          ++ (t.renderMarks ++ t.renderNote))))
      = some ⟨t.level.toNat, t.title.toList, Text.natDigits t.duration.natAbs, m⟩ := by
  have hlevel := ht.level
  have hmarkers : 1 ≤ t.level.toNat := by omega
  have hdigits : ∀ c ∈ Text.natDigits t.duration.natAbs, Text.isDigit c :=
    fun c hc => Text.isDigit_of_mem (Text.mem_natDigits hc)
  by_cases htitle : t.title = ""
  · have hopen : '(' ∉ Text.natDigits t.duration.natAbs :=
      fun hmem => absurd (hdigits _ hmem) (by decide)
    rw [String.toList_eq_nil_iff.mpr htitle]
    refine taskParts?_untitled hmarkers (Text.natDigits_ne_nil _) hdigits hm fun c hc htitled => ?_
    rw [spaced, List.flatMap_append] at hc
    obtain ⟨c', hc', hafter⟩ := exists_cut_behind hopen (open_not_mem_dependencies t) hc htitled
    rw [← hafter]
    exact hclear.untitled htitle c' hc'
  · have hne : t.title.toList ≠ [] := fun hnil => htitle (String.toList_eq_nil_iff.mp hnil)
    exact taskParts?_written hmarkers hne ht.stripped ht.oneLine ht.unambiguous
      (Text.natDigits_ne_nil _) hdigits hm

/-- What is written of a tidy and clear task is read back, done if it is flagged as done. -/
theorem readTask?_of_tidy {t : Task} (ht : t.Tidy) (hclear : t.Clear) {line : List Char}
    (h : t.render = .ok line) :
    '\n' ∉ line ∧ readTask? line t.line = .ok (some t.settled) := by
  have hnumber : t.line = t.settled.line := by rw [settled_eq]
  rw [← render_settled] at h
  rw [hnumber]
  obtain ⟨ht, hclear, hdone⟩ := And.intro ht.settled (And.intro hclear.settled ht.done_settled)
  generalize t.settled = t at *
  obtain ⟨-, hduration, hfits, words, hwords, rfl⟩ := renderWith_eq_ok h
  cases hwords
  have hlevel := ht.level
  have hline := newline_not_mem_modifiers ht hclear hfits
  have hmodifiers := spaced_modifiers hdone (plain_color ht hclear) fun n hn => (ht.note n hn).1
  obtain ⟨text, htext, hscan⟩ := modifierText?_renderAll hline
  rw [scan_modifiers ht hclear hfits] at hscan
  have hparts := taskParts?_of_tidy ht hclear (hmodifiers ▸ htext)
  rw [hmodifiers] at hparts ⊢
  rw [Text.intDigits_of_nonneg ht.lasting]
  refine ⟨fun hmem => ?_,
    readTask?_of_modifiers (by omega) ht.lasting hduration hdone hparts hscan⟩
  simp only [written, List.mem_append, List.mem_cons] at hmem
  rcases hmem with hmem | hmem | hmem | hmem | hmem | hmem | hmem | hmem
  · exact absurd (List.eq_of_mem_replicate hmem) (by decide)
  · exact absurd hmem (by decide)
  · exact ht.oneLine hmem
  · exact absurd hmem (by decide)
  · exact absurd hmem (by decide)
  · exact absurd (Text.mem_natDigits hmem) (by decide)
  · exact absurd hmem (by decide)
  · exact Modifier.newline_not_mem_renderAll hline hmem

end Roadmap.Outline
