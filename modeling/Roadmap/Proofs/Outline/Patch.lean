import Roadmap.Proofs.Outline.Tidy

/-!
# What is read after a patch

A patch writes all fields of a task to change some of them. What is read from the new line is the
task with the changes made, and what no change names is what it was (`readTask?_patchLine`). For
this the new title and the new note have to be such that they can be told from what stands around
them (`Change.Writable`). Then the changed task is as tidy as the one that was read
(`Task.Tidy.changeAll`), and its line gives it back. A task flagged as done is read as done,
whatever status another word had given it.
-/

namespace Roadmap.Outline

/-! ## Fields -/

inductive Field where
  | level
  | title
  | duration
  | dependencies
  | milestone
  | status
  | color
  | start
  | note
  | line
deriving DecidableEq

/-- The field that a change sets, if its value is of that field's kind. -/
def Change.field? : Change → Option Field
  | .title _ => some .title
  | .duration _ => some .duration
  | .dependencies _ => some .dependencies
  | .start _ => some .start
  | .milestone _ => some .milestone
  | .status _ => some .status
  | .color _ => some .color
  | .note _ => some .note
  | _ => none

/-- What a field holds. Being done goes with the status. -/
def Field.Value : Field → Type
  | .level => Int
  | .title => String
  | .duration => Int
  | .dependencies => List Int
  | .milestone => Bool
  | .status => Status × Bool
  | .color => Option String
  | .start => Option Date
  | .note => Option String
  | .line => Int

def Task.value (t : Task) : (f : Field) → f.Value
  | .level => t.level
  | .title => t.title
  | .duration => t.duration
  | .dependencies => t.dependencies
  | .milestone => t.isMilestone
  | .status => (t.status, t.isDone)
  | .color => t.color
  | .start => t.explicitStart
  | .note => t.note
  | .line => t.line

theorem value_change (t : Task) {c : Change} {f : Field} (h : c.field? ≠ some f) :
    (t.change c).value f = t.value f := by
  cases c with
  | title s =>
      cases f with
      | title => exact absurd rfl h
      | _ => rfl
  | duration n =>
      cases f with
      | duration => exact absurd rfl h
      | _ => rfl
  | dependencies ps =>
      cases f with
      | dependencies => exact absurd rfl h
      | _ => rfl
  | start d =>
      cases f with
      | start => exact absurd rfl h
      | _ => rfl
  | milestone b =>
      cases f with
      | milestone => exact absurd rfl h
      | _ => rfl
  | status s =>
      cases f with
      | status => exact absurd rfl h
      | _ => rfl
  | color c =>
      cases f with
      | color => exact absurd rfl h
      | _ => rfl
  | note n =>
      cases f with
      | note => exact absurd rfl h
      | _ => rfl
  | _ => rfl

/-- Changes leave a field alone that none of them sets. -/
theorem value_changeAll (t : Task) {changes : List Change} {f : Field}
    (h : ∀ c ∈ changes, c.field? ≠ some f) : (t.changeAll changes).value f = t.value f := by
  rw [Task.changeAll]
  induction changes generalizing t with
  | nil => rfl
  | cons c changes ih =>
      exact (ih (t.change c) fun c' hc' => h c' (List.mem_cons_of_mem c hc')).trans
        (value_change t (h c List.mem_cons_self))

/-- A field that is what it was is so after settling too, unless it is a status at odds with the
flag. -/
theorem value_settled {t t' : Task} {f : Field} (hsame : t'.value f = t.value f)
    (h : f = .status → t.isDone → t.status = .done) : t'.settled.value f = t.value f := by
  rw [settled_eq]
  cases f with
  | status =>
      obtain ⟨hstatus, hdone⟩ := Prod.mk.inj hsame
      refine Prod.ext ?_ hdone
      show (if t'.isDone then Status.done else t'.status) = t.status
      split
      · next hflag => exact (h rfl (hdone ▸ hflag)).symm
      · exact hstatus
  | _ => exact hsame

/-! ## Changes that can be written -/

/-- The change has a value of its field's kind, without line feeds in its text. -/
def Change.Supported : Change → Prop
  | .title s => '\n' ∉ s.toList
  | .color c => ∀ s ∈ c, '\n' ∉ s.toList
  | .note n => ∀ s ∈ n, '\n' ∉ s.toList
  | c => c.field?.isSome

/-- The text of the change can be told from what stands around it: no number in a title looks like
a duration with modifiers behind it, and quotes can enclose a note, or it needs none. -/
def Change.Writable : Change → Prop
  | .title s => Unambiguous (Text.strip s.toList).tail
  | .note n => ∀ s ∈ n, Enclosable s.toList
  | _ => True

theorem Change.Supported.isSome {c : Change} (h : c.Supported) : c.field?.isSome := by
  cases c with
  | title s => rfl
  | color c => rfl
  | note n => rfl
  | _ => exact h

theorem Task.Tidy.change {t : Task} (ht : t.Tidy) {c : Change} (hc : c.Supported)
    (hwritable : c.Writable) : (t.change c).Tidy := by
  cases c with
  | title s =>
      have hlist : (t.change (.title s)).title.toList = Text.strip s.toList := String.toList_ofList
      refine { ht with stripped := ?_, oneLine := ?_, unambiguous := ?_ }
      · rw [hlist, strip_strip]
      · rw [hlist]
        exact fun hmem => hc (mem_of_strip hmem)
      · rw [hlist]
        exact hwritable
  | duration n => exact { ht with lasting := le_max_left 0 n }
  | status s => exact { ht with done := fun hs => beq_iff_eq.mpr hs }
  | color c =>
      refine { ht with color := fun c' hc' => ?_ }
      obtain ⟨s, -, rfl⟩ := Option.map_eq_some_iff.mp hc'
      exact toList_normalizeColor s.toList
  | note n =>
      refine { ht with note := fun n' hn' => ?_ }
      obtain ⟨hn, hne⟩ := nonEmpty?_eq_some hn'
      exact ⟨hne, hc n' hn, hwritable n' hn⟩
  | _ => exact { ht with }

theorem Task.Tidy.changeAll {t : Task} (ht : t.Tidy) {changes : List Change}
    (hc : ∀ c ∈ changes, c.Supported) (hwritable : ∀ c ∈ changes, c.Writable) :
    (t.changeAll changes).Tidy := by
  rw [Task.changeAll]
  induction changes generalizing t with
  | nil => exact ht
  | cons c changes ih =>
      exact ih (ht.change (hc c List.mem_cons_self) (hwritable c List.mem_cons_self))
        (fun c' hc' => hc c' (List.mem_cons_of_mem c hc'))
        fun c' hc' => hwritable c' (List.mem_cons_of_mem c hc')

/-- Supported changes are written as the changed task is. -/
theorem renderChanged_of_supported (t : Task) {changes : List Change}
    (h : ∀ c ∈ changes, c.Supported) :
    t.renderChanged changes = (t.changeAll changes).render := by
  have hnone : ∀ {α : Type} (f : Change → Option α), (∀ c : Change, c.field?.isSome → f c = none) →
      changes.findSome? f = none :=
    fun f hf => List.findSome?_eq_none_iff.mpr fun c hc => hf c (h c hc).isSome
  have hunset : unset? changes = none := hnone _ fun c hc => by
    cases c with
    | unset f => cases hc
    | _ => rfl
  have hstart : badStart? changes = none := hnone _ fun c hc => by
    cases c with
    | badStart m => cases hc
    | _ => rfl
  have hnote : badNote? changes = none := hnone _ fun c hc => by
    cases c with
    | badNote m => cases hc
    | _ => rfl
  have hliteral : noteLiteral? changes = none := hnone _ fun c hc => by
    cases c with
    | noteLiteral value => cases hc
    | _ => rfl
  rw [Task.renderChanged, hunset]
  show (t.changeAll changes).renderWith ((t.changeAll changes).changedMarks changes) = _
  rw [Task.changedMarks, hstart, hnote, hliteral]
  rfl

/-! ## Reading a patched line -/

theorem readTask?_append_lineEnding (new line : List Char) (number : Int) :
    readTask? (new ++ lineEnding line) number = readTask? new number := by
  have hend : ∀ c ∈ lineEnding line, (c == '\r') = true := by
    intro c hc
    rw [lineEnding] at hc
    split at hc
    · exact beq_iff_eq.mpr (List.mem_singleton.mp hc)
    · cases hc
  rw [readTask?, readTask?, Text.dropTrailing_append hend]

theorem newline_not_mem_lineEnding (line : List Char) : '\n' ∉ lineEnding line := by
  rw [lineEnding]
  split
  · decide
  · exact List.not_mem_nil

/-- A patch changes one line. From it the task is read with the changes made, and with every field
as it was that no change names; flagged as done, its status is done. -/
theorem readTask?_patchLine {text text' : String} {i : Nat} {line : Text.Line} {t : Task}
    {changes : List Change} (hi : (Text.linesOf text.toList)[i]? = some line)
    (hread : readTask? line (i + 1) = .ok (some t)) (hsupported : ∀ c ∈ changes, c.Supported)
    (hwritable : ∀ c ∈ changes, c.Writable) (hclear : (t.changeAll changes).Clear)
    (hpatch : patchLine text (i + 1) changes = .ok text') :
    ∃ line', Text.linesOf text'.toList = (Text.linesOf text.toList).set i line'
      ∧ readTask? line' (i + 1) = .ok (some (t.changeAll changes).settled)
      ∧ ∀ f, (∀ c ∈ changes, c.field? ≠ some f) → (f = .status → t.isDone → t.status = .done) →
        (t.changeAll changes).settled.value f = t.value f := by
  have hold := (of_mem_linesOf (List.mem_of_getElem? hi)).1
  have ht := (tidy_of_readTask? hold hread).changeAll hsupported hwritable
  have hline : (t.changeAll changes).line = i + 1 := by
    have hsame : (t.changeAll changes).value .line = t.value .line :=
      value_changeAll t fun c _ => by cases c <;> rintro ⟨⟩
    obtain ⟨-, -, -, -, -, hnumber, -⟩ := readTask?_eq_some hread
    exact Eq.trans hsame hnumber
  rw [patchLine_of_read hi rfl hread, renderChanged_of_supported t hsupported] at hpatch
  obtain ⟨new, hrender, hpatch⟩ := bind_eq_ok hpatch
  cases hpatch
  obtain ⟨hnew, hback⟩ := readTask?_of_tidy ht hclear hrender
  rw [hline] at hback
  have hending : '\n' ∉ new ++ lineEnding line := by
    rw [List.mem_append]
    exact fun hmem => hmem.elim hnew (newline_not_mem_lineEnding line)
  refine ⟨new ++ lineEnding line, ?_, (readTask?_append_lineEnding _ _ _).trans hback,
    fun f hf hstatus => value_settled (value_changeAll t hf) hstatus⟩
  rw [String.toList_ofList]
  exact linesOf_set text.toList i hending

/-! ### A worn line -/

/-- A text with a line that is not canonical, and with carriage returns. -/
def worn : String :=
  "## P\r\n>> (1) Fix (2) now (3) @done  @color:#f0 @note:\"a @b (4)\" \r\r\n> U (1)"

def wornTask : Task where
  level := 2
  title := "(1) Fix (2) now"
  duration := 3
  isDone := true
  status := .done
  color := some "#f0"
  note := some "a @b (4)"
  line := 2

def rework : List Change :=
  [.title " Ship (5) it ", .duration (-2), .status .inProgress, .note (some "x\"y")]

def reworked : Task where
  level := 2
  title := "Ship (5) it"
  duration := 0
  status := .inProgress
  color := some "#f0"
  note := some "x\"y"
  line := 2

theorem readTask?_patchLine_worn :
    ∃ text' line', patchLine worn 2 rework = .ok text'
      ∧ Text.linesOf text'.toList = (Text.linesOf worn.toList).set 1 line'
      ∧ readTask? line' 2 = .ok (some reworked)
      ∧ reworked.value .color = wornTask.value .color := by
  have hi : (Text.linesOf worn.toList)[1]?
      = some ">> (1) Fix (2) now (3) @done  @color:#f0 @note:\"a @b (4)\" \r\r".toList := by
    decide +kernel
  have hread : readTask? ">> (1) Fix (2) now (3) @done  @color:#f0 @note:\"a @b (4)\" \r\r".toList
      ((1 : Nat) + 1) = .ok (some wornTask) := by
    decide +kernel
  have hpatch : patchLine worn ((1 : Nat) + 1) rework
      = .ok "## P\r\n>> Ship (5) it (0) @progress @color:f0 @note:x\"y\r\n> U (1)" := by
    decide +kernel
  have hsupported : ∀ c ∈ rework, c.Supported := by
    simp only [rework, List.forall_mem_cons]
    have htitle : '\n' ∉ " Ship (5) it ".toList := by decide
    have hnote : '\n' ∉ "x\"y".toList := by decide
    exact ⟨htitle, rfl, rfl, fun s hs => Option.some.inj hs ▸ hnote, by rintro c ⟨⟩⟩
  have hwritable : ∀ c ∈ rework, c.Writable := by
    simp only [rework, List.forall_mem_cons]
    refine ⟨unambiguous_of_cuts (by decide), trivial, trivial, ?_, by rintro c ⟨⟩⟩
    rintro s ⟨⟩
    have hbare : "x\"y".toList.all isBareValue := by decide
    exact .inr ⟨List.all_eq_true.mp hbare, by decide⟩
  have hclear : (wornTask.changeAll rework).Clear :=
    { color := by
        rintro c ⟨⟩
        have hbare : "f0".toList.all isBareValue := by decide
        exact ⟨by decide, List.all_eq_true.mp hbare, by decide +kernel⟩
      untitled := fun htitle => absurd htitle (by decide) }
  obtain ⟨line', hlines, hback, hsame⟩ :=
    readTask?_patchLine hi hread hsupported hwritable hclear hpatch
  have hreworked : (wornTask.changeAll rework).settled = reworked := by
    decide +kernel
  rw [hreworked] at hback hsame
  exact ⟨_, line', hpatch, hlines, hback, hsame .color (by decide) (by rintro ⟨⟩)⟩

/-- Nothing in a line can stand for a quote inside quotes, so a note that needs quotes and holds one
is cut short. And the words for a task that was flagged as done under another status come to one,
`@done`, when something else about the task is changed. -/
theorem not_readTask?_patchLine :
    (∃ t text' line', readTask? "> T (1)".toList 2 = .ok (some t)
      ∧ patchLine "## P\n> T (1)" 2 [.note (some "say \"hi\"")] = .ok text'
      ∧ (Text.linesOf text'.toList)[1]? = some line'
      ∧ readTask? line' 2 ≠ .ok (some (t.changeAll [.note (some "say \"hi\"")])))
    ∧ ∃ t t' text' line', readTask? "> T (1) @done @progress".toList 2 = .ok (some t)
      ∧ patchLine "## P\n> T (1) @done @progress" 2 [.milestone true] = .ok text'
      ∧ (Text.linesOf text'.toList)[1]? = some line'
      ∧ readTask? line' 2 = .ok (some t') ∧ t'.status ≠ t.status := by
  constructor
  · exact ⟨{ level := 1, title := "T", duration := 1, line := 2 },
      "## P\n> T (1) @note:\"say \"hi\"\"", "> T (1) @note:\"say \"hi\"\"".toList,
      by decide +kernel, by decide +kernel, by decide +kernel, by decide +kernel⟩
  · exact
      ⟨{ level := 1, title := "T", duration := 1, isDone := true, status := .inProgress,
         line := 2 },
        { level := 1, title := "T", duration := 1, isMilestone := true, isDone := true,
          status := .done, line := 2 },
        "## P\n> T (1) @milestone @done", "> T (1) @milestone @done".toList,
        by decide +kernel, by decide +kernel, by decide +kernel, by decide +kernel, by decide⟩

end Roadmap.Outline
