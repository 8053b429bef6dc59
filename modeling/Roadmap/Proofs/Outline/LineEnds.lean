import Roadmap.Proofs.Outline.Patch
import Roadmap.Proofs.Outline.StartLines

/-!
# Carriage returns

Ending the lines of a text by carriage return and line feed puts a carriage return behind every
line but the last (`linesOf_crlf`). Whether a line has one behind it makes no difference to what it
says: reading takes it off a header or a task (`readLine_return`), and to a start mark it is a blank
like others (`nameAlike_return`). A patch reads the line like that and puts the carriage return back
behind the new one.
-/

namespace Roadmap

/-! ## Lines with carriage returns -/

namespace Text

/-- The text with a carriage return before every line feed. -/
def crlf (s : List Char) : List Char := s.flatMap fun c => if c = '\n' then ['\r', '\n'] else [c]

/-- The lines with a carriage return behind all but the last. -/
def returned : List Line → List Line
  | [] => []
  | [line] => [line]
  | line :: lines => (line ++ ['\r']) :: returned lines

theorem returned_cons (line : Line) {lines : List Line} (h : lines ≠ []) :
    returned (line :: lines) = (line ++ ['\r']) :: returned lines := by
  cases lines with
  | nil => exact absurd rfl h
  | cons l lines => rfl

theorem linesOf_crlf (s : List Char) : linesOf (crlf s) = returned (linesOf s) := by
  induction s with
  | nil => rfl
  | cons c s ih =>
      obtain ⟨line, lines, hsplit⟩ := List.exists_cons_of_ne_nil (linesOf_ne_nil s)
      rw [crlf, List.flatMap_cons]
      change linesOf (_ ++ crlf s) = _
      by_cases hc : c = '\n'
      · rw [if_pos hc, hc]
        change linesOf (['\r'] ++ '\n' :: crlf s) = _
        rw [linesOf_append_newline (by decide), ih, linesOf, if_pos rfl,
          returned_cons [] (linesOf_ne_nil s)]
        rfl
      · rw [if_neg hc, List.singleton_append, linesOf, linesOf, if_neg hc, if_neg hc, ih, hsplit]
        cases lines with
        | nil => rfl
        | cons l lines => rfl

/-- Putting lines together with carriage returns between them. -/
theorem crlf_unlines {lines : List Line} (hne : lines ≠ []) (h : ∀ l ∈ lines, '\n' ∉ l) :
    crlf (unlines lines) = unlines (returned lines) := by
  rw [← unlines_linesOf (crlf (unlines lines)), linesOf_crlf, linesOf_unlines hne h]

/-- A relation between a line and the same with a carriage return holds between all lines. -/
theorem forall₂_returned {R : Line → Line → Prop} (hsame : ∀ line, R line line)
    (hreturn : ∀ line, R line (line ++ ['\r'])) (lines : List Line) :
    List.Forall₂ R lines (returned lines) := by
  induction lines with
  | nil => exact .nil
  | cons line lines ih =>
      cases lines with
      | nil => exact .cons (hsame line) .nil
      | cons l lines => exact .cons (hreturn line) ih

theorem length_returned (lines : List Line) : (returned lines).length = lines.length := by
  have hpaired : List.Forall₂ (fun _ _ => True) lines (returned lines) :=
    forall₂_returned (fun _ => trivial) (fun _ => trivial) lines
  exact hpaired.length_eq.symm

end Text

namespace Outline

open Text (crlf returned)

/-! ## What a line says -/

theorem readTask?_return (line : Text.Line) (number : Int) :
    readTask? (line ++ ['\r']) number = readTask? line number := by
  rw [readTask?, readTask?, Text.dropTrailing_append (by simp)]

theorem readLine_return (line : Text.Line) (number : Int) :
    readLine (line ++ ['\r']) number = readLine line number := by
  rw [readLine, readLine, readTask?_return, readHeader?, readHeader?,
    Text.dropTrailing_append (by simp)]

theorem readLines_congr {lines lines' : List Text.Line}
    (h : List.Forall₂ (fun line line' => ∀ n, readLine line' n = readLine line n) lines lines')
    (number : Int) : readLines number lines' = readLines number lines := by
  induction h generalizing number with
  | nil => rfl
  | cons hline _ ih => rw [readLines, readLines, hline, ih]

theorem leadingDay?_return (line : Text.Line) :
    leadingDay? (line ++ ['\r']) = leadingDay? line := by
  have hblank : Text.isBlank '\r' := rfl
  rw [leadingDay?, leadingDay?, Text.head?_words, Text.head?_words,
    Text.firstWord?_append (by rintro c ⟨⟩; exact hblank)]
  cases Text.firstWord? (line.dropWhile Text.isBlank) with
  | none => rfl
  | some found => rfl

theorem nameAlike_return (line : Text.Line) : NameAlike line (line ++ ['\r']) := by
  refine ⟨leadingDay?_return line, ?_⟩
  rw [afterMark?_append (by rintro c ⟨⟩; decide), Option.map_map]
  exact congrArg (Option.map · (afterMark? startMark line)) (funext leadingDay?_return)

/-! ## Patches -/

theorem lineEnding_return (line : Text.Line) : lineEnding (line ++ ['\r']) = ['\r'] := by
  rw [lineEnding, if_pos List.getLast?_concat]

/-- A line takes over the carriage return of the one that it replaces. -/
theorem returned_set {lines : List Text.Line} {i : Nat} (h : '\r' ∉ lines.getD i [])
    (new : Text.Line) : returned (lines.set i new)
      = (returned lines).set i (new ++ lineEnding ((returned lines).getD i [])) := by
  induction lines generalizing i with
  | nil => rfl
  | cons line lines ih =>
      cases lines with
      | nil =>
          cases i with
          | zero =>
              change '\r' ∉ line at h
              change [new] = [new ++ lineEnding line]
              rw [lineEnding_of_not_mem h, List.append_nil]
          | succ i => rfl
      | cons l lines =>
          cases i with
          | zero =>
              change (new ++ ['\r']) :: _ = (new ++ lineEnding (line ++ ['\r'])) :: _
              rw [lineEnding_return]
          | succ i =>
              have hne : (l :: lines).set i new ≠ [] := by simp
              rw [List.set_cons_succ, Text.returned_cons line hne, ih h]
              rfl

theorem patchLines_returned {lines : List Text.Line} (h : ∀ l ∈ lines, '\r' ∉ l) (number : Int)
    (changes : List Change) : patchLines (returned lines) number changes
      = (patchLines lines number changes).map returned := by
  have hindex : lineIndex? (returned lines) number = lineIndex? lines number := by
    rw [lineIndex?, lineIndex?, Text.length_returned]
  rw [patchLines, patchLines, hindex]
  cases hi : lineIndex? lines number with
  | none => rfl
  | some i =>
      obtain ⟨hlt, -⟩ := lineIndex?_eq_some.mp hi
      have hlt' : i < (returned lines).length := by rwa [Text.length_returned]
      have hold : '\r' ∉ lines.getD i [] := by
        rw [List.getD_eq_getElem lines [] hlt]
        exact h _ (List.getElem_mem hlt)
      have hread : readTask? ((returned lines).getD i []) number
          = readTask? (lines.getD i []) number := by
        rw [List.getD_eq_getElem _ [] hlt, List.getD_eq_getElem _ [] hlt']
        exact (Text.forall₂_returned
          (R := fun line line' => readTask? line' number = readTask? line number)
          (fun _ => rfl) (fun line => readTask?_return line number) lines).get hlt hlt'
      simp only [hread]
      cases readTask? (lines.getD i []) number with
      | error f => rfl
      | ok t? =>
          cases t? with
          | none => rfl
          | some t =>
              change (t.renderChanged changes >>= fun line => Except.ok ((returned lines).set i
                (line ++ lineEnding ((returned lines).getD i []))))
                = (t.renderChanged changes >>= fun line => Except.ok (lines.set i
                  (line ++ lineEnding (lines.getD i [])))).map returned
              cases t.renderChanged changes with
              | error f => rfl
              | ok new =>
                  change Except.ok _ = Except.ok _
                  rw [lineEnding_of_not_mem hold, List.append_nil, returned_set hold]

/-- A patch brings no line feed that is not in a change. -/
theorem newline_not_mem_of_patchLines {lines lines' : List Text.Line} {number : Int}
    {changes : List Change} (h : ∀ l ∈ lines, OneLine l) (hc : ∀ c ∈ changes, c.Lacks '\n')
    (hpatch : patchLines lines number changes = .ok lines') :
    lines'.length = lines.length ∧ ∀ l ∈ lines', '\n' ∉ l := by
  have hlines : ∀ l ∈ lines, '\n' ∉ l := fun l hl => (h l hl).1
  obtain rfl | ⟨i, hlt, t, new, -, ht, hnew, rfl⟩ := patchLines_eq_ok hpatch
  · exact ⟨rfl, hlines⟩
  · have hold := h _ (List.getElem_mem hlt)
    obtain ⟨-, -, -, -, -, -, hone⟩ := readTask?_eq_some ht
    have hfree := (hone hold).lacks_newline.renderChanged not_isInk_newline hc hnew
    refine ⟨List.length_set, fun l hl => ?_⟩
    rcases List.mem_or_eq_of_mem_set hl with hl | rfl
    · exact hlines l hl
    · rwa [lineEnding_of_oneLine hold, List.append_nil]

/-! ## Texts -/

/-- Carriage returns before the line feeds of a text change nothing of what is read from it. If it
has none of its own, a patch leaves it with them as they are, and is stopped by what stops it
without them. -/
theorem read_patchLine_crlf (text : String) :
    (∀ today, read (String.ofList (crlf text.toList)) today = read text today)
      ∧ ('\r' ∉ text.toList → ∀ number changes, (∀ c ∈ changes, c.Lacks '\n') →
        patchLine (String.ofList (crlf text.toList)) number changes
          = (patchLine text number changes).map fun text' =>
            String.ofList (crlf text'.toList)) := by
  constructor
  · intro today
    have hstart : startDay (crlf text.toList) today = startDay text.toList today := by
      refine startDay_alike ?_ today
      rw [Text.linesOf_crlf]
      exact Text.forall₂_returned NameAlike.refl nameAlike_return _
    have hread : readLines 1 (returned (Text.linesOf text.toList))
        = readLines 1 (Text.linesOf text.toList) :=
      readLines_congr (Text.forall₂_returned (fun _ _ => rfl) readLine_return _) 1
    rw [read, read, String.toList_ofList, Text.linesOf_crlf, hread, hstart]
  · intro hunix number changes hc
    have hlines : ∀ l ∈ Text.linesOf text.toList, OneLine l :=
      fun l hl => oneLine_of_mem_linesOf hunix hl
    rw [patchLine, patchLine, String.toList_ofList, Text.linesOf_crlf,
      patchLines_returned fun l hl => (hlines l hl).2]
    cases hpatch : patchLines (Text.linesOf text.toList) number changes with
    | error f => rfl
    | ok lines =>
        obtain ⟨hlength, hfree⟩ := newline_not_mem_of_patchLines hlines hc hpatch
        have hne : lines ≠ [] := by
          rintro rfl
          exact Text.linesOf_ne_nil _ (List.length_eq_zero_iff.mp hlength.symm)
        change Except.ok (String.ofList (Text.unlines (returned lines)))
          = .ok (String.ofList (crlf (String.ofList (Text.unlines lines)).toList))
        rw [String.toList_ofList, Text.crlf_unlines hne hfree]

def ragged : String :=
  "## P @note:\"a b\" \n@start:\n 2025-01-06 \n>> (1) Fix (2) @note:\"x @y\"  \n\n> U (1)"

def returnNote : List Change := [.duration 3, .note (some "a\rb")]

theorem read_patchLine_crlf_ragged :
    read (String.ofList (crlf ragged.toList)) Date.first = read ragged Date.first
      ∧ patchLine (String.ofList (crlf ragged.toList)) 4 returnNote = .ok (String.ofList (crlf
        ("## P @note:\"a b\" \n@start:\n 2025-01-06 \n>> (1) Fix (3) @note:\"a\rb\"\n\n"
          ++ "> U (1)").toList)) := by
  have hunix : '\r' ∉ ragged.toList := by decide
  have hc : ∀ c ∈ returnNote, c.Lacks '\n' := by
    simp only [returnNote, List.forall_mem_cons]
    have hnote : '\n' ∉ "a\rb".toList := by decide
    exact ⟨trivial, fun s hs => Option.some.inj hs ▸ hnote, by rintro c ⟨⟩⟩
  have hpatch : patchLine ragged 4 returnNote = .ok
      ("## P @note:\"a b\" \n@start:\n 2025-01-06 \n>> (1) Fix (3) @note:\"a\rb\"\n\n"
        ++ "> U (1)") := by
    decide +kernel
  refine ⟨(read_patchLine_crlf ragged).1 Date.first, ?_⟩
  rw [(read_patchLine_crlf ragged).2 hunix 4 returnNote hc, hpatch]
  rfl

end Outline

end Roadmap
