import Roadmap.Proofs.Outline.Shape

/-!
# Which line names the start

Start words are looked for in the text as a whole, and the blanks between a mark and its word may be
line breaks. Told by lines: a start line without a word of its own takes the first word of the next
line that is not blank, and that line is not looked at any further, even if it is a start line
(`namedBy`). This is all that goes from one line to another (`startWords_unlines`), so a text in
which no line lends a day, or loses one of its own by lending, is read line by line
(`startDay_by_lines`).

The induction is on the lines, for the two states in which a line can be come to at once: with a
start line above still looking for its word (`owed`), and without one.
-/

namespace Roadmap

/-! ## The first word of a text -/

namespace Text

theorem firstWord?_cons {c : Char} (hc : isBlank c = false) (s : List Char) :
    firstWord? (c :: s) = some (c :: s.takeWhile (!isBlank ·), s.dropWhile (!isBlank ·)) := by
  rw [firstWord?, List.takeWhile_cons_of_pos (by simp [hc]),
    List.dropWhile_cons_of_pos (by simp [hc])]

theorem head?_wordsAfter {w : List Char} (hw : w ≠ []) (s : List Char) :
    (wordsAfter w s).head? = some (w.reverse ++ s.takeWhile (!isBlank ·)) := by
  induction s generalizing w with
  | nil =>
      rw [wordsAfter, List.head?_cons, List.takeWhile_nil, List.append_nil]
      exact hw
  | cons c s ih =>
      rw [wordsAfter]
      · cases hc : isBlank c with
        | true => simp [hc]
        | false => simp [hc, ih (List.cons_ne_nil c w)]
      · exact hw

/-- The first word stands behind the blanks. -/
theorem head?_words (s : List Char) :
    (words s).head? = (firstWord? (s.dropWhile isBlank)).map (·.1) := by
  rw [words]
  induction s with
  | nil => rfl
  | cons c s ih =>
      rw [wordsAfter, List.dropWhile_cons]
      cases hc : isBlank c with
      | true => exact ih
      | false =>
          simp only [Bool.false_eq_true, if_false]
          rw [head?_wordsAfter (List.cons_ne_nil c []), firstWord?_cons hc]
          rfl

theorem blank_of_no_word {s : List Char} (h : firstWord? (s.dropWhile isBlank) = none) :
    ∀ c ∈ s, isBlank c := by
  rw [← List.dropWhile_eq_nil_iff]
  by_contra hne
  obtain ⟨c, t, heq⟩ := List.exists_cons_of_ne_nil hne
  have hc : isBlank c = false := by simpa [heq] using List.head?_dropWhile_not isBlank s
  rw [heq, firstWord?_cons hc] at h
  cases h

/-- A word does not run past a blank. -/
theorem firstWord?_append {u : List Char} (hu : ∀ c ∈ u.head?, isBlank c) (s : List Char) :
    firstWord? ((s ++ u).dropWhile isBlank)
      = ((firstWord? (s.dropWhile isBlank)).map fun (word, rest) => (word, rest ++ u)).or
        (firstWord? (u.dropWhile isBlank)) := by
  induction s with
  | nil => rfl
  | cons c s ih =>
      rw [List.cons_append, List.dropWhile_cons, List.dropWhile_cons]
      cases hc : isBlank c with
      | true => exact ih
      | false =>
          have hstop : (s ++ u).takeWhile (!isBlank ·) = s.takeWhile (!isBlank ·)
              ∧ (s ++ u).dropWhile (!isBlank ·) = s.dropWhile (!isBlank ·) ++ u := by
            cases u with
            | nil => simp
            | cons b u =>
                have hb : (!isBlank b) = false := by simpa using hu b rfl
                exact ⟨takeWhile_append_cons (p := (!isBlank ·)) hb s u,
                  dropWhile_append_cons (p := (!isBlank ·)) hb s u⟩
          simp only [Bool.false_eq_true, if_false]
          rw [firstWord?_cons hc, firstWord?_cons hc, hstop.1, hstop.2]
          rfl

end Text

namespace Outline

/-! ## Start lines -/

theorem afterMark?_eq_some {m s rest : List Char} : afterMark? m s = some rest ↔ s = m ++ rest := by
  induction m generalizing s with
  | nil => exact ⟨fun h => Option.some.inj h, congrArg some⟩
  | cons a m ih =>
      cases s with
      | nil => simp [afterMark?]
      | cons c s =>
          rw [afterMark?, List.cons_append]
          split
          · next h => rw [ih, h, List.cons_inj_right]
          · next h =>
              refine iff_of_false (by simp) fun heq => h (List.cons.inj heq).1.symm

theorem afterMark?_append {m u : List Char} (hu : ∀ c ∈ u.head?, c ∉ m) (s : List Char) :
    afterMark? m (s ++ u) = (afterMark? m s).map (· ++ u) := by
  induction m generalizing s with
  | nil => rfl
  | cons a m ih =>
      cases s with
      | nil =>
          cases u with
          | nil => rfl
          | cons c u => exact if_neg fun heq : a = c => hu c rfl (heq ▸ List.mem_cons_self)
      | cons c s =>
          rw [List.cons_append, afterMark?, afterMark?]
          split
          · exact ih (fun c hc hmem => hu c hc (List.mem_cons_of_mem a hmem)) s
          · rfl

/-- The words that the start lines among some lines name; `owing` tells that a start line above them
has not found its word. -/
def namedBy (owing : Bool) : List Text.Line → List (List Char)
  | [] => []
  | line :: lines =>
    match if owing then some line else afterMark? startMark line with
    | none => namedBy false lines
    | some rest =>
      match (Text.words rest).head? with
      | some word => word :: namedBy false lines
      | none => namedBy true lines

/-- The day that a line names, if it is a start line. -/
def dayNamed? (line : Text.Line) : Option Date :=
  ((afterMark? startMark line).bind fun rest => (Text.words rest).head?).bind Date.ofIso?

/-! ## From the text to its lines -/

theorem unlines_cons (line : Text.Line) (lines : List Text.Line) :
    Text.unlines (line :: lines) = line ++ lines.flatMap ('\n' :: ·) := by
  induction lines generalizing line with
  | nil => exact (List.append_nil line).symm
  | cons l lines ih =>
      rw [Text.unlines, ih l]
      · rfl
      · exact List.cons_ne_nil l lines

theorem startWords_of_no_word {s : List Char} (h : startWord? s = none) :
    startWords true s = startWords false s := by
  cases s with
  | nil => rw [startWords, startWords]
  | cons c s => rw [startWords_of_none h, startWords_of_none h]

/-- The word that a start line further up takes from a text, and the start words behind it. -/
def owed (s : List Char) : List (List Char) :=
  match Text.firstWord? (s.dropWhile Text.isBlank) with
  | some (word, after) => word :: startWords false after
  | none => []

theorem owed_append {line u : List Char} (hline : '\n' ∉ line)
    (hu : ∀ c ∈ u.head?, Text.isBlank c) : owed (line ++ u)
      = match (Text.words line).head? with
        | some word => word :: startWords false u
        | none => owed u := by
  rw [owed, Text.firstWord?_append hu, Text.head?_words]
  cases hword : Text.firstWord? (line.dropWhile Text.isBlank) with
  | none => rfl
  | some found =>
      obtain ⟨word, rest⟩ := found
      have hrest : '\n' ∉ rest := by
        rw [Text.firstWord?] at hword
        split at hword
        · cases hword
        · cases hword
          exact fun hmem => hline ((List.dropWhile_sublist _).subset
            ((List.dropWhile_sublist _).subset hmem))
      exact congrArg (word :: ·) (startWords_skip hrest u)

theorem startWords_of_plain {s : List Char} (h : '@' ∉ s) (fresh : Bool) :
    startWords fresh s = [] := by
  induction s generalizing fresh with
  | nil => rw [startWords]
  | cons c s ih =>
      have hnone : startWord? (c :: s) = none := by
        have hc : '@' ≠ c := fun heq => h (heq ▸ List.mem_cons_self)
        rw [startWord?]
        show (afterMark? ('@' :: "start:".toList) (c :: s)).bind _ = none
        rw [afterMark?, if_neg hc]
        rfl
      rw [startWords_of_none hnone, ih fun hmem => h (List.mem_cons_of_mem c hmem)]

theorem startWords_mark (rest : List Char) :
    startWords true (startMark ++ rest) = owed rest := by
  have hstart : startWord? (startMark ++ rest) = Text.firstWord? (rest.dropWhile Text.isBlank) := by
    rw [startWord?, afterMark?_eq_some.mpr rfl]
    rfl
  rw [owed]
  cases hword : Text.firstWord? (rest.dropWhile Text.isBlank) with
  | some found => exact startWords_of_some (hstart.trans hword)
  | none =>
      rw [startWords_of_no_word (hstart.trans hword), startWords_skip (by decide)]
      exact startWords_of_plain (fun hmem => absurd (Text.blank_of_no_word hword _ hmem) (by decide))
        false

/-- What the text names is named by its lines. -/
theorem startWords_flatMap {lines : List Text.Line} (h : ∀ l ∈ lines, '\n' ∉ l) :
    startWords false (lines.flatMap ('\n' :: ·)) = namedBy false lines
      ∧ owed (lines.flatMap ('\n' :: ·)) = namedBy true lines := by
  induction lines with
  | nil => exact ⟨by rw [List.flatMap_nil, startWords, namedBy], rfl⟩
  | cons line lines ih =>
      obtain ⟨hfresh, howing⟩ := ih fun l hl => h l (List.mem_cons_of_mem line hl)
      have hline := h line List.mem_cons_self
      have hbreak : ∀ c ∈ (lines.flatMap ('\n' :: ·)).head?, c = '\n' := by
        cases lines with
        | nil => rintro c ⟨⟩
        | cons l lines => rintro c ⟨⟩; rfl
      have howed := fun {s : List Char} (hs : '\n' ∉ s) =>
        owed_append hs (u := lines.flatMap ('\n' :: ·)) fun c hc => hbreak c hc ▸ rfl
      rw [List.flatMap_cons, List.cons_append]
      constructor
      · rw [startWords_false_cons, namedBy, if_neg Bool.false_ne_true, beq_self_eq_true]
        cases hmark : afterMark? startMark line with
        | none =>
            have hnone : startWord? (line ++ lines.flatMap ('\n' :: ·)) = none := by
              rw [startWord?, afterMark?_append (fun c hc => hbreak c hc ▸ by decide), hmark]
              rfl
            rw [startWords_of_no_word hnone, startWords_skip hline, hfresh]
        | some rest =>
            obtain rfl := afterMark?_eq_some.mp hmark
            rw [List.append_assoc, startWords_mark,
              howed fun hmem => hline (List.mem_append_right _ hmem), hfresh, howing]
      · rw [namedBy, if_pos rfl, owed, List.dropWhile_cons_of_pos rfl]
        show owed (line ++ lines.flatMap ('\n' :: ·)) = _
        rw [howed hline, hfresh, howing]

theorem startWords_unlines {lines : List Text.Line} (hne : lines ≠ []) (h : ∀ l ∈ lines, '\n' ∉ l) :
    startWords true (Text.unlines lines) = namedBy false lines := by
  obtain ⟨line, rest, rfl⟩ := List.exists_cons_of_ne_nil hne
  rw [← (startWords_flatMap h).1, unlines_cons, List.flatMap_cons, List.cons_append,
    startWords_false_cons]
  rfl

/-! ## Lines that stand by themselves -/

/-- A start line without a word of its own. -/
def isBareStart (line : Text.Line) : Bool :=
  (afterMark? startMark line).any fun rest => (Text.words rest).isEmpty

/-- The line names a day, or opens with one. -/
def isDated (line : Text.Line) : Bool :=
  (dayNamed? line).isSome || ((Text.words line).head?.bind Date.ofIso?).isSome

/-- The next line that is not blank. -/
def nextLine? (lines : List Text.Line) : Option Text.Line :=
  lines.find? fun line => !(Text.words line).isEmpty

/-- No start line looks for its word on a line with a day. -/
def noDayLent : List Text.Line → Bool
  | [] => true
  | line :: lines => !(isBareStart line && (nextLine? lines).any isDated) && noDayLent lines

theorem dayNamed?_of_blank {line : Text.Line} (h : (Text.words line).isEmpty) :
    dayNamed? line = none := by
  rw [dayNamed?]
  cases hmark : afterMark? startMark line with
  | none => rfl
  | some rest =>
      obtain rfl := afterMark?_eq_some.mp hmark
      have hword := Text.head?_words (startMark ++ rest)
      rw [List.isEmpty_iff.mp h] at hword
      cases hword

/-- Where no day is lent, the first day that is named is the first that a line names by itself. -/
theorem findSome?_namedBy {lines : List Text.Line} (h : noDayLent lines) {owing : Bool}
    (howing : owing → (nextLine? lines).any isDated = false) :
    (namedBy owing lines).findSome? Date.ofIso? = lines.findSome? dayNamed? := by
  induction lines generalizing owing with
  | nil => rw [namedBy, List.findSome?_nil, List.findSome?_nil]
  | cons line lines ih =>
      rw [noDayLent, Bool.and_eq_true, Bool.not_eq_true', Bool.and_eq_false_iff] at h
      obtain ⟨hlent, hrest⟩ := h
      rw [namedBy, List.findSome?_cons]
      cases owing with
      | true =>
          rw [nextLine?, List.find?_cons] at howing
          cases hword : (Text.words line).head? with
          | none =>
              have hblank : (Text.words line).isEmpty := by
                rw [List.isEmpty_iff, List.head?_eq_none_iff.mp hword]
              rw [hblank] at howing
              simp only [if_true, hword, dayNamed?_of_blank hblank]
              exact ih hrest fun _ => howing rfl
          | some word =>
              have hsome : (Text.words line).isEmpty = false := by
                rw [← Bool.not_eq_true, List.isEmpty_iff]
                intro hnil
                rw [hnil] at hword
                cases hword
              rw [hsome] at howing
              have hdated := howing rfl
              rw [Bool.not_false, Option.any_some, isDated, hword, Bool.or_eq_false_iff,
                Option.isSome_eq_false_iff, Option.isSome_eq_false_iff, Option.isNone_iff_eq_none,
                Option.isNone_iff_eq_none, Option.bind_some] at hdated
              simp only [if_true, hword, List.findSome?_cons, hdated.1, hdated.2]
              exact ih hrest (by simp)
      | false =>
          rw [if_neg Bool.false_ne_true, dayNamed?]
          cases hmark : afterMark? startMark line with
          | none => exact ih hrest (by simp)
          | some rest =>
              simp only [Option.bind_some]
              cases hword : (Text.words rest).head? with
              | some word =>
                  simp only [List.findSome?_cons, Option.bind_some]
                  rw [ih hrest (by simp)]
              | none =>
                  refine ih hrest fun _ => hlent.resolve_left ?_
                  rw [isBareStart, hmark, Option.any_some, List.head?_eq_none_iff.mp hword]
                  exact Bool.noConfusion

theorem startDay_eq_namedBy (text : List Char) (today : Date) :
    startDay text today
      = ((namedBy false (Text.linesOf text)).findSome? Date.ofIso?).getD today := by
  rw [startDay, ← startWords_unlines (Text.linesOf_ne_nil text) fun l hl => (of_mem_linesOf hl).1,
    Text.unlines_linesOf]

/-- The start of an outline, told by its lines: what counts is the first day among the words that
they name, one start line after the other. If no start line looks for its word on a line with a day,
that is the day of the first line that names one by itself. -/
theorem startDay_by_lines (text : List Char) (today : Date) :
    startDay text today = ((namedBy false (Text.linesOf text)).findSome? Date.ofIso?).getD today
      ∧ (noDayLent (Text.linesOf text) →
        startDay text today = ((Text.linesOf text).findSome? dayNamed?).getD today) := by
  refine ⟨startDay_eq_namedBy text today, fun h => ?_⟩
  rw [startDay_eq_namedBy, findSome?_namedBy h (by simp)]

def wordlessStart : String :=
  "# Plans\n@start:\n\n## House\n@start: soon\n @start: 2024-01-01\n"
    ++ "@start:2025-03-01 (Monday)\n@start: 2025-04-01"

/-- The first start line takes the mark of the header for its word. -/
theorem startDay_by_lines_wordless : noDayLent (Text.linesOf wordlessStart.toList)
    ∧ startDay wordlessStart.toList Date.first
      = ((Text.linesOf wordlessStart.toList).findSome? dayNamed?).getD Date.first
    ∧ startDay wordlessStart.toList Date.first = ⟨739311, by decide, by decide⟩ := by
  have hlent : noDayLent (Text.linesOf wordlessStart.toList) := by decide +kernel
  exact ⟨hlent, (startDay_by_lines _ _).2 hlent, by decide +kernel⟩

/-- A start line without a word takes that of the next line, which then names nothing. -/
theorem startDay_swallowed :
    startDay "@start:\n@start: 2025-03-01".toList Date.first
      ≠ ((Text.linesOf "@start:\n@start: 2025-03-01".toList).findSome? dayNamed?).getD Date.first := by
  decide +kernel

/-! ## Lines that name the same -/

/-- The first word of a line, as a day if it is one. -/
def leadingDay? (line : Text.Line) : Option (Option Date) :=
  (Text.words line).head?.map Date.ofIso?

/-- To start marks the lines say the same. -/
structure NameAlike (line line' : Text.Line) : Prop where
  plain : leadingDay? line' = leadingDay? line
  marked : (afterMark? startMark line').map leadingDay?
    = (afterMark? startMark line).map leadingDay?

theorem NameAlike.refl (line : Text.Line) : NameAlike line line := ⟨rfl, rfl⟩

/-- Of a line in which a word is looked for it only matters whether it has a day for one. -/
theorem findSome?_namedBy_cons (owing : Bool) (line : Text.Line) (lines : List Text.Line) :
    (namedBy owing (line :: lines)).findSome? Date.ofIso?
      = match (if owing then some line else afterMark? startMark line).map leadingDay? with
        | none => (namedBy false lines).findSome? Date.ofIso?
        | some none => (namedBy true lines).findSome? Date.ofIso?
        | some (some day?) => day?.or ((namedBy false lines).findSome? Date.ofIso?) := by
  rw [namedBy]
  cases if owing then some line else afterMark? startMark line with
  | none => rfl
  | some rest =>
      simp only [Option.map_some, leadingDay?]
      cases (Text.words rest).head? with
      | none => rfl
      | some word =>
          simp only [List.findSome?_cons, Option.map_some]
          cases Date.ofIso? word with
          | none => rfl
          | some d => rfl

theorem findSome?_namedBy_alike {lines lines' : List Text.Line}
    (h : List.Forall₂ NameAlike lines lines') (owing : Bool) :
    (namedBy owing lines').findSome? Date.ofIso? = (namedBy owing lines).findSome? Date.ofIso? := by
  induction h generalizing owing with
  | nil => rfl
  | @cons line line' lines lines' halike _ ih =>
      have hsame : (if owing then some line' else afterMark? startMark line').map leadingDay?
          = (if owing then some line else afterMark? startMark line).map leadingDay? := by
        split
        · exact congrArg some halike.plain
        · exact halike.marked
      rw [findSome?_namedBy_cons, findSome?_namedBy_cons, hsame, ih, ih]

theorem startDay_alike {s u : List Char}
    (h : List.Forall₂ NameAlike (Text.linesOf s) (Text.linesOf u)) (today : Date) :
    startDay u today = startDay s today := by
  rw [startDay_eq_namedBy, startDay_eq_namedBy, findSome?_namedBy_alike h]

end Outline

end Roadmap
