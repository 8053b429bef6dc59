import Roadmap.Outline.Edit
import Roadmap.Proofs.Outline.Heading

/-!
# Blocks and the projects that are read

A block is found by looking for headers in the lines as they stand, while reading drops the carriage
returns at the end of a line before it looks for one. The two agree on all lines but those that are
*hollow*: marks, one blank and then nothing but carriage returns (`isHeader_iff`). These end a
block, and even begin one, but open no project.

A project as it is read has its header on its line and its tasks below, with no other header that is
read in between (`gathered_of_readLines`). So the block at its line holds its tasks and nothing of
other projects, except that a hollow line cuts it short (`range_of_project`).
-/

namespace Roadmap.Outline

/-! ## Hollow lines -/

/-- The line opens a project when it is read. -/
def Opens (line : Text.Line) : Prop := isHeader (Text.dropTrailing (· == '\r') line)

/-- The line has marks, one blank and then only carriage returns. -/
def Hollow (line : Text.Line) : Prop :=
  ∃ c breaks, line = '#' :: '#' :: c :: breaks ∧ Text.isBlank c ∧ breaks ≠ []
    ∧ ∀ b ∈ breaks, b = '\r'

/-- A header has a blank after its marks, and something after that. -/
theorem isHeader_iff_marks {line : Text.Line} (hline : '\n' ∉ line) :
    isHeader line ↔ ∃ c d rest, line = '#' :: '#' :: c :: d :: rest ∧ Text.isBlank c := by
  constructor
  · intro h
    obtain ⟨c, rest, rfl, hc⟩ := marks_of_isHeader h
    cases rest with
    | nil =>
        have hdrop : dropFinalBreak [c] = [c] :=
          dropFinalBreak_of_line fun hmem =>
            hline (List.mem_cons_of_mem _ (List.mem_cons_of_mem _ hmem))
        simp [isHeader, headerText?, hdrop, hc] at h
    | cons d rest => exact ⟨c, d, rest, rfl, hc⟩
  · rintro ⟨c, d, rest, rfl, hc⟩
    have hrest : '\n' ∉ c :: d :: rest :=
      fun hmem => hline (List.mem_cons_of_mem _ (List.mem_cons_of_mem _ hmem))
    rw [isHeader, headerText?]
    simp only [dropFinalBreak_of_line hrest]
    split
    · next hempty =>
        -- all is blank, so it is the gap, which is long enough
        have hgap : (c :: d :: rest).takeWhile Text.isBlank = c :: d :: rest :=
          List.takeWhile_eq_self_iff.mpr
            (List.dropWhile_eq_nil_iff.mp (List.isEmpty_iff.mp hempty))
        have hlast : (c :: d :: rest).getLast? ≠ some '\n' :=
          fun h => hrest (List.mem_of_getLast? h)
        rw [hgap, if_pos (by simpa using hlast)]
        rfl
    · have hgap : ((c :: d :: rest).takeWhile Text.isBlank).isEmpty = false := by
        rw [List.takeWhile_cons_of_pos hc]
        rfl
      have hbody : '\n' ∉ (c :: d :: rest).dropWhile Text.isBlank :=
        fun hmem => hrest ((List.dropWhile_sublist _).subset hmem)
      rw [if_neg (by simpa [hgap] using hbody)]
      rfl

theorem exists_dropTrailing_append (p : Char → Bool) (s : List Char) :
    ∃ tail, s = Text.dropTrailing p s ++ tail ∧ (∀ c ∈ tail, p c)
      ∧ ∀ c ∈ (Text.dropTrailing p s).getLast?, p c = false := by
  refine ⟨(s.reverse.takeWhile p).reverse, ?_, fun c hc => ?_, fun c hc => ?_⟩
  · rw [Text.dropTrailing, ← List.reverse_append, List.takeWhile_append_dropWhile,
      List.reverse_reverse]
  · exact List.mem_takeWhile_imp (List.mem_reverse.mp hc)
  · rw [Text.dropTrailing, List.getLast?_reverse] at hc
    have hstop := List.head?_dropWhile_not p s.reverse
    rw [hc] at hstop
    simpa using hstop

/-- Lines are headers for the blocks if they open a project or are hollow. -/
theorem isHeader_iff {line : Text.Line} (hline : '\n' ∉ line) :
    isHeader line ↔ Opens line ∨ Hollow line := by
  obtain ⟨tail, hsplit, htail, -⟩ := exists_dropTrailing_append (· == '\r') line
  have hdrop : '\n' ∉ Text.dropTrailing (· == '\r') line :=
    fun h => hline (mem_of_dropTrailing h)
  rw [Opens, isHeader_iff_marks hline, isHeader_iff_marks hdrop]
  generalize Text.dropTrailing (· == '\r') line = kept at hsplit hdrop ⊢
  constructor
  · rintro ⟨c, d, rest, rfl, hc⟩
    have hsplit : ['#', '#', c] ++ d :: rest = kept ++ tail := hsplit
    rcases List.append_eq_append_iff.mp hsplit with ⟨more, rfl, hrest⟩ | ⟨more, -, rfl⟩
    · cases more with
      | nil =>
          obtain rfl := hrest
          exact .inr ⟨c, d :: rest, rfl, hc, List.cons_ne_nil d rest,
            fun b hb => beq_iff_eq.mp (htail b hb)⟩
      | cons x more =>
          obtain ⟨rfl, -⟩ := List.cons.inj hrest
          exact .inl ⟨c, d, more, rfl, hc⟩
    · exact .inr ⟨c, d :: rest, rfl, hc, List.cons_ne_nil d rest,
        fun b hb => beq_iff_eq.mp (htail b (List.mem_append_right more hb))⟩
  · rintro (⟨c, d, rest, rfl, hc⟩ | ⟨c, breaks, rfl, hc, hne, -⟩)
    · exact ⟨c, d, rest ++ tail, hsplit, hc⟩
    · obtain ⟨d, rest, rfl⟩ := List.exists_cons_of_ne_nil hne
      exact ⟨c, d, rest, rfl, hc⟩

theorem not_opens_of_hollow {line : Text.Line} (hline : '\n' ∉ line) (h : Hollow line) :
    ¬ Opens line := by
  obtain ⟨tail, hsplit, -, hlast⟩ := exists_dropTrailing_append (· == '\r') line
  have hdrop : '\n' ∉ Text.dropTrailing (· == '\r') line :=
    fun h => hline (mem_of_dropTrailing h)
  rw [Opens, isHeader_iff_marks hdrop]
  generalize Text.dropTrailing (· == '\r') line = kept at hsplit hlast ⊢
  rintro ⟨c, d, rest, rfl, -⟩
  -- what is kept ends in one of the carriage returns, which are all dropped
  obtain ⟨c', breaks, rfl, -, -, hbreaks⟩ := h
  obtain ⟨-, heq⟩ : c' = c ∧ breaks = (d :: rest) ++ tail := by simpa using hsplit
  obtain ⟨x, hx⟩ := Option.isSome_iff_exists.mp (List.getLast?_isSome.mpr (List.cons_ne_nil d rest))
  have hbreak : x = '\r' := by
    refine hbreaks x ?_
    rw [heq]
    exact List.mem_append_left tail (List.mem_of_getLast? hx)
  have hother := hlast x (by simpa using hx)
  rw [hbreak] at hother
  exact absurd hother (by decide)

/-! ## Lines by their numbers -/

/-- With the lines counted from `first`, the one with the number `n` is among those of which `P`
holds. -/
def LineAt (P : Text.Line → Prop) (first : Int) (lines : List Text.Line) (n : Int) : Prop :=
  ∃ (i : Nat) (line : Text.Line), lines[i]? = some line ∧ n = first + i ∧ P line

section

variable {P : Text.Line → Prop} {first : Int} {line : Text.Line} {lines : List Text.Line} {n : Int}

theorem LineAt.head (h : P line) : LineAt P first (line :: lines) first :=
  ⟨0, line, rfl, by omega, h⟩

theorem LineAt.tail (h : LineAt P (first + 1) lines n) : LineAt P first (line :: lines) n := by
  obtain ⟨i, l, hi, hn, hl⟩ := h
  exact ⟨i + 1, l, hi, by omega, hl⟩

theorem lineAt_cons : LineAt P first (line :: lines) n
    ↔ n = first ∧ P line ∨ LineAt P (first + 1) lines n := by
  constructor
  · rintro ⟨i, l, hi, hn, hl⟩
    cases i with
    | zero =>
        obtain rfl := Option.some.inj hi
        exact .inl ⟨by omega, hl⟩
    | succ i => exact .inr ⟨i, l, hi, by omega, hl⟩
  · rintro (⟨rfl, h⟩ | h)
    · exact .head h
    · exact h.tail

theorem LineAt.unique {Q : Text.Line → Prop} (hP : LineAt P first lines n)
    (hQ : LineAt Q first lines n) : ∃ line ∈ lines, P line ∧ Q line := by
  obtain ⟨i, line, hi, hn, hline⟩ := hP
  obtain ⟨j, line', hj, hn', hline'⟩ := hQ
  obtain rfl : i = j := by omega
  obtain rfl := Option.some.inj (hi.symm.trans hj)
  exact ⟨line, List.mem_of_getElem? hi, hline, hline'⟩

theorem LineAt.le (h : LineAt P first lines n) : first ≤ n := by
  obtain ⟨i, -, -, rfl, -⟩ := h
  omega

end

/-! ## What is read -/

/-- No line with a number from `n` up to `m` opens a project. -/
def NoneOpens (first : Int) (lines : List Text.Line) (n m : Int) : Prop :=
  ∀ k, n ≤ k → k ≤ m → ¬ LineAt Opens first lines k

/-- The project has its header on its line, and below it the lines of its tasks, before any other
header. -/
structure Placed (first : Int) (lines : List Text.Line) (p : Project) : Prop where
  opens : LineAt Opens first lines p.line
  task : ∀ t ∈ p.tasks, p.line < t.line ∧ LineAt (·.head? = some '>') first lines t.line
    ∧ NoneOpens first lines (p.line + 1) t.line

theorem noneOpens_cons {first : Int} {line : Text.Line} {lines : List Text.Line} {n m : Int}
    (hline : ¬ Opens line ∨ first < n) (h : NoneOpens (first + 1) lines n m) :
    NoneOpens first (line :: lines) n m := by
  intro k hn hm hk
  rcases lineAt_cons.mp hk with ⟨rfl, hopens⟩ | hk
  · rcases hline with hline | hline
    · exact hline hopens
    · omega
  · exact h k hn hm hk

theorem NoneOpens.of_first {first : Int} {lines : List Text.Line} {m : Int}
    (h : NoneOpens first lines first m) (n : Int) : NoneOpens first lines n m :=
  fun k _ hm hk => h k hk.le hm hk

theorem Placed.cons {first : Int} {lines : List Text.Line} {p : Project}
    (h : Placed (first + 1) lines p) (line : Text.Line) : Placed first (line :: lines) p := by
  refine ⟨h.opens.tail, fun t ht => ?_⟩
  obtain ⟨hlt, hline, hnone⟩ := h.task t ht
  have := h.opens.le
  exact ⟨hlt, hline.tail, noneOpens_cons (.inr (by omega)) hnone⟩

theorem head?_of_readTask? {line : Text.Line} {number : Int} {t : Task}
    (h : readTask? line number = .ok (some t)) : line.head? = some '>' ∧ t.line = number := by
  obtain ⟨p, hp, -, -, -, hnumber, -⟩ := readTask?_eq_some h
  obtain ⟨tail, hsplit, -⟩ := exists_dropTrailing_append (· == '\r') line
  refine ⟨?_, hnumber⟩
  rw [hsplit, List.head?_append, head?_of_taskParts? hp]
  rfl

/-- The tasks that are found before the first header are there, and so are the projects, in their
order. -/
structure Gathered (first : Int) (lines : List Text.Line) (found : List Task × List Project) :
    Prop where
  before : ∀ t ∈ found.1, LineAt (·.head? = some '>') first lines t.line
    ∧ NoneOpens first lines first t.line
  placed : ∀ p ∈ found.2, Placed first lines p
  sorted : found.2.Pairwise (·.line < ·.line)
  covered : ∀ n, LineAt Opens first lines n → ∃ p ∈ found.2, p.line = n

namespace Gathered

variable {first : Int} {line : Text.Line} {lines : List Text.Line}
  {found : List Task × List Project} (h : Gathered (first + 1) lines found)

include h

theorem silent (hline : ¬ Opens line) : Gathered first (line :: lines) found := by
  refine ⟨fun t ht => ?_, fun p hp => (h.placed p hp).cons line, h.sorted, fun n hn => ?_⟩
  · obtain ⟨ht, hnone⟩ := h.before t ht
    exact ⟨ht.tail, noneOpens_cons (.inl hline) (hnone.of_first first)⟩
  · rcases lineAt_cons.mp hn with ⟨-, hopens⟩ | hn
    · exact absurd hopens hline
    · exact h.covered n hn

theorem task {t : Task} (hline : ¬ Opens line) (hhead : line.head? = some '>')
    (ht : t.line = first) : Gathered first (line :: lines) (t :: found.1, found.2) := by
  obtain ⟨hbefore, hplaced, hsorted, hcovered⟩ := h.silent hline
  refine ⟨List.forall_mem_cons.mpr ⟨?_, hbefore⟩, hplaced, hsorted, hcovered⟩
  rw [ht]
  refine ⟨.head hhead, noneOpens_cons (.inl hline) fun n _ hn hopens => ?_⟩
  have := hopens.le
  omega

theorem header {p : Project} (hline : Opens line) (hp : p.line = first) :
    Gathered first (line :: lines) ([], { p with tasks := found.1 } :: found.2) := by
  have hplaced : Placed first (line :: lines) { p with tasks := found.1 } := by
    constructor
    · show LineAt Opens first (line :: lines) p.line
      rw [hp]
      exact .head hline
    · intro t ht
      obtain ⟨ht, hnone⟩ := h.before t ht
      have := ht.le
      show p.line < _ ∧ _ ∧ NoneOpens first _ (p.line + 1) _
      rw [hp]
      exact ⟨by omega, ht.tail, noneOpens_cons (.inr (by omega)) hnone⟩
  refine ⟨List.forall_mem_nil _, List.forall_mem_cons.mpr ⟨hplaced, fun q hq => ?_⟩,
    List.pairwise_cons.mpr ⟨fun q hq => ?_, h.sorted⟩, fun n hn => ?_⟩
  · exact (h.placed q hq).cons line
  · have := (h.placed q hq).opens.le
    show p.line < q.line
    omega
  · rcases lineAt_cons.mp hn with ⟨rfl, -⟩ | hn
    · exact ⟨_, List.mem_cons_self, hp⟩
    · obtain ⟨q, hq, hn⟩ := h.covered n hn
      exact ⟨q, List.mem_cons_of_mem _ hq, hn⟩

end Gathered

theorem gathered_of_readLines {lines : List Text.Line} {first : Int} {ss : List Statement}
    (h : readLines first lines = .ok ss) : Gathered first lines (gather ss) := by
  induction lines generalizing first ss with
  | nil =>
      cases h
      refine ⟨List.forall_mem_nil _, List.forall_mem_nil _, List.Pairwise.nil, ?_⟩
      rintro n ⟨i, line, hi, -⟩
      cases hi
  | cons line lines ih =>
      obtain ⟨s, rest, rfl, hs, hrest⟩ := readLines_cons_eq_ok h
      have hstatement := readLine_eq_ok hs
      cases s with
      | header p => exact (ih hrest).header hstatement (line_of_header hs)
      | task t =>
          obtain ⟨hhead, hline⟩ := head?_of_readTask? hstatement.2
          exact (ih hrest).task (Bool.eq_false_iff.mp hstatement.1) hhead hline
      | silent => exact (ih hrest).silent (Bool.eq_false_iff.mp hstatement.1)

/-! ## Blocks -/

theorem isSome_projectBlock? {lines : List Text.Line} {number : Int} :
    (projectBlock? lines number).isSome ↔ LineAt (isHeader ·) 1 lines number := by
  rw [projectBlock?]
  cases hi : lineIndex? lines number with
  | none =>
      refine iff_of_false Bool.noConfusion ?_
      rintro ⟨i, line, hline, hn, -⟩
      have hlt := (List.getElem?_eq_some_iff.mp hline).1
      have hindex := lineIndex?_eq_some.mpr ⟨hlt, hn.trans (add_comm _ _)⟩
      rw [hi] at hindex
      cases hindex
  | some i =>
      obtain ⟨hlt, rfl⟩ := lineIndex?_eq_some.mp hi
      dsimp only
      rw [List.getD_eq_getElem lines [] hlt]
      constructor
      · intro h
        split at h
        · next hheader => exact ⟨i, lines[i], List.getElem?_eq_getElem hlt, add_comm _ _, hheader⟩
        · cases h
      · rintro ⟨j, line, hline, hn, hheader⟩
        obtain rfl : j = i := by omega
        have hheader : isHeader line := hheader
        rw [(List.getElem?_eq_some_iff.mp hline).2, if_pos hheader]
        rfl

/-- What `takeWhile` takes satisfies the test, and what comes next does not. -/
theorem takeWhile_bounds {α : Type} (p : α → Bool) (xs : List α) :
    (∀ i x, i < (xs.takeWhile p).length → xs[i]? = some x → p x)
      ∧ ∀ x, xs[(xs.takeWhile p).length]? = some x → p x = false := by
  have hsplit : xs.takeWhile p ++ xs.dropWhile p = xs := List.takeWhile_append_dropWhile
  constructor
  · intro i x hi hx
    rw [← hsplit, List.getElem?_append_left hi] at hx
    exact List.mem_takeWhile_imp (List.mem_of_getElem? hx)
  · intro x hx
    have hnext : xs[(xs.takeWhile p).length]? = (xs.dropWhile p).head? := by
      calc xs[(xs.takeWhile p).length]?
          = (xs.takeWhile p ++ xs.dropWhile p)[(xs.takeWhile p).length]? := by rw [hsplit]
        _ = (xs.dropWhile p).head? := by
          rw [List.getElem?_append_right le_rfl, Nat.sub_self, List.head?_eq_getElem?]
    have hstop := List.head?_dropWhile_not p xs
    rw [← hnext, hx] at hstop
    simpa using hstop

/-- The lines of a block below its first are no headers, and the line after the block is one. -/
theorem projectBlock?_eq_some {lines : List Text.Line} {number : Int} {b : Block}
    (h : projectBlock? lines number = some b) : b.numbers.1 = number ∧ number ≤ b.numbers.2
      ∧ (∀ n, number < n → n ≤ b.numbers.2 → ¬ LineAt (isHeader ·) 1 lines n)
      ∧ ∀ P n, b.numbers.2 < n → LineAt P 1 lines n →
        LineAt (isHeader ·) 1 lines (b.numbers.2 + 1) := by
  rw [projectBlock?] at h
  split at h
  · cases h
  · next i hi =>
      obtain ⟨hlt, rfl⟩ := lineIndex?_eq_some.mp hi
      split at h
      · cases h
        obtain ⟨hinside, hend⟩ := takeWhile_bounds (!isHeader ·) (lines.drop (i + 1))
        simp only [List.getElem?_drop] at hinside hend
        simp only [Block.numbers]
        generalize ((lines.drop (i + 1)).takeWhile (!isHeader ·)).length = size at hinside hend ⊢
        refine ⟨trivial, by omega, ?_, ?_⟩
        · rintro n hn hle ⟨j, line, hline, rfl, hheader⟩
          have hindex : i + 1 + (j - (i + 1)) = j := by omega
          have hplain := hinside (j - (i + 1)) line (by omega) (by rwa [hindex])
          simp [hheader] at hplain
        · rintro P n hn ⟨j, line, hline, rfl, -⟩
          have hlt := (List.getElem?_eq_some_iff.mp hline).1
          have hnext : i + 1 + size < lines.length := by omega
          have hheader := hend _ (List.getElem?_eq_getElem hnext)
          exact ⟨i + 1 + size, _, List.getElem?_eq_getElem hnext, by omega, by simpa using hheader⟩
      · cases h

/-! ## Blocks of projects -/

/-- The number is that of a line of the block. -/
def Block.Holds (b : Block) (n : Int) : Prop := b.numbers.1 ≤ n ∧ n ≤ b.numbers.2

theorem lineAt_isHeader_iff {text : List Char} {n : Int} :
    LineAt (isHeader ·) 1 (Text.linesOf text) n
      ↔ LineAt Opens 1 (Text.linesOf text) n ∨ LineAt Hollow 1 (Text.linesOf text) n := by
  have hline : ∀ {i : Nat} {line : Text.Line}, (Text.linesOf text)[i]? = some line →
      (isHeader line ↔ Opens line ∨ Hollow line) :=
    fun hline => isHeader_iff (of_mem_linesOf (List.mem_of_getElem? hline)).1
  constructor
  · rintro ⟨i, line, hi, hn, hheader⟩
    exact ((hline hi).mp hheader).imp (⟨i, line, hi, hn, ·⟩) (⟨i, line, hi, hn, ·⟩)
  · rintro (⟨i, line, hi, hn, hopens⟩ | ⟨i, line, hi, hn, hhollow⟩)
    · exact ⟨i, line, hi, hn, (hline hi).mpr (.inl hopens)⟩
    · exact ⟨i, line, hi, hn, (hline hi).mpr (.inr hhollow)⟩

theorem line_ne_of_sorted {ps : List Project} (h : ps.Pairwise (·.line < ·.line)) {j k : Nat}
    {p q : Project} (hne : j ≠ k) (hp : ps[k]? = some p) (hq : ps[j]? = some q) :
    p.line ≠ q.line := by
  obtain ⟨hk, rfl⟩ := List.getElem?_eq_some_iff.mp hp
  obtain ⟨hj, rfl⟩ := List.getElem?_eq_some_iff.mp hq
  rcases Nat.lt_or_gt_of_ne hne with hlt | hlt
  · exact ne_of_gt (List.pairwise_iff_getElem.mp h j k hj hk hlt)
  · exact ne_of_lt (List.pairwise_iff_getElem.mp h k j hk hj hlt)

/-- There is a block at each project and at each hollow line, and no project at a hollow line. The
block of a project holds nothing of other projects, and of its own tasks all those before the first
hollow line. -/
theorem range_of_project {text : String} {today : Date} {o : Outline}
    (h : read text today = .ok o) (number : Int) :
    ((projectBlock? (Text.linesOf text.toList) number).isSome
      ↔ (∃ p ∈ o.projects, p.line = number) ∨ LineAt Hollow 1 (Text.linesOf text.toList) number)
    ∧ (LineAt Hollow 1 (Text.linesOf text.toList) number → ∀ p ∈ o.projects, p.line ≠ number)
    ∧ ∀ (b : Block) (k : Nat) (p : Project),
      projectBlock? (Text.linesOf text.toList) number = some b → o.projects[k]? = some p →
      p.line = number →
      (∀ t ∈ p.tasks, b.numbers.1 < t.line ∧ (t.line ≤ b.numbers.2
        ∨ LineAt Hollow 1 (Text.linesOf text.toList) (b.numbers.2 + 1)
          ∧ b.numbers.2 + 1 < t.line))
      ∧ ∀ (j : Nat) (q : Project), j ≠ k → o.projects[j]? = some q →
        ¬ b.Holds q.line ∧ ∀ t ∈ q.tasks, ¬ b.Holds t.line := by
  obtain ⟨ss, hss, ho⟩ := read_eq_ok h
  obtain ⟨-, hplaced, hsorted, hcovered⟩ := gathered_of_readLines hss
  rw [← ho] at hplaced hsorted hcovered
  refine ⟨?_, ?_, ?_⟩
  · rw [isSome_projectBlock?, lineAt_isHeader_iff]
    refine or_congr_left ⟨hcovered number, ?_⟩
    rintro ⟨p, hp, rfl⟩
    exact (hplaced p hp).opens
  · rintro hhollow p hp rfl
    obtain ⟨line, hmem, hopens, hhollow⟩ := (hplaced p hp).opens.unique hhollow
    exact not_opens_of_hollow (of_mem_linesOf hmem).1 hhollow hopens
  · rintro b k p hb hk rfl
    obtain ⟨hfirst, hsize, hplain, hnext⟩ := projectBlock?_eq_some hb
    have hp := hplaced p (List.mem_of_getElem? hk)
    refine ⟨fun t ht => ?_, fun j q hj hq' => ?_⟩
    · obtain ⟨hlt, hhead, hnone⟩ := hp.task t ht
      refine ⟨by omega, or_iff_not_imp_left.mpr fun hout => ?_⟩
      have hlast := hnext _ t.line (by omega) hhead
      rcases lineAt_isHeader_iff.mp hlast with hopens | hhollow
      · exact absurd hopens (hnone _ (by omega) (by omega))
      · refine ⟨hhollow, lt_of_le_of_ne (by omega) fun heq => ?_⟩
        rw [heq] at hhollow
        obtain ⟨line, -, ⟨c, breaks, rfl, -⟩, hhead⟩ := hhollow.unique hhead
        cases hhead
    · have hq := hplaced q (List.mem_of_getElem? hq')
      -- another header below the first line would have ended the block
      have houtside : p.line < q.line → b.numbers.2 < q.line := fun hlt => not_le.mp fun hle =>
        hplain q.line hlt hle (lineAt_isHeader_iff.mpr (.inl hq.opens))
      have hne : p.line ≠ q.line := line_ne_of_sorted hsorted hj hk hq'
      refine ⟨fun hin => ?_, fun t ht hin => ?_⟩
      · obtain ⟨hfrom, hto⟩ := hin
        omega
      · obtain ⟨hfrom, hto⟩ := hin
        obtain ⟨hlt, -, hnone⟩ := hq.task t ht
        rcases lt_or_gt_of_ne hne with hbelow | habove
        · omega
        · exact hnone p.line (by omega) (by omega) hp.opens

/-! ### A project cut in two -/

/-- The third line is hollow. -/
def severed : String :=
  "## Barn\r\n> Floor (1)\r\n## \r\n> Loft (2) @after:1\r\n## Field\r\n> Fence (3)\r"

def barn : Project where
  name := "Barn"
  line := 1
  tasks := [{ level := 1, title := "Floor", duration := 1, line := 2 },
    { level := 1, title := "Loft", duration := 2, dependencies := [1], line := 4 }]

def field : Project where
  name := "Field"
  line := 5
  tasks := [{ level := 1, title := "Fence", duration := 3, line := 6 }]

theorem read_severed : read severed Date.first = .ok ⟨Date.first, [barn, field]⟩ := by
  decide +kernel

theorem range_of_project_severed : read severed Date.first = .ok ⟨Date.first, [barn, field]⟩
    ∧ projectBlock? (Text.linesOf severed.toList) 1 = some ⟨0, 2⟩
    ∧ (∀ t ∈ barn.tasks, 1 < t.line ∧ (t.line ≤ 2
      ∨ LineAt Hollow 1 (Text.linesOf severed.toList) 3 ∧ 3 < t.line))
    ∧ ∀ t ∈ field.tasks, ¬ Block.Holds ⟨0, 2⟩ t.line := by
  have hblock : projectBlock? (Text.linesOf severed.toList) 1 = some ⟨0, 2⟩ := by decide +kernel
  obtain ⟨htasks, hothers⟩ := (range_of_project read_severed 1).2.2 ⟨0, 2⟩ 0 barn hblock rfl rfl
  exact ⟨read_severed, hblock, htasks, (hothers 1 field (by decide) rfl).2⟩

/-- There is a block at the hollow line but no project, and the last task of the first project is
not in the block of that project. -/
theorem not_in_range_severed : read severed Date.first = .ok ⟨Date.first, [barn, field]⟩
    ∧ projectBlock? (Text.linesOf severed.toList) 3 = some ⟨2, 2⟩
    ∧ (∀ p ∈ [barn, field], p.line ≠ 3)
    ∧ projectBlock? (Text.linesOf severed.toList) barn.line = some ⟨0, 2⟩
    ∧ ∃ t ∈ barn.tasks, ¬ Block.Holds ⟨0, 2⟩ t.line := by
  refine ⟨read_severed, by decide +kernel, by decide, by decide +kernel, _,
    List.mem_cons_of_mem _ List.mem_cons_self, ?_⟩
  rintro ⟨-, hlast⟩
  exact absurd hlast (by decide)

end Roadmap.Outline
