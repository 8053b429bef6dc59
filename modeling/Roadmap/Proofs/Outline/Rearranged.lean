import Roadmap.Proofs.Outline.Reading

/-!
# The order of modifiers

No token runs into its neighbour: a key and a bare value end at the blank behind them, and a quoted
value at its second quote, whatever it holds (`tokens_mark`). So a row of marks with blanks between
them is read mark by mark, and its task is the plain one with what they say applied in turn.

Modifiers of different kinds set different fields, so they can change places (`apply_comm`); those
of one kind cannot, since the last one wins, or the positions that they name are listed in their
order. Rows that hold the same marks, those of one kind in the same order, therefore give the same
task. The induction is on one of the rows: its first mark is found in the other behind marks of
other kinds only (`foldl_eq_of_filter_eq`).
-/

namespace Roadmap.Outline

/-! ## Kinds -/

/-- Modifiers of one kind set the same fields. -/
inductive Kind where
  | after
  | start
  | milestone
  | status
  | color
  | note
deriving DecidableEq

def Modifier.kind : Modifier → Kind
  | .after _ => .after
  | .milestone => .milestone
  | .status _ => .status
  | .color _ => .color
  | .start _ => .start
  | .note _ => .note

theorem apply_comm (t : Task) {m m' : Modifier} (h : m.kind ≠ m'.kind) :
    (t.apply m).apply m' = (t.apply m').apply m := by
  cases m <;> cases m' <;> first | rfl | exact absurd rfl h

/-- What commutes with all before it can as well come first. -/
theorem foldl_append_cons {α β : Type} {f : β → α → β} {x : α} {us : List α}
    (h : ∀ u ∈ us, ∀ b, f (f b u) x = f (f b x) u) (vs : List α) (b : β) :
    (us ++ x :: vs).foldl f b = (us ++ vs).foldl f (f b x) := by
  induction us generalizing b with
  | nil => rfl
  | cons u us ih =>
      rw [List.cons_append, List.foldl_cons, ih fun v hv => h v (List.mem_cons_of_mem u hv),
        h u List.mem_cons_self b]
      rfl

/-- What commutes across kinds depends on the order within each kind alone. -/
theorem foldl_eq_of_filter_eq {α β κ : Type} [DecidableEq κ] (kind : α → κ) {f : β → α → β}
    (hcomm : ∀ b x y, kind x ≠ kind y → f (f b x) y = f (f b y) x) {xs ys : List α}
    (h : ∀ k, xs.filter (kind · = k) = ys.filter (kind · = k)) (b : β) :
    xs.foldl f b = ys.foldl f b := by
  induction xs generalizing ys b with
  | nil =>
      cases ys with
      | nil => rfl
      | cons y ys =>
          have hy := h (kind y)
          rw [List.filter_nil, List.filter_cons_of_pos (by simp)] at hy
          cases hy
  | cons x xs ih =>
      have hx := h (kind x)
      rw [List.filter_cons_of_pos (by simp)] at hx
      obtain ⟨us, vs, rfl, hother, -, hrest⟩ := List.filter_eq_cons_iff.mp hx.symm
      have hmove : ∀ u ∈ us, ∀ b, f (f b u) x = f (f b x) u :=
        fun u hu b => hcomm b u x (by simpa using hother u hu)
      rw [foldl_append_cons hmove, List.foldl_cons]
      refine ih (fun k => ?_) (f b x)
      have hk := h k
      rw [List.filter_append] at hk ⊢
      by_cases hxk : kind x = k
      · subst hxk
        rw [List.filter_eq_nil_iff.mpr hother, List.nil_append]
        exact hrest.symm
      · rwa [List.filter_cons_of_neg (by simpa using hxk),
          List.filter_cons_of_neg (by simpa using hxk)] at hk

/-! ## Marks -/

/-- The keys that modifiers have. -/
inductive Key where
  | after
  | start
  | milestone
  | done
  | progress
  | cancelled
  | color
  | note

namespace Key

def name : Key → String
  | after => "after"
  | start => "start"
  | milestone => "milestone"
  | done => "done"
  | progress => "progress"
  | cancelled => "cancelled"
  | color => "color"
  | note => "note"

def kind : Key → Kind
  | after => .after
  | start => .start
  | milestone => .milestone
  | done => .status
  | progress => .status
  | cancelled => .status
  | color => .color
  | note => .note

theorem name_word (k : Key) : k.name.toList ≠ [] ∧ k.name.toList.all Text.isWord := by
  cases k <;> exact ⟨by decide, by decide⟩

end Key

/-- Characters that need no quotes around them, and are none. -/
def isPlainValue (c : Char) : Bool := isBareValue c && c != '"'

/-- A value as it is written: none, bare or in quotes. -/
inductive Value where
  | missing
  | bare (v : List Char) (plain : v.all isPlainValue)
  | quoted (v : List Char) (unquoted : '"' ∉ v) (oneLine : '\n' ∉ v)

/-- A modifier as it is written. -/
structure Mark where
  key : Key
  value : Value

namespace Value

def text : Value → List Char
  | missing => []
  | bare v _ => ':' :: v
  | quoted v _ _ => ':' :: ('"' :: (v ++ ['"']))

/-- The value that is read. One without characters is none, but its quotes are some. -/
def read? : Value → Option (List Char)
  | missing => none
  | bare v _ => if v.isEmpty then none else some v
  | quoted v _ _ => some (if v.isEmpty then ['"', '"'] else v)

end Value

namespace Mark

def text (m : Mark) : List Char := '@' :: (m.key.name.toList ++ m.value.text)

def token (m : Mark) : Token := ⟨m.key.name.toList, m.value.read?⟩

def kind (m : Mark) : Kind := m.key.kind

/-- What a mark says; one without a fitting value says nothing. -/
def modifier? (m : Mark) : Option Modifier := Modifier.ofToken? m.token

theorem kind_of_modifier? {m : Mark} {a : Modifier} (h : m.modifier? = some a) :
    a.kind = m.kind := by
  obtain ⟨key, value⟩ := m
  rw [modifier?, token, Modifier.ofToken?, String.ofList_toList] at h
  cases key with
  | after =>
      simp only [Key.name] at h
      split at h
      · cases h
        rfl
      · cases h
  | start =>
      obtain ⟨d, -, rfl⟩ := Option.map_eq_some_iff.mp h
      rfl
  | color =>
      obtain ⟨v, -, rfl⟩ := Option.map_eq_some_iff.mp h
      rfl
  | note =>
      obtain ⟨v, -, rfl⟩ := Option.map_eq_some_iff.mp h
      rfl
  | _ =>
      cases h
      rfl

end Mark

/-! ## Reading marks -/

theorem readValue?_of_blank {s : List Char} (h : ∀ c ∈ s.head?, Text.isBlank c) :
    readValue? s = none := by
  have hquote : s.head? ≠ some '"' := fun hhead => absurd (h '"' hhead) (by decide)
  have hbare : s.takeWhile isBareValue = [] := by
    cases s with
    | nil => rfl
    | cons c s =>
        refine List.takeWhile_cons_of_neg ?_
        rw [isBareValue_iff, h c rfl]
        exact fun hc => Bool.noConfusion hc.1
  rw [readValue?, quotedValue?_eq_none hquote, Option.none_or, bareValue?, hbare]

theorem readValue?_noQuote {rest : List Char} (hrest : ∀ c ∈ rest.head?, Text.isBlank c) :
    readValue? ('"' :: '"' :: rest) = some (['"', '"'], rest) := by
  have hnone : quotedValue? ('"' :: '"' :: rest) = none := rfl
  have hbare : ∀ c ∈ ['"', '"'], isBareValue c := by
    simp only [List.forall_mem_cons]
    exact ⟨rfl, rfl, by rintro c ⟨⟩⟩
  rw [readValue?, hnone, Option.none_or]
  exact bareValue?_append (List.cons_ne_nil _ _) hbare hrest

theorem plain_of_all {v : List Char} (h : v.all isPlainValue) :
    ∀ c ∈ v, isBareValue c ∧ c ≠ '"' := by
  intro c hc
  have hplain := List.all_eq_true.mp h c hc
  rwa [isPlainValue, Bool.and_eq_true, bne_iff_ne] at hplain

theorem tokens_mark (m : Mark) {rest : List Char} (hrest : ∀ c ∈ rest.head?, Text.isBlank c) :
    tokens (m.text ++ rest) = m.token :: tokens rest := by
  obtain ⟨key, value⟩ := m
  obtain ⟨hne, hall⟩ := key.name_word
  have hword : ∀ c ∈ key.name.toList, Text.isWord c := List.all_eq_true.mp hall
  have htext : Mark.text ⟨key, value⟩ ++ rest
      = '@' :: (key.name.toList ++ (value.text ++ rest)) := by
    rw [Mark.text, List.cons_append, List.append_assoc]
  rw [htext]
  cases value with
  | missing => exact tokens_cons_of_read (readToken?_of_key hne hword hrest)
  | bare v plain =>
      cases v with
      | nil =>
          have hread := readToken?_of_colon hne hword rest
          rw [readValue?_of_blank hrest] at hread
          exact (tokens_cons_of_read hread).trans
            (congrArg (_ :: ·) (tokens_cons_of_ne (by decide) rest))
      | cons c v =>
          have hquote : '"' ∉ c :: v := fun hmem => (plain_of_all plain _ hmem).2 rfl
          exact tokens_cons_of_read (readToken?_of_value hne hword (readValue?_plain
            (List.cons_ne_nil c v) hquote (fun x hx => (plain_of_all plain x hx).1) hrest))
  | quoted v unquoted _ =>
      cases v with
      | nil => exact tokens_cons_of_read (readToken?_of_value hne hword (readValue?_noQuote hrest))
      | cons c v =>
          exact tokens_cons_of_read (readToken?_of_value hne hword
            (readValue?_quoted (List.cons_ne_nil c v) unquoted))

theorem Key.not_isBlank (k : Key) : ∀ c ∈ '@' :: k.name.toList, Text.isBlank c = false := by
  rw [List.forall_mem_cons]
  refine ⟨rfl, fun c hc => Bool.eq_false_iff.mpr fun hblank => ?_⟩
  have hword := List.all_eq_true.mp k.name_word.2 c hc
  rw [not_isWord_of_isBlank hblank] at hword
  cases hword

theorem endsPlain_mark (m : Mark) : EndsPlain m.text := by
  obtain ⟨key, value⟩ := m
  change EndsPlain ('@' :: key.name.toList ++ value.text)
  refine (endsPlain_of_mem key.not_isBlank).append ?_
  cases value with
  | missing => rintro c ⟨⟩
  | bare v plain =>
      refine (endsPlain_singleton (c := ':') rfl).append (endsPlain_of_mem fun c hc => ?_)
      exact (isBareValue_iff.mp (plain_of_all plain c hc).1).1
  | quoted v _ _ =>
      rw [Value.text, ← List.cons_append, ← List.cons_append]
      intro c hc
      rw [List.getLast?_concat] at hc
      obtain rfl := Option.some.inj hc
      rfl

theorem newline_not_mem_mark (m : Mark) : '\n' ∉ m.text := by
  obtain ⟨key, value⟩ := m
  change '\n' ∉ '@' :: key.name.toList ++ value.text
  rw [List.mem_append]
  refine fun hmem => hmem.elim (fun hmem => absurd (key.not_isBlank _ hmem) (by decide))
    fun hmem => ?_
  cases value with
  | missing => cases hmem
  | bare v plain =>
      rcases List.mem_cons.mp hmem with hmem | hmem
      · exact absurd hmem (by decide)
      · exact absurd (isBareValue_iff.mp (plain_of_all plain _ hmem).1).1 (by decide)
  | quoted v _ oneLine =>
      simp only [Value.text, List.mem_cons, List.mem_append, List.not_mem_nil, or_false] at hmem
      rcases hmem with hmem | hmem | hmem | hmem
      · exact absurd hmem (by decide)
      · exact absurd hmem (by decide)
      · exact oneLine hmem
      · exact absurd hmem (by decide)

/-! ## Rows of marks -/

/-- The text holds the marks and nothing else but blanks, of which there is one at least between
two marks. -/
inductive Row : List Mark → List Char → Prop where
  | nil : Row [] []
  | cons {gap rest : List Char} {ms : List Mark} (m : Mark)
      (hgap : ∀ c ∈ gap, Text.isBlank c ∧ c ≠ '\n') (hrest : ∀ c ∈ rest.head?, Text.isBlank c)
      (hrow : Row ms rest) : Row (m :: ms) (gap ++ (m.text ++ rest))

theorem tokens_of_blank {gap : List Char} (h : ∀ c ∈ gap, Text.isBlank c) (s : List Char) :
    tokens (gap ++ s) = tokens s := by
  induction gap with
  | nil => rfl
  | cons c gap ih =>
      have hc : c ≠ '@' := by
        rintro rfl
        exact absurd (h '@' List.mem_cons_self) (by decide)
      rw [List.cons_append, tokens_cons_of_ne hc, ih fun x hx => h x (List.mem_cons_of_mem c hx)]

namespace Row

variable {ms : List Mark} {s : List Char} (h : Row ms s)

include h

theorem tokens_eq : tokens s = ms.map Mark.token := by
  induction h with
  | nil =>
      rw [tokens]
      rfl
  | cons m hgap hrest _ ih =>
      rw [tokens_of_blank fun c hc => (hgap c hc).1, tokens_mark m hrest, ih, List.map_cons]

theorem newline_not_mem : '\n' ∉ s := by
  induction h with
  | nil => exact List.not_mem_nil
  | cons m hgap _ _ ih =>
      rw [List.mem_append, List.mem_append]
      rintro (hmem | hmem | hmem)
      · exact (hgap _ hmem).2 rfl
      · exact newline_not_mem_mark m hmem
      · exact ih hmem

theorem endsPlain : EndsPlain s := by
  induction h with
  | nil => rintro c ⟨⟩
  | @cons gap rest _ m _ _ _ ih =>
      have hne : m.text ++ rest ≠ [] := List.cons_ne_nil _ _
      intro c hc
      rw [List.getLast?_append_of_ne_nil _ hne] at hc
      exact (endsPlain_mark m).append ih c hc

/-- What stands behind the duration is taken for modifiers: those of the row. -/
theorem exists_modifierText? : ∃ text, modifierText? s = some text
    ∧ Modifier.scan text = ms.filterMap Mark.modifier? := by
  have hline := h.newline_not_mem
  have htokens := h.tokens_eq
  have hscan : ∀ text, tokens text = ms.map Mark.token →
      Modifier.scan text = ms.filterMap Mark.modifier? := by
    intro text htext
    rw [Modifier.scan, htext, List.filterMap_map]
    rfl
  cases h with
  | nil => exact ⟨[], rfl, hscan [] htokens⟩
  | @cons gap rest ms m hgap hrest hrow =>
      have hblank : ∀ c ∈ gap, Text.isBlank c := fun c hc => (hgap c hc).1
      rw [tokens_of_blank hblank] at htokens
      exact ⟨m.text ++ rest, modifierText?_of_at hblank fun hmem => hline
        (List.mem_append_right _ (List.mem_cons_of_mem _ hmem)), hscan _ htokens⟩

end Row

/-- A modifier is written as a mark. -/
theorem exists_mark {m : Modifier} (h : m.Readable) : ∃ k : Mark, k.text = m.token.render := by
  obtain ⟨key, hkey⟩ : ∃ key : Key, m.token.key = key.name.toList := by
    cases m with
    | after => exact ⟨.after, rfl⟩
    | milestone => exact ⟨.milestone, rfl⟩
    | status s =>
        cases s with
        | pending => exact absurd rfl h
        | inProgress => exact ⟨.progress, rfl⟩
        | done => exact ⟨.done, rfl⟩
        | cancelled => exact ⟨.cancelled, rfl⟩
    | color => exact ⟨.color, rfl⟩
    | start => exact ⟨.start, rfl⟩
    | note => exact ⟨.note, rfl⟩
  rw [Token.render, hkey]
  cases hv : m.token.value with
  | none => exact ⟨⟨key, .missing⟩, rfl⟩
  | some v =>
      obtain ⟨-, hquote, hline⟩ := (Modifier.readable_token h).value v hv
      simp only [renderValue]
      split
      · exact ⟨⟨key, .quoted v hquote hline⟩, rfl⟩
      · next hplain =>
          refine ⟨⟨key, .bare v (List.all_eq_true.mpr fun c hc => ?_)⟩, rfl⟩
          rw [isPlainValue, Bool.and_eq_true, bne_iff_ne]
          exact ⟨isBareValue_of_unquoted hplain c hc, fun heq => hquote (heq ▸ hc)⟩

/-- What is written behind the duration of a task is a row of marks. -/
theorem exists_row {ms : List Modifier} (h : ∀ m ∈ ms, m.Readable) :
    ∃ marks, Row marks (Modifier.renderAll ms) := by
  induction ms with
  | nil => exact ⟨[], .nil⟩
  | cons m ms ih =>
      obtain ⟨mark, hmark⟩ := exists_mark (h m List.mem_cons_self)
      obtain ⟨marks, hrow⟩ := ih fun m' hm' => h m' (List.mem_cons_of_mem m hm')
      have hblank : ∀ c ∈ [' '], Text.isBlank c ∧ c ≠ '\n' := by
        rw [List.forall_mem_singleton]
        exact ⟨rfl, by decide⟩
      have hnext : ∀ c ∈ (Modifier.renderAll ms).head?, Text.isBlank c := by
        cases ms with
        | nil => rintro c ⟨⟩
        | cons m' ms =>
            rintro c ⟨⟩
            rfl
      refine ⟨mark :: marks, ?_⟩
      rw [Modifier.renderAll_cons, ← hmark]
      exact .cons mark hblank hnext hrow

/-! ## Task lines -/

/-- The markers, the title and the duration of a task line, such that nothing in the title can be
taken for the duration. -/
structure Head where
  level : Nat
  title : List Char
  digits : List Char
  deep : 1 ≤ level
  titled : title ≠ []
  stripped : Text.strip title = title
  oneLine : '\n' ∉ title
  unambiguous : Unambiguous title
  numbered : digits ≠ []
  numeral : ∀ c ∈ digits, Text.isDigit c

/-- The line that a head opens. -/
def Head.line (h : Head) (tail : List Char) : List Char := written h.level h.title h.digits tail

def Head.plain (h : Head) (number : Int) : Task where
  level := h.level
  title := String.ofList h.title
  duration := Text.digitsValue h.digits
  line := number

theorem readTask?_row (h : Head) {ms : List Mark} {tail : List Char} (hrow : Row ms tail)
    (number : Int) : readTask? (h.line tail) number = if Fault.maxDigits < h.digits.length
      then .error (.integerTooLong h.digits.length)
      else .ok (some ((h.plain number).applyAll (ms.filterMap Mark.modifier?))) := by
  obtain ⟨text, htext, hscan⟩ := hrow.exists_modifierText?
  have hparts := taskParts?_written h.deep h.titled h.stripped h.oneLine h.unambiguous.tail
    h.numbered h.numeral htext
  rw [← dropTrailing_written hrow.endsPlain] at hparts
  rw [Head.line, readTask?_of_parts number hparts, hscan]
  rfl

/-- The rows hold the same marks, those of one kind in the same order. -/
def Rearranged (ms ms' : List Mark) : Prop :=
  ∀ k, ms.filter (·.kind = k) = ms'.filter (·.kind = k)

theorem Rearranged.applyAll {ms ms' : List Mark} (h : Rearranged ms ms') (t : Task) :
    t.applyAll (ms.filterMap Mark.modifier?) = t.applyAll (ms'.filterMap Mark.modifier?) := by
  rw [Task.applyAll, Task.applyAll, List.foldl_filterMap, List.foldl_filterMap]
  refine foldl_eq_of_filter_eq Mark.kind (fun t m m' hkind => ?_) h t
  cases ha : m.modifier? with
  | none => rfl
  | some a =>
      cases ha' : m'.modifier? with
      | none => rfl
      | some a' =>
          refine apply_comm t ?_
          rwa [Mark.kind_of_modifier? ha, Mark.kind_of_modifier? ha']

/-- A task line may have its modifiers in any order, as long as those of one kind keep theirs: it is
read as the same task. There is one unless the duration has too many digits. -/
theorem readTask?_rearranged (h : Head) {ms ms' : List Mark} {tail tail' : List Char}
    (hrow : Row ms tail) (hrow' : Row ms' tail') (hsame : Rearranged ms ms') (number : Int) :
    readTask? (h.line tail) number = readTask? (h.line tail') number
      ∧ (h.digits.length ≤ Fault.maxDigits → ∃ t, readTask? (h.line tail) number = .ok (some t)
        ∧ t.level = h.level ∧ t.title.toList = h.title ∧ t.duration = Text.digitsValue h.digits
        ∧ t.line = number) := by
  rw [readTask?_row h hrow number, readTask?_row h hrow' number,
    hsame.applyAll (h.plain number)]
  refine ⟨rfl, fun hshort => ⟨_, if_neg (Nat.not_lt.mpr hshort), ?_⟩⟩
  obtain ⟨hlevel, htitle, hduration, hline⟩ :=
    applyAll_head (h.plain number) (ms'.filterMap Mark.modifier?)
  rw [hlevel, htitle, hduration, hline]
  exact ⟨rfl, String.toList_ofList, rfl, rfl⟩

def busyHead : Head where
  level := 2
  title := "Fix (2) now".toList
  digits := "10".toList
  deep := by decide
  titled := by decide
  stripped := by decide
  oneLine := by decide
  unambiguous := unambiguous_of_cuts (by decide)
  numbered := by decide
  numeral := List.all_eq_true.mp (by decide : "10".toList.all Text.isDigit)

def busyMarks : List Mark :=
  [⟨.after, .bare "3".toList rfl⟩, ⟨.done, .missing⟩,
   ⟨.note, .quoted "see @after:2 (4)".toList (by decide) (by decide)⟩,
   ⟨.after, .bare "1".toList rfl⟩, ⟨.progress, .missing⟩]

def busyMarks' : List Mark :=
  [⟨.note, .quoted "see @after:2 (4)".toList (by decide) (by decide)⟩, ⟨.done, .missing⟩,
   ⟨.progress, .missing⟩, ⟨.after, .bare "3".toList rfl⟩, ⟨.after, .bare "1".toList rfl⟩]

def busyTask : Task where
  level := 2
  title := "Fix (2) now"
  duration := 10
  dependencies := [3, 1]
  isDone := true
  status := .inProgress
  note := some "see @after:2 (4)"
  line := 5

/-- What looks like a modifier inside quotes is none. The last status counts, though it stays known
that the task has been done. -/
theorem readTask?_rearranged_busy :
    readTask? (">> Fix (2) now (10) @after:3 @done @note:\"see @after:2 (4)\" @after:1\t"
        ++ "@progress").toList 5 = .ok (some busyTask)
      ∧ readTask? (">> Fix (2) now (10)@note:\"see @after:2 (4)\"\t@done @progress @after:3 "
        ++ "@after:1").toList 5 = .ok (some busyTask) := by
  have hblank : ∀ x ∈ [' '], Text.isBlank x ∧ x ≠ '\n' := by
    rw [List.forall_mem_singleton]
    exact ⟨rfl, by decide⟩
  have htab : ∀ x ∈ ['\t'], Text.isBlank x ∧ x ≠ '\n' := by
    rw [List.forall_mem_singleton]
    exact ⟨rfl, by decide⟩
  have hnext : ∀ {c : Char} {s : List Char}, Text.isBlank c →
      ∀ x ∈ (c :: s).head?, Text.isBlank x := by
    rintro c s hc x ⟨⟩
    exact hc
  have hgapless : ∀ x ∈ ([] : List Char), Text.isBlank x ∧ x ≠ '\n' := by rintro x ⟨⟩
  have hend : ∀ x ∈ ([] : List Char).head?, Text.isBlank x := by rintro x ⟨⟩
  obtain ⟨tail, hrow, hline⟩ : ∃ tail, Row busyMarks tail ∧ busyHead.line tail
      = (">> Fix (2) now (10) @after:3 @done @note:\"see @after:2 (4)\" @after:1\t"
        ++ "@progress").toList :=
    ⟨_, .cons _ hblank (hnext rfl) (.cons _ hblank (hnext rfl) (.cons _ hblank (hnext rfl)
      (.cons _ hblank (hnext rfl) (.cons _ htab hend .nil)))), by decide +kernel⟩
  obtain ⟨tail', hrow', hline'⟩ : ∃ tail, Row busyMarks' tail ∧ busyHead.line tail
      = (">> Fix (2) now (10)@note:\"see @after:2 (4)\"\t@done @progress @after:3 "
        ++ "@after:1").toList :=
    ⟨_, .cons _ hgapless (hnext rfl) (.cons _ htab (hnext rfl) (.cons _ hblank (hnext rfl)
      (.cons _ hblank (hnext rfl) (.cons _ hblank hend .nil)))), by decide +kernel⟩
  have hsame : Rearranged busyMarks busyMarks' := by
    intro k
    cases k <;> rfl
  have hread : readTask? (busyHead.line tail) 5 = .ok (some busyTask) := by
    rw [hline]
    decide +kernel
  rw [← hline, ← hline']
  exact ⟨hread, (readTask?_rearranged busyHead hrow hrow' hsame 5).1.symm.trans hread⟩

end Roadmap.Outline
