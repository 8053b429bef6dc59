import Roadmap.Outline.TaskLine
import Roadmap.Proofs.Calendar.Iso

/-!
# Written modifiers are read back

A modifier is written as a token, and a token as `@key` or `@key:value`. Reading goes back along
the same two steps: a token ends where a blank in front of the next one stands
(`readToken?_render`), and the modifier of a modifier's token is that modifier (`ofToken?_token`).
So a row of modifiers is read one by one (`scan_cons`), whatever follows the last.
-/

namespace Roadmap.Outline

/-! ## Values -/

theorem quotedValue?_quoted {v rest : List Char} (hne : v ≠ []) (hquote : '"' ∉ v) :
    quotedValue? ('"' :: (v ++ '"' :: rest)) = some (v, rest) := by
  obtain ⟨a, as, rfl⟩ := List.exists_cons_of_ne_nil hne
  have hopen : ∀ c ∈ a :: as, (c != '"') = true :=
    fun c hc => bne_iff_ne.mpr fun heq => hquote (heq ▸ hc)
  have hclose : ∀ c ∈ ('"' :: rest).head?, (c != '"') = false := by
    rintro c ⟨⟩
    rfl
  rw [quotedValue?, Text.takeWhile_append_stop hopen hclose,
    Text.dropWhile_append_stop hopen hclose]
  rfl

theorem quotedValue?_eq_none {s : List Char} (h : s.head? ≠ some '"') : quotedValue? s = none := by
  unfold quotedValue?
  split
  · exact absurd rfl h
  · rfl

theorem isBareValue_iff {c : Char} : isBareValue c ↔ Text.isBlank c = false ∧ c ≠ '@' := by
  rw [isBareValue, Bool.and_eq_true, Bool.not_eq_true', bne_iff_ne]

/-- A value is written without quotes if it can be read without. -/
theorem isBareValue_of_unquoted {v : List Char}
    (h : ¬ (v.any Text.isBlank || v.contains '@') = true) : ∀ c ∈ v, isBareValue c := by
  rw [Bool.or_eq_true, not_or, List.any_eq_true, List.contains_iff_mem] at h
  intro c hc
  exact isBareValue_iff.mpr
    ⟨Bool.eq_false_iff.mpr fun hblank => h.1 ⟨c, hc, hblank⟩, fun heq => h.2 (heq ▸ hc)⟩

theorem bareValue?_append {v rest : List Char} (hne : v ≠ []) (hv : ∀ c ∈ v, isBareValue c)
    (hrest : ∀ c ∈ rest.head?, Text.isBlank c) : bareValue? (v ++ rest) = some (v, rest) := by
  obtain ⟨a, as, rfl⟩ := List.exists_cons_of_ne_nil hne
  have hstop : ∀ c ∈ rest.head?, isBareValue c = false := by
    intro c hc
    rw [isBareValue, hrest c hc]
    rfl
  rw [bareValue?, Text.takeWhile_append_stop hv hstop, Text.dropWhile_append_stop hv hstop]

/-- A value without quotes ends before a blank. -/
theorem readValue?_plain {v rest : List Char} (hne : v ≠ []) (hquote : '"' ∉ v)
    (hbare : ∀ c ∈ v, isBareValue c) (hrest : ∀ c ∈ rest.head?, Text.isBlank c) :
    readValue? (v ++ rest) = some (v, rest) := by
  have hhead : (v ++ rest).head? ≠ some '"' := by
    obtain ⟨a, as, rfl⟩ := List.exists_cons_of_ne_nil hne
    intro heq
    exact hquote (Option.some.inj heq ▸ List.mem_cons_self)
  rw [readValue?, quotedValue?_eq_none hhead, Option.none_or]
  exact bareValue?_append hne hbare hrest

theorem readValue?_quoted {v rest : List Char} (hne : v ≠ []) (hquote : '"' ∉ v) :
    readValue? ('"' :: (v ++ ['"']) ++ rest) = some (v, rest) := by
  have heq : '"' :: (v ++ ['"']) ++ rest = '"' :: (v ++ '"' :: rest) := by
    rw [List.cons_append, List.append_assoc]
    rfl
  rw [readValue?, heq, quotedValue?_quoted hne hquote]
  rfl

theorem readValue?_renderValue {v rest : List Char} (hne : v ≠ []) (hquote : '"' ∉ v)
    (hrest : ∀ c ∈ rest.head?, Text.isBlank c) :
    readValue? (renderValue v ++ rest) = some (v, rest) := by
  rw [renderValue]
  split
  · exact readValue?_quoted hne hquote
  · next hplain => exact readValue?_plain hne hquote (isBareValue_of_unquoted hplain) hrest

theorem quotedValue?_eq_some {s v rest : List Char} (h : quotedValue? s = some (v, rest)) :
    s = '"' :: (v ++ '"' :: rest) ∧ v ≠ [] ∧ '"' ∉ v := by
  unfold quotedValue? at h
  split at h
  · next s' =>
      split at h
      · next hv hrest =>
          cases h
          refine ⟨?_, List.cons_ne_nil _ _, fun hmem => ?_⟩
          · rw [← hv, ← hrest, List.takeWhile_append_dropWhile]
          · rw [← hv] at hmem
            have hother : ('"' != '"') = true := List.mem_takeWhile_imp (p := (· != '"')) hmem
            exact absurd hother (by decide)
      · cases h
  · cases h

theorem bareValue?_eq_some {s v rest : List Char} (h : bareValue? s = some (v, rest)) :
    s = v ++ rest ∧ v ≠ [] ∧ ∀ c ∈ v, isBareValue c := by
  unfold bareValue? at h
  split at h
  · cases h
  · next hne =>
      cases h
      exact ⟨List.takeWhile_append_dropWhile.symm, hne, fun c hc => List.mem_takeWhile_imp hc⟩

/-! ## Tokens -/

/-- A token as it is written. -/
def Token.render (t : Token) : List Char :=
  '@' :: (t.key ++ match t.value with
    | some v => ':' :: renderValue v
    | none => [])

/-- A token that a line can hold so that it is read back. -/
structure Token.Readable (t : Token) : Prop where
  key : t.key ≠ []
  word : ∀ c ∈ t.key, Text.isWord c ∧ Text.isBlank c = false
  value : ∀ v ∈ t.value, v ≠ [] ∧ '"' ∉ v ∧ '\n' ∉ v

theorem tokens_cons_of_ne {c : Char} (h : c ≠ '@') (rest : List Char) :
    tokens (c :: rest) = tokens rest := by
  rw [tokens, if_neg h]

theorem tokens_cons_of_read {rest after : List Char} {t : Token}
    (h : readToken? rest = some (t, after)) : tokens ('@' :: rest) = t :: tokens after := by
  rw [tokens, if_pos rfl]
  split
  · next heq =>
      rw [h] at heq
      cases heq
      rfl
  · next heq =>
      rw [h] at heq
      cases heq

theorem not_isWord_of_isBlank {c : Char} (h : Text.isBlank c) : Text.isWord c = false := by
  have hother := Text.of_isBlank (p := (!Text.isWord ·)) (by decide +kernel) h
  rwa [Bool.not_eq_true'] at hother

section

variable {key : List Char} (hne : key ≠ []) (hword : ∀ c ∈ key, Text.isWord c)

include hne hword

/-- A token without a value ends before a blank. -/
theorem readToken?_of_key {rest : List Char} (hrest : ∀ c ∈ rest.head?, Text.isBlank c) :
    readToken? (key ++ rest) = some (⟨key, none⟩, rest) := by
  obtain ⟨a, as, rfl⟩ := List.exists_cons_of_ne_nil hne
  have hstop : ∀ c ∈ rest.head?, Text.isWord c = false :=
    fun c hc => not_isWord_of_isBlank (hrest c hc)
  have hcolon : ∀ s : List Char, rest ≠ ':' :: s := by
    rintro s rfl
    exact absurd (hrest ':' rfl) (by decide)
  rw [readToken?, Text.takeWhile_append_stop hword hstop, Text.dropWhile_append_stop hword hstop]
  simp only

/-- A colon that no value follows is left over. -/
theorem readToken?_of_colon (s : List Char) :
    readToken? (key ++ ':' :: s) = some (match readValue? s with
      | some (v, rest) => (⟨key, some v⟩, rest)
      | none => (⟨key, none⟩, ':' :: s)) := by
  obtain ⟨a, as, rfl⟩ := List.exists_cons_of_ne_nil hne
  have hstop : ∀ c ∈ (':' :: s).head?, Text.isWord c = false := by
    rintro c ⟨⟩
    rfl
  rw [readToken?, Text.takeWhile_append_stop hword hstop, Text.dropWhile_append_stop hword hstop]
  simp only
  cases readValue? s with
  | none => rfl
  | some p => rfl

/-- A token is read up to the end of its value. -/
theorem readToken?_of_value {v s rest : List Char} (hvalue : readValue? s = some (v, rest)) :
    readToken? (key ++ ':' :: s) = some (⟨key, some v⟩, rest) := by
  rw [readToken?_of_colon hne hword, hvalue]

end

theorem readToken?_render {t : Token} {rest : List Char} (h : t.Readable)
    (hrest : ∀ c ∈ rest.head?, Text.isBlank c) :
    readToken? (t.render.tail ++ rest) = some (t, rest) := by
  obtain ⟨key, value⟩ := t
  have hword : ∀ c ∈ key, Text.isWord c := fun c hc => (h.word c hc).1
  cases value with
  | none =>
      show readToken? (key ++ [] ++ rest) = _
      rw [List.append_nil]
      exact readToken?_of_key h.key hword hrest
  | some v =>
      obtain ⟨hne, hquote, -⟩ := h.value v rfl
      have hassoc : key ++ ':' :: renderValue v ++ rest
          = key ++ ':' :: (renderValue v ++ rest) := List.append_assoc _ _ _
      show readToken? (key ++ ':' :: renderValue v ++ rest) = _
      rw [hassoc]
      exact readToken?_of_value h.key hword (readValue?_renderValue hne hquote hrest)

/-! ## Modifiers -/

/-- A color with one `#` in front of a value that needs no quotes. -/
def IsColor (c : String) : Prop :=
  ∃ v, c.toList = '#' :: v ∧ v ≠ [] ∧ v.head? ≠ some '#'
    ∧ ∀ x ∈ v, Text.isBlank x = false ∧ x ≠ '@' ∧ x ≠ '"'

/-- A note that quotes can enclose on one line. -/
def IsNote (n : String) : Prop := n ≠ "" ∧ '"' ∉ n.toList ∧ '\n' ∉ n.toList

namespace Modifier

/-- The token that a modifier is written as. -/
def token : Modifier → Token
  | after n => ⟨"after".toList, some (Text.intDigits n)⟩
  | milestone => ⟨"milestone".toList, none⟩
  | status .done => ⟨"done".toList, none⟩
  | status .inProgress => ⟨"progress".toList, none⟩
  | status _ => ⟨"cancelled".toList, none⟩
  | color c => ⟨"color".toList, some (c.toList.dropWhile (· == '#'))⟩
  | start d => ⟨"start".toList, some d.isoChars⟩
  | note n => ⟨"note".toList, some n.toList⟩

/-- A modifier that a line can hold so that it is read back; a task is pending without saying. -/
def Readable : Modifier → Prop
  | after n => Text.Fits n
  | status s => s ≠ .pending
  | color c => IsColor c
  | note n => IsNote n
  | _ => True

theorem dropWhile_color {v : List Char} (h : v.head? ≠ some '#') :
    ('#' :: v).dropWhile (· == '#') = v ∧ v.dropWhile (· == '#') = v := by
  have hv : v.dropWhile (· == '#') = v := by
    refine Text.dropWhile_of_head fun c hc => beq_eq_false_iff_ne.mpr ?_
    rintro rfl
    exact h hc
  exact ⟨hv, hv⟩

theorem ofToken?_after {v : List Char} {n : Int} (h : Text.readInt v = .ok n) :
    ofToken? ⟨"after".toList, some v⟩ = some (after n) := by
  simp only [ofToken?, String.ofList_toList, Option.map_some, h]

theorem ofToken?_color {c : String} {v : List Char} (hc : c.toList = '#' :: v)
    (hhash : v.head? ≠ some '#') : ofToken? (color c).token = some (color c) := by
  obtain ⟨hdrop, hstay⟩ := dropWhile_color hhash
  show some (color (normalizeColor (c.toList.dropWhile (· == '#')))) = _
  rw [hc, hdrop, normalizeColor, hstay, ← hc, String.ofList_toList]

theorem ofToken?_note (n : String) : ofToken? (note n).token = some (note n) := by
  show some (note (String.ofList n.toList)) = _
  rw [String.ofList_toList]

theorem ofToken?_token {m : Modifier} (h : m.Readable) : ofToken? m.token = some m := by
  cases m with
  | after n => exact ofToken?_after (Text.readInt_intDigits h)
  | milestone => rfl
  | status s =>
      cases s with
      | pending => exact absurd rfl h
      | inProgress => rfl
      | done => rfl
      | cancelled => rfl
  | color c =>
      obtain ⟨v, hc, -, hhash, -⟩ := h
      exact ofToken?_color hc hhash
  | start d =>
      show (Date.ofIso? d.isoChars).map start = _
      rw [Date.ofIso?_isoChars]
      rfl
  | note n => exact ofToken?_note n

/-- The keys of modifiers. -/
def keys : List String :=
  ["after", "milestone", "done", "progress", "cancelled", "color", "start", "note"]

theorem key_token (m : Modifier) : ∃ key ∈ keys, m.token.key = key.toList := by
  cases m with
  | after => exact ⟨"after", by decide, rfl⟩
  | milestone => exact ⟨"milestone", by decide, rfl⟩
  | status s =>
      cases s with
      | pending => exact ⟨"cancelled", by decide, rfl⟩
      | inProgress => exact ⟨"progress", by decide, rfl⟩
      | done => exact ⟨"done", by decide, rfl⟩
      | cancelled => exact ⟨"cancelled", by decide, rfl⟩
  | color => exact ⟨"color", by decide, rfl⟩
  | start => exact ⟨"start", by decide, rfl⟩
  | note => exact ⟨"note", by decide, rfl⟩

theorem word_token (m : Modifier) :
    m.token.key ≠ [] ∧ ∀ c ∈ m.token.key, Text.isWord c ∧ Text.isBlank c = false := by
  obtain ⟨key, hkey, heq⟩ := m.key_token
  rw [heq]
  refine ⟨(by decide : ∀ key ∈ keys, key.toList ≠ []) key hkey, fun c hc => ?_⟩
  have hall : ∀ key ∈ keys, key.toList.all fun c => Text.isWord c && !Text.isBlank c := by
    decide
  have := List.all_eq_true.mp (hall key hkey) c hc
  rwa [Bool.and_eq_true, Bool.not_eq_true'] at this

theorem readable_token {m : Modifier} (h : m.Readable) : m.token.Readable := by
  refine ⟨m.word_token.1, m.word_token.2, fun v hv => ?_⟩
  cases m with
  | milestone => cases hv
  | status s => cases s <;> cases hv
  | after n =>
      obtain rfl := Option.some.inj hv
      exact ⟨Text.intDigits_ne_nil n,
        fun hc => absurd (Text.mem_intDigits hc) (by decide),
        fun hc => absurd (Text.mem_intDigits hc) (by decide)⟩
  | color c =>
      obtain rfl := Option.some.inj hv
      obtain ⟨v, hc, hne, hhash, hplain⟩ := h
      rw [hc, (dropWhile_color hhash).1]
      exact ⟨hne, fun hc => (hplain _ hc).2.2 rfl, fun hc => absurd (hplain _ hc).1 (by decide)⟩
  | start d =>
      obtain rfl := Option.some.inj hv
      refine ⟨?_, fun hc => absurd (Date.mem_isoChars hc) (by decide),
        fun hc => absurd (Date.mem_isoChars hc) (by decide)⟩
      rw [Date.isoChars]
      exact List.append_ne_nil_of_right_ne_nil _ (List.cons_ne_nil _ _)
  | note n =>
      obtain rfl := Option.some.inj hv
      exact ⟨fun hnil => h.1 (String.toList_eq_nil_iff.mp hnil), h.2⟩

/-- Modifiers as they follow the duration of a task. -/
def renderAll (ms : List Modifier) : List Char := spaced (ms.map (·.token.render))

theorem renderAll_cons (m : Modifier) (ms : List Modifier) :
    renderAll (m :: ms) = ' ' :: (m.token.render ++ renderAll ms) := rfl

/-- Reading the first modifier of a text leaves what follows it. -/
theorem scan_cons {m : Modifier} {rest : List Char} (hof : ofToken? m.token = some m)
    (hread : readToken? (m.token.render.tail ++ rest) = some (m.token, rest)) :
    scan (' ' :: (m.token.render ++ rest)) = m :: scan rest := by
  show scan (' ' :: '@' :: (m.token.render.tail ++ rest)) = _
  rw [scan, tokens_cons_of_ne (by decide), tokens_cons_of_read hread, List.filterMap_cons, hof]
  rfl

theorem scan_cons_of_value {m : Modifier} {v rest : List Char} (hv : m.token.value = some v)
    (hof : ofToken? m.token = some m)
    (hvalue : readValue? (renderValue v ++ rest) = some (v, rest)) :
    scan (' ' :: (m.token.render ++ rest)) = m :: scan rest := by
  have hword : ∀ c ∈ m.token.key, Text.isWord c := fun c hc => (m.word_token.2 c hc).1
  have hrender : m.token.render.tail ++ rest = m.token.key ++ ':' :: (renderValue v ++ rest) := by
    rw [Token.render, hv, List.tail_cons, List.append_assoc]
    rfl
  refine scan_cons hof ?_
  rw [hrender, readToken?_of_value m.word_token.1 hword hvalue, ← hv]

theorem scan_renderAll_append {ms : List Modifier} (h : ∀ m ∈ ms, m.Readable) {rest : List Char}
    (hrest : ∀ c ∈ rest.head?, Text.isBlank c) : scan (renderAll ms ++ rest) = ms ++ scan rest := by
  induction ms with
  | nil => rfl
  | cons m ms ih =>
      have hm := h m List.mem_cons_self
      have hnext : ∀ c ∈ (renderAll ms ++ rest).head?, Text.isBlank c := by
        cases ms with
        | nil => exact hrest
        | cons s ss => rintro c ⟨⟩; rfl
      rw [renderAll_cons, List.cons_append, List.append_assoc,
        scan_cons (ofToken?_token hm) (readToken?_render (readable_token hm) hnext),
        ih fun s hs => h s (List.mem_cons_of_mem m hs)]
      rfl

theorem scan_nil : scan [] = [] := by
  rw [scan, tokens]
  rfl

theorem scan_renderAll {ms : List Modifier} (h : ∀ m ∈ ms, m.Readable) :
    scan (renderAll ms) = ms := by
  have happend : scan (renderAll ms ++ []) = ms ++ scan [] :=
    scan_renderAll_append h (by rintro c ⟨⟩)
  rwa [List.append_nil, scan_nil, List.append_nil] at happend

end Modifier

end Roadmap.Outline
