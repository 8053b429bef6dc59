import Roadmap.Json.Reader
import Roadmap.Json.Writer
import Roadmap.Proofs.Text.Decimal

/-!
# What a written value tells

Two values that are written alike are the same value, if no number in them is a decimal and all
their texts are texts (`Plain`). What is written of a value does not say by itself where it ends, so
it is shown with what comes after it: a string is found again by reading it, which stops at its
closing quote (`readString_written`), a list or an object ends at its bracket, and an integer where
no numeral can follow (`Ends`). The texts have to be texts since a broken one is written as null.
-/

namespace Roadmap.Json

/-! ## Strings are read back -/

theorem hexValue?_hexDigit {k : Nat} (h : k < 16) : hexValue? (Text.hexDigit k) = some k := by
  have hall : ∀ k < 16, hexValue? (Text.hexDigit k) = some k := by decide
  exact hall k h

theorem hexUnit?_hexDigits {n : Nat} (h : n < 0x10000) (c : Char) (rest : List Char) :
    hexUnit? (Text.hexDigits 4 n ++ c :: rest) = some (n, c :: rest) := by
  have hdigit : ∀ m, hexValue? (Text.hexDigit (m % 16)) = some (m % 16) :=
    fun m => hexValue?_hexDigit (Nat.mod_lt m (by decide))
  simp only [Text.hexDigits, List.nil_append, List.cons_append, hexUnit?, hdigit,
    Option.bind_eq_bind, Option.bind_some, Option.pure_def, Option.some.injEq, Prod.mk.injEq, and_true]
  omega

theorem unitChar_toNat (c : Char) : unitChar c.toNat = some c := by
  have hvalid : c.toNat < 0xD800 ∨ 0xDFFF < c.toNat ∧ c.toNat < 0x110000 := c.valid
  rw [unitChar, if_neg, Char.ofNat_toNat]
  simp only [Bool.and_eq_true, decide_eq_true_eq]
  omega

/-- A unit that is no first half of a pair is read by itself. -/
theorem readUnit_single {n : Nat} (h : n < 0x10000) (hsingle : n < 0xD800 ∨ 0xDBFF < n)
    (place : List Char) (d : Char) (rest : List Char) :
    readUnit place (Text.hexDigits 4 n ++ d :: rest) = .ok (unitChar n, d :: rest) := by
  have hno : (decide (0xD800 ≤ n) && decide (n ≤ 0xDBFF)) = false := by
    simp only [Bool.and_eq_false_iff, decide_eq_false_iff_not]
    omega
  rw [readUnit, hexUnit?_hexDigits h]
  simp only [hno, Bool.false_and, Bool.false_eq_true, if_false]
  split
  · rfl
  · rfl

/-- Two halves make one character. -/
theorem readUnit_pair {high low : Nat} (hhigh : 0xD800 ≤ high ∧ high ≤ 0xDBFF)
    (hlow : 0xDC00 ≤ low ∧ low ≤ 0xDFFF) (place : List Char) (d : Char) (rest : List Char) :
    readUnit place (Text.hexDigits 4 high ++ (unitEscape low ++ d :: rest)) = .ok
      (some (Char.ofNat (0x10000 + (high - 0xD800) * 0x400 + (low - 0xDC00))), d :: rest) := by
  have hlength : 5 ≤ (Text.hexDigits 4 low ++ d :: rest).length := by
    simp [Text.hexDigits]
  rw [readUnit, unitEscape, List.cons_append, List.cons_append, hexUnit?_hexDigits (by omega)]
  simp only [hexUnit?_hexDigits (show low < 0x10000 by omega), hhigh, hlow, hlength, decide_true,
    Bool.and_self, if_true]

/-- The ways in which a character is written inside a string. -/
inductive Spelt (c : Char) : List Char → Prop
  | letter (e : Char) (he : escaped? e = some c) (hu : e ≠ 'u') : Spelt c ['\\', e]
  | itself (hquote : c ≠ '"') (hslash : c ≠ '\\') (hprint : 0x20 ≤ c.toNat) : Spelt c [c]
  | unit (h : c.toNat < 0x10000) : Spelt c (unitEscape c.toNat)
  | pair (h : 0x10000 ≤ c.toNat) :
      Spelt c (unitEscape (0xD800 + (c.toNat - 0x10000) / 0x400)
        ++ unitEscape (0xDC00 + (c.toNat - 0x10000) % 0x400))

theorem spelt_stringChar (c : Char) : Spelt c (stringChar c) := by
  simp only [stringChar, Bool.or_eq_true, Bool.and_eq_true, beq_iff_eq, decide_eq_true_eq]
  split_ifs with hslash hfeed hreturn htab hback hform hprint hunit
  · rcases hslash with rfl | rfl
    · exact .letter '"' rfl (by decide)
    · exact .letter '\\' rfl (by decide)
  · exact .letter 'n' (hfeed ▸ rfl) (by decide)
  · exact .letter 'r' (hreturn ▸ rfl) (by decide)
  · exact .letter 't' (htab ▸ rfl) (by decide)
  · exact .letter 'b' (hback ▸ rfl) (by decide)
  · exact .letter 'f' (hform ▸ rfl) (by decide)
  · exact .itself (fun h => hslash (.inl h)) (fun h => hslash (.inr h)) hprint.1
  · exact .unit hunit
  · exact .pair (not_lt.mp hunit)

section

variable (opening : List Char) (fuel : Nat) (seen : Spelling)

theorem readString_itself {c : Char} (hquote : c ≠ '"') (hslash : c ≠ '\\')
    (hprint : 0x20 ≤ c.toNat) (rest : List Char) :
    readString opening (fuel + 1) seen (c :: rest)
      = readString opening fuel (some c :: seen) rest := by
  rw [readString.eq_def]
  simp only [beq_eq_false_iff_ne.mpr hquote, beq_eq_false_iff_ne.mpr hslash,
    not_lt.mpr hprint, Bool.false_eq_true, if_false]

theorem readString_letter {c e : Char} (he : escaped? e = some c) (hu : e ≠ 'u')
    (rest : List Char) : readString opening (fuel + 1) seen ('\\' :: e :: rest)
      = readString opening fuel (some c :: seen) rest := by
  rw [readString.eq_def]
  simp only [show ('\\' == '"') = false from rfl, BEq.rfl, Bool.false_eq_true, if_false, if_true,
    he]

theorem readString_unit {digits after : List Char} {unit : Option Char}
    (h : readUnit ('u' :: digits) digits = .ok (unit, after)) :
    readString opening (fuel + 1) seen ('\\' :: 'u' :: digits)
      = readString opening fuel (unit :: seen) after := by
  rw [readString.eq_def]
  simp only [h]
  rfl

end

theorem readString_spelt {c : Char} {spelling : List Char} (h : Spelt c spelling)
    (opening : List Char) (fuel : Nat) (seen : Spelling) (d : Char) (rest : List Char) :
    readString opening (fuel + 1) seen (spelling ++ d :: rest)
      = readString opening fuel (some c :: seen) (d :: rest) := by
  cases h with
  | letter e he hu => exact readString_letter opening fuel seen he hu (d :: rest)
  | itself hquote hslash hprint =>
      exact readString_itself opening fuel seen hquote hslash hprint (d :: rest)
  | unit h =>
      have hvalid : c.toNat < 0xD800 ∨ 0xDFFF < c.toNat ∧ c.toNat < 0x110000 := c.valid
      rw [← unitChar_toNat]
      exact readString_unit opening fuel seen (readUnit_single h (by omega) _ d rest)
  | pair h =>
      have hvalid : c.toNat < 0xD800 ∨ 0xDFFF < c.toNat ∧ c.toNat < 0x110000 := c.valid
      rw [List.append_assoc]
      refine (readString_unit opening fuel seen
        (readUnit_pair (by omega) (by omega) _ d rest)).trans ?_
      have hnat : 0x10000 + (0xD800 + (c.toNat - 0x10000) / 0x400 - 0xD800) * 0x400
          + (0xDC00 + (c.toNat - 0x10000) % 0x400 - 0xDC00) = c.toNat := by omega
      rw [hnat, Char.ofNat_toNat]

/-- The rest of a string is read as it was written. -/
theorem readString_written (opening cs rest : List Char) (spare : Nat) (seen : Spelling) :
    readString opening (cs.length + 1 + spare) seen (cs.flatMap stringChar ++ '"' :: rest)
      = .ok (seen.reverse ++ cs.map some, rest) := by
  induction cs generalizing seen with
  | nil =>
      rw [List.length_nil, Nat.zero_add, Nat.add_comm, List.map_nil, List.append_nil]
      rfl
  | cons c cs ih =>
      -- Reading an escape looks at what comes after it, so the next character gets a name.
      obtain ⟨d, tail, htail⟩ : ∃ d tail, cs.flatMap stringChar ++ '"' :: rest = d :: tail :=
        List.exists_cons_of_ne_nil (List.append_ne_nil_of_right_ne_nil _ (List.cons_ne_nil _ _))
      have hfuel : (c :: cs).length + 1 + spare = cs.length + 1 + spare + 1 := by
        rw [List.length_cons]
        omega
      rw [hfuel, List.flatMap_cons, List.append_assoc, htail,
        readString_spelt (spelt_stringChar c), ← htail, ih]
      simp

theorem string_append_inj {s t : String} {rest rest' : List Char}
    (h : string s ++ rest = string t ++ rest') : s = t ∧ rest = rest' := by
  simp only [string, List.cons_append, List.append_assoc, List.nil_append, List.cons.injEq,
    true_and] at h
  have hs := readString_written [] s.toList rest t.toList.length []
  have ht := readString_written [] t.toList rest' s.toList.length []
  have hfuel : s.toList.length + 1 + t.toList.length = t.toList.length + 1 + s.toList.length := by
    omega
  rw [h, hfuel, ht] at hs
  obtain ⟨hchars, hrest⟩ := Prod.mk.inj (Except.ok.inj hs)
  have hmap : t.toList.map some = s.toList.map some := hchars
  exact ⟨(String.toList_inj.mp (List.map_injective_iff.mpr (Option.some_injective _) hmap)).symm,
    hrest.symm⟩

/-! ## Integers -/

theorem dash_not_mem_natDigits (n : Nat) : '-' ∉ Text.natDigits n :=
  fun h => absurd (Text.mem_natDigits h) (by decide)

theorem intDigits_injective : Function.Injective Text.intDigits := by
  have hnat : Function.Injective Text.natDigits :=
    Function.LeftInverse.injective Text.digitsValue_natDigits
  intro n m h
  cases n with
  | ofNat n =>
      cases m with
      | ofNat m => rw [hnat h]
      | negSucc m =>
          have hchars : Text.natDigits n = '-' :: Text.natDigits (m + 1) := h
          have hdash : '-' ∈ Text.natDigits n := hchars ▸ List.mem_cons_self
          exact absurd hdash (dash_not_mem_natDigits n)
  | negSucc n =>
      cases m with
      | ofNat m =>
          have hchars : Text.natDigits m = '-' :: Text.natDigits (n + 1) := h.symm
          have hdash : '-' ∈ Text.natDigits m := hchars ▸ List.mem_cons_self
          exact absurd hdash (dash_not_mem_natDigits m)
      | negSucc m =>
          have hsucc := hnat (List.cons.inj h).2
          rw [Nat.succ_inj.mp hsucc]

/-- A character that may stand in an integer. -/
def isNumeral (c : Char) : Bool := c == '-' || Text.tenDigits.contains c

theorem isNumeral_of_mem {n : Int} {c : Char} (h : c ∈ Text.intDigits n) : isNumeral c = true := by
  rw [isNumeral, Bool.or_eq_true, beq_iff_eq, List.contains_iff_mem]
  exact Text.mem_intDigits h

/-- An integer ends here. -/
def Ends (rest : List Char) : Prop := ∀ c ∈ rest.head?, isNumeral c = false

theorem ends_cons {c : Char} (h : isNumeral c = false) (rest : List Char) : Ends (c :: rest) := by
  rintro c' ⟨⟩
  exact h

theorem intDigits_append_inj {n m : Int} {rest rest' : List Char} (hends : Ends rest)
    (hends' : Ends rest') (h : Text.intDigits n ++ rest = Text.intDigits m ++ rest') :
    n = m ∧ rest = rest' := by
  have hn := Text.takeWhile_append_stop (fun c hc => isNumeral_of_mem (n := n) hc) hends
  have hm := Text.takeWhile_append_stop (fun c hc => isNumeral_of_mem (n := m) hc) hends'
  rw [h, hm] at hn
  obtain rfl := intDigits_injective hn
  exact ⟨rfl, List.append_cancel_left h⟩

/-! ## Values -/

/-- No number in the value is a decimal, and all texts are texts. -/
inductive Plain : Json → Prop
  | null : Plain .null
  | bool (b : Bool) : Plain (.bool b)
  | int (n : Int) : Plain (.int n)
  | text (s : String) : Plain (.text s)
  | list {items : List Json} (h : ∀ j ∈ items, Plain j) : Plain (.list items)
  | object {fields : List (String × Json)} (h : ∀ f ∈ fields, Plain f.2) : Plain (.object fields)

/-- The kind of value that starts with a character. -/
def kindOf (c : Char) : String :=
  if c = 'n' then "NoneType"
  else if c = 't' ∨ c = 'f' then "bool"
  else if c = '"' then "str"
  else if c = '[' then "list"
  else if c = '\x7b' then "dict"
  else "int"

theorem kindOf_of_isNumeral {c : Char} (h : isNumeral c = true) : kindOf c = "int" := by
  have hall : ('-' :: Text.tenDigits).all fun c => kindOf c == "int" := by decide
  rw [isNumeral, Bool.or_eq_true, beq_iff_eq, List.contains_iff_mem] at h
  exact beq_iff_eq.mp (List.all_eq_true.mp hall c (List.mem_cons.mpr h))

theorem Plain.exists_head {j : Json} (h : j.Plain) (depth : Nat) :
    ∃ c tail, indentedChars depth j = c :: tail ∧ kindOf c = j.kind := by
  cases h with
  | null => exact ⟨_, _, rfl, rfl⟩
  | bool b =>
      cases b with
      | false => exact ⟨_, _, rfl, rfl⟩
      | true => exact ⟨_, _, rfl, rfl⟩
  | int n =>
      obtain ⟨c, tail, htail⟩ := List.exists_cons_of_ne_nil (Text.intDigits_ne_nil n)
      exact ⟨c, tail, htail,
        kindOf_of_isNumeral (isNumeral_of_mem (n := n) (htail ▸ List.mem_cons_self))⟩
  | text s => exact ⟨_, _, rfl, rfl⟩
  | @list items h =>
      cases items with
      | nil => exact ⟨_, _, rfl, rfl⟩
      | cons item items => exact ⟨_, _, rfl, rfl⟩
  | @object fields h =>
      cases fields with
      | nil => exact ⟨_, _, rfl, rfl⟩
      | cons field fields => exact ⟨_, _, rfl, rfl⟩

/-- Values that are written alike are of one kind. -/
theorem Plain.kind_eq {a b : Json} (ha : a.Plain) (hb : b.Plain) {depth : Nat}
    {rest rest' : List Char}
    (h : indentedChars depth a ++ rest = indentedChars depth b ++ rest') : a.kind = b.kind := by
  obtain ⟨c, tail, htail, hc⟩ := ha.exists_head depth
  obtain ⟨c', tail', htail', hc'⟩ := hb.exists_head depth
  rw [htail, htail'] at h
  rw [← hc, ← hc', (List.cons.inj h).1]

/-- At this depth the value can be told from what is written of it, whatever comes after it. -/
def Told (depth : Nat) (a : Json) : Prop :=
  ∀ {b : Json} {rest rest' : List Char}, b.Plain → Ends rest → Ends rest' →
    indentedChars depth a ++ rest = indentedChars depth b ++ rest' → a = b ∧ rest = rest'

theorem ends_indentedItems (depth : Nat) (items : List Json) (rest : List Char) :
    Ends (indentedItems depth items ++ rest) := by
  cases items with
  | nil => exact ends_cons (by decide) _
  | cons item items => exact ends_cons (by decide) _

theorem ends_indentedFields (depth : Nat) (fields : List (String × Json)) (rest : List Char) :
    Ends (indentedFields depth fields ++ rest) := by
  cases fields with
  | nil => exact ends_cons (by decide) _
  | cons field fields => exact ends_cons (by decide) _

theorem indentedItems_append_inj {depth : Nat} {xs ys : List Json} {rest rest' : List Char}
    (hxs : ∀ x ∈ xs, Told (depth + 1) x) (hys : ∀ y ∈ ys, y.Plain)
    (h : indentedItems depth xs ++ rest = indentedItems depth ys ++ rest') :
    xs = ys ∧ rest = rest' := by
  induction xs generalizing ys with
  | nil =>
      cases ys with
      | nil => exact ⟨rfl, List.append_cancel_left h⟩
      | cons y ys => exact absurd (List.cons.inj h).1 (by decide)
  | cons x xs ih =>
      cases ys with
      | nil => exact absurd (List.cons.inj h).1 (by decide)
      | cons y ys =>
          simp only [indentedItems, List.cons_append, List.append_assoc, List.cons.injEq, true_and,
            List.append_cancel_left_eq] at h
          obtain ⟨rfl, hitems⟩ := hxs x List.mem_cons_self (hys y List.mem_cons_self)
            (ends_indentedItems depth xs rest) (ends_indentedItems depth ys rest') h
          obtain ⟨rfl, hrest⟩ := ih (fun x hx => hxs x (List.mem_cons_of_mem _ hx))
            (fun y hy => hys y (List.mem_cons_of_mem _ hy)) hitems
          exact ⟨rfl, hrest⟩

theorem indentedFields_append_inj {depth : Nat} {xs ys : List (String × Json)}
    {rest rest' : List Char} (hxs : ∀ x ∈ xs, Told (depth + 1) x.2) (hys : ∀ y ∈ ys, y.2.Plain)
    (h : indentedFields depth xs ++ rest = indentedFields depth ys ++ rest') :
    xs = ys ∧ rest = rest' := by
  induction xs generalizing ys with
  | nil =>
      cases ys with
      | nil => exact ⟨rfl, List.append_cancel_left h⟩
      | cons y ys => exact absurd (List.cons.inj h).1 (by decide)
  | cons x xs ih =>
      cases ys with
      | nil => exact absurd (List.cons.inj h).1 (by decide)
      | cons y ys =>
          obtain ⟨key, value⟩ := x
          obtain ⟨key', value'⟩ := y
          simp only [indentedFields, indentedField, List.cons_append, List.append_assoc,
            List.cons.injEq, true_and, List.append_cancel_left_eq] at h
          obtain ⟨rfl, hvalue⟩ := string_append_inj h
          obtain ⟨rfl, hfields⟩ := hxs _ List.mem_cons_self (hys _ List.mem_cons_self)
            (ends_indentedFields depth xs rest) (ends_indentedFields depth ys rest')
            (List.cons.inj (List.cons.inj hvalue).2).2
          obtain ⟨rfl, hrest⟩ := ih (fun x hx => hxs x (List.mem_cons_of_mem _ hx))
            (fun y hy => hys y (List.mem_cons_of_mem _ hy)) hfields
          exact ⟨rfl, hrest⟩

/-- What follows the opening bracket of a list. -/
theorem list_append_inj {depth : Nat} {xs ys : List Json} {rest rest' : List Char}
    (hxs : ∀ x ∈ xs, Told (depth + 1) x) (hys : ∀ y ∈ ys, y.Plain)
    (h : indentedChars depth (.list xs) ++ rest = indentedChars depth (.list ys) ++ rest') :
    xs = ys ∧ rest = rest' := by
  cases xs with
  | nil =>
      cases ys with
      | nil => exact ⟨rfl, List.append_cancel_left h⟩
      | cons y ys => exact absurd (List.cons.inj (List.cons.inj h).2).1 (by decide)
  | cons x xs =>
      cases ys with
      | nil => exact absurd (List.cons.inj (List.cons.inj h).2).1 (by decide)
      | cons y ys =>
          -- With a comma for the bracket, both are what comes after the first item of a list.
          refine indentedItems_append_inj hxs hys ?_
          simpa only [indentedChars, indentedItems, List.cons_append, List.cons.injEq,
            true_and] using h

theorem object_append_inj {depth : Nat} {xs ys : List (String × Json)} {rest rest' : List Char}
    (hxs : ∀ x ∈ xs, Told (depth + 1) x.2) (hys : ∀ y ∈ ys, y.2.Plain)
    (h : indentedChars depth (.object xs) ++ rest = indentedChars depth (.object ys) ++ rest') :
    xs = ys ∧ rest = rest' := by
  cases xs with
  | nil =>
      cases ys with
      | nil => exact ⟨rfl, List.append_cancel_left h⟩
      | cons y ys => exact absurd (List.cons.inj (List.cons.inj h).2).1 (by decide)
  | cons x xs =>
      cases ys with
      | nil => exact absurd (List.cons.inj (List.cons.inj h).2).1 (by decide)
      | cons y ys =>
          refine indentedFields_append_inj hxs hys ?_
          simpa only [indentedChars, indentedFields, List.cons_append, List.cons.injEq,
            true_and] using h

theorem bool_append_inj {x y : Bool} {rest rest' : List Char}
    (h : scalar (.bool x) ++ rest = scalar (.bool y) ++ rest') : x = y ∧ rest = rest' := by
  cases x with
  | false =>
      cases y with
      | false => exact ⟨rfl, List.append_cancel_left h⟩
      | true => exact absurd (List.cons.inj h).1 (by decide)
  | true =>
      cases y with
      | false => exact absurd (List.cons.inj h).1 (by decide)
      | true => exact ⟨rfl, List.append_cancel_left h⟩

theorem Plain.told {a : Json} (ha : a.Plain) (depth : Nat) : Told depth a := by
  induction ha generalizing depth with
  | null =>
      intro b rest rest' hb _ _ h
      have hkind := Plain.null.kind_eq hb h
      cases hb with
      | null => exact ⟨rfl, List.append_cancel_left h⟩
      | _ => exact absurd hkind (by simp [kind])
  | bool x =>
      intro b rest rest' hb _ _ h
      have hkind := (Plain.bool x).kind_eq hb h
      cases hb with
      | bool y =>
          obtain ⟨rfl, hrest⟩ := bool_append_inj h
          exact ⟨rfl, hrest⟩
      | _ => exact absurd hkind (by simp [kind])
  | int n =>
      intro b rest rest' hb hends hends' h
      have hkind := (Plain.int n).kind_eq hb h
      cases hb with
      | int m =>
          obtain ⟨rfl, hrest⟩ := intDigits_append_inj hends hends' h
          exact ⟨rfl, hrest⟩
      | _ => exact absurd hkind (by simp [kind])
  | text s =>
      intro b rest rest' hb _ _ h
      have hkind := (Plain.text s).kind_eq hb h
      cases hb with
      | text t =>
          obtain ⟨rfl, hrest⟩ := string_append_inj h
          exact ⟨rfl, hrest⟩
      | _ => exact absurd hkind (by simp [kind])
  | @list xs hxs ih =>
      intro b rest rest' hb _ _ h
      have hkind := (Plain.list hxs).kind_eq hb h
      cases hb with
      | list hys =>
          obtain ⟨rfl, hrest⟩ := list_append_inj (fun x hx => ih x hx (depth + 1)) hys h
          exact ⟨rfl, hrest⟩
      | _ => exact absurd hkind (by simp [kind])
  | @object xs hxs ih =>
      intro b rest rest' hb _ _ h
      have hkind := (Plain.object hxs).kind_eq hb h
      cases hb with
      | object hys =>
          obtain ⟨rfl, hrest⟩ := object_append_inj (fun x hx => ih x hx (depth + 1)) hys h
          exact ⟨rfl, hrest⟩
      | _ => exact absurd hkind (by simp [kind])

/-- A value without decimals can be told from what is written of it. -/
theorem Plain.eq_of_indented_eq {a b : Json} (ha : a.Plain) (hb : b.Plain)
    (h : a.indented = b.indented) : a = b := by
  have hends : Ends [] := nofun
  have hchars : indentedChars 0 a ++ [] = indentedChars 0 b ++ [] :=
    congrArg (· ++ []) (String.ofList_injective h)
  exact (ha.told 0 hb hends hends hchars).1

/-! ## One line or several -/

/-- An object on one line is no value with one item a line: that has a break after its brace. -/
theorem line_ne_indented {j : Json} (hj : j.Plain) (field : String × Json)
    (fields : List (String × Json)) : (object (field :: fields)).line ≠ j.indented := by
  intro h
  obtain ⟨key, value⟩ := field
  have hchars : lineChars (object ((key, value) :: fields)) = indentedChars 0 j :=
    String.ofList_injective h
  obtain ⟨c, tail, htail, hkind⟩ := hj.exists_head 0
  have hbrace : '\x7b' = c := (List.cons.inj (hchars.trans htail)).1
  have hdict : j.kind = "dict" := by
    rw [← hkind, ← hbrace]
    rfl
  cases hj with
  | @object others _ =>
      cases others with
      | nil => exact absurd (List.cons.inj (List.cons.inj hchars).2).1 (by decide)
      | cons other others => exact absurd (List.cons.inj (List.cons.inj hchars).2).1 (by decide)
  | _ => exact absurd hdict (by simp [kind])

/-- The text in an object of one field. -/
theorem text_of_line_eq {key s t : String}
    (h : (object [(key, .text s)]).line = (object [(key, .text t)]).line) : s = t := by
  have hchars : lineChars (object [(key, .text s)]) = lineChars (object [(key, .text t)]) :=
    String.ofList_injective h
  simp only [lineChars, lineField, lineFields, List.append_assoc, List.cons.injEq, true_and,
    List.append_cancel_left_eq, List.cons_append] at hchars
  exact (string_append_inj hchars).1

end Roadmap.Json
