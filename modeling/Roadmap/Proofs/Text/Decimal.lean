import Mathlib
import Roadmap.Text.Integer

/-!
# Written integers are read back

Writing uses ten of the many digits that reading knows. So what is to be shown of written digits is
shown of `tenDigits` by going through them, and holds of each digit of a number as
`mem_natDigits` says that these are among the ten.
-/

namespace Roadmap.Text

/-! ## Runs of characters -/

theorem takeWhile_append_stop {α : Type} {p : α → Bool} {s rest : List α} (hs : ∀ c ∈ s, p c)
    (hrest : ∀ c ∈ rest.head?, p c = false) : (s ++ rest).takeWhile p = s := by
  rw [List.takeWhile_append_of_pos hs]
  cases rest with
  | nil => exact List.append_nil s
  | cons c rest =>
      rw [List.takeWhile_cons_of_neg (by simp [hrest c rfl]), List.append_nil]

theorem dropWhile_append_stop {α : Type} {p : α → Bool} {s rest : List α} (hs : ∀ c ∈ s, p c)
    (hrest : ∀ c ∈ rest.head?, p c = false) : (s ++ rest).dropWhile p = rest := by
  rw [List.dropWhile_append_of_pos hs]
  cases rest with
  | nil => rfl
  | cons c rest => exact List.dropWhile_cons_of_neg (by simp [hrest c rfl])

theorem dropWhile_of_head {α : Type} {p : α → Bool} {s : List α}
    (h : ∀ c ∈ s.head?, p c = false) : s.dropWhile p = s :=
  dropWhile_append_stop (s := []) (by simp) h

theorem takeWhile_append_cons {α : Type} {p : α → Bool} {c : α} (hc : p c = false)
    (s rest : List α) : (s ++ c :: rest).takeWhile p = s.takeWhile p := by
  induction s with
  | nil => exact List.takeWhile_cons_of_neg (by simp [hc])
  | cons a s ih =>
      cases ha : p a with
      | true => rw [List.cons_append, List.takeWhile_cons_of_pos ha,
          List.takeWhile_cons_of_pos ha, ih]
      | false => rw [List.cons_append, List.takeWhile_cons_of_neg (by simp [ha]),
          List.takeWhile_cons_of_neg (by simp [ha])]

theorem dropWhile_append_cons {α : Type} {p : α → Bool} {c : α} (hc : p c = false)
    (s rest : List α) : (s ++ c :: rest).dropWhile p = s.dropWhile p ++ c :: rest := by
  induction s with
  | nil => exact List.dropWhile_cons_of_neg (by simp [hc])
  | cons a s ih =>
      cases ha : p a with
      | true => rw [List.cons_append, List.dropWhile_cons_of_pos ha,
          List.dropWhile_cons_of_pos ha, ih]
      | false =>
          rw [List.cons_append, List.dropWhile_cons_of_neg (by simp [ha]),
            List.dropWhile_cons_of_neg (by simp [ha])]
          rfl

theorem dropTrailing_of_last {p : Char → Bool} {s : List Char}
    (h : ∀ c ∈ s.getLast?, p c = false) : dropTrailing p s = s := by
  rw [dropTrailing, dropWhile_of_head (by rwa [List.head?_reverse]), List.reverse_reverse]

theorem dropTrailing_append {p : Char → Bool} {u : List Char} (h : ∀ c ∈ u, p c = true)
    (s : List Char) : dropTrailing p (s ++ u) = dropTrailing p s := by
  rw [dropTrailing, List.reverse_append,
    List.dropWhile_append_of_pos fun c hc => h c (List.mem_reverse.mp hc)]
  rfl

/-! ## Blanks -/

theorem exists_of_inRanges {ranges : List (Nat × Nat)} {n : Nat} (h : inRanges ranges n) :
    ∃ r ∈ ranges, r.1 ≤ n ∧ n ≤ r.2 := by
  induction ranges with
  | nil => cases h
  | cons r ranges ih =>
      rw [inRanges] at h
      split at h
      · cases h
      · next hlow =>
          split at h
          · next hhigh => exact ⟨r, List.mem_cons_self, Nat.not_lt.mp hlow, hhigh⟩
          · obtain ⟨r', hr', hn⟩ := ih h
            exact ⟨r', List.mem_cons_of_mem r hr', hn⟩

/-- There are few blanks, so what is to be shown of them is shown by going through them. -/
theorem of_isBlank {p : Char → Bool}
    (h : ∀ r ∈ blankRanges, ∀ k < r.2 - r.1 + 1, p (Char.ofNat (r.1 + k))) {c : Char}
    (hc : isBlank c) : p c := by
  obtain ⟨r, hr, hlow, hhigh⟩ := exists_of_inRanges hc
  have hk := h r hr (c.toNat - r.1) (by omega)
  rwa [Nat.add_sub_cancel' hlow, Char.ofNat_toNat] at hk

/-! ## Digits -/

/-- The digits that numbers are written with. -/
def tenDigits : List Char := ['0', '1', '2', '3', '4', '5', '6', '7', '8', '9']

theorem digitValue?_lastDigit (n : Nat) : digitValue? (lastDigit n) = some (n % 10) := by
  have hten : ∀ k < 10, digitValue? (Char.ofNat (0x30 + k)) = some k := by decide
  exact hten (n % 10) (Nat.mod_lt n (by decide))

theorem lastDigit_mem (n : Nat) : lastDigit n ∈ tenDigits := by
  have hten : ∀ k < 10, Char.ofNat (0x30 + k) ∈ tenDigits := by decide
  exact hten (n % 10) (Nat.mod_lt n (by decide))

theorem isDigit_of_mem {c : Char} (h : c ∈ tenDigits) : isDigit c :=
  List.all_eq_true.mp (by decide : tenDigits.all isDigit) c h

/-- Integers and days are written with digits and dashes, so they need no quotes. -/
theorem plain_of_mem {c : Char} (h : c = '-' ∨ c ∈ tenDigits) : isBlank c = false ∧ c ≠ '@' := by
  have hall : ('-' :: tenDigits).all fun c => !isBlank c && c != '@' := by decide
  have := List.all_eq_true.mp hall c (List.mem_cons.mpr h)
  rwa [Bool.and_eq_true, Bool.not_eq_true', bne_iff_ne] at this

theorem digitsValue_append (ds : List Char) (n : Nat) :
    digitsValue (ds ++ [lastDigit n]) = 10 * digitsValue ds + n % 10 := by
  rw [digitsValue, List.foldl_append, List.foldl_cons, List.foldl_nil, digitValue?_lastDigit]
  rfl

/-! ## Natural numbers -/

theorem natDigits_of_lt {n : Nat} (h : n < 10) : natDigits n = [lastDigit n] := by
  rw [natDigits, if_pos h]

theorem natDigits_of_ge {n : Nat} (h : 10 ≤ n) :
    natDigits n = natDigits (n / 10) ++ [lastDigit n] := by
  rw [natDigits, if_neg (not_lt.mpr h)]

theorem natDigits_ne_nil (n : Nat) : natDigits n ≠ [] := by
  rw [natDigits]
  split
  · exact List.cons_ne_nil _ _
  · exact List.append_ne_nil_of_right_ne_nil _ (List.cons_ne_nil _ _)

theorem mem_natDigits {n : Nat} {c : Char} (h : c ∈ natDigits n) : c ∈ tenDigits := by
  fun_induction natDigits n with
  | case1 n hlt =>
      rw [List.mem_singleton.mp h]
      exact lastDigit_mem n
  | case2 n hge ih =>
      rcases List.mem_append.mp h with h | h
      · exact ih h
      · rw [List.mem_singleton.mp h]
        exact lastDigit_mem n

theorem digitsValue_natDigits (n : Nat) : digitsValue (natDigits n) = n := by
  fun_induction natDigits n with
  | case1 n hlt =>
      show digitsValue ([] ++ [lastDigit n]) = n
      rw [digitsValue_append, Nat.mod_eq_of_lt hlt]
      exact Nat.zero_add n
  | case2 n hge ih =>
      rw [digitsValue_append, ih]
      exact Nat.div_add_mod n 10

/-- A number has at most `k` digits if it is less than the least one with more. -/
theorem length_natDigits_le_iff {k n : Nat} (hk : 0 < k) :
    (natDigits n).length ≤ k ↔ n < 10 ^ k := by
  induction k, hk using Nat.le_induction generalizing n with
  | base =>
      rcases Nat.lt_or_ge n 10 with h | h
      · simpa [natDigits_of_lt h] using h
      · have hpos := List.length_pos_iff.mpr (natDigits_ne_nil (n / 10))
        simp only [natDigits_of_ge h, List.length_append, List.length_singleton]
        omega
  | succ k hk ih =>
      rcases Nat.lt_or_ge n 10 with h | h
      · have : 10 ^ 1 ≤ 10 ^ (k + 1) := Nat.pow_le_pow_right (by decide) (by omega)
        simp only [natDigits_of_lt h, List.length_singleton]
        omega
      · have hn := ih (n := n / 10)
        rw [Nat.div_lt_iff_lt_mul (by decide), ← Nat.pow_succ] at hn
        rw [natDigits_of_ge h, List.length_append, List.length_singleton, ← hn]
        omega

/-! ## Places of fixed width -/

theorem length_fixedDigits (width n : Nat) : (fixedDigits width n).length = width := by
  induction width generalizing n with
  | zero => rfl
  | succ width ih => rw [fixedDigits, List.length_append, ih, List.length_singleton]

theorem mem_fixedDigits {width n : Nat} {c : Char} (h : c ∈ fixedDigits width n) :
    c ∈ tenDigits := by
  induction width generalizing n with
  | zero => cases h
  | succ width ih =>
      rcases List.mem_append.mp h with h | h
      · exact ih h
      · rw [List.mem_singleton.mp h]
        exact lastDigit_mem n

theorem digitsValue_fixedDigits {width n : Nat} (h : n < 10 ^ width) :
    digitsValue (fixedDigits width n) = n := by
  induction width generalizing n with
  | zero =>
      obtain rfl := Nat.lt_one_iff.mp h
      rfl
  | succ width ih =>
      have hn : n / 10 < 10 ^ width := by
        rwa [Nat.div_lt_iff_lt_mul (by decide), ← Nat.pow_succ]
      rw [fixedDigits, digitsValue_append, ih hn]
      exact Nat.div_add_mod n 10

/-! ## Integers -/

/-- An integer that is not too long to be written or read. -/
def Fits (n : Int) : Prop := (natDigits n.natAbs).length ≤ Fault.maxDigits

instance (n : Int) : Decidable (Fits n) := inferInstanceAs (Decidable (_ ≤ _))

theorem fits_iff {n : Int} : Fits n ↔ n.natAbs < Nat.pow 10 Fault.maxDigits := by
  rw [Fits, length_natDigits_le_iff (by decide), Nat.pow_eq]

theorem fits_of_digit {n : Int} (h : n.natAbs < 10) : Fits n := by
  have hone : (natDigits n.natAbs).length ≤ 1 := (length_natDigits_le_iff Nat.one_pos).mpr h
  exact hone.trans (by decide)

theorem writeInt_of_fits {n : Int} (h : Fits n) : writeInt n = .ok (intDigits n) := by
  rw [writeInt, if_pos (fits_iff.mp h)]

theorem writeInt_eq_ok {n : Int} {ds : List Char} (h : writeInt n = .ok ds) :
    ds = intDigits n ∧ Fits n := by
  rw [writeInt] at h
  split at h
  · next hlt =>
      cases h
      exact ⟨rfl, fits_iff.mpr hlt⟩
  · cases h

theorem intDigits_of_nonneg {n : Int} (h : 0 ≤ n) : intDigits n = natDigits n.natAbs := by
  obtain ⟨k, rfl⟩ := Int.eq_ofNat_of_zero_le h
  rfl

theorem intDigits_of_neg {n : Int} (h : n < 0) : intDigits n = '-' :: natDigits n.natAbs := by
  obtain ⟨k, rfl⟩ := Int.eq_negSucc_of_lt_zero h
  rfl

theorem intDigits_ne_nil (n : Int) : intDigits n ≠ [] := by
  cases n with
  | ofNat n => exact natDigits_ne_nil n
  | negSucc n => exact List.cons_ne_nil _ _

theorem mem_intDigits {n : Int} {c : Char} (h : c ∈ intDigits n) : c = '-' ∨ c ∈ tenDigits := by
  cases n with
  | ofNat n => exact .inr (mem_natDigits h)
  | negSucc n => exact (List.mem_cons.mp h).imp_right mem_natDigits

theorem leadingDigits_of_isDigit {ds : List Char} (h : ∀ c ∈ ds, isDigit c) :
    leadingDigits ds = some (ds, []) := by
  have hlow : '_' ∉ ds := fun hc => absurd (h _ hc) (by decide)
  have hrun : ∀ c ∈ ds, (isDigit c || c == '_') = true := by
    intro c hc
    rw [h c hc, Bool.true_or]
  have hends : ¬ (ds.head? = some '_' || ds.getLast? = some '_') := by
    simp only [Bool.or_eq_true, decide_eq_true_eq]
    rintro (hc | hc)
    · exact hlow (List.mem_of_mem_head? hc)
    · exact hlow (List.mem_of_mem_getLast? hc)
  have hpairs : ¬ (ds.zip ds.tail).contains ('_', '_') := by
    rw [List.contains_iff_mem]
    exact fun hc => hlow (List.of_mem_zip hc).1
  have hkeep : ds.filter (· != '_') = ds := by
    refine List.filter_eq_self.mpr fun c hc => ?_
    exact bne_iff_ne.mpr fun heq => hlow (heq ▸ hc)
  rw [leadingDigits, List.takeWhile_eq_self_iff.mpr hrun, List.dropWhile_eq_nil_iff.mpr hrun]
  simp only [hends, hpairs, hkeep, if_false, Bool.false_eq_true]

/-- What is read as the sign and the digits of an integer makes up its value. -/
theorem sign_intDigits {n : Int} {negative : Bool} {unsigned : List Char}
    (h : (match intDigits n with
      | '-' :: rest => (true, rest)
      | '+' :: rest => (false, rest)
      | rest => (false, rest)) = (negative, unsigned)) :
    unsigned = natDigits n.natAbs ∧ (if negative then -(n.natAbs : Int) else n.natAbs) = n := by
  rcases Int.lt_or_le n 0 with hn | hn
  · rw [intDigits_of_neg hn] at h
    cases h
    exact ⟨rfl, by rw [if_pos rfl]; omega⟩
  · rw [intDigits_of_nonneg hn] at h
    have hmem : ∀ c ∈ natDigits n.natAbs, c ∈ tenDigits := fun c hc => mem_natDigits hc
    split at h
    · next heq => exact absurd (hmem '-' (heq ▸ List.mem_cons_self)) (by decide)
    · next heq => exact absurd (hmem '+' (heq ▸ List.mem_cons_self)) (by decide)
    · cases h
      exact ⟨rfl, by rw [if_neg Bool.false_ne_true]; omega⟩

theorem readInt_intDigits {n : Int} (h : Fits n) : readInt (intDigits n) = .ok n := by
  have hblank : ∀ c ∈ intDigits n, isIntegerBlank c = false := by
    intro c hc
    rw [isIntegerBlank, (plain_of_mem (mem_intDigits hc)).1, Bool.false_and]
  have hbody : dropTrailing isIntegerBlank ((intDigits n).dropWhile isIntegerBlank)
      = intDigits n := by
    rw [dropWhile_of_head fun c hc => hblank c (List.mem_of_mem_head? hc),
      dropTrailing_of_last fun c hc => hblank c (List.mem_of_mem_getLast? hc)]
  have hdigits : leadingDigits (natDigits n.natAbs) = some (natDigits n.natAbs, []) :=
    leadingDigits_of_isDigit fun c hc => isDigit_of_mem (mem_natDigits hc)
  have hshort : ¬ (natDigits n.natAbs).length > Fault.maxDigits := not_lt.mpr h
  have hsome : (natDigits n.natAbs).isEmpty = false := by
    simpa using natDigits_ne_nil n.natAbs
  rw [readInt, hbody]
  split
  next heq =>
    obtain ⟨rfl, hvalue⟩ := sign_intDigits heq
    simp only [hdigits, hshort, hsome, digitsValue_natDigits, if_false, List.isEmpty_nil,
      Bool.not_true, Bool.or_false, Bool.false_eq_true, hvalue]

/-! ## Digits of any script -/

theorem isBlank_of_isDigit {c : Char} (h : isDigit c) : isBlank c = false := by
  have hall : ∀ z ∈ zeros, ∀ k < 10, inRanges blankRanges (z + k) = false := by decide
  rw [isDigit, digitValue?, Option.isSome_map, List.find?_isSome] at h
  obtain ⟨z, hz, hle⟩ := h
  rw [Bool.and_eq_true, decide_eq_true_iff, decide_eq_true_iff] at hle
  have hblank := hall z hz (c.toNat - z) (by omega)
  rwa [Nat.add_sub_cancel' hle.1] at hblank

/-- A row of digits is an integer unless there are too many of them. -/
theorem readInt_of_digits {ds : List Char} (hne : ds ≠ []) (h : ∀ c ∈ ds, isDigit c) :
    readInt ds = if Fault.maxDigits < ds.length then .error (.integerTooLong ds.length)
      else .ok (digitsValue ds) := by
  have hnot : ∀ c : Char, isDigit c = false → c ∉ ds :=
    fun c hc hmem => Bool.false_ne_true (hc.symm.trans (h c hmem))
  have hblank : ∀ c ∈ ds, isIntegerBlank c = false := by
    intro c hc
    rw [isIntegerBlank, isBlank_of_isDigit (h c hc), Bool.false_and]
  have hbody : dropTrailing isIntegerBlank (ds.dropWhile isIntegerBlank) = ds := by
    rw [dropWhile_of_head fun c hc => hblank c (List.mem_of_mem_head? hc),
      dropTrailing_of_last fun c hc => hblank c (List.mem_of_mem_getLast? hc)]
  have hleading := leadingDigits_of_isDigit h
  have hsome : ds.isEmpty = false := by simpa using hne
  rw [readInt, hbody]
  split
  next negative unsigned heq =>
    have hsign : negative = false ∧ unsigned = ds := by
      split at heq
      · exact absurd List.mem_cons_self (hnot '-' rfl)
      · exact absurd List.mem_cons_self (hnot '+' rfl)
      · cases heq
        exact ⟨rfl, rfl⟩
    obtain ⟨rfl, rfl⟩ := hsign
    simp only [hleading, hsome, List.isEmpty_nil, Bool.not_true, Bool.or_false, gt_iff_lt,
      Bool.false_eq_true, if_false]

end Roadmap.Text
