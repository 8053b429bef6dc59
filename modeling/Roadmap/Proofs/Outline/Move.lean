import Roadmap.Proofs.Outline.Blocks

/-!
# Moving a line

A line that is moved is taken out and put in again, so all there is to say is at which index it lands
(`moveLine_eq`). The target has its number from before the line was taken out. For a move down that
is one too many, and a target beyond an end stands for that end (`landing`).

Where the other lines come to stand follows from the two indices alone: those in between move by one
place into the gap (`shifted`). The same two indices the other way round undo this
(`shifted_shifted`), so the places are permuted, and the move back restores the text.
-/

namespace Roadmap.Outline

/-! ## Places -/

/-- The index of the line at `j` after the one at `i` has been moved to `p`. -/
def shifted (i p j : Nat) : Nat :=
  if j = i then p
  else if i < j then (if j ≤ p then j - 1 else j)
  else (if p ≤ j then j + 1 else j)

theorem shifted_self (i p : Nat) : shifted i p i = p := if_pos rfl

/-- Lines behind the moved one close the gap, as far as it goes. -/
theorem shifted_of_lt {i p j : Nat} (h : i < j) : shifted i p j = if j ≤ p then j - 1 else j := by
  rw [shifted, if_neg (Nat.ne_of_gt h), if_pos h]

/-- Lines before the moved one make room for it. -/
theorem shifted_of_gt {i p j : Nat} (h : j < i) : shifted i p j = if p ≤ j then j + 1 else j := by
  rw [shifted, if_neg (Nat.ne_of_lt h), if_neg (Nat.not_lt_of_lt h)]

theorem shifted_lt {i p j n : Nat} (hi : i < n) (hp : p < n) (hj : j < n) : shifted i p j < n := by
  rcases Nat.lt_trichotomy i j with h | rfl | h
  · rw [shifted_of_lt h]
    split <;> omega
  · rwa [shifted_self]
  · rw [shifted_of_gt h]
    split <;> omega

/-- Moving back takes all lines back. -/
theorem shifted_shifted (i p j : Nat) : shifted p i (shifted i p j) = j := by
  rcases Nat.lt_trichotomy i j with h | rfl | h
  · rw [shifted_of_lt h]
    split
    · rw [shifted_of_gt (by omega), if_pos (by omega)]
      omega
    · rw [shifted_of_lt (by omega), if_neg (by omega)]
  · rw [shifted_self, shifted_self]
  · rw [shifted_of_gt h]
    split
    · rw [shifted_of_lt (by omega), if_pos (by omega), Nat.add_sub_cancel]
    · rw [shifted_of_gt (by omega), if_neg (by omega)]

theorem shifted_lt_shifted {i p j k : Nat} (hj : j ≠ i) (hk : k ≠ i) (h : j < k) :
    shifted i p j < shifted i p k := by
  rcases Nat.lt_or_gt_of_ne hj with hji | hij
  · rw [shifted_of_gt hji]
    rcases Nat.lt_or_gt_of_ne hk with hki | hik
    · rw [shifted_of_gt hki]
      split <;> split <;> omega
    · rw [shifted_of_lt hik]
      split <;> split <;> omega
  · rw [shifted_of_lt hij, shifted_of_lt (hij.trans h)]
    split <;> split <;> omega

/-- Where each of `n` lines goes when the one at `i` is moved to `p`. -/
def relocate {n : Nat} (i p : Fin n) : Equiv.Perm (Fin n) where
  toFun j := ⟨shifted i p j, shifted_lt i.isLt p.isLt j.isLt⟩
  invFun j := ⟨shifted p i j, shifted_lt p.isLt i.isLt j.isLt⟩
  left_inv j := Fin.ext (shifted_shifted i p j)
  right_inv j := Fin.ext (shifted_shifted p i j)

/-- The new lines are the old ones, each at its place, and only the one that was at `i` is out of
order. -/
structure Relocates (old new : List Text.Line) (i : Fin old.length)
    (place : Equiv.Perm (Fin old.length)) : Prop where
  length : new.length = old.length
  line : ∀ j, new[(place j : Nat)]? = some old[j]
  order : StrictMonoOn place {i}ᶜ

/-- So the new lines are a permutation of the old ones. -/
theorem Relocates.perm {old new : List Text.Line} {i : Fin old.length}
    {place : Equiv.Perm (Fin old.length)} (h : Relocates old new i place) : new.Perm old := by
  have hnew : new = List.ofFn (old.get ∘ place.symm) := by
    refine List.ext_getElem (by rw [h.length, List.length_ofFn]) fun k hk _ => ?_
    obtain ⟨j, hj⟩ := place.surjective ⟨k, h.length ▸ hk⟩
    have hline := h.line j
    rw [hj, List.getElem?_eq_getElem hk, Option.some_inj] at hline
    rw [hline, List.getElem_ofFn, Function.comp_apply, ← hj, Equiv.symm_apply_apply]
    rfl
  have hperm := Equiv.Perm.ofFn_comp_perm place.symm old.get
  rwa [← hnew, List.ofFn_get] at hperm

theorem getElem?_shifted {lines : List Text.Line} {i p j : Nat} (hi : i < lines.length)
    (hp : p < lines.length) (hj : j < lines.length) :
    ((lines.eraseIdx i).insertIdx p lines[i])[shifted i p j]? = some lines[j] := by
  have hlength := List.length_eraseIdx_of_lt hi
  have hline : ∀ {k : Nat}, (hk : k < lines.length) → lines[k]? = some lines[k] :=
    fun hk => List.getElem?_eq_getElem hk
  rcases Nat.lt_trichotomy i j with h | rfl | h
  · rw [shifted_of_lt h]
    split
    · rw [List.getElem?_insertIdx_of_lt (by omega), List.getElem?_eraseIdx_of_ge (by omega),
        Nat.sub_add_cancel (by omega), hline hj]
    · rw [List.getElem?_insertIdx_of_gt (by omega), List.getElem?_eraseIdx_of_ge (by omega),
        Nat.sub_add_cancel (by omega), hline hj]
  · rw [shifted_self, List.getElem?_insertIdx_self, if_pos (by omega)]
  · rw [shifted_of_gt h]
    split
    · rw [List.getElem?_insertIdx_of_gt (by omega), Nat.add_sub_cancel,
        List.getElem?_eraseIdx_of_lt h, hline hj]
    · rw [List.getElem?_insertIdx_of_lt (by omega), List.getElem?_eraseIdx_of_lt h, hline hj]

theorem relocates (lines : List Text.Line) (i p : Fin lines.length) :
    Relocates lines ((lines.eraseIdx i).insertIdx p lines[i]) i (relocate i p) := by
  refine ⟨?_, fun j => getElem?_shifted i.isLt p.isLt j.isLt, fun j hj k hk h => ?_⟩
  · have hlength := List.length_eraseIdx_of_lt i.isLt
    have hi := i.isLt
    have hp := p.isLt
    rw [List.length_insertIdx_of_le_length (by omega), hlength]
    omega
  · exact shifted_lt_shifted (fun heq => hj (Fin.ext heq)) (fun heq => hk (Fin.ext heq)) h

/-! ## Where a line lands -/

/-- The index at which the line at `source` lands, one of `size` lines, if it is moved to
`target`. -/
def landing (size source : Nat) (target : Int) : Nat :=
  (max 0 (min (if source < target - 1 then target - 1 - 1 else target - 1) (size - 1 : Nat))).toNat

section

variable {size source : Nat} {target : Int}

theorem landing_lt (h : source < size) : landing size source target < size := by
  unfold landing
  omega

theorem landing_front (h : target < 1) : landing size source target = 0 := by
  unfold landing
  rw [if_neg (by omega)]
  omega

theorem landing_end (hsource : source < size) (h : size < target) :
    landing size source target = size - 1 := by
  unfold landing
  split <;> omega

theorem landing_up {k : Nat} (hsource : source < size) (h : k ≤ source) :
    landing size source (k + 1) = k := by
  unfold landing
  rw [if_neg (by omega)]
  omega

/-- The line is gone when the target is looked for, so its index is one less. -/
theorem landing_down {k : Nat} (h : source < k) (hk : k ≤ size) :
    landing size source (k + 1) = k - 1 := by
  unfold landing
  rw [if_pos (by omega)]
  omega

/-- The target comes to stand behind the line: moving up, the line has pushed it down by one. -/
theorem landing_before {k : Nat} (hsource : source < size) (hk : k < size) (hne : k ≠ source) :
    shifted source (landing size source (k + 1)) k = landing size source (k + 1) + 1 := by
  rcases Nat.lt_or_gt_of_ne hne with h | h
  · rw [landing_up hsource (Nat.le_of_lt h), shifted_of_gt h, if_pos (Nat.le_refl k)]
  · rw [landing_down h (Nat.le_of_lt hk), shifted_of_lt h, if_neg (by omega)]
    omega

end

/-- A move takes the line out and puts it in again where it lands. -/
theorem moveLine_eq {lines : List Text.Line} {i : Nat} (hi : i < lines.length) (target : Int) :
    moveLine lines (i + 1) target
      = (lines.eraseIdx i).insertIdx (landing lines.length i target) lines[i] := by
  have hindex : lineIndex? lines (i + 1) = some i := lineIndex?_eq_some.mpr ⟨hi, rfl⟩
  have hcut : (lines.drop i).take 1 = [lines[i]] := by
    rw [List.drop_eq_getElem_cons hi]
    rfl
  have hlength := List.length_eraseIdx_of_lt hi
  have hland : landing lines.length i target < lines.length := landing_lt hi
  rw [moveLine, hindex]
  simp only [hcut]
  rw [insertIdx_of_le (by omega), paste, hlength, List.length_singleton, Nat.cast_one]
  simp only [List.append_assoc, List.singleton_append]
  rfl

/-- Moving the line from where it is now to where it was restores the lines. -/
theorem moveLine_back {lines : List Text.Line} {i p : Nat} (hi : i < lines.length)
    (hp : p < lines.length) {target : Int} (htarget : landing lines.length p target = i) :
    moveLine ((lines.eraseIdx i).insertIdx p lines[i]) (p + 1) target = lines := by
  have hlength : ((lines.eraseIdx i).insertIdx p lines[i]).length = lines.length :=
    (relocates lines ⟨i, hi⟩ ⟨p, hp⟩).length
  rw [← hlength] at hp htarget
  rw [moveLine_eq hp, htarget, List.eraseIdx_insertIdx_self, List.getElem_insertIdx_self,
    List.insertIdx_eraseIdx_getElem]

/-! ## Texts -/

theorem linesOf_apply {e : Edit} {text : String} {lines : List Text.Line} (hne : lines ≠ [])
    (hlines : ∀ l ∈ lines, '\n' ∉ l) (he : e.onLines (Text.linesOf text.toList) = lines) :
    Text.linesOf (e.apply text).toList = lines := by
  rw [Edit.apply, he, String.toList_ofList, Text.linesOf_unlines hne hlines]

theorem apply_eq_of_onLines {e : Edit} {text text' : String}
    (he : e.onLines (Text.linesOf text.toList) = Text.linesOf text'.toList) :
    e.apply text = text' := by
  rw [Edit.apply, he, Text.unlines_linesOf, String.ofList_toList]

section

variable {text : String} {i p : Fin (Text.linesOf text.toList).length} {target : Int}

theorem linesOf_move (hp : landing (Text.linesOf text.toList).length i target = p) :
    Text.linesOf ((Edit.move ((i : Nat) + 1) target).apply text).toList
      = ((Text.linesOf text.toList).eraseIdx i).insertIdx p (Text.linesOf text.toList)[i] := by
  -- nothing but the order has changed, so the new lines are free of line feeds as well
  have hperm := (relocates (Text.linesOf text.toList) i p).perm
  refine linesOf_apply (fun hnil => ?_) (fun l hl => ?_) (hp ▸ moveLine_eq i.isLt target)
  · rw [hnil, List.nil_perm] at hperm
    exact Text.linesOf_ne_nil text.toList hperm
  · exact (of_mem_linesOf (hperm.subset hl)).1

theorem move_move (hp : landing (Text.linesOf text.toList).length i target = p) {back : Int}
    (hback : landing (Text.linesOf text.toList).length p back = i) :
    (Edit.move ((p : Nat) + 1) back).apply ((Edit.move ((i : Nat) + 1) target).apply text)
      = text := by
  refine apply_eq_of_onLines ?_
  rw [linesOf_move hp]
  exact moveLine_back i.isLt p.isLt hback

end

/-- A line of a text is moved to any target, one of the numbers of its lines or not. The lines come
out permuted, and the others keep their order. The line comes directly before the one that had the
target as its number, or else at the end that the target is beyond. Moving it from there to its old
number, or after a move up to the number behind that, restores the text. -/
theorem places_of_move (text : String) (i : Fin (Text.linesOf text.toList).length)
    (target : Int) :
    ∃ place : Equiv.Perm (Fin (Text.linesOf text.toList).length),
      Relocates (Text.linesOf text.toList)
          (Text.linesOf ((Edit.move ((i : Nat) + 1) target).apply text).toList) i place
        ∧ (∀ k, k ≠ i → target = (k : Nat) + 1 → (place k : Nat) = place i + 1)
        ∧ ((Text.linesOf text.toList).length < target →
          place i + 1 = (Text.linesOf text.toList).length)
        ∧ (target < 1 → (place i : Nat) = 0)
        ∧ (i < place i →
          (Edit.move ((place i : Nat) + 1) ((i : Nat) + 1)).apply
            ((Edit.move ((i : Nat) + 1) target).apply text) = text)
        ∧ (place i < i →
          (Edit.move ((place i : Nat) + 1) ((i : Nat) + 2)).apply
            ((Edit.move ((i : Nat) + 1) target).apply text) = text) := by
  obtain ⟨p, hp⟩ : ∃ p : Fin (Text.linesOf text.toList).length,
      landing (Text.linesOf text.toList).length i target = p := ⟨⟨_, landing_lt i.isLt⟩, rfl⟩
  have hplace : relocate i p i = p := Fin.ext (shifted_self i p)
  have hrelocates := relocates (Text.linesOf text.toList) i p
  rw [← linesOf_move hp] at hrelocates
  refine ⟨relocate i p, hrelocates, ?_⟩
  rw [hplace]
  refine ⟨?_, ?_, ?_, ?_, ?_⟩
  · rintro k hne rfl
    have hbefore := landing_before i.isLt k.isLt fun heq => hne (Fin.ext heq)
    rw [hp] at hbefore
    exact hbefore
  · intro h
    rw [← hp, landing_end i.isLt h]
    exact Nat.sub_add_cancel (Nat.one_le_of_lt i.isLt)
  · intro h
    rw [← hp, landing_front h]
  · intro h
    exact move_move hp (landing_up p.isLt (Nat.le_of_lt h))
  · intro h
    exact move_move hp (landing_down (Nat.lt_succ_of_lt h) i.isLt)

example : (Edit.move 4 2).apply "a\nb\nb\nc" = "a\nc\nb\nb"
    ∧ (Edit.move 2 5).apply "a\nc\nb\nb" = "a\nb\nb\nc" := by decide

end Roadmap.Outline
