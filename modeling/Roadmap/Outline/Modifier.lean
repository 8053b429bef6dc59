import Roadmap.Calendar.Iso
import Roadmap.Outline.Task
import Roadmap.Text.Word

/-!
# Modifiers

What follows the duration on a task line: `@key`, `@key:value` or `@key:"quoted value"`. The text
is first cut into tokens, and a token becomes one of six modifiers or is dropped, so a task never
holds a modifier that nothing understands. Modifiers are then applied from left to right, which
lets a later one win over an earlier one of the same kind; dependencies add up.
-/

namespace Roadmap.Outline

inductive Modifier where
  | after (position : Int)
  | milestone
  | status (s : Status)
  | color (c : String)
  | start (d : Date)
  | note (n : String)
deriving DecidableEq

/-- A key with its value as written. -/
structure Token where
  key : List Char
  value : Option (List Char)
deriving DecidableEq, Repr

/-! ## Tokens -/

/-- A value without quotes ends before a blank or the next `@`. -/
def isBareValue (c : Char) : Bool := !Text.isBlank c && c != '@'

/-- A value up to a blank or the next `@`, and what follows it. -/
def bareValue? (s : List Char) : Option (List Char × List Char) :=
  match s.takeWhile isBareValue with
  | [] => none
  | v => some (v, s.dropWhile isBareValue)

/-- What stands between two quotes, if that is anything, and what follows. -/
def quotedValue? : List Char → Option (List Char × List Char)
  | '"' :: s =>
    match s.takeWhile (· != '"'), s.dropWhile (· != '"') with
    | v@(_ :: _), '"' :: rest => some (v, rest)
    | _, _ => none
  | _ => none

/-- The value after a colon, and what follows it. A quote that does not close, or closes at once,
is part of a bare value. -/
def readValue? (s : List Char) : Option (List Char × List Char) :=
  (quotedValue? s).or (bareValue? s)

/-- The token after an `@`, and what follows it. A colon without a value is no part of it. -/
def readToken? (s : List Char) : Option (Token × List Char) :=
  match s.takeWhile Text.isWord with
  | [] => none
  | key =>
    match s.dropWhile Text.isWord with
    | ':' :: rest =>
      match readValue? rest with
      | some (value, rest) => some (⟨key, some value⟩, rest)
      | none => some (⟨key, none⟩, ':' :: rest)
    | rest => some (⟨key, none⟩, rest)

theorem length_bareValue?_le {s v rest : List Char} (h : bareValue? s = some (v, rest)) :
    rest.length ≤ s.length := by
  unfold bareValue? at h
  split at h
  · cases h
  · cases h
    exact Text.length_dropWhile_le _ _

theorem length_quotedValue?_le {s v rest : List Char} (h : quotedValue? s = some (v, rest)) :
    rest.length ≤ s.length := by
  unfold quotedValue? at h
  split at h
  · next s =>
    have drop := Text.length_dropWhile_le (· != '"') s
    split at h
    · next heq =>
      rw [heq] at drop
      cases h
      simp only [List.length_cons] at drop ⊢
      omega
    · cases h
  · cases h

theorem length_readValue?_le {s v rest : List Char} (h : readValue? s = some (v, rest)) :
    rest.length ≤ s.length := by
  rcases Option.or_eq_some_iff.1 h with h | ⟨_, h⟩
  · exact length_quotedValue?_le h
  · exact length_bareValue?_le h

theorem length_readToken?_le {s rest : List Char} {t : Token}
    (h : readToken? s = some (t, rest)) : rest.length ≤ s.length := by
  unfold readToken? at h
  have drop := Text.length_dropWhile_le Text.isWord s
  split at h
  · cases h
  · split at h
    · next heq =>
      rw [heq] at drop
      split at h
      · next hv =>
        cases h
        have := length_readValue?_le hv
        simp only [List.length_cons] at drop
        omega
      · cases h
        exact drop
    · cases h
      exact drop

/-- The tokens of a text, from left to right. An `@` that no word follows is passed over. -/
def tokens : List Char → List Token
  | [] => []
  | c :: rest =>
    if c = '@' then
      match _h : readToken? rest with
      | some (t, after) => t :: tokens after
      | none => tokens rest
    else tokens rest
termination_by s => s.length
decreasing_by
  · have := length_readToken?_le _h
    simp only [List.length_cons]
    omega
  · simp
  · simp

/-! ## From tokens to modifiers -/

/-- A color with exactly one `#` in front. -/
def normalizeColor (c : List Char) : String := String.ofList ('#' :: c.dropWhile (· == '#'))

namespace Modifier

/-- The modifier that a token stands for; a token without a meaning has none. -/
def ofToken? (t : Token) : Option Modifier :=
  match String.ofList t.key with
  | "after" =>
    match t.value.map Text.readInt with
    | some (.ok n) => some (after n)
    | _ => none
  | "milestone" => some milestone
  | "done" => some (status .done)
  | "progress" => some (status .inProgress)
  | "cancelled" => some (status .cancelled)
  | "color" => t.value.map fun v => color (normalizeColor v)
  | "start" => (t.value.bind Date.ofIso?).map start
  | "note" => t.value.map fun v => note (String.ofList v)
  | _ => none

/-- The modifiers of a text, in order. -/
def scan (s : List Char) : List Modifier := (tokens s).filterMap ofToken?

end Modifier

/-- Sets on a task what a modifier says. Being done is also a flag of its own, which no other
status takes back. -/
def Task.apply (t : Task) : Modifier → Task
  | .after n => { t with dependencies := t.dependencies ++ [n] }
  | .milestone => { t with isMilestone := true }
  | .status s => { t with status := s, isDone := t.isDone || s == .done }
  | .color c => { t with color := some c }
  | .start d => { t with explicitStart := some d }
  | .note n => { t with note := some n }

def Task.applyAll (t : Task) (ms : List Modifier) : Task := ms.foldl Task.apply t

end Roadmap.Outline
