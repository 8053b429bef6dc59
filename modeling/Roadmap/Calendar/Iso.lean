import Roadmap.Calendar.Civil
import Roadmap.Text.Integer

/-!
# Days as text

A day is written as `YYYY-MM-DD`, four, two and two digits with hyphens between them. It is read
with blanks around it and with digits of any script, and only if such a day exists.
-/

namespace Roadmap.Date

/-- The day as `YYYY-MM-DD`. -/
def isoChars (d : Date) : List Char :=
  let c := d.civil
  Text.fixedDigits 4 c.year ++ '-' :: Text.fixedDigits 2 c.month ++ '-' :: Text.fixedDigits 2 c.day

def iso (d : Date) : String := String.ofList d.isoChars

/-- The day that a text names. -/
def ofIso? (s : List Char) : Option Date :=
  match Text.strip s with
  | [y₁, y₂, y₃, y₄, '-', m₁, m₂, '-', d₁, d₂] =>
    let year := [y₁, y₂, y₃, y₄]
    let month := [m₁, m₂]
    let day := [d₁, d₂]
    if (year ++ month ++ day).all Text.isDigit then
      ofCivil? ⟨Text.digitsValue year, Text.digitsValue month, Text.digitsValue day⟩
    else none
  | _ => none

end Roadmap.Date
