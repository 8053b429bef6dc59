/-!
# Text from bytes

UTF-8 read leniently: what is no character becomes the replacement character U+FFFD, one for each
longest piece that could have been the start of a character.
-/

namespace Roadmap.Text

/-- The bytes of a character. -/
def utf8 (c : Char) : List UInt8 := (String.ofList [c]).toUTF8.data.toList

def replacement : Char := Char.ofNat 0xFFFD

/-- A character of which some bytes have been read: how many are missing, between what bounds the
next one lies, and the value so far. -/
structure OpenChar where
  missing : Nat
  low : Nat
  high : Nat
  value : Nat
deriving DecidableEq, Repr

/-- What a byte above ASCII opens. The bounds of the second byte keep out longer spellings than
needed, halves of pairs, and values beyond the last character. -/
def OpenChar.ofLead? (b : Nat) : Option OpenChar :=
  if b < 0xC2 then none
  else if b < 0xE0 then some ⟨1, 0x80, 0xBF, b - 0xC0⟩
  else if b < 0xF0 then
    some ⟨2, if b = 0xE0 then 0xA0 else 0x80, if b = 0xED then 0x9F else 0xBF, b - 0xE0⟩
  else if b < 0xF5 then
    some ⟨3, if b = 0xF0 then 0x90 else 0x80, if b = 0xF4 then 0x8F else 0xBF, b - 0xF0⟩
  else none

/-- The characters that are complete after a byte, and the one that is open then. -/
abbrev ByteStep := List Char × Option OpenChar

/-- A byte at the start of a character. -/
def firstByte (b : Nat) : ByteStep :=
  if b < 0x80 then ([Char.ofNat b], none)
  else
    match OpenChar.ofLead? b with
    | some o => ([], some o)
    | none => ([replacement], none)

/-- A byte within an open character. One that does not go on with it starts a new one. -/
def OpenChar.nextByte (o : OpenChar) (b : Nat) : ByteStep :=
  if o.low ≤ b ∧ b ≤ o.high then
    let value := o.value * 64 + (b - 0x80)
    if o.missing ≤ 1 then ([Char.ofNat value], none)
    else ([], some ⟨o.missing - 1, 0x80, 0xBF, value⟩)
  else
    let (cs, next) := firstByte b
    (replacement :: cs, next)

/-- Reads bytes after those of an open character. -/
def readBytes : Option OpenChar → List UInt8 → List Char
  | none, [] => []
  | some _, [] => [replacement]
  | opened, b :: rest =>
    let (cs, next) := match opened with
      | none => firstByte b.toNat
      | some o => o.nextByte b.toNat
    cs ++ readBytes next rest

/-- The text that bytes give. -/
def ofBytes (bytes : List UInt8) : List Char := readBytes none bytes

end Roadmap.Text
