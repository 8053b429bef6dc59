import Roadmap.Outline.Task
import Roadmap.Text.Blank

/-!
# Project icons

A project header may open with one emoji, which is then the project's icon. An emoji is a
pictographic character with the variation selectors, skin tones and keycaps behind it, further
pictographs joined to it, or a flag of two regional indicators.
-/

namespace Roadmap.Outline

/-- The pictographic code points (Extended_Pictographic). -/
def pictographRanges : List (Nat × Nat) :=
  [(0x00A9, 0x00A9), (0x00AE, 0x00AE), (0x203C, 0x203C), (0x2049, 0x2049), (0x2122, 0x2122),
   (0x2139, 0x2139), (0x2194, 0x2199), (0x21A9, 0x21AA), (0x231A, 0x231B), (0x2328, 0x2328),
   (0x2388, 0x2388), (0x23CF, 0x23CF), (0x23E9, 0x23F3), (0x23F8, 0x23FA), (0x24C2, 0x24C2),
   (0x25AA, 0x25AB), (0x25B6, 0x25B6), (0x25C0, 0x25C0), (0x25FB, 0x25FE), (0x2600, 0x2605),
   (0x2607, 0x2612), (0x2614, 0x2685), (0x2690, 0x2705), (0x2708, 0x2712), (0x2714, 0x2714),
   (0x2716, 0x2716), (0x271D, 0x271D), (0x2721, 0x2721), (0x2728, 0x2728), (0x2733, 0x2734),
   (0x2744, 0x2744), (0x2747, 0x2747), (0x274C, 0x274C), (0x274E, 0x274E), (0x2753, 0x2755),
   (0x2757, 0x2757), (0x2763, 0x2767), (0x2795, 0x2797), (0x27A1, 0x27A1), (0x27B0, 0x27B0),
   (0x27BF, 0x27BF), (0x2934, 0x2935), (0x2B05, 0x2B07), (0x2B1B, 0x2B1C), (0x2B50, 0x2B50),
   (0x2B55, 0x2B55), (0x3030, 0x3030), (0x303D, 0x303D), (0x3297, 0x3297), (0x3299, 0x3299),
   (0x1F000, 0x1F0FF), (0x1F10D, 0x1F10F), (0x1F12F, 0x1F12F), (0x1F16C, 0x1F171),
   (0x1F17E, 0x1F17F), (0x1F18E, 0x1F18E), (0x1F191, 0x1F19A), (0x1F1AD, 0x1F1E5),
   (0x1F201, 0x1F20F), (0x1F21A, 0x1F21A), (0x1F22F, 0x1F22F), (0x1F232, 0x1F23A),
   (0x1F23C, 0x1F23F), (0x1F249, 0x1F3FA), (0x1F400, 0x1F53D), (0x1F546, 0x1F64F),
   (0x1F680, 0x1F6FF), (0x1F774, 0x1F77F), (0x1F7D5, 0x1F7FF), (0x1F80C, 0x1F80F),
   (0x1F848, 0x1F84F), (0x1F85A, 0x1F85F), (0x1F888, 0x1F88F), (0x1F8AE, 0x1F8FF),
   (0x1F90C, 0x1F93A), (0x1F93C, 0x1F945), (0x1F947, 0x1FAFF), (0x1FC00, 0x1FFFD)]

def isRegionalIndicator (c : Char) : Bool := 0x1F1E6 ≤ c.toNat && c.toNat ≤ 0x1F1FF

def isSkinTone (c : Char) : Bool := 0x1F3FB ≤ c.toNat && c.toNat ≤ 0x1F3FF

/-- An emoji can start with this character. -/
def isPictograph (c : Char) : Bool :=
  isRegionalIndicator c || isSkinTone c || Text.inRanges pictographRanges c.toNat

/-- A character that changes the look of the pictograph before it: one of the two variation
selectors, the keycap or a skin tone. -/
def isEmojiModifier (c : Char) : Bool :=
  c.toNat == 0xFE0E || c.toNat == 0xFE0F || c.toNat == 0x20E3 || isSkinTone c

def isJoiner (c : Char) : Bool := c.toNat == 0x200D

/-- The characters that belong to the pictograph before them. -/
def emojiTail : List Char → List Char
  | [] => []
  | [c] => if isEmojiModifier c then [c] else []
  | c :: d :: rest =>
    if isEmojiModifier c then c :: emojiTail (d :: rest)
    else if isJoiner c && isPictograph d then c :: d :: emojiTail rest
    else []

/-- The emoji at the start of a text. -/
def leadingEmoji? : List Char → Option (List Char)
  | [] => none
  | c :: rest =>
    if !isPictograph c then none
    else if isRegionalIndicator c then
      match rest with
      | d :: _ => some (if isRegionalIndicator d then [c, d] else [c])
      | [] => some [c]
    else some (c :: emojiTail rest)

/-- A header as icon and name. The leading emoji is the icon only if a name follows it; otherwise
the icon is the default one and the whole header is the name. -/
def splitIcon (header : List Char) : String × List Char :=
  match leadingEmoji? header with
  | none => (defaultIcon, header)
  | some icon =>
    match Text.strip (header.drop icon.length) with
    | [] => (defaultIcon, header)
    | name => (String.ofList icon, name)

end Roadmap.Outline
