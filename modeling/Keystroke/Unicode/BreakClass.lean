import Keystroke.Unicode.BreakRanges

/-!
# Grapheme break classes

The class of a character decides where one user-perceived character ends and the next
begins. The class Extend is split in three, because the signs that link an Indic
conjunct and the zero width non-joiner behave apart from the other marks. Precomposed
Hangul syllables are classified by arithmetic, all else beyond ASCII by tables.
-/

namespace Keystroke.Unicode

/-- Whether a code point lies in one of the inclusive ranges. -/
def inRanges (ranges : List (Nat × Nat)) (n : Nat) : Bool :=
  ranges.any fun r => r.1 ≤ n && n ≤ r.2

inductive BreakClass
  | carriageReturn
  | lineFeed
  | control
  /-- A mark that may stand inside a conjunct. -/
  | extend
  /-- A mark that links two consonants. -/
  | linker
  /-- The zero width non-joiner. -/
  | nonJoiner
  /-- The zero width joiner. -/
  | joiner
  | spacingMark
  /-- A sign written before the character it belongs to. -/
  | prepend
  | leadingJamo
  | vowelJamo
  | trailingJamo
  /-- A Hangul syllable without a final consonant. -/
  | openSyllable
  /-- A Hangul syllable with a final consonant. -/
  | closedSyllable
  | regionalIndicator
  | pictograph
  /-- A consonant that takes part in conjuncts. -/
  | consonant
  | other
deriving DecidableEq

/-- Controls, format characters and separators beyond ASCII. -/
def controlRanges : List (Nat × Nat) :=
  [(0x7F, 0x9F), (0xAD, 0xAD), (0x61C, 0x61C), (0x180E, 0x180E), (0x200B, 0x200B),
   (0x200E, 0x200F), (0x2028, 0x202E), (0x2060, 0x206F), (0xFEFF, 0xFEFF), (0xFFF0, 0xFFFB),
   (0x13430, 0x1343F), (0x1BCA0, 0x1BCA3), (0x1D173, 0x1D17A), (0xE0000, 0xE001F),
   (0xE0080, 0xE00FF), (0xE01F0, 0xE0FFF)]

/-- Signs written before the character they belong to. -/
def prependRanges : List (Nat × Nat) :=
  [(0x600, 0x605), (0x6DD, 0x6DD), (0x70F, 0x70F), (0x890, 0x891), (0x8E2, 0x8E2),
   (0xD4E, 0xD4E), (0x110BD, 0x110BD), (0x110CD, 0x110CD), (0x111C2, 0x111C3),
   (0x113D1, 0x113D1), (0x1193F, 0x1193F), (0x11941, 0x11941), (0x11A84, 0x11A89),
   (0x11D46, 0x11D46), (0x11F02, 0x11F02)]

/-- Initial consonants of Hangul. -/
def leadingJamoRanges : List (Nat × Nat) :=
  [(0x1100, 0x115F), (0xA960, 0xA97C)]

/-- Vowels of Hangul. -/
def vowelJamoRanges : List (Nat × Nat) :=
  [(0x1160, 0x11A7), (0xD7B0, 0xD7C6)]

/-- Vowel signs of Kirat Rai, which combine the way vowels of Hangul do. -/
def vowelSignRanges : List (Nat × Nat) :=
  [(0x16D63, 0x16D63), (0x16D67, 0x16D6A)]

/-- Final consonants of Hangul. -/
def trailingJamoRanges : List (Nat × Nat) :=
  [(0x11A8, 0x11FF), (0xD7CB, 0xD7FB)]

/-- The twenty-six letters flags are spelled with. -/
def isRegionalIndicator (n : Nat) : Bool :=
  0x1F1E6 ≤ n && n ≤ 0x1F1FF

namespace BreakClass

/-- The class of a code point beyond ASCII. -/
def ofCodeBeyondAscii (n : Nat) : BreakClass :=
  if 0xAC00 ≤ n ∧ n ≤ 0xD7A3 then
    if (n - 0xAC00) % 28 = 0 then openSyllable else closedSyllable
  else if n = 0x200C then nonJoiner
  else if n = 0x200D then joiner
  else if inRanges conjunctLinkerRanges n then linker
  else if inRanges extenderRanges n then extend
  else if inRanges spacingMarkRanges n then spacingMark
  else if inRanges conjunctConsonantRanges n then consonant
  else if inRanges pictographRanges n then pictograph
  else if isRegionalIndicator n then regionalIndicator
  else if inRanges leadingJamoRanges n then leadingJamo
  else if inRanges vowelJamoRanges n || inRanges vowelSignRanges n then vowelJamo
  else if inRanges trailingJamoRanges n then trailingJamo
  else if inRanges prependRanges n then prepend
  else if inRanges controlRanges n then control
  else other

/-- The class of a character. -/
def ofChar (c : Char) : BreakClass :=
  if c = '\r' then carriageReturn
  else if c = '\n' then lineFeed
  else if c.toNat < 0x20 then control
  else if c.toNat < 0x7F then other
  else ofCodeBeyondAscii c.toNat

@[simp] theorem ofChar_space : ofChar ' ' = other := by decide

@[simp] theorem ofChar_tab : ofChar '\t' = control := by decide

end BreakClass

end Keystroke.Unicode
