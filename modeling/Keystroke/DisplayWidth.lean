import Keystroke.Text.Basic
import Keystroke.Unicode.BreakClass
import Keystroke.Unicode.WidthRanges

/-!
# Display width

The number of terminal cells a text takes. Most characters have a width of their own :
none for marks and invisible characters, two for East Asian wide ones and pictures,
one for the rest. Some sequences are narrower than the sum of their parts : emoji with
selectors, skin tones and joiners, flags, and a few ligatures. `Lookahead.step` reads
a text from the right and keeps what the characters read so far mean for the next one
to the left; a ligature's correction may be negative, its total never is.
-/

namespace Keystroke

open Unicode

namespace DisplayWidth

/-- What stands to the right of a character, as far as it changes the width. -/
inductive Following
  | nothing
  | lineFeed
  /-- A skin tone. -/
  | modifier
  /-- One regional indicator. -/
  | indicator
  /-- Two regional indicators or more. -/
  | indicators
  /-- A character shown as a picture. -/
  | emoji
  /-- A joiner and a picture. -/
  | joinedEmoji
  /-- An enclosing keycap, a joiner and a picture. -/
  | joinedKeycap
  /-- One regional indicator, a joiner and a picture. -/
  | joinedIndicator
  /-- An even number of regional indicators, a joiner and a picture. -/
  | joinedEven
  /-- An odd number of them above one, a joiner and a picture. -/
  | joinedOdd
  /-- So many tag letters, the end of a tag sequence, a joiner and a picture. -/
  | tagLetters (n : Nat)
  /-- So many tag digits in front of such a sequence. -/
  | tagDigits (n : Nat)
  | alef
  | lamed (joined : Bool)
  | buginese (joined : Bool)
  | bugineseVowel
  | tifinagh (joined : Bool)
  | tifinaghJoiner
  | lisuTone
  | orkhon (joined : Bool)
  | khmer
  | kiratE
  | kiratAI
deriving DecidableEq

namespace Following

/-- Part of a ligature that selectors do not break up. -/
def keepsSelectors : Following → Bool
  | alef | lamed _ | buginese _ | bugineseVowel | tifinagh _ | tifinaghJoiner | lisuTone
  | orkhon _ | khmer => true
  | _ => false

/-- Part of a ligature that invisible marks and joiners do not break up. -/
def keepsMarks : Following → Bool
  | alef => false
  | f => f.keepsSelectors

/-- Part of an emoji sequence that goes on to the left of a joiner. -/
def continuesEmoji : Following → Bool
  | joinedEmoji | joinedKeycap | tagLetters _ | tagDigits _ => true
  | _ => false

/-- With a joiner in front. -/
def join : Following → Following
  | lamed _ => lamed true
  | buginese _ => buginese true
  | tifinagh _ => tifinagh true
  | orkhon _ => orkhon true
  | f => f

end Following

/-- How a variation selector asks for the character before it to be shown. -/
inductive Presentation
  | picture
  | text
  | fullwidth
deriving DecidableEq

/-- What the characters to the right mean for the next one. -/
structure Lookahead where
  following : Following := .nothing
  selector : Option Presentation := none
deriving DecidableEq

/-! ## Character properties -/

/-- Invisible marks, the ones a ligature reaches over. -/
def isInvisibleMark (n : Nat) : Bool :=
  n != 0x200C && inRanges extenderRanges n && inRanges ignorableRanges n

/-- The characters of no width : marks, invisible characters, vowels and finals of
Hangul, and signs that are drawn over or under their neighbours. The two half-width
voicing marks are marks with a cell of their own, and skin tones are pictures. -/
def isZeroWidth (n : Nat) : Bool :=
  (inRanges extenderRanges n && !(n == 0xFF9E || n == 0xFF9F) && !(0x1F3FB ≤ n && n ≤ 0x1F3FF))
    || inRanges laterExtenderRanges n
    || inRanges ignorableRanges n
    || inRanges vowelJamoRanges n || inRanges trailingJamoRanges n
    || [0x605, 0x70F, 0x890, 0x891, 0x8E2, 0xD4E, 0xA8FA, 0x111C2, 0x111C3, 0x113D1, 0x1193F,
        0x11941, 0x11A84, 0x11A85, 0x11A86, 0x11A87, 0x11A88, 0x11A89, 0x11D46, 0x11F02].contains n

/-- Width of a character beyond ASCII on its own. -/
def ofCode (n : Nat) : Nat :=
  if n = 0x2D7F then 1
  else if n = 0x115F ∨ n = 0x17A4 then 2
  else if n = 0x17D8 then 3
  else if isZeroWidth n then 0
  else if inRanges wideRanges n then 2
  else 1

/-- Characters of no width that stand inside a word without ending it, so an Arabic
ligature reaches over them. -/
def isTransparent (n : Nat) : Bool :=
  ofCode n == 0 && !inRanges nonTransparentRanges n

def isSkinTone (n : Nat) : Bool :=
  0x1F3FB ≤ n && n ≤ 0x1F3FF

/-- Arabic letters of the shape of alef. -/
def isAlef (n : Nat) : Bool :=
  [0x622, 0x623, 0x625, 0x627, 0x671, 0x672, 0x673, 0x675, 0x773, 0x774].contains n
    || (0x870 ≤ n && n ≤ 0x882)

/-- Arabic letters of the shape of lam. -/
def isLam (n : Nat) : Bool :=
  [0x644, 0x6B5, 0x6B6, 0x6B7, 0x6B8, 0x76A, 0x8A6, 0x8C7].contains n

def isTifinaghConsonant (n : Nat) : Bool :=
  (0x2D31 ≤ n && n ≤ 0x2D65) || n == 0x2D6F

/-- Khmer letters that are written below the line after a coeng sign. -/
def coengRanges : List (Nat × Nat) :=
  [(0x1780, 0x1782), (0x1784, 0x1787), (0x1789, 0x178C), (0x178E, 0x1793), (0x1795, 0x1798),
   (0x179B, 0x179D), (0x17A0, 0x17A0), (0x17A2, 0x17A2), (0x17A7, 0x17A7), (0x17AB, 0x17AC),
   (0x17AF, 0x17AF)]

/-- What a character itself means for the one to its left. -/
def followingOf (n : Nat) : Following :=
  if isSkinTone n then .modifier
  else if isRegionalIndicator n then .indicator
  else if inRanges emojiPresentationRanges n then .emoji
  else if isAlef n then .alef
  else if n = 0x5DC then .lamed false
  else if n = 0x1A10 then .buginese false
  else if isTifinaghConsonant n then .tifinagh false
  else if n = 0xA4FC ∨ n = 0xA4FD then .lisuTone
  else if n = 0x10C03 then .orkhon false
  else if inRanges coengRanges n then .khmer
  else if n = 0x16D67 then .kiratE
  else if n = 0x16D68 then .kiratAI
  else .nothing

/-- A picture by default that a selector can turn into text, outside the enclosed
ideographs. -/
def hasNarrowText (n : Nat) : Bool :=
  inRanges emojiVariationRanges n && inRanges emojiPresentationRanges n
    && !(0x1F200 ≤ n && n ≤ 0x1F2FF)

def isTagLetter (n : Nat) : Bool :=
  0xE0061 ≤ n && n ≤ 0xE007A

def isTagDigit (n : Nat) : Bool :=
  0xE0030 ≤ n && n ≤ 0xE0039

/-- The sequences that are narrower than their parts : the width a character adds in
front of what follows it, and what the two together mean to the left. -/
def ligature? (n : Nat) : Following → Option (Int × Following)
  | .alef =>
    if isLam n then some (0, .nothing)
    else if isTransparent n then some (0, .alef)
    else none
  | .lamed true => if n = 0x5D0 then some (0, .nothing) else none
  | .khmer => if n = 0x17D2 then some (-1, .nothing) else none
  | .buginese true => if n = 0x1A17 then some (0, .bugineseVowel) else none
  | .bugineseVowel => if n = 0x1A15 then some (0, .nothing) else none
  | .tifinagh joined =>
    if n = 0x2D7F then some (1, .tifinaghJoiner)
    else if joined && isTifinaghConsonant n then some (0, .nothing)
    else none
  | .tifinaghJoiner => if isTifinaghConsonant n then some (-1, .nothing) else none
  | .lisuTone => if 0xA4F8 ≤ n ∧ n ≤ 0xA4FB then some (0, .nothing) else none
  | .orkhon true => if n = 0x10C32 then some (0, .nothing) else none
  | .kiratE =>
    if n = 0x16D63 ∨ n = 0x16D69 then some (0, .nothing)
    else if n = 0x16D67 then some (0, .kiratAI)
    else if n = 0x16D68 then some (1, .kiratE)
    else none
  | .kiratAI => if n = 0x16D63 then some (0, .nothing) else none
  | .modifier =>
    if inRanges emojiModifierBaseRanges n then some (0, .emoji)
    else if n = 0x200D then some (0, .joinedEmoji)
    else none
  | .indicator => if isRegionalIndicator n then some (1, .indicators) else none
  | .indicators =>
    if isRegionalIndicator n then some (1, .indicators)
    else if n = 0x200D then some (0, .joinedEmoji)
    else none
  | .emoji => if n = 0x200D then some (0, .joinedEmoji) else none
  | .joinedEmoji =>
    if n = 0x20E3 then some (0, .joinedKeycap)
    else if isRegionalIndicator n then some (1, .joinedIndicator)
    else if isSkinTone n then some (0, .modifier)
    else if n = 0xE007F then some (0, .tagLetters 0)
    else if followingOf n = .emoji then some (0, .emoji)
    else none
  | .joinedIndicator => if isRegionalIndicator n then some (-1, .joinedEven) else none
  | .joinedOdd =>
    if isRegionalIndicator n then some (-1, .joinedEven)
    else if n = 0x200D then some (0, .joinedEmoji)
    else none
  | .joinedEven =>
    if isRegionalIndicator n then some (3, .joinedOdd)
    else if n = 0x200D then some (0, .joinedEmoji)
    else none
  | .tagLetters k =>
    if isTagLetter n ∧ k < 6 then some (0, .tagLetters (k + 1))
    else if isTagDigit n ∧ k < 5 then some (0, .tagDigits 1)
    else if n = 0x1F3F4 ∧ 3 ≤ k then some (0, .emoji)
    else none
  | .tagDigits k =>
    if isTagDigit n ∧ k < 3 then some (0, .tagDigits (k + 1))
    else if n = 0x1F3F4 ∧ k = 3 then some (0, .emoji)
    else none
  | _ => none

/-! ## The width of a text -/

namespace Lookahead

/-- A selector in front of what follows. -/
def select (l : Lookahead) (p : Presentation) : Lookahead :=
  if l.following.keepsSelectors || (p == .picture && l.following.continuesEmoji) then
    { l with selector := some p }
  else
    { selector := some p }

/-- The selector did not apply to the character before it. -/
def dropSelector (l : Lookahead) : Lookahead :=
  match l.selector with
  | none => l
  | some _ => if l.following.keepsSelectors then { l with selector := none } else {}

/-- A character's own width in front of what a ligature may reach over. -/
def stepPlain (n : Nat) (l : Lookahead) : Int × Lookahead :=
  if n = 0xFE0F then (0, l.select .picture)
  else if n = 0xFE0E then (0, l.select .text)
  else if n = 0xFE01 then (0, l.select .fullwidth)
  else if l.following.keepsMarks && n == 0x200D then (0, { following := l.following.join })
  else if l.following.keepsMarks && isInvisibleMark n then (0, l)
  else match ligature? n l.following with
    | some (w, f) => (w, { following := f })
    | none => (ofCode n, { following := followingOf n })

/-- The width a character adds in front of what follows it, and what it and they mean
to the left. -/
def step (c : Char) (l : Lookahead) : Int × Lookahead :=
  let n := c.toNat
  if l.selector = some .picture ∧ inRanges emojiVariationRanges n then
    (if l.following.continuesEmoji then 0 else 2, { following := .emoji })
  else if n ≤ 0xA0 then
    if c = '\n' then (1, { following := .lineFeed })
    else if c = '\r' ∧ l.following = .lineFeed then (0, {})
    else (1, {})
  else if l.selector = some .text ∧ hasNarrowText n then (1, {})
  else if l.selector = some .fullwidth ∧ [0x2018, 0x2019, 0x201C, 0x201D].contains n then (2, {})
  else stepPlain n l.dropSelector

end Lookahead

/-- The width of a text, and what its first characters mean to the left. -/
def measure : Text → Int × Lookahead
  | [] => (0, {})
  | c :: t =>
    let r := measure t
    let s := r.2.step c
    (r.1 + s.1, s.2)

end DisplayWidth

/-- The number of cells a text takes. -/
def displayWidth (t : Text) : Nat :=
  (DisplayWidth.measure t).1.toNat

/-- Whether a text is all ASCII. -/
def isAscii (t : Text) : Bool :=
  t.all fun c => c.toNat < 0x80

/-- The cells a cluster takes on the line. An ASCII text takes one for each character;
anything else takes at least one, so that the caret can stand on either side of it. -/
def cellWidth (g : Text) : Nat :=
  if isAscii g then g.length else max 1 (displayWidth g)

theorem cellWidth_of_isAscii {g : Text} (h : isAscii g = true) : cellWidth g = g.length := by
  simp [cellWidth, h]

theorem cellWidth_pos {g : Text} (h : g ≠ []) : 0 < cellWidth g := by
  unfold cellWidth
  split
  · exact List.length_pos_iff.mpr h
  · omega

end Keystroke
