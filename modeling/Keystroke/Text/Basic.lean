/-!
# Text

A text is a list of characters, and every index into it counts characters : that is
the unit columns are expressed in. `slice` cuts a text between two indices, and
`byteOffset` gives the place of an index in the UTF-8 encoding, for callers that hold
bytes.

Characters are of four classes, each with its own use : those that end a line, the blanks
that count as nothing between words, the two that indentation is made of, and the Unicode
white space that trimming removes. The blanks and the Unicode white space differ : a zero
width space is a blank, a line feed is white space.
-/

namespace Keystroke

/-- A run of characters. -/
abbrev Text := List Char

namespace Text

/-- The characters with index at least `first` and below `last`, as far as there are any. -/
def slice (t : Text) (first last : Nat) : Text :=
  (t.drop first).take (last - first)

/-- Length of the UTF-8 encoding. -/
def byteLength : Text → Nat
  | [] => 0
  | c :: t => c.utf8Size + byteLength t

/-- Offset in the UTF-8 encoding of the character at index `i`, or the length of the
encoding when there is none. -/
def byteOffset (t : Text) (i : Nat) : Nat :=
  byteLength (t.take i)

/-- Decimal digits of a number. -/
def ofNat (n : Nat) : Text :=
  (toString n).toList

theorem slice_zero (t : Text) (n : Nat) : slice t 0 n = t.take n := by
  simp [slice]

/-- Cut between two pieces around it, a piece of a text is found again. -/
theorem slice_append (s t u : Text) : slice (s ++ t ++ u) s.length (s ++ t).length = t := by
  rw [slice, List.append_assoc, List.drop_left, List.length_append, Nat.add_sub_cancel_left,
    List.take_left]

theorem byteLength_append (s t : Text) : byteLength (s ++ t) = byteLength s + byteLength t := by
  induction s with
  | nil => simp [byteLength]
  | cons c s ih => simp [byteLength, ih, Nat.add_assoc]

end Text

/-! ## Character classes -/

/-- The characters that end a line. -/
def lineBreaks : List Char :=
  ['\n', '\r', '\x0b', '\x0c', '\u0085', '\u2028', '\u2029']

def isLineBreak (c : Char) : Bool :=
  lineBreaks.contains c

/-- Indentation is made of spaces and tabs only. -/
def isIndent (c : Char) : Bool :=
  c == ' ' || c == '\t'

/-- The blanks other than the run from en quad to zero width space. -/
def blanks : List Char :=
  ['\t', ' ', '\u00a0', '\u180e', '\u202f', '\u205f', '\u3000', '\ufeff']

/-- White space as word motion and pairing see it; no line break is one. -/
def isBlank (c : Char) : Bool :=
  blanks.contains c || ('\u2000' ≤ c && c ≤ '\u200b')

/-- Unicode white space outside two runs of neighbouring code points. -/
def spaces : List Char :=
  [' ', '\u0085', '\u00a0', '\u1680', '\u2028', '\u2029', '\u202f', '\u205f', '\u3000']

/-- The Unicode property White Space. -/
def isSpace (c : Char) : Bool :=
  ('\t' ≤ c && c ≤ '\r') || spaces.contains c || ('\u2000' ≤ c && c ≤ '\u200a')

theorem isIndent_iff (c : Char) : isIndent c = true ↔ c = ' ' ∨ c = '\t' := by
  simp [isIndent]

theorem isLineBreak_of_isIndent {c : Char} (h : isIndent c = true) : isLineBreak c = false := by
  rcases (isIndent_iff c).mp h with rfl | rfl <;> decide

theorem isSpace_of_isIndent {c : Char} (h : isIndent c = true) : isSpace c = true := by
  rcases (isIndent_iff c).mp h with rfl | rfl <;> decide

/-- Every line break is Unicode white space. -/
theorem isSpace_of_isLineBreak {c : Char} (h : isLineBreak c = true) : isSpace c = true := by
  simp only [isLineBreak, lineBreaks, List.contains_eq_mem, decide_eq_true_eq, List.mem_cons,
    List.not_mem_nil, or_false] at h
  rcases h with rfl | rfl | rfl | rfl | rfl | rfl | rfl <;> decide

end Keystroke
