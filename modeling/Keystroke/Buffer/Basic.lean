import Keystroke.Position
import Keystroke.Text.Lines
import Keystroke.Tokens

/-!
# Buffers

A buffer is a text, the brackets it matches, and the tokens a caller has set for some of
its lines. A position addresses the text by line and column, an index by characters;
`charIndex?` and `positionAt` go from one to the other. A position is inside the buffer
when its line exists and its column is at most one past the line's last character. The
index between the two characters of a line break is on the line they end, past its last
column, so no position inside the buffer leads there.
-/

namespace Keystroke

/-- A text with tokens for its lines, and the brackets that are looked up in it. -/
structure Buffer where
  text : Text
  /-- Tokens set for a line, the latest first. -/
  tokens : List (Nat × List Token) := []
  brackets : List (Char × Char) := [('(', ')'), ('[', ']'), ('{', '}')]

/-- Why a buffer refuses a position or a command. -/
inductive BufferError
  | outOfBounds (p : Position)
deriving DecidableEq

namespace BufferError

def message : BufferError → Text
  | outOfBounds p => "position ".toList ++ p.toText ++ " is outside the buffer".toList

end BufferError

/-! ## Addresses in a list of lines -/

/-- The index a line starts at, lines counted from zero. -/
def lineStart : List Line → Nat → Nat
  | [], _ => 0
  | _, 0 => 0
  | l :: ls, n + 1 => l.size + lineStart ls n

/-- The position of an index, the first line having the given number. An index past the
end is on the last line. -/
def positionIn (line : Nat) : List Line → Nat → Position
  | [], i => ⟨line, i + 1⟩
  | [_], i => ⟨line, i + 1⟩
  | l :: ls, i => if i < l.size then ⟨line, i + 1⟩ else positionIn (line + 1) ls (i - l.size)

/-- Content of a line of a list, counted from one; empty when there is no such line. -/
def contentIn (ls : List Line) : Nat → Text
  | 0 => []
  | n + 1 => (ls[n]?.map Line.content).getD []

/-- Past the last line there is no content. -/
theorem contentIn_of_lt {ls : List Line} {line : Nat} (h : ls.length < line) :
    contentIn ls line = [] := by
  cases line with
  | zero => rfl
  | succ n => rw [contentIn, List.getElem?_eq_none (Nat.le_of_lt_succ h)]; rfl

namespace Buffer

variable (b : Buffer)

/-- A buffer without tokens, with the default brackets. -/
def ofText (t : Text) : Buffer :=
  { text := t }

/-- Set the tokens of a line, in place of earlier ones. -/
def setTokens (line : Nat) (tokens : List Token) : Buffer :=
  { b with tokens := (line, tokens) :: b.tokens }

def lines : List Line :=
  Text.lines b.text

/-- There is one line at least. -/
def lineCount : Nat :=
  b.lines.length

/-- Content of a line, counted from one; empty when there is no such line. -/
def lineContent : Nat → Text :=
  contentIn b.lines

/-- The tokens set for a line, or one token for all of it. -/
def lineTokens (line : Nat) : LineTokens :=
  match b.tokens.lookup line with
  | some tokens => ⟨b.lineContent line, tokens⟩
  | none => .plain (b.lineContent line)

/-- Whether a position is inside the buffer. -/
def Valid (p : Position) : Prop :=
  1 ≤ p.line ∧ p.line ≤ b.lineCount ∧ 1 ≤ p.column ∧ p.column ≤ (b.lineContent p.line).length + 1

instance (p : Position) : Decidable (b.Valid p) :=
  inferInstanceAs (Decidable (_ ∧ _))

/-- The character index of a position inside the buffer. -/
def charIndex? (p : Position) : Except BufferError Nat :=
  if b.Valid p then .ok (lineStart b.lines (p.line - 1) + (p.column - 1))
  else .error (.outOfBounds p)

/-- The position of a character index, cut off at the end of the text. -/
def positionAt (i : Nat) : Position :=
  positionIn 1 b.lines (min i b.text.length)

theorem lineCount_pos : 0 < b.lineCount :=
  List.length_pos_iff.mpr (Text.lines_ne_nil _)

end Buffer

end Keystroke
