import Keystroke.Text.Basic

/-!
# Lines

A line is its content and the terminator that ends it. Every line break character ends
a line, and a carriage return directly followed by a line feed is one terminator. The
last line has no terminator, so a text that ends in a break has an empty last line and
the empty text has one line. The lines of a text concatenate back to it
(`flatten_lines`), and no content holds a line break (`isLineBreak_of_mem_lines`).
-/

namespace Keystroke

/-- One line of a text. -/
structure Line where
  content : Text
  terminator : Text
deriving DecidableEq

namespace Line

/-- Characters of the line, its terminator included. -/
def size (l : Line) : Nat :=
  l.content.length + l.terminator.length

def toText (l : Line) : Text :=
  l.content ++ l.terminator

end Line

namespace Text

/-- Put a character in front of the first line. -/
def consFirst (c : Char) : List Line → List Line
  | [] => [⟨[c], []⟩]
  | l :: ls => { l with content := c :: l.content } :: ls

/-- The lines of a text. -/
def lines : Text → List Line
  | [] => [⟨[], []⟩]
  | '\r' :: '\n' :: t => ⟨[], ['\r', '\n']⟩ :: lines t
  | c :: t => if isLineBreak c then ⟨[], [c]⟩ :: lines t else consFirst c (lines t)

theorem lines_ne_nil (t : Text) : lines t ≠ [] := by
  fun_cases lines t with
  | case1 => simp
  | case2 => simp
  | case3 => simp
  | case4 c t =>
    cases lines t <;> simp [consFirst]

theorem flatMap_consFirst (c : Char) (ls : List Line) :
    (consFirst c ls).flatMap Line.toText = c :: ls.flatMap Line.toText := by
  cases ls <;> simp [consFirst, Line.toText]

/-- The lines of a text concatenate back to it. -/
theorem flatten_lines (t : Text) : (lines t).flatMap Line.toText = t := by
  fun_induction lines t with
  | case1 => rfl
  | case2 t ih => simp [Line.toText, ih]
  | case3 c t _ _ ih => simp [Line.toText, ih]
  | case4 c t _ _ ih => rw [flatMap_consFirst, ih]

/-- No line holds a line break in its content. -/
theorem isLineBreak_of_mem_lines {t : Text} {l : Line} (hl : l ∈ lines t) {c : Char}
    (hc : c ∈ l.content) : isLineBreak c = false := by
  fun_induction lines t generalizing l c with
  | case1 => simp at hl; simp [hl] at hc
  | case2 t ih =>
    rcases List.mem_cons.mp hl with rfl | hl
    · simp at hc
    · exact ih hl hc
  | case3 a t _ _ ih =>
    rcases List.mem_cons.mp hl with rfl | hl
    · simp at hc
    · exact ih hl hc
  | case4 a t _ ha ih =>
    cases hls : lines t with
    | nil => exact absurd hls (lines_ne_nil t)
    | cons m ms =>
      rw [hls] at hl ih
      rcases List.mem_cons.mp hl with rfl | hl
      · rcases List.mem_cons.mp hc with rfl | hc
        · simpa using ha
        · exact ih List.mem_cons_self hc
      · exact ih (List.mem_cons_of_mem _ hl) hc

end Text

end Keystroke
