import Keystroke.Operation.LineBreak

/-!
# Insertion, typed characters and paste

Text goes in over the selection as it is. A typed character may do more than go in : break
the line, step over a closer, put in a pair, wrap the selection, complete or align the
line. These readings are tried in this order and the first that applies is taken; if none
does, or if more or less than one character is typed, the text goes in as it is. A paste of
a whole line over a caret, or over exactly one line, goes in as a line above instead.
-/

namespace Keystroke

/-- Replace a selection by a text. No undo stops, so that keystrokes are undone
together. -/
def Outcome.typePlain (s : Selection) (t : Text) : Outcome :=
  .ofCommand (.type s.range t)

/-- Replace so many characters in front of the caret by a text, as far as there are any
on its line. -/
def Outcome.replacePrevious (s : Selection) (t : Text) (count : Nat) : Outcome :=
  let p := s.head
  .ofCommand (.type (.onLine p.line (max (p.column - count) 1) p.column) t)

/-- A text with one line feed, at its end. -/
def Text.isOneLine (t : Text) : Bool :=
  t.getLast? == some '\n' && t.count '\n' == 1

namespace Context

variable (ctx : Context)

/-! ## Typed characters -/

/-- The character in front of a position on its line. -/
def charBefore? (p : Position) : Option Char :=
  if 2 ≤ p.column then (ctx.view.lineContent p.line)[p.column - 2]? else none

/-- The character after a position on its line. -/
def charAfter? (p : Position) : Option Char :=
  (ctx.view.lineContent p.line)[p.column - 1]?

/-- A line feed is a line break. -/
def typeBreak? (s : Selection) (c : Char) : Option Outcome :=
  if c = '\n' then (ctx.enter false s.range).toOption else none

/-- A closer typed in front of itself steps over it. -/
def overtype? (s : Selection) (c : Char) : Option Outcome :=
  let p := s.head
  if ctx.config.autoClosing && s.isEmpty && ctx.config.isCloser c
      && ctx.charAfter? p == some c then
    some (Outcome.ofCommand (.type (.ofEnds p (p.offset 0 1)) [c])).withBoundaryBefore
  else none

/-- Whether a pair may be put in after what is in front of the caret : nothing, a blank
or a closer. -/
def allowsPairAt (p : Position) : Bool :=
  match ctx.charBefore? p with
  | some before => isBlank before || ctx.config.isCloser before
  | none => true

/-- Whether the rules want the pair; if they fail, they do not. -/
def rulesClose (c : Char) (p : Position) : Bool :=
  match ctx.rules.autoCloses c (ctx.view.lineTokens p.line) p.column with
  | .ok b => b
  | .error _ => false

/-- An opener puts in its closer, and the caret goes between the two. -/
def closePair? (s : Selection) (c : Char) : Option Outcome :=
  if ctx.config.autoClosing && s.isEmpty then
    match ctx.config.closerOf? c with
    | some closer =>
      if ctx.allowsPairAt s.head && ctx.rulesClose c s.head then
        some (Outcome.ofCommand (.typeOffset s.range [c, closer] 0 (-1))).withBoundaryBefore
      else none
    | none => none
  else none

/-- The part of a line that a range covers. -/
def coveredPart (r : Range) (line : Nat) : Text :=
  let text := ctx.view.lineContent line
  let first := if line = r.start.line then r.start.column - 1 else 0
  let last := if line = r.stop.line then r.stop.column - 1 else text.length
  text.slice first last

/-- Whether a range covers a character that is no blank. There is none past the last
line. -/
def coversNonBlank (r : Range) : Bool :=
  (linesBetween r.start.line (min r.stop.line ctx.view.lineCount)).any fun line =>
    (ctx.coveredPart r line).any fun c => !isBlank c

/-- An opener typed over a selection with content wraps it. -/
def wrap? (s : Selection) (c : Char) : Option Outcome :=
  if ctx.config.autoClosing && !s.isEmpty then
    match ctx.config.surroundCloserOf? c with
    | some closer =>
      if ctx.coversNonBlank s.range then
        some (Outcome.ofCommand (.surround s c closer)).withBoundaries
      else none
    | none => none
  else none

/-- Put in a character and what completes it; the caret stays between the two. -/
def complete (s : Selection) (c : Char) (append : Text) : Outcome :=
  (Outcome.ofCommand (.typeOffset s.range (c :: append) 0 (-(append.length : Int))))
    |>.withBoundaryAfter

/-- Align the line of a position with the line of an opener above it and put in a
character. What is between the indentation and the caret stays. -/
def align? (p : Position) (opener c : Char) : Option Outcome :=
  match ctx.view.openerAbove? opener p with
  | some found =>
    if found.start.line = p.line then none
    else
      let indentation :=
        ctx.config.normalize (ctx.view.lineContent found.start.line).leadingIndent
      let first := min ((ctx.view.firstContentColumn? p.line).getD p.column) p.column
      let kept := (ctx.view.lineContent p.line).slice (first - 1) (p.column - 1)
      some (Outcome.ofCommand
        (.type (.onLine p.line 1 p.column) (indentation ++ kept ++ [c]))).withBoundaryAfter
  | none => none

/-- What the rules want for an electric character; if they fail, nothing. -/
def electricAction? (c : Char) (p : Position) : Option ElectricAction :=
  match ctx.rules.electric? c (ctx.view.lineTokens p.line) p.column with
  | .ok a => a
  | .error _ => none

/-- An electric character completes its line or aligns it. -/
def electric? (s : Selection) (c : Char) : Option Outcome :=
  if ctx.config.isElectric c && s.isEmpty then
    match ctx.electricAction? c s.head with
    | some { append? := some append, .. } => some (complete s c append)
    | some { append? := none, alignWith? := some opener } => ctx.align? s.head opener c
    | _ => none
  else none

/-- The first reading of a typed character that applies. -/
def interpret? (s : Selection) (c : Char) : Option Outcome :=
  ctx.typeBreak? s c
    <|> ctx.overtype? s c
    <|> ctx.closePair? s c
    <|> ctx.wrap? s c
    <|> ctx.electric? s c

/-- Type a text over a selection. -/
def type (s : Selection) (t : Text) : Outcome :=
  match t with
  | [c] => (ctx.interpret? s c).getD (.typePlain s t)
  | _ => .typePlain s t

/-! ## Paste -/

/-- An empty range, or one that is exactly a line. -/
def isCaretOrLine (r : Range) : Bool :=
  r.isSingleLine &&
    (r.isEmpty || (r.start.column == ctx.view.minColumn r.start.line
      && r.stop.column == ctx.view.maxColumn r.start.line))

/-- Replace a selection by a pasted text. A text that was copied as a whole line goes
above the line of the caret. -/
def paste (s : Selection) (t : Text) (wholeLine : Bool) : Outcome :=
  let r :=
    if wholeLine && Text.isOneLine t && ctx.isCaretOrLine s.range then .onLine s.head.line 1 1
    else s.range
  (Outcome.ofCommand (.type r t)).withBoundaries.withReason .paste

end Context

end Keystroke
