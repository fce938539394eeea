import Keystroke.Text.Basic

/-!
# Tokens of a TOML document

`tokens?` cuts a document into words, strings, punctuation and line ends, and takes out
comments and blanks. It is a machine that reads one character at a time (`Lexer.step`);
the mode it is in says what has been read of the token it is inside. A word is a run of
the characters that bare keys, numbers and booleans are made of. Strings come with
their escapes resolved; line ends inside a string over several lines are line feeds.
-/

namespace Keystroke.Toml

inductive Token
  | word (t : Text)
  | string (t : Text) (multiline : Bool)
  | equals
  | comma
  | openBracket
  | closeBracket
  | newline
deriving DecidableEq

/-- The two ways to quote a string; only the first knows escapes. -/
inductive Quote
  | basic
  | literal
deriving DecidableEq

namespace Quote

def toChar : Quote → Char
  | basic => '\x22'
  | literal => '\x27'

end Quote

/-- A letter, digit, dash or underscore. -/
def isBareKeyChar (c : Char) : Bool :=
  c.isAlphanum || c == '_' || c == '-'

def isWordChar (c : Char) : Bool :=
  isBareKeyChar c || c == '+' || c == '.' || c == ':'

/-- What comments and strings may hold besides line ends : no control but the tab. -/
def isPlainChar (c : Char) : Bool :=
  c == '\t' || (0x20 ≤ c.toNat && c.toNat != 0x7F)

/-- The value of a digit in a base of at most sixteen. -/
def digitValue? (base : Nat) (c : Char) : Option Nat :=
  let value :=
    if '0' ≤ c ∧ c ≤ '9' then some (c.toNat - '0'.toNat)
    else if 'a' ≤ c ∧ c ≤ 'f' then some (c.toNat - 'a'.toNat + 10)
    else if 'A' ≤ c ∧ c ≤ 'F' then some (c.toNat - 'A'.toNat + 10)
    else none
  value.filter (· < base)

/-- The character of a code point; surrogates are none. -/
def scalar? (n : Nat) : Option Char :=
  if h : n.isValidChar then some (Char.ofNatAux n h) else none

/-- The character a letter stands for after a backslash. -/
def escaped? : Char → Option Char
  | 'b' => some '\x08'
  | 't' => some '\t'
  | 'n' => some '\n'
  | 'f' => some '\x0c'
  | 'r' => some '\r'
  | 'e' => some '\x1b'
  | '\x22' => some '\x22'
  | '\\' => some '\\'
  | _ => none

namespace Lexer

/-- What has been read of a token. Text read so far is in reverse. -/
inductive Mode
  | between
  | comment
  /-- A carriage return, its line feed to come. -/
  | lineEnd
  | word (read : Text)
  /-- One quotation mark. -/
  | quoted (q : Quote)
  /-- Two quotation marks. -/
  | quotedTwice (q : Quote)
  | string (q : Quote) (read : Text)
  /-- Right after three quotation marks. -/
  | longStart (q : Quote)
  /-- Right after them, a carriage return, its line feed to come. -/
  | longStartLineEnd (q : Quote)
  /-- A string over several lines with so many quotation marks at its end. -/
  | long (q : Quote) (read : Text) (marks : Nat)
  /-- Inside it, a carriage return, its line feed to come. -/
  | longLineEnd (q : Quote) (read : Text)
  /-- A backslash. -/
  | escape (read : Text) (multiline : Bool)
  /-- So many digits to come of a code point with the given value so far. -/
  | codePoint (read : Text) (multiline : Bool) (value digits : Nat)
  /-- A backslash at the end of a line, and blanks after it. -/
  | continuation (read : Text) (pastLineEnd : Bool)
  /-- There, a carriage return, its line feed to come. -/
  | continuationLineEnd (read : Text)

/-- The tokens read so far, in reverse, and the mode. -/
structure State where
  tokens : List Token := []
  mode : Mode := .between

namespace State

variable (s : State)

def enter (m : Mode) : State :=
  { s with mode := m }

/-- End a token. -/
def emit (t : Token) : State :=
  ⟨t :: s.tokens, .between⟩

/-- Read a character between tokens. -/
def between (c : Char) : Option State :=
  if c = ' ' ∨ c = '\t' then some (s.enter .between)
  else if c = '\n' then some (s.emit .newline)
  else if c = '\r' then some (s.enter .lineEnd)
  else if c = '#' then some (s.enter .comment)
  else if c = '=' then some (s.emit .equals)
  else if c = ',' then some (s.emit .comma)
  else if c = '[' then some (s.emit .openBracket)
  else if c = ']' then some (s.emit .closeBracket)
  else if c = Quote.basic.toChar then some (s.enter (.quoted .basic))
  else if c = Quote.literal.toChar then some (s.enter (.quoted .literal))
  else if isWordChar c then some (s.enter (.word [c]))
  else none

/-- Read a character of a string on one line. -/
def inString (q : Quote) (read : Text) (c : Char) : Option State :=
  if c = q.toChar then some (s.emit (.string read.reverse false))
  else if q = .basic ∧ c = '\\' then some (s.enter (.escape read false))
  else if isPlainChar c then some (s.enter (.string q (c :: read)))
  else none

/-- Read a character of a string over several lines. Three quotation marks end it, and
up to two in front of them belong to it. -/
def inLong (q : Quote) (read : Text) (marks : Nat) (c : Char) : Option State :=
  if c = q.toChar then
    if marks = 4 then some (s.emit (.string (c :: c :: read).reverse true))
    else some (s.enter (.long q read (marks + 1)))
  else if 3 ≤ marks then
    (s.emit (.string (List.replicate (marks - 3) q.toChar ++ read).reverse true)).between c
  else
    let read := List.replicate marks q.toChar ++ read
    if q = .basic ∧ c = '\\' then some (s.enter (.escape read true))
    else if c = '\r' then some (s.enter (.longLineEnd q read))
    else if c = '\n' ∨ isPlainChar c then some (s.enter (.long q (c :: read) 0))
    else none

/-- Go on in a string with escapes. -/
def resume (read : Text) (multiline : Bool) : State :=
  s.enter (if multiline then .long .basic read 0 else .string .basic read)

/-- Read the character after a backslash. -/
def inEscape (read : Text) (multiline : Bool) (c : Char) : Option State :=
  match escaped? c with
  | some x => some (s.resume (x :: read) multiline)
  | none =>
    if c = 'x' then some (s.enter (.codePoint read multiline 0 2))
    else if c = 'u' then some (s.enter (.codePoint read multiline 0 4))
    else if c = 'U' then some (s.enter (.codePoint read multiline 0 8))
    else if multiline then
      if c = ' ' ∨ c = '\t' then some (s.enter (.continuation read false))
      else if c = '\n' then some (s.enter (.continuation read true))
      else if c = '\r' then some (s.enter (.continuationLineEnd read))
      else none
    else none

/-- Read a digit of a code point. -/
def inCodePoint (read : Text) (multiline : Bool) (value digits : Nat) (c : Char) :
    Option State := do
  let d ← digitValue? 16 c
  let value := value * 16 + d
  if digits ≤ 1 then
    let x ← scalar? value
    return s.resume (x :: read) multiline
  else
    return s.enter (.codePoint read multiline value (digits - 1))

/-- A line feed after a carriage return, and nothing else. -/
def afterReturn (c : Char) (next : State) : Option State :=
  if c = '\n' then some next else none

/-- Read one character. -/
def step (c : Char) : Option State :=
  match s.mode with
  | .between => s.between c
  | .comment =>
    if c = '\n' ∨ c = '\r' then s.between c
    else if isPlainChar c then some s
    else none
  | .lineEnd => afterReturn c (s.emit .newline)
  | .word read =>
    if isWordChar c then some (s.enter (.word (c :: read)))
    else (s.emit (.word read.reverse)).between c
  | .quoted q => if c = q.toChar then some (s.enter (.quotedTwice q)) else s.inString q [] c
  | .quotedTwice q =>
    if c = q.toChar then some (s.enter (.longStart q)) else (s.emit (.string [] false)).between c
  | .string q read => s.inString q read c
  | .longStart q =>
    if c = '\n' then some (s.enter (.long q [] 0))
    else if c = '\r' then some (s.enter (.longStartLineEnd q))
    else s.inLong q [] 0 c
  | .longStartLineEnd q => afterReturn c (s.enter (.long q [] 0))
  | .long q read marks => s.inLong q read marks c
  | .longLineEnd q read => afterReturn c (s.enter (.long q ('\n' :: read) 0))
  | .escape read multiline => s.inEscape read multiline c
  | .codePoint read multiline value digits => s.inCodePoint read multiline value digits c
  | .continuation read pastLineEnd =>
    if c = ' ' ∨ c = '\t' then some s
    else if c = '\n' then some (s.enter (.continuation read true))
    else if c = '\r' then some (s.enter (.continuationLineEnd read))
    else if pastLineEnd then s.inLong .basic read 0 c
    else none
  | .continuationLineEnd read => afterReturn c (s.enter (.continuation read true))

/-- The tokens, if the document may end here. -/
def finish? : Option (List Token) :=
  match s.mode with
  | .between | .comment => some s.tokens.reverse
  | .word read => some (s.emit (.word read.reverse)).tokens.reverse
  | .quotedTwice _ => some (s.emit (.string [] false)).tokens.reverse
  | .long q read marks =>
    if 3 ≤ marks then
      let text := List.replicate (marks - 3) q.toChar ++ read
      some (s.emit (.string text.reverse true)).tokens.reverse
    else none
  | _ => none

end State

end Lexer

/-- A byte order mark at the start of a document means nothing. -/
def dropByteOrderMark : Text → Text
  | '\ufeff' :: t => t
  | t => t

/-- The tokens of a document, if it can be cut into tokens. -/
def tokens? (t : Text) : Option (List Token) :=
  ((dropByteOrderMark t).foldlM Lexer.State.step {}).bind Lexer.State.finish?

end Keystroke.Toml
