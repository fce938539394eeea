import Keystroke.Rules.Basic

/-!
# Rules for bracketed languages

Rules for a language whose blocks are delimited by brackets. A line break after an
opener indents, and between an opener and its closer makes three lines. An opener
closes itself unless it stands in a kind of token its pair is kept out of. A closer
with nothing but white space in front of it is aligned with its opener, and the last
character of a doc comment's opening completes the comment.
-/

namespace Keystroke

/-- A pair that closes itself, except in some kinds of token. -/
structure AutoClosePair where
  opener : Char
  closer : Char
  notIn : List TokenKind := []
deriving DecidableEq

namespace AutoClosePair

/-- Whether the pair closes itself in a kind of token. -/
def allows (p : AutoClosePair) (k : TokenKind) : Bool :=
  !p.notIn.contains k

end AutoClosePair

structure BracketRules where
  brackets : List (Char × Char)
  pairs : List AutoClosePair
  /-- The opening of a doc comment and what completes it. -/
  docComment : Option (Text × Text) := none
deriving DecidableEq

/-- The first token that does not start past the one before it, or that starts past the
end of a line of the given length. The first token of a line may start at zero whatever
the length. -/
def malformedToken? (length : Nat) (index : Nat) (previous? : Option Nat) :
    List Token → Option RuleError
  | [] => none
  | t :: ts =>
    if previous?.any (t.start ≤ ·) || (0 < t.start && length ≤ t.start) then
      some (.malformedTokens index t.start)
    else malformedToken? length (index + 1) (some t.start) ts

/-- Refuse a line whose tokens do not fit it. -/
def LineTokens.check (l : LineTokens) : Except RuleError Unit :=
  match malformedToken? l.text.length 0 none l.tokens with
  | some e => .error e
  | none => .ok ()

namespace BracketRules

/-- Round, square and curly brackets, and quotation marks outside strings and
comments. -/
def standard : BracketRules where
  brackets := [('(', ')'), ('[', ']'), ('{', '}')]
  pairs :=
    [⟨'(', ')', []⟩, ⟨'[', ']', []⟩, ⟨'{', '}', []⟩,
     ⟨'\x22', '\x22', [.string, .comment]⟩, ⟨'\x27', '\x27', [.string, .comment]⟩]

variable (r : BracketRules)

def withDocComment (opening closing : Text) : BracketRules :=
  { r with docComment := some (opening, closing) }

/-- The closer of the first pair with an opener. -/
def closerOf? (opener : Char) : Option Char :=
  r.brackets.lookup opener

/-- The opener of the first pair with a closer. -/
def openerOf? (closer : Char) : Option Char :=
  (r.brackets.find? fun p => p.2 == closer).map Prod.fst

/-- A line break looks at the last character before it and the first one after it that
are not white space. -/
def enter (v : View) (line column : Nat) : EnterAnswer :=
  let text := v.lineContent line
  let before : Text := text.take (column - 1)
  let after : Text := text.drop (column - 1)
  let indentation := before.leadingIndent
  match before.trimEnd.getLast?.bind r.closerOf? with
  | some closer =>
    let action : IndentAction :=
      if after.trimStart.head? = some closer then .indentOutdent else .indent
    { action, append := ['\t'], indentation }
  | none => { indentation }

/-- The token looked at is the one of the character before the column. A line without
tokens puts nothing in the way. -/
def autoCloses (c : Char) (l : LineTokens) (column : Nat) : Except RuleError Bool := do
  l.check
  if l.tokens = [] then return true
  let kind := (l.kindAt? (column - 2)).getD .other
  match r.pairs.find? fun p => p.opener == c with
  | some p => return p.allows kind
  | none => return true

/-- Completion of a doc comment whose opening is all there is in front of the caret. -/
def completeDocComment? (c : Char) (before : Text) : Option ElectricAction :=
  match r.docComment with
  | some (opening, closing) =>
    if opening.getLast? = some c ∧ before.trimStart ++ [c] = opening then
      some { append? := some closing }
    else none
  | none => none

def electric? (c : Char) (l : LineTokens) (column : Nat) :
    Except RuleError (Option ElectricAction) := do
  l.check
  let before : Text := l.text.take (column - 1)
  match r.completeDocComment? c before with
  | some a => return some a
  | none =>
    match r.openerOf? c with
    | some opener =>
      return if before.isBlankLine then some { alignWith? := some opener } else none
    | none => return none

def toRules : LanguageRules where
  enter? v line column := some (r.enter v line column)
  autoCloses := r.autoCloses
  electric? := r.electric?

end BracketRules

end Keystroke
