import Keystroke.Text.Basic

/-!
# Tokens

A tokenizer classifies the spans of a line as code, comment or string. A token covers
the characters from its start up to the start of the next one; offsets are counted
from zero.
-/

namespace Keystroke

inductive TokenKind
  | other
  | comment
  | string
deriving DecidableEq

structure Token where
  start : Nat
  kind : TokenKind
deriving DecidableEq

/-- A line's content with its classification. -/
structure LineTokens where
  text : Text
  tokens : List Token
deriving DecidableEq

/-- Index of the last element that satisfies `p`. -/
def lastIndex? {α : Type} (p : α → Bool) : List α → Option Nat
  | [] => none
  | a :: as =>
    match lastIndex? p as with
    | some i => some (i + 1)
    | none => if p a then some 0 else none

namespace LineTokens

/-- A line that is one token of no special kind. -/
def plain (text : Text) : LineTokens :=
  ⟨text, [⟨0, .other⟩]⟩

/-- Index of the token that covers an offset. -/
def indexAt? (l : LineTokens) (offset : Nat) : Option Nat :=
  lastIndex? (fun t => t.start ≤ offset) l.tokens

/-- Kind of the token that covers an offset. -/
def kindAt? (l : LineTokens) (offset : Nat) : Option TokenKind :=
  (l.indexAt? offset).bind fun i => l.tokens[i]?.map Token.kind

end LineTokens

end Keystroke
