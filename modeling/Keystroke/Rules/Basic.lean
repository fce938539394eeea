import Keystroke.Tokens
import Keystroke.View

/-!
# Language rules

What a language has to say about a keystroke : what a line break does at a place,
whether an opener puts in its closer, and what an electric character triggers. The
engine takes any three such answers. The last two queries may fail, which the engine
treats as nothing to say.
-/

namespace Keystroke

/-- What a line break does to the indentation. -/
inductive IndentAction
  | keep
  | indent
  /-- Make three lines of a pair of brackets : the opener, an indented line for the
  caret, the closer. -/
  | indentOutdent
  | outdent
deriving DecidableEq

/-- The answer to a line break. -/
structure EnterAnswer where
  action : IndentAction := .keep
  /-- Put after the indentation on the new line. -/
  append : Text := []
  /-- The indentation of the line that is broken. -/
  indentation : Text
deriving DecidableEq

/-- The answer to an electric character. -/
structure ElectricAction where
  /-- Put in after the character; the caret stays in front of it. -/
  append? : Option Text := none
  /-- The bracket whose opener the line is aligned with. -/
  alignWith? : Option Char := none
deriving DecidableEq

/-- Why a query fails. -/
inductive RuleError
  /-- The token with this index is not past the one before it, or is past the end of
  the line. -/
  | malformedTokens (index start : Nat)
  | other (reason : Text)
deriving DecidableEq

namespace RuleError

def message : RuleError → Text
  | malformedTokens index start =>
    "token ".toList ++ Text.ofNat index ++ " starts at ".toList ++ Text.ofNat start
      ++ ", past the previous token or the line end".toList
  | other reason => "language rules failed: ".toList ++ reason

end RuleError

structure LanguageRules where
  /-- What a line break at a line and column does, if the language knows. -/
  enter? : View → (line column : Nat) → Option EnterAnswer
  /-- Whether an opener typed at a column of a line puts in its closer. -/
  autoCloses : Char → LineTokens → (column : Nat) → Except RuleError Bool
  /-- What an electric character typed at a column of a line triggers. -/
  electric? : Char → LineTokens → (column : Nat) → Except RuleError (Option ElectricAction)

namespace LanguageRules

/-- Rules that give the same answers everywhere. A line break without an indentation of
its own takes that of the line asked about. -/
def constant (enter : Option (IndentAction × Text × Option Text))
    (autoCloses : Except RuleError Bool)
    (electric : Except RuleError (Option ElectricAction)) : LanguageRules where
  enter? v line _ := enter.map fun (action, append, indentation) =>
    { action, append, indentation := indentation.getD (v.lineContent line).leadingIndent }
  autoCloses _ _ _ := autoCloses
  electric? _ _ _ := electric

end LanguageRules

end Keystroke
