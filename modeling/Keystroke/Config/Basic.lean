import Keystroke.Config.CharMap
import Keystroke.Indentation

/-!
# Settings

The settings an operation reads : the indentation style, the pairs that close
themselves, the pairs that wrap a selection, and the electric characters. The tab size
is at least one. Pairs are given as a list; of two pairs with the same opener the later
one counts.
-/

namespace Keystroke

/-- Pairs of an opener and a closer, looked up from either side. -/
structure PairTable where
  closers : CharMap Char
  openers : CharMap Char
deriving DecidableEq

namespace PairTable

def empty : PairTable :=
  ⟨.empty, .empty⟩

def insert (t : PairTable) (opener closer : Char) : PairTable :=
  ⟨t.closers.insert opener closer, t.openers.insert closer opener⟩

/-- The pairs of a list, put in one after the other. -/
def ofList (pairs : List (Char × Char)) : PairTable :=
  pairs.foldl (fun t p => t.insert p.1 p.2) empty

end PairTable

/-- What the user sets. -/
structure Config where
  style : IndentStyle
  /-- Whether typing an opener puts in its closer. -/
  autoClosing : Bool
  autoClosingPairs : PairTable
  surroundingPairs : CharMap Char
  electricChars : CharMap Unit
  tabSize_pos : 0 < style.tabSize
deriving DecidableEq

namespace Config

/-! ## Defaults -/

/-- Brackets and quotation marks. -/
def defaultAutoClosingPairs : List (Char × Char) :=
  [('(', ')'), ('[', ']'), ('{', '}'), ('\x22', '\x22'), ('\x27', '\x27')]

/-- A backquote wraps a selection, and does not close itself. -/
def defaultSurroundingPairs : List (Char × Char) :=
  defaultAutoClosingPairs ++ [('\x60', '\x60')]

/-- The closing brackets. -/
def defaultElectricChars : List Char :=
  ['}', ']', ')']

/-! ## Construction -/

/-- The table of a list of electric characters. -/
def electricTable (chars : List Char) : CharMap Unit :=
  .ofList (chars.map (·, ()))

/-- The default settings in an indentation style; a tab size of zero is raised to one. -/
def ofStyle (s : IndentStyle) : Config where
  style := { s with tabSize := max s.tabSize 1 }
  autoClosing := true
  autoClosingPairs := .ofList defaultAutoClosingPairs
  surroundingPairs := .ofList defaultSurroundingPairs
  electricChars := electricTable defaultElectricChars
  tabSize_pos := by
    show 0 < max s.tabSize 1
    omega

/-- Four spaces, and the default pairs and electric characters. -/
def standard : Config :=
  ofStyle ⟨4, true⟩

variable (c : Config)

def withAutoClosing (enabled : Bool) : Config :=
  { c with autoClosing := enabled }

/-- The closing pairs of a list and no others. -/
def withAutoClosingPairs (pairs : List (Char × Char)) : Config :=
  { c with autoClosingPairs := .ofList pairs }

/-- The wrapping pairs of a list and no others. -/
def withSurroundingPairs (pairs : List (Char × Char)) : Config :=
  { c with surroundingPairs := .ofList pairs }

def withElectricChars (chars : List Char) : Config :=
  { c with electricChars := electricTable chars }

/-! ## Reading -/

def tabSize : Nat :=
  c.style.tabSize

def insertSpaces : Bool :=
  c.style.insertSpaces

/-- One level of indentation. -/
def oneIndent : Text :=
  c.style.oneIndent

/-- The text with its leading spaces and tabs in the configured style. There must be room for it
(`IndentStyle.normalize?`). -/
def normalize (t : Text) : Text :=
  c.style.normalize t

/-- The closer an opener puts in. -/
def closerOf? (opener : Char) : Option Char :=
  c.autoClosingPairs.closers.get? opener

/-- Whether a character closes some pair that closes itself. -/
def isCloser (x : Char) : Bool :=
  c.autoClosingPairs.openers.contains x

/-- The closer that goes with an opener typed over a selection. -/
def surroundCloserOf? (opener : Char) : Option Char :=
  c.surroundingPairs.get? opener

/-- Whether a character may complete or align its line. -/
def isElectric (x : Char) : Bool :=
  c.electricChars.contains x

end Config

end Keystroke
