import Keystroke.Config.Basic
import Keystroke.Toml.Document

/-!
# Settings from a document

`Config.ofDocument` reads settings from a TOML document. Every key is optional and
stands for the default when it is missing; a key that is unknown or given twice, or a
value of the wrong kind, makes the whole document malformed. Only a document that is
not malformed can be refused for its tab size.
-/

namespace Keystroke

/-- Why a document gives no settings. -/
inductive ConfigError
  | malformed
  | zeroTabSize
deriving DecidableEq

namespace ConfigError

/-- The wording of an error that has one. -/
def message? : ConfigError → Option Text
  | malformed => none
  | zeroTabSize => some "tab size must be at least 1".toList

end ConfigError

/-- What a document says, the defaults filled in. -/
structure Settings where
  tabSize : Nat := 4
  insertSpaces : Bool := true
  autoClosing : Bool := true
  autoClosingPairs : List (Char × Char) := Config.defaultAutoClosingPairs
  surroundingPairs : List (Char × Char) := Config.defaultSurroundingPairs
  electricChars : List Char := Config.defaultElectricChars

namespace Settings

open Toml

/-! ## Values -/

/-- A number of at most 64 bits. -/
def size? : Value → Option Nat
  | .integer (.ofNat n) => if n ≤ 0xFFFFFFFFFFFFFFFF then some n else none
  | _ => none

def flag? : Value → Option Bool
  | .boolean b => some b
  | _ => none

/-- A string of one character. -/
def char? : Value → Option Char
  | .string [c] => some c
  | _ => none

def list? {α : Type} (element? : Value → Option α) : Value → Option (List α)
  | .array vs => vs.mapM element?
  | _ => none

/-- An array of two characters. What stands after them is ignored. -/
def pair? : Value → Option (Char × Char)
  | .array (v :: w :: _) => do return (← char? v, ← char? w)
  | _ => none

/-! ## Entries -/

/-- Take over one entry. -/
def assign (s : Settings) (e : Entry) : Option Settings :=
  if e.1 = "tab-size".toList then
    (size? e.2).map fun n => { s with tabSize := n }
  else if e.1 = "insert-spaces".toList then
    (flag? e.2).map fun b => { s with insertSpaces := b }
  else if e.1 = "auto-closing-brackets".toList then
    (flag? e.2).map fun b => { s with autoClosing := b }
  else if e.1 = "auto-closing-pairs".toList then
    (list? pair? e.2).map fun ps => { s with autoClosingPairs := ps }
  else if e.1 = "surrounding-pairs".toList then
    (list? pair? e.2).map fun ps => { s with surroundingPairs := ps }
  else if e.1 = "electric-chars".toList then
    (list? char? e.2).map fun cs => { s with electricChars := cs }
  else none

/-- The settings of a well-formed document. -/
def ofDocument? (t : Text) : Option Settings := do
  let entries ← entries? t
  if (entries.map Prod.fst).Nodup then entries.foldlM assign {} else none

def toConfig (s : Settings) : Except ConfigError Config :=
  if s.tabSize = 0 then .error .zeroTabSize
  else .ok <| Config.ofStyle ⟨s.tabSize, s.insertSpaces⟩
    |>.withAutoClosing s.autoClosing
    |>.withAutoClosingPairs s.autoClosingPairs
    |>.withSurroundingPairs s.surroundingPairs
    |>.withElectricChars s.electricChars

end Settings

/-- The settings a document gives. -/
def Config.ofDocument (t : Text) : Except ConfigError Config :=
  match Settings.ofDocument? t with
  | some s => s.toConfig
  | none => .error .malformed

end Keystroke
