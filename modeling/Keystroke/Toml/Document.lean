import Keystroke.Toml.Token

/-!
# TOML documents of settings

A document is a list of entries, one a line, each a key and a value. Values are
strings, integers, booleans and arrays of values; tables, dates and fractions are no
settings and are refused with everything malformed. `entries?` is a machine over the
tokens. While it reads a value it keeps the arrays that are still open, the innermost
first.
-/

namespace Keystroke.Toml

inductive Value
  | string (t : Text)
  | integer (n : Int)
  | boolean (b : Bool)
  | array (elements : List Value)

/-! ## Scalars -/

/-- The value of digits with single underscores between them. -/
def digits? (base : Nat) (value : Nat) (afterDigit : Bool) : Text → Option Nat
  | [] => if afterDigit then some value else none
  | c :: t =>
    if c = '_' then if afterDigit then digits? base value false t else none
    else (digitValue? base c).bind fun d => digits? base (value * base + d) true t

/-- A decimal number has no zero in front of other digits. -/
def decimal? (t : Text) : Option Nat :=
  match t with
  | '0' :: _ :: _ => none
  | t => digits? 10 0 false t

/-- A decimal number with or without a sign, or a number with the mark of its base. -/
def integer? : Text → Option Int
  | '+' :: t => (decimal? t).map Int.ofNat
  | '-' :: t => (decimal? t).map fun n => -(n : Int)
  | '0' :: 'x' :: t => (digits? 16 0 false t).map Int.ofNat
  | '0' :: 'o' :: t => (digits? 8 0 false t).map Int.ofNat
  | '0' :: 'b' :: t => (digits? 2 0 false t).map Int.ofNat
  | t => (decimal? t).map Int.ofNat

/-- The value a word stands for. -/
def Value.ofWord? (t : Text) : Option Value :=
  if t = "true".toList then some (.boolean true)
  else if t = "false".toList then some (.boolean false)
  else (integer? t).map .integer

/-! ## Entries -/

abbrev Entry := Text × Value

namespace Reader

/-- What may come next. -/
inductive Place
  | lineStart
  /-- After a key. -/
  | afterKey (key : Text)
  /-- Before a value, inside so many open arrays. Their elements are in reverse. -/
  | beforeValue (key : Text) (arrays : List (List Value))
  /-- After a value inside open arrays. -/
  | afterElement (key : Text) (arrays : List (List Value))
  | lineEnd

/-- The entries read so far, in reverse, and what may come next. -/
structure State where
  entries : List Entry := []
  place : Place := .lineStart

namespace State

variable (s : State)

def move (p : Place) : State :=
  { s with place := p }

/-- Put in a value that is complete. -/
def put (key : Text) (v : Value) : List (List Value) → State
  | [] => ⟨(key, v) :: s.entries, .lineEnd⟩
  | a :: outer => s.move (.afterElement key ((v :: a) :: outer))

/-- Close the innermost array. -/
def close? (key : Text) : List (List Value) → Option State
  | [] => none
  | a :: outer => some (s.put key (.array a.reverse) outer)

/-- Read one token. -/
def step (t : Token) : Option State :=
  match s.place, t with
  | .lineStart, .newline => some s
  | .lineStart, .word w => if w.all isBareKeyChar then some (s.move (.afterKey w)) else none
  | .lineStart, .string k false => some (s.move (.afterKey k))
  | .afterKey k, .equals => some (s.move (.beforeValue k []))
  | .beforeValue k arrays, .word w => (Value.ofWord? w).map fun v => s.put k v arrays
  | .beforeValue k arrays, .string v _ => some (s.put k (.string v) arrays)
  | .beforeValue k arrays, .openBracket => some (s.move (.beforeValue k ([] :: arrays)))
  | .beforeValue k arrays, .closeBracket => s.close? k arrays
  | .beforeValue _ (_ :: _), .newline => some s
  | .afterElement k arrays, .comma => some (s.move (.beforeValue k arrays))
  | .afterElement k arrays, .closeBracket => s.close? k arrays
  | .afterElement _ _, .newline => some s
  | .lineEnd, .newline => some (s.move .lineStart)
  | _, _ => none

/-- The entries, if the document may end here. -/
def finish? : Option (List Entry) :=
  match s.place with
  | .lineStart | .lineEnd => some s.entries.reverse
  | _ => none

end State

end Reader

/-- The entries of a document, in order, if it is well formed. -/
def entries? (t : Text) : Option (List Entry) := do
  let tokens ← tokens? t
  let s ← tokens.foldlM Reader.State.step {}
  s.finish?

end Keystroke.Toml
