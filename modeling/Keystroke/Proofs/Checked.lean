import Keystroke.Position
import Keystroke.Text.Scan

/-!
# Steps that may fault

Subtraction of natural numbers stops at zero here, division by zero gives zero, and a text is cut
between any two characters. A machine word cannot go below zero, nothing can be divided by zero,
and a text that is kept as UTF-8 is cut between bytes, which may be the bytes of one character.
`Checked` computations fault where a machine would stop. `Checked.slice` cuts a text at the byte
offsets of two characters and `Checked.leadingIndent` in front of the first byte of its content;
both always return, with the characters that are there (`Checked.slice_eq`,
`Checked.leadingIndent_eq`). A sum is no fault. Widths are added up as words (`addWord`), lengths
and indices are bounded by what a text may take.
-/

namespace Keystroke

/-- A slice up to the length of a text reaches to its end. -/
theorem Text.slice_length (t : Text) (first : Nat) : t.slice first t.length = t.drop first := by
  rw [slice, ← List.length_drop, List.take_length]

/-- Why a machine stops. -/
inductive Fault
  | divisionByZero
  | belowZero
  /-- Past the end of a text or a list, or ends in the wrong order. -/
  | outOfBounds
  /-- Between the bytes of one character. -/
  | splitCharacter
deriving DecidableEq

/-- A computation that may fault. -/
abbrev Checked := Except Fault

namespace Checked

/-! ## Numbers and lists -/

/-- A difference, which is not below zero. -/
def sub (a b : Nat) : Checked Nat :=
  if a < b then throw .belowZero else pure (a - b)

/-- A quotient. -/
def div (a b : Nat) : Checked Nat :=
  if b = 0 then throw .divisionByZero else pure (a / b)

/-- A remainder. -/
def mod (a b : Nat) : Checked Nat :=
  if b = 0 then throw .divisionByZero else pure (a % b)

/-- The element at an index. -/
def get {α : Type} (as : List α) (i : Nat) : Checked α :=
  match as[i]? with
  | some a => pure a
  | none => throw .outOfBounds

theorem sub_eq {a b : Nat} (h : b ≤ a) : sub a b = pure (a - b) :=
  if_neg (Nat.not_lt_of_le h)

theorem div_eq {b : Nat} (h : 0 < b) (a : Nat) : div a b = pure (a / b) :=
  if_neg (Nat.ne_of_gt h)

theorem mod_eq {b : Nat} (h : 0 < b) (a : Nat) : mod a b = pure (a % b) :=
  if_neg (Nat.ne_of_gt h)

theorem get_eq {α : Type} {as : List α} {i : Nat} {a : α} (h : as[i]? = some a) :
    get as i = pure a := by
  rw [get, h]

/-- A choice between two results returns. -/
theorem ite_pure {α : Type} (p : Prop) [Decidable p] (a b : α) :
    (if p then pure a else pure b : Checked α) = pure (if p then a else b) :=
  (apply_ite pure p a b).symm

/-! ## Cutting bytes -/

/-- The text without its first so many bytes. -/
def dropBytes : Text → Nat → Checked Text
  | t, 0 => pure t
  | [], _ + 1 => throw .outOfBounds
  | c :: t, n + 1 =>
    if n + 1 < c.utf8Size then throw .splitCharacter else dropBytes t (n + 1 - c.utf8Size)

/-- The first so many bytes of a text. -/
def takeBytes : Text → Nat → Checked Text
  | _, 0 => pure []
  | [], _ + 1 => throw .outOfBounds
  | c :: t, n + 1 =>
    if n + 1 < c.utf8Size then throw .splitCharacter
    else do return c :: (← takeBytes t (n + 1 - c.utf8Size))

/-- The text between two byte offsets. -/
def byteSlice (t : Text) (first last : Nat) : Checked Text :=
  if last < first then throw .outOfBounds
  else do takeBytes (← dropBytes t first) (last - first)

section

open Text

variable {c : Char} {s t u : Text}

theorem dropBytes_zero (t : Text) : dropBytes t 0 = pure t := by
  cases t <;> rfl

theorem takeBytes_zero (t : Text) : takeBytes t 0 = pure [] := by
  cases t <;> rfl

/-- The bytes of the first character come off first. -/
theorem dropBytes_cons (c : Char) (t : Text) (n : Nat) :
    dropBytes (c :: t) (c.utf8Size + n) = dropBytes t n := by
  obtain ⟨m, hm⟩ := Nat.exists_eq_add_one.mpr (Nat.add_pos_left c.utf8Size_pos n)
  rw [hm, dropBytes, if_neg (by omega), ← hm, Nat.add_sub_cancel_left]

theorem takeBytes_cons (c : Char) (t : Text) (n : Nat) :
    takeBytes (c :: t) (c.utf8Size + n) = (takeBytes t n).map (c :: ·) := by
  obtain ⟨m, hm⟩ := Nat.exists_eq_add_one.mpr (Nat.add_pos_left c.utf8Size_pos n)
  rw [hm, takeBytes, if_neg (by omega), ← hm, Nat.add_sub_cancel_left]
  rfl

/-- The bytes of a piece at the start of a text can be dropped. -/
theorem dropBytes_append (s u : Text) : dropBytes (s ++ u) (byteLength s) = pure u := by
  induction s with
  | nil => exact dropBytes_zero u
  | cons c s ih => rw [List.cons_append, byteLength, dropBytes_cons, ih]

/-- The bytes of a piece at the start of a text can be taken. -/
theorem takeBytes_append (s u : Text) : takeBytes (s ++ u) (byteLength s) = pure s := by
  induction s with
  | nil => exact takeBytes_zero u
  | cons c s ih =>
    rw [List.cons_append, byteLength, takeBytes_cons, ih]
    rfl

/-- Cut at its bytes, a piece of a text is found again. -/
theorem byteSlice_append (s t u : Text) :
    byteSlice (s ++ t ++ u) (byteLength s) (byteLength (s ++ t)) = pure t := by
  have hle : byteLength s ≤ byteLength (s ++ t) := by
    rw [byteLength_append]
    omega
  rw [byteSlice, if_neg (Nat.not_lt_of_le hle), List.append_assoc, dropBytes_append, pure_bind,
    byteLength_append, Nat.add_sub_cancel_left, takeBytes_append]

end

/-! ## Slices of a line -/

open Text

/-- The part of a text between two characters, cut at their byte offsets. Ends in the wrong order
give an empty part. -/
def slice (t : Text) (first last : Nat) : Checked Text :=
  byteSlice t (t.byteOffset first) (t.byteOffset (max last first))

/-- A slice returns, with the characters between the two indices. -/
theorem slice_eq (t : Text) (first last : Nat) :
    slice t first last = pure (t.slice first last) := by
  have hmax : max last first = first + (last - first) := by omega
  have hcut : t.take (max last first) = t.take first ++ t.slice first last := by
    rw [hmax, List.take_add, Text.slice]
  have hpiece := byteSlice_append (t.take first) (t.slice first last) (t.drop (max last first))
  rwa [← hcut, List.take_append_drop] at hpiece

/-- A slice up to the largest index reaches to the end. -/
theorem slice_maxCoordinate {t : Text} (h : t.length ≤ Position.maxCoordinate) (first : Nat) :
    slice t first Position.maxCoordinate = pure (t.drop first) := by
  rw [slice_eq, Text.slice, List.take_of_length_le]
  rw [List.length_drop]
  omega

/-- The offset of the first byte that belongs to no space and no tab. -/
def contentOffset : Text → Nat
  | [] => 0
  | c :: t => if isIndent c then c.utf8Size + contentOffset t else 0

/-- The first byte of the content is behind the bytes of the indentation. -/
theorem contentOffset_eq (t : Text) : contentOffset t = byteLength t.leadingIndent := by
  induction t with
  | nil => rfl
  | cons c t ih =>
    by_cases hc : isIndent c = true
    · have hcons : Text.leadingIndent (c :: t) = c :: Text.leadingIndent t :=
        List.takeWhile_cons_of_pos hc
      rw [hcons, byteLength, contentOffset, if_pos hc, ih]
    · have hnil : Text.leadingIndent (c :: t) = [] := List.takeWhile_cons_of_neg hc
      rw [hnil, contentOffset, if_neg hc]
      rfl

/-- The run of spaces and tabs a line starts with. -/
def leadingIndent (t : Text) : Checked Text :=
  byteSlice t 0 (contentOffset t)

/-- Indentation is cut off in front of a character. -/
theorem leadingIndent_eq (t : Text) : leadingIndent t = pure t.leadingIndent := by
  have hpiece := byteSlice_append [] t.leadingIndent t.content
  rwa [List.nil_append, leadingIndent_append_content, ← contentOffset_eq] at hpiece

/-- Index of the last character that is not a space or a tab, found from the end. -/
def lastContent (t : Text) : Checked (Option Nat) :=
  match Text.firstContent? t.reverse with
  | some back => do return some (← sub (← sub t.length back) 1)
  | none => pure none

/-- The last content character is where it was. -/
theorem lastContent_eq (t : Text) : lastContent t = pure t.lastContent? := by
  rw [lastContent, lastContent?]
  cases hback : Text.firstContent? t.reverse with
  | none => rfl
  | some back =>
    obtain ⟨hlt, -⟩ := List.findIdx?_eq_some_iff_getElem.mp hback
    rw [List.length_reverse] at hlt
    simp only [sub_eq (Nat.le_of_lt hlt), pure_bind, sub_eq (show 1 ≤ t.length - back by omega)]
    rfl

end Checked

end Keystroke
