import Keystroke.Text.Basic
import Keystroke.Unicode.BreakClass

/-!
# Grapheme clusters

What a reader takes for one character may be several code points : a letter with its
accents, a syllable, a family of emoji, a flag. `clusters` cuts a text into these
units. It reads from the left and remembers of the cluster it is in only the `Tail`
the rules look at; `Tail.joins` says whether the next character belongs to the
cluster. The clusters of a text concatenate back to it (`flatten_clusters`) and none
is empty (`ne_nil_of_mem_clusters`).
-/

namespace Keystroke

open Unicode

namespace Cluster

/-- The end of a cluster, as far as it decides what may still join it. -/
inductive Tail
  | carriageReturn
  | control
  | leadingJamo
  | vowelJamo
  | trailingJamo
  | prepend
  /-- A regional indicator without a partner. -/
  | regionalIndicator
  /-- A pictograph with marks after it. -/
  | pictograph
  /-- A pictograph with marks and then a joiner. -/
  | joinedPictograph
  /-- A consonant with marks after it. -/
  | consonant
  /-- A consonant with marks, one of them a linker. -/
  | linkedConsonant
  | other
deriving DecidableEq

namespace Tail

/-- The tail of a cluster of one character. -/
def start : BreakClass → Tail
  | .carriageReturn => carriageReturn
  | .lineFeed | .control => control
  | .leadingJamo => leadingJamo
  | .vowelJamo | .openSyllable => vowelJamo
  | .trailingJamo | .closedSyllable => trailingJamo
  | .prepend => prepend
  | .regionalIndicator => regionalIndicator
  | .pictograph => pictograph
  | .consonant => consonant
  | .extend | .linker | .nonJoiner | .joiner | .spacingMark | .other => other

/-- Whether a character of the given class belongs to the cluster. -/
def joins : Tail → BreakClass → Bool
  | carriageReturn, .lineFeed => true
  | carriageReturn, _ | control, _ => false
  | _, .carriageReturn | _, .lineFeed | _, .control => false
  | _, .extend | _, .linker | _, .nonJoiner | _, .joiner | _, .spacingMark => true
  | prepend, _ => true
  | leadingJamo, .leadingJamo | leadingJamo, .vowelJamo => true
  | leadingJamo, .openSyllable | leadingJamo, .closedSyllable => true
  | vowelJamo, .vowelJamo | vowelJamo, .trailingJamo => true
  | trailingJamo, .trailingJamo => true
  | linkedConsonant, .consonant => true
  | joinedPictograph, .pictograph => true
  | regionalIndicator, .regionalIndicator => true
  | _, _ => false

/-- The tail once a character of the given class has joined. -/
def next (t : Tail) (b : BreakClass) : Tail :=
  match b with
  | .extend =>
    match t with
    | pictograph | consonant | linkedConsonant => t
    | _ => other
  | .linker =>
    match t with
    | pictograph => pictograph
    | consonant | linkedConsonant => linkedConsonant
    | _ => other
  | .nonJoiner =>
    match t with
    | pictograph => pictograph
    | _ => other
  | .joiner =>
    match t with
    | pictograph => joinedPictograph
    | consonant | linkedConsonant => t
    | _ => other
  | .regionalIndicator =>
    match t with
    | regionalIndicator => other
    | _ => regionalIndicator
  | b => start b

end Tail

/-- Read on inside a cluster : the characters that still belong to it, and the
clusters after it. -/
def readFrom (tail : Tail) : Text → Text × List Text
  | [] => ([], [])
  | c :: t =>
    let b := BreakClass.ofChar c
    if tail.joins b then
      let r := readFrom (tail.next b) t
      (c :: r.1, r.2)
    else
      let r := readFrom (Tail.start b) t
      ([], (c :: r.1) :: r.2)

end Cluster

open Cluster

/-- The grapheme clusters of a text, in order. -/
def clusters : Text → List Text
  | [] => []
  | c :: t =>
    let r := readFrom (Tail.start (BreakClass.ofChar c)) t
    (c :: r.1) :: r.2

theorem Cluster.flatten_readFrom (tail : Tail) (t : Text) :
    (readFrom tail t).1 ++ (readFrom tail t).2.flatten = t := by
  induction t generalizing tail with
  | nil => rfl
  | cons c t ih =>
    by_cases h : tail.joins (BreakClass.ofChar c) = true
    · simp [readFrom, h, ih]
    · simp [readFrom, h, ih]

/-- The clusters of a text concatenate back to it. -/
theorem flatten_clusters (t : Text) : (clusters t).flatten = t := by
  cases t with
  | nil => rfl
  | cons c t => simp [clusters, flatten_readFrom]

theorem Cluster.ne_nil_of_mem_readFrom {tail : Tail} {t g : Text}
    (h : g ∈ (readFrom tail t).2) : g ≠ [] := by
  induction t generalizing tail with
  | nil => simp [readFrom] at h
  | cons c t ih =>
    by_cases hj : tail.joins (BreakClass.ofChar c) = true
    · exact ih (by simpa [readFrom, hj] using h)
    · rw [readFrom, if_neg hj] at h
      rcases List.mem_cons.mp h with rfl | h
      · simp
      · exact ih h

/-- No cluster is empty. -/
theorem ne_nil_of_mem_clusters {t g : Text} (h : g ∈ clusters t) : g ≠ [] := by
  cases t with
  | nil => simp [clusters] at h
  | cons c t =>
    rcases List.mem_cons.mp h with rfl | h
    · simp
    · exact ne_nil_of_mem_readFrom h

end Keystroke
