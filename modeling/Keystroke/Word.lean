/-!
# Machine words

Numbers are 64-bit words. A sum past the largest word starts again at zero (`addWord`), and
up to there it is the sum of the numbers (`addWord_of_le`). A machine that checks its sums
stops at the others, so a statement that keeps its sums below the largest word is about
either machine. A text takes no more than `maxBytes` bytes, and to ask for more is a fault
on both.
-/

namespace Keystroke

/-- The largest word. -/
def maxWord : Nat :=
  0xFFFFFFFFFFFFFFFF

/-- The most bytes a text may take. -/
def maxBytes : Nat :=
  0x7FFFFFFFFFFFFFFF

/-- The sum of two words. -/
def addWord (x y : Nat) : Nat :=
  (x + y) % (maxWord + 1)

theorem maxBytes_le_maxWord : maxBytes ≤ maxWord := by
  decide

/-- What can be counted in bytes can be counted in words. -/
theorem le_maxWord {n : Nat} (h : n ≤ maxBytes) : n ≤ maxWord :=
  Nat.le_trans h maxBytes_le_maxWord

/-- A sum that is a word is the sum. -/
theorem addWord_of_le {x y : Nat} (h : x + y ≤ maxWord) : addWord x y = x + y :=
  Nat.mod_eq_of_lt (Nat.lt_succ_of_le h)

theorem addWord_le_maxWord (x y : Nat) : addWord x y ≤ maxWord :=
  Nat.le_of_lt_succ (Nat.mod_lt _ (Nat.succ_pos maxWord))

/-- What is lost does not depend on the order. -/
theorem addWord_assoc (x y z : Nat) : addWord (addWord x y) z = addWord x (addWord y z) := by
  rw [addWord, addWord, addWord, addWord, Nat.mod_add_mod, Nat.add_mod_mod, Nat.add_assoc]

/-- One more than the largest word is zero. -/
example : addWord maxWord 1 = 0 := by
  decide

end Keystroke
