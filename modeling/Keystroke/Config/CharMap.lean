/-!
# Tables keyed by a character

A finite map from characters, kept as a list of entries in ascending order of their
keys with no key twice. Two tables with the same entries are therefore equal, whatever
order the entries were put in. Putting in a key again replaces its value
(`get?_insert`), so of a list of pairs the last one with a key counts.
-/

namespace Keystroke

/-- A finite map from characters, its entries in ascending order. -/
structure CharMap (α : Type) where
  entries : List (Char × α)
deriving DecidableEq

namespace CharMap

variable {α : Type}

/-- Put an entry in its place among entries in ascending order. -/
def insertEntry (k : Char) (v : α) : List (Char × α) → List (Char × α)
  | [] => [(k, v)]
  | e :: es =>
    if k < e.1 then (k, v) :: e :: es
    else if k = e.1 then (k, v) :: es
    else e :: insertEntry k v es

def empty : CharMap α :=
  ⟨[]⟩

/-- Put in an entry, in place of one with its key. -/
def insert (m : CharMap α) (k : Char) (v : α) : CharMap α :=
  ⟨insertEntry k v m.entries⟩

/-- The value of a key. -/
def get? (m : CharMap α) (k : Char) : Option α :=
  m.entries.lookup k

def contains (m : CharMap α) (k : Char) : Bool :=
  (m.get? k).isSome

/-- The table of a list of entries, later ones replacing earlier ones. -/
def ofList (entries : List (Char × α)) : CharMap α :=
  entries.foldl (fun m e => m.insert e.1 e.2) empty

/-- Only the key that is put in is found otherwise than before. -/
theorem lookup_insertEntry (k : Char) (v : α) (es : List (Char × α)) (x : Char) :
    (insertEntry k v es).lookup x = if x = k then some v else es.lookup x := by
  induction es with
  | nil => by_cases h : x = k <;> simp [insertEntry, List.lookup_cons, h, beq_eq_false_iff_ne.mpr]
  | cons e es ih =>
    obtain ⟨a, w⟩ := e
    simp only [insertEntry]
    split
    · by_cases h : x = k <;> simp [List.lookup_cons, h, beq_eq_false_iff_ne.mpr]
    · split
      · rename_i h
        subst h
        by_cases h : x = k <;> simp [List.lookup_cons, h, beq_eq_false_iff_ne.mpr]
      · rename_i hne
        by_cases h : x = a
        · subst h
          simp [Ne.symm hne]
        · rw [List.lookup_cons, List.lookup_cons, beq_eq_false_iff_ne.mpr h]
          exact ih

/-- The last entry put in for a key is the one found. -/
theorem get?_insert (m : CharMap α) (k : Char) (v : α) (x : Char) :
    (m.insert k v).get? x = if x = k then some v else m.get? x :=
  lookup_insertEntry k v m.entries x

@[simp] theorem get?_empty (x : Char) : (empty : CharMap α).get? x = none := rfl

@[simp] theorem contains_empty (x : Char) : (empty : CharMap α).contains x = false := rfl

/-- Putting in an entry adds its key and takes none out. -/
theorem contains_insert (m : CharMap α) (k : Char) (v : α) (x : Char) :
    (m.insert k v).contains x = (x == k || m.contains x) := by
  rw [contains, get?_insert]
  by_cases h : x = k
  · simp [h]
  · simp [contains, h, beq_eq_false_iff_ne.mpr]

/-- Entries put in one after the other add their keys. -/
theorem contains_foldl_insert (entries : List (Char × α)) (m : CharMap α) (x : Char) :
    (entries.foldl (fun m e => m.insert e.1 e.2) m).contains x
      = (entries.any (fun e => x == e.1) || m.contains x) := by
  induction entries generalizing m with
  | nil => simp
  | cons e es ih => rw [List.foldl_cons, ih, contains_insert, List.any_cons, ← Bool.or_assoc,
      Bool.or_comm (es.any _)]

/-- The keys of the table of a list are the keys in the list. -/
theorem contains_ofList (entries : List (Char × α)) (x : Char) :
    (ofList entries).contains x = entries.any fun e => x == e.1 := by
  rw [ofList, contains_foldl_insert, contains_empty, Bool.or_false]

end CharMap

end Keystroke
