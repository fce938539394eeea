import Keystroke.Config.Document
import Mathlib.Data.List.Induction

/-!
# Settings as they are built

Settings start from the defaults in some indentation style, and their switches and tables
are set in any order and any number of times (`Config.Built`); a document gives settings
of that kind too (`Config.built_ofDocument`). The table of pairs that close themselves is
always the table of one list. Among pairs with the same opener the last one counts
(`PairTable.get?_closers_ofList_iff`). An opener puts in a closer of that list, and every such
closer is known as one (`Config.Built.isCloser_of_closerOf?`), also where a later pair
has replaced an earlier one.
-/

namespace Keystroke

/-! ## The last entry of a key -/

/-- The last entry with the key has the value. -/
def LastFor {α : Type} (entries : List (Char × α)) (k : Char) (v : α) : Prop :=
  ∃ front rest, entries = front ++ (k, v) :: rest ∧ ∀ e ∈ rest, e.1 ≠ k

section

variable {α : Type} {entries : List (Char × α)} {k : Char} {v : α}

theorem not_lastFor_nil : ¬LastFor [] k v := by
  rintro ⟨front, rest, h, -⟩
  simp at h

theorem LastFor.mem (h : LastFor entries k v) : (k, v) ∈ entries := by
  obtain ⟨front, rest, rfl, -⟩ := h
  simp

/-- An entry at the end is the last one of its key, and no entry of another. -/
theorem lastFor_append_singleton {e : Char × α} :
    LastFor (entries ++ [e]) k v ↔ if k = e.1 then e.2 = v else LastFor entries k v := by
  constructor
  · rintro ⟨front, rest, h, hrest⟩
    rcases List.eq_nil_or_concat rest with rfl | ⟨rest, e', rfl⟩
    · obtain rfl := List.singleton_inj.mp (List.append_inj_right' h rfl)
      rw [if_pos rfl]
    · rw [List.concat_eq_append] at h hrest
      rw [← List.cons_append, ← List.append_assoc] at h
      obtain ⟨rfl, he⟩ := List.append_inj' h rfl
      obtain rfl := List.singleton_inj.mp he
      rw [if_neg (hrest e (by simp)).symm]
      exact ⟨front, rest, rfl, fun e' he' => hrest e' (List.mem_append_left _ he')⟩
  · split
    · rename_i hk
      rintro rfl
      exact ⟨entries, [], by rw [hk], by simp⟩
    · rename_i hk
      rintro ⟨front, rest, rfl, hrest⟩
      refine ⟨front, rest ++ [e], by simp, fun e' he' => ?_⟩
      rcases List.mem_append.mp he' with he' | he'
      · exact hrest e' he'
      · rw [List.mem_singleton.mp he']
        exact Ne.symm hk

/-- If no key comes twice, every entry is the last one of its key. -/
theorem lastFor_iff_mem (h : (entries.map Prod.fst).Nodup) :
    LastFor entries k v ↔ (k, v) ∈ entries := by
  refine ⟨LastFor.mem, fun hmem => ?_⟩
  obtain ⟨front, rest, rfl⟩ := List.append_of_mem hmem
  refine ⟨front, rest, rfl, fun e he hk => ?_⟩
  rw [List.map_append, List.map_cons, List.nodup_append, List.nodup_cons] at h
  exact h.2.1.1 (List.mem_map.mpr ⟨e, he, hk⟩)

/-- The table of a list has the last value of every key. -/
theorem CharMap.get?_ofList_eq_some_iff :
    (CharMap.ofList entries).get? k = some v ↔ LastFor entries k v := by
  induction entries using List.reverseRecOn with
  | nil => simp [CharMap.ofList, not_lastFor_nil]
  | append_singleton entries e ih =>
    rw [lastFor_append_singleton, ← ih, CharMap.ofList, List.foldl_append, List.foldl_cons,
      List.foldl_nil, CharMap.get?_insert, CharMap.ofList]
    split <;> simp

end

/-! ## Tables of pairs -/

namespace PairTable

variable {pairs : List (Char × Char)}

theorem foldl_insert (pairs : List (Char × Char)) (t : PairTable) :
    pairs.foldl (fun t p => t.insert p.1 p.2) t =
      ⟨pairs.foldl (fun m e => m.insert e.1 e.2) t.closers,
        (pairs.map Prod.swap).foldl (fun m e => m.insert e.1 e.2) t.openers⟩ := by
  induction pairs generalizing t with
  | nil => rfl
  | cons p ps ih => exact ih (t.insert p.1 p.2)

/-- The closers and the openers are the tables of the list, read from either side. -/
theorem ofList_eq (pairs : List (Char × Char)) :
    ofList pairs = ⟨.ofList pairs, .ofList (pairs.map Prod.swap)⟩ :=
  foldl_insert pairs empty

/-- An opener has the closer of its last pair. -/
theorem get?_closers_ofList_iff {opener closer : Char} :
    (ofList pairs).closers.get? opener = some closer ↔ LastFor pairs opener closer := by
  rw [ofList_eq, CharMap.get?_ofList_eq_some_iff]

/-- The closer of any pair is known, also of one that is replaced. -/
theorem contains_openers_ofList_iff {x : Char} :
    (ofList pairs).openers.contains x = true ↔ ∃ opener, (opener, x) ∈ pairs := by
  rw [ofList_eq, CharMap.contains_ofList, List.any_eq_true]
  simp

/-- The closers an opener may put in are among the closers of the list. -/
theorem contains_openers_of_get? {opener closer : Char}
    (h : (ofList pairs).closers.get? opener = some closer) :
    (ofList pairs).openers.contains closer = true :=
  contains_openers_ofList_iff.mpr ⟨opener, (get?_closers_ofList_iff.mp h).mem⟩

end PairTable

/-! ## Settings -/

namespace Config

/-- Settings as they are built from the defaults. -/
inductive Built : Config → Prop
  | ofStyle (s : IndentStyle) : Built (ofStyle s)
  | withAutoClosing {c : Config} : Built c → ∀ enabled, Built (c.withAutoClosing enabled)
  | withAutoClosingPairs {c : Config} : Built c → ∀ pairs, Built (c.withAutoClosingPairs pairs)
  | withSurroundingPairs {c : Config} : Built c → ∀ pairs, Built (c.withSurroundingPairs pairs)
  | withElectricChars {c : Config} : Built c → ∀ chars, Built (c.withElectricChars chars)

variable {c : Config}

theorem built_toConfig {s : Settings} (h : s.toConfig = .ok c) : c.Built := by
  unfold Settings.toConfig at h
  split at h
  · cases h
  · obtain rfl := Except.ok.inj h
    have hstyle := Built.ofStyle ⟨s.tabSize, s.insertSpaces⟩
    have hclosing := (hstyle.withAutoClosing s.autoClosing).withAutoClosingPairs s.autoClosingPairs
    exact (hclosing.withSurroundingPairs s.surroundingPairs).withElectricChars s.electricChars

/-- The settings of a document are built like any others. -/
theorem built_ofDocument {t : Text} (h : Config.ofDocument t = .ok c) : c.Built := by
  unfold Config.ofDocument at h
  split at h
  · exact built_toConfig h
  · cases h

/-- The pairs that close themselves are those of one list. -/
theorem Built.exists_pairs (h : c.Built) : ∃ pairs, c.autoClosingPairs = .ofList pairs := by
  induction h with
  | ofStyle s => exact ⟨defaultAutoClosingPairs, rfl⟩
  | withAutoClosing _ _ ih => exact ih
  | withAutoClosingPairs _ pairs _ => exact ⟨pairs, rfl⟩
  | withSurroundingPairs _ _ ih => exact ih
  | withElectricChars _ _ ih => exact ih

/-- Every closer that an opener puts in is known as a closer. -/
theorem Built.isCloser_of_closerOf? (h : c.Built) {opener closer : Char}
    (ho : c.closerOf? opener = some closer) : c.isCloser closer = true := by
  obtain ⟨pairs, hpairs⟩ := h.exists_pairs
  rw [closerOf?, hpairs] at ho
  rw [isCloser, hpairs]
  exact PairTable.contains_openers_of_get? ho

end Config

end Keystroke
