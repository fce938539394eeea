import Keystroke.Proofs.NormalForm
import Keystroke.Proofs.Settings

/-!
# What settings are built from

Settings start from an indentation style or from a document (`Config.Origin`), and then they
are changed any number of times (`Config.Setter`). That gives the settings that are built one
change at a time, and no others (`Config.built_iff_exists_build`). However they are built, one
list of pairs is in effect, the one given last, and both tables of pairs are filled from it
(`Config.autoClosingPairs_build`). The two tables have different keys, so a pair that is
replaced in one may be found in the other : every closer that is put in is known as a closer,
and the converse needs that no opener comes twice (`Config.build_consistent`). A level of
indentation is in the style it is made for, unless a text has no room for so many spaces
(`Config.build_oneIndent_wide`).
-/

namespace Keystroke

/-! ## A level of indentation -/

namespace IndentStyle

variable {s : IndentStyle}

/-- A level is indentation as wide as a tab. -/
theorem ofWidth_tabSize (h : 0 < s.tabSize) : s.ofWidth s.tabSize = s.oneIndent := by
  rw [ofWidth, oneIndent, Nat.div_self h, Nat.mod_self]
  rfl

theorem spacing_oneIndent (h : 0 < s.tabSize) : s.oneIndent.spacing s.tabSize = s.tabSize := by
  rw [← ofWidth_tabSize h, spacing_ofWidth]

/-- A level of indentation is its own normal form, if there is room for one. -/
theorem normalize?_oneIndent (h : 0 < s.tabSize) (hle : s.tabSize ≤ maxBytes) :
    s.normalize? s.oneIndent = some s.oneIndent := by
  have hindent := s.allIndent_oneIndent
  have hfits : s.Fits s.oneIndent := by
    rw [Fits, hindent.leadingIndent, hindent.content, spacing_oneIndent h]
    exact hle
  rw [hfits.normalize?_eq h, normalize_eq hfits.spacing_le, hindent.leadingIndent,
    hindent.content, spacing_oneIndent h, ofWidth_tabSize h, List.append_nil]

/-- Both counts of its width give a tab. -/
theorem width_oneIndent (h : 0 < s.tabSize) (hle : s.tabSize ≤ maxWord) :
    indentWidth s.tabSize s.oneIndent = s.tabSize ∧
      visibleColumn s.oneIndent (s.oneIndent.length + 1) s.tabSize = s.tabSize := by
  rw [← ofWidth_tabSize h]
  exact ⟨s.indentWidth_ofWidth hle, s.visibleColumn_ofWidth hle⟩

end IndentStyle

namespace Config

/-! ## Building -/

/-- What settings start from. -/
inductive Origin
  | style (s : IndentStyle)
  | document (t : Text)

/-- One change to settings. -/
inductive Setter
  | autoClosing (enabled : Bool)
  | autoClosingPairs (pairs : List (Char × Char))
  | surroundingPairs (pairs : List (Char × Char))
  | electricChars (chars : List Char)

/-- The settings to start from. A document may give none. -/
def Origin.config : Origin → Except ConfigError Config
  | style s => .ok (ofStyle s)
  | document t => ofDocument t

/-- What the origin says. -/
def Origin.settings? : Origin → Option Settings
  | style s => some { tabSize := max s.tabSize 1, insertSpaces := s.insertSpaces }
  | document t => Settings.ofDocument? t

def Setter.apply (c : Config) : Setter → Config
  | autoClosing enabled => c.withAutoClosing enabled
  | autoClosingPairs pairs => c.withAutoClosingPairs pairs
  | surroundingPairs pairs => c.withSurroundingPairs pairs
  | electricChars chars => c.withElectricChars chars

/-- The settings after all changes, one after the other. -/
def build (o : Origin) (setters : List Setter) : Except ConfigError Config :=
  o.config.map fun c => setters.foldl Setter.apply c

variable {c : Config} {o : Origin} {setters : List Setter} {pairs : List (Char × Char)}

/-- Settings are built from some that an origin gives. -/
theorem exists_start (h : build o setters = .ok c) :
    ∃ start, o.config = .ok start ∧ setters.foldl Setter.apply start = c := by
  unfold build at h
  cases hconfig : o.config with
  | error e =>
    rw [hconfig] at h
    cases h
  | ok start =>
    rw [hconfig] at h
    exact ⟨start, rfl, Except.ok.inj h⟩

/-- A further change. -/
theorem build_append_singleton {x : Setter} (h : build o setters = .ok c) :
    build o (setters ++ [x]) = .ok (x.apply c) := by
  obtain ⟨start, hconfig, rfl⟩ := exists_start h
  rw [build, hconfig, Except.map, List.foldl_append, List.foldl_cons, List.foldl_nil]

theorem Origin.built (h : o.config = .ok c) : c.Built := by
  cases o with
  | style s =>
    obtain rfl := Except.ok.inj h
    exact .ofStyle s
  | document t => exact built_ofDocument h

theorem Built.apply (h : c.Built) (x : Setter) : (x.apply c).Built :=
  match x with
  | .autoClosing enabled => h.withAutoClosing enabled
  | .autoClosingPairs pairs => h.withAutoClosingPairs pairs
  | .surroundingPairs pairs => h.withSurroundingPairs pairs
  | .electricChars chars => h.withElectricChars chars

theorem built_of_build (h : build o setters = .ok c) : c.Built := by
  obtain ⟨start, hconfig, rfl⟩ := exists_start h
  exact List.foldlRecOn setters Setter.apply (Origin.built hconfig) fun _ h x _ => h.apply x

theorem Built.exists_build (h : c.Built) : ∃ o setters, build o setters = .ok c := by
  induction h with
  | ofStyle s => exact ⟨.style s, [], rfl⟩
  | withAutoClosing _ enabled ih =>
    obtain ⟨o, setters, h⟩ := ih
    exact ⟨o, _, build_append_singleton (x := .autoClosing enabled) h⟩
  | withAutoClosingPairs _ pairs ih =>
    obtain ⟨o, setters, h⟩ := ih
    exact ⟨o, _, build_append_singleton (x := .autoClosingPairs pairs) h⟩
  | withSurroundingPairs _ pairs ih =>
    obtain ⟨o, setters, h⟩ := ih
    exact ⟨o, _, build_append_singleton (x := .surroundingPairs pairs) h⟩
  | withElectricChars _ chars ih =>
    obtain ⟨o, setters, h⟩ := ih
    exact ⟨o, _, build_append_singleton (x := .electricChars chars) h⟩

/-- Settings built one change at a time are those that changes in a row build. -/
theorem built_iff_exists_build : c.Built ↔ ∃ o setters, build o setters = .ok c :=
  ⟨Built.exists_build, fun ⟨_, _, h⟩ => built_of_build h⟩

/-! ## The pairs in effect -/

/-- The list of pairs that close themselves after a change to a list. -/
def Setter.pairsGiven (pairs : List (Char × Char)) : Setter → List (Char × Char)
  | autoClosingPairs given => given
  | autoClosing _ | surroundingPairs _ | electricChars _ => pairs

/-- No change touches the style, and only a new list touches the pairs. -/
theorem autoClosingPairs_foldl (setters : List Setter) (c : Config)
    (h : c.autoClosingPairs = .ofList pairs) :
    (setters.foldl Setter.apply c).style = c.style ∧
      (setters.foldl Setter.apply c).autoClosingPairs =
        .ofList (setters.foldl Setter.pairsGiven pairs) := by
  induction setters generalizing c pairs with
  | nil => exact ⟨rfl, h⟩
  | cons x setters ih =>
    have hpairs : (x.apply c).autoClosingPairs = .ofList (x.pairsGiven pairs) := by
      cases x with
      | autoClosingPairs given => rfl
      | _ => exact h
    have hstyle : (x.apply c).style = c.style := by cases x <;> rfl
    rw [← hstyle]
    exact ih (x.apply c) hpairs

theorem Origin.exists_settings (h : o.config = .ok c) : ∃ given, o.settings? = some given ∧
    c.style = ⟨given.tabSize, given.insertSpaces⟩ ∧
      c.autoClosingPairs = .ofList given.autoClosingPairs := by
  cases o with
  | style s =>
    obtain rfl := Except.ok.inj h
    exact ⟨_, rfl, rfl, rfl⟩
  | document t =>
    have h : ofDocument t = .ok c := h
    unfold ofDocument at h
    split at h
    · rename_i given hgiven
      unfold Settings.toConfig at h
      split at h
      · cases h
      · rename_i hsize
        obtain rfl := Except.ok.inj h
        have hmax : max given.tabSize 1 = given.tabSize := by omega
        exact ⟨given, hgiven, congrArg (IndentStyle.mk · given.insertSpaces) hmax, rfl⟩
    · cases h

/-- The style is what the origin says, and the pairs are those of the list given last. -/
theorem autoClosingPairs_build (h : build o setters = .ok c) : ∃ given, o.settings? = some given ∧
    c.style = ⟨given.tabSize, given.insertSpaces⟩ ∧
      c.autoClosingPairs = .ofList (setters.foldl Setter.pairsGiven given.autoClosingPairs) := by
  obtain ⟨start, hconfig, rfl⟩ := exists_start h
  obtain ⟨given, hgiven, hstyle, hpairs⟩ := Origin.exists_settings hconfig
  obtain ⟨hsame, htable⟩ := autoClosingPairs_foldl setters start hpairs
  exact ⟨given, hgiven, hsame.trans hstyle, htable⟩

/-! ## What holds of all settings -/

/-- Settings with a style and with the tables of a list of pairs. -/
structure Consistent (c : Config) (s : IndentStyle) (pairs : List (Char × Char)) : Prop where
  style : c.tabSize = s.tabSize ∧ c.insertSpaces = s.insertSpaces
  one_le_tabSize : 1 ≤ c.tabSize
  oneIndent : c.oneIndent = if c.insertSpaces then List.replicate c.tabSize ' ' else ['\t']
  /-- A level of indentation is its own normal form, if a text has room for it. -/
  normal : c.tabSize ≤ maxBytes → c.style.normalize? c.oneIndent = some c.oneIndent
  spacing : c.oneIndent.spacing c.tabSize = c.tabSize
  /-- It is as wide as a tab, by its count and on the screen. -/
  width : c.tabSize ≤ maxWord → indentWidth c.tabSize c.oneIndent = c.tabSize ∧
    visibleColumn c.oneIndent (c.oneIndent.length + 1) c.tabSize = c.tabSize
  /-- An opener puts in the closer of its last pair in the list. -/
  closerOf?_eq_some_iff : ∀ opener closer,
    c.closerOf? opener = some closer ↔ LastFor pairs opener closer
  /-- Every closer that is put in is known as one. -/
  isCloser_of_closerOf? : ∀ opener closer,
    c.closerOf? opener = some closer → c.isCloser closer = true
  /-- If no opener comes twice, only those are. -/
  isCloser_iff : (pairs.map Prod.fst).Nodup →
    ∀ x, c.isCloser x = true ↔ ∃ opener, c.closerOf? opener = some x

theorem consistent_of {s : IndentStyle} (hbuilt : c.Built) (hstyle : c.style = s)
    (hpairs : c.autoClosingPairs = .ofList pairs) : c.Consistent s pairs := by
  have hcloser (opener closer : Char) :
      c.closerOf? opener = some closer ↔ LastFor pairs opener closer := by
    rw [closerOf?, hpairs, PairTable.get?_closers_ofList_iff]
  have hknown (x : Char) : c.isCloser x = true ↔ ∃ opener, (opener, x) ∈ pairs := by
    rw [isCloser, hpairs, PairTable.contains_openers_ofList_iff]
  subst hstyle
  exact {
    style := ⟨rfl, rfl⟩
    one_le_tabSize := c.tabSize_pos
    oneIndent := rfl
    normal := IndentStyle.normalize?_oneIndent c.tabSize_pos
    spacing := IndentStyle.spacing_oneIndent c.tabSize_pos
    width := IndentStyle.width_oneIndent c.tabSize_pos
    closerOf?_eq_some_iff := hcloser
    isCloser_of_closerOf? := fun _ _ => hbuilt.isCloser_of_closerOf?
    isCloser_iff := fun hnodup x => by
      simp only [hknown, hcloser, lastFor_iff_mem hnodup] }

/-- Settings have the style of their origin and the tables of the list of pairs given last, in
whatever way they are built. -/
theorem build_consistent (h : build o setters = .ok c) : ∃ given, o.settings? = some given ∧
    c.Consistent ⟨given.tabSize, given.insertSpaces⟩
      (setters.foldl Setter.pairsGiven given.autoClosingPairs) := by
  obtain ⟨given, hgiven, hstyle, hpairs⟩ := autoClosingPairs_build h
  exact ⟨given, hgiven, consistent_of (built_of_build h) hstyle hpairs⟩

/-- A document with one pair, and then a list in which an opener comes twice. -/
theorem build_consistent_document :
    let t : Text := "tab-size = 2\nauto-closing-pairs = [['<', '>']]".toList
    let pairs := [('(', ')'), ('(', ']')]
    ∃ c, build (.document t) [.autoClosingPairs pairs, .autoClosing false] = .ok c ∧
      c.tabSize = 2 ∧ c.closerOf? '(' = some ']' ∧ c.isCloser ']' = true := by
  intro t pairs
  let given : Settings := { tabSize := 2, autoClosingPairs := [('<', '>')] }
  have hgiven : (Origin.document t).settings? = some given := by rfl
  have hbuild : build (.document t) [.autoClosingPairs pairs, .autoClosing false] =
      .ok (((ofStyle ⟨2, true⟩).withAutoClosingPairs pairs).withAutoClosing false) := by rfl
  obtain ⟨given', hgiven', hc⟩ := build_consistent hbuild
  obtain rfl : given = given' := Option.some.inj (hgiven.symm.trans hgiven')
  have hlast : LastFor pairs '(' ']' := ⟨[('(', ')')], [], rfl, by simp⟩
  have hcloser := (hc.closerOf?_eq_some_iff '(' ']').mpr hlast
  exact ⟨_, hbuild, hc.style.1, hcloser, hc.isCloser_of_closerOf? '(' ']' hcloser⟩

/-- A tab that no text has room for in spaces. A level of indentation is one tab, and it has no
normal form. -/
theorem build_oneIndent_wide :
    ∃ c, build (.style ⟨maxBytes + 1, false⟩) [] = .ok c ∧ c.oneIndent = ['\t'] ∧
      c.style.normalize? c.oneIndent = none :=
  ⟨ofStyle ⟨maxBytes + 1, false⟩, rfl, rfl, by decide +kernel⟩

/-- The closer of a pair that is replaced is still known as a closer, and no opener puts it in. -/
example :
    let c := standard.withAutoClosingPairs [('(', ')'), ('(', ']')]
    c.isCloser ')' = true ∧ c.closerOf? '(' = some ']' := by
  decide

end Config

end Keystroke
