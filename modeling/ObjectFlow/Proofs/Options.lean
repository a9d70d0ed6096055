import ObjectFlow.Options
import ObjectFlow.Proofs.Text.Runs

/-!
# Reading a written option

`parse_entry`: the text `key:value` sets this one option if the key is a key and the value stands on
one line, without a semicolon and without blanks at its ends. The value may hold colons.
-/

namespace ObjectFlow.Options

open Text

/-- A letter and key characters after it. -/
def IsKey (key : List Char) : Prop :=
  key.head?.any Char.isAlpha = true ∧ ∀ c ∈ key, isKeyChar c = true

instance (key : List Char) : Decidable (IsKey key) :=
  decidable_of_iff (key.head?.any Char.isAlpha = true ∧ key.all isKeyChar = true) (by simp [IsKey])

/-- Nothing of the value is cut off when it is read. -/
structure IsValue (value : List Char) : Prop where
  line : '\n' ∉ value
  whole : ';' ∉ value
  trimmed : trimChars value = value

theorem solid_isAlpha : Solid Char.isAlpha := solid_of_blankCodes (by decide)

section
variable {key value : List Char}

/-- A key begins with a letter, so with no blank. -/
theorem IsKey.exists_first (h : IsKey key) :
    ∃ first rest, key = first :: rest ∧ first.isAlpha = true ∧ isBlank first = false := by
  cases key with
  | nil => exact absurd h.1 (by decide)
  | cons first rest => exact ⟨first, rest, rfl, h.1, solid_isAlpha first h.1⟩

theorem readEntry?_append (hkey : IsKey key) (hvalue : IsValue value) :
    readEntry? (key ++ ':' :: value) = some (String.ofList key, String.ofList value) := by
  have hcolon : Stops isKeyChar (':' :: value) := stops_cons.2 (by decide)
  have hnone : dropBlanks (':' :: value) = ':' :: value :=
    dropBlanks_of_stops (stops_cons.2 (by decide))
  obtain ⟨first, rest, hfirst, halpha, hblank⟩ := hkey.exists_first
  have hfront : dropBlanks (key ++ ':' :: value) = key ++ ':' :: value := by
    rw [hfirst]
    exact dropBlanks_of_stops (stops_cons.2 hblank)
  have hhead : (key ++ ':' :: value).head? = some first := by simp [hfirst]
  simp [hfront, readEntry?, hhead, dropWhile_append hkey.2 hcolon, takeWhile_append hkey.2 hcolon,
    hnone, hvalue.trimmed, halpha, hvalue.line]

end

section
variable {key value : String}

/-- An option is read from its text. -/
theorem parse_entry (hkey : IsKey key.toList) (hvalue : IsValue value.toList) :
    parse (key ++ ":" ++ value) = .ok (set ∅ key value) := by
  have htext : (key ++ ":" ++ value).toList = key.toList ++ ':' :: value.toList := by simp
  have hsegment : ';' ∉ key.toList ++ ':' :: value.toList := by
    simp only [List.mem_append, List.mem_cons, not_or]
    exact ⟨fun h => absurd (hkey.2 _ h) (by decide), by decide, hvalue.whole⟩
  obtain ⟨first, rest, hfirst, -, hblank⟩ := hkey.exists_first
  have hadd : addSegment ∅ (key.toList ++ ':' :: value.toList) = .ok (set ∅ key value) := by
    rw [addSegment, if_neg (by simp [hfirst, hblank]), readEntry?_append hkey hvalue]
    simp
  rw [parse, htext, splitAt_of_not_mem hsegment, List.foldlM_cons, hadd]
  rfl

theorem get?_set (o : Options) (key value : String) : (o.set key value).get? key = some value := by
  simp [get?, set]

/-- A configuration read from the text of one option has its value. -/
theorem ofText_entry (hkey : IsKey key.toList) (hvalue : IsValue value.toList) (id : String) :
    ∃ config, AnalysisConfig.ofText id (key ++ ":" ++ value) = .ok config ∧
      config.options.get? key = some value := by
  refine ⟨⟨id, set ∅ key value⟩, ?_, get?_set ∅ key value⟩
  rw [AnalysisConfig.ofText, parse_entry hkey hvalue]
  rfl

end

end ObjectFlow.Options
