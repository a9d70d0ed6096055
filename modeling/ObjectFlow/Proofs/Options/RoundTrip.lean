import ObjectFlow.Proofs.Options

/-!
# Options and their text

`Options.Readable`: every key is a letter with word characters and hyphens after it, and every value
stands on one line, without a semicolon and without blanks at its ends. Options are read back from
their text exactly if they are readable, and reading makes no others (`parse_text_iff`).

What reading makes of a text is said once, in `parse_eq_ok_iff`: the entries of the segments that
are not blank, of which later ones count.
-/

namespace ObjectFlow.Options

open Std Text

variable {o : Options} {segment l : List Char} {key value : String}

/-! ## Keys and values -/

theorem isKeyChar_of_isAlpha {c : Char} (h : c.isAlpha = true) : isKeyChar c = true := by
  have hascii : c.toNat < 0x80 := by
    have hrange : (decide ('A'.val ≤ c.val ∧ c.val ≤ 'Z'.val) ||
        (decide ('a'.val ≤ c.val) && decide (c.val ≤ 'z'.val))) = true := h
    simp only [Bool.or_eq_true, Bool.and_eq_true, decide_eq_true_eq, UInt32.le_iff_toNat_le]
      at hrange
    have hval : c.toNat = c.val.toNat := rfl
    have hupper : 'Z'.val.toNat = 90 := rfl
    have hlower : 'z'.val.toNat = 122 := rfl
    omega
  simp [isKeyChar, isWord, hascii, Char.isAlphanum, h]

theorem isKey_iff : IsKey l ↔ ∃ first rest, l = first :: rest ∧ first.isAlpha = true ∧
    ∀ c ∈ rest, isWord c = true ∨ c = '-' := by
  have hchar : ∀ c, isKeyChar c = true ↔ isWord c = true ∨ c = '-' := by simp [isKeyChar]
  cases l with
  | nil => simp [IsKey]
  | cons first rest =>
    simp only [IsKey, List.head?_cons, Option.any_some, List.forall_mem_cons, List.cons.injEq, hchar]
    constructor
    · rintro ⟨hfirst, -, hrest⟩
      exact ⟨first, rest, ⟨rfl, rfl⟩, hfirst, hrest⟩
    · rintro ⟨_, _, ⟨rfl, rfl⟩, hfirst, hrest⟩
      exact ⟨hfirst, (hchar first).1 (isKeyChar_of_isAlpha hfirst), hrest⟩

theorem isValue_iff : IsValue l ↔ ';' ∉ l ∧ '\n' ∉ l ∧
    (∀ c, l.head? = some c → isBlank c = false) ∧
    ∀ c, l.getLast? = some c → isBlank c = false := by
  have hends : trimChars l = l ↔ (∀ c, l.head? = some c → isBlank c = false) ∧
      ∀ c, l.getLast? = some c → isBlank c = false := by
    rw [trimChars_eq_self_iff, List.getLast?_eq_head?_reverse]
    rfl
  rw [← hends]
  exact ⟨fun h => ⟨h.whole, h.line, h.trimmed⟩, fun ⟨hw, hl, ht⟩ => ⟨hl, hw, ht⟩⟩

/-- Every key is a letter with word characters and hyphens after it; no value holds a semicolon, a
line break or blanks at its ends. -/
structure Readable (o : Options) : Prop where
  key : ∀ k v, o.get? k = some v → ∃ first rest, k.toList = first :: rest ∧
    first.isAlpha = true ∧ ∀ c ∈ rest, isWord c = true ∨ c = '-'
  value : ∀ k v, o.get? k = some v → ';' ∉ v.toList ∧ '\n' ∉ v.toList ∧
    (∀ c, v.toList.head? = some c → isBlank c = false) ∧
    ∀ c, v.toList.getLast? = some c → isBlank c = false

theorem readable_iff :
    o.Readable ↔ ∀ k v, o.get? k = some v → IsKey k.toList ∧ IsValue v.toList := by
  simp only [isKey_iff, isValue_iff]
  exact ⟨fun h k v hv => ⟨h.key k v hv, h.value k v hv⟩,
    fun h => ⟨fun k v hv => (h k v hv).1, fun k v hv => (h k v hv).2⟩⟩

/-! ## What a segment writes -/

/-- The text of one option. -/
def segmentOf (entry : String × String) : List Char :=
  entry.1.toList ++ ':' :: entry.2.toList

theorem segmentOf_not_blank (h : IsKey key.toList) (value : String) :
    (segmentOf (key, value)).all isBlank = false := by
  obtain ⟨first, rest, hfirst, -, hblank⟩ := h.exists_first
  simp [segmentOf, hfirst, hblank]

theorem semicolon_not_mem_segmentOf (hkey : IsKey key.toList) (hvalue : IsValue value.toList) :
    ';' ∉ segmentOf (key, value) := by
  simp only [segmentOf, List.mem_append, List.mem_cons, not_or]
  exact ⟨fun h => absurd (hkey.2 _ h) (by decide), by decide, hvalue.whole⟩

/-- A segment without a semicolon writes a key and a value. -/
theorem readEntry?_spec (h : readEntry? segment = some (key, value)) (hs : ';' ∉ segment) :
    IsKey key.toList ∧ IsValue value.toList := by
  simp only [Option.bind_eq_bind, readEntry?, Option.bind_eq_some_iff] at h
  obtain ⟨first, hfirst, h⟩ := h
  split at h
  · rename_i written hwritten
    split at h
    · rename_i hcond
      simp only [Bool.and_eq_true, Bool.not_eq_true', List.contains_eq_mem,
        decide_eq_false_iff_not] at hcond
      obtain ⟨rfl, rfl⟩ := Prod.mk.inj (Option.some.inj h)
      rw [String.toList_ofList, String.toList_ofList]
      refine ⟨⟨?_, fun c hc => ?_⟩, hcond.2, fun hmem => hs ?_, trimChars_trimChars⟩
      · cases hl : dropBlanks segment with
        | nil => simp [hl] at hfirst
        | cons a rest =>
          obtain rfl : a = first := by simpa [hl] using hfirst
          simp [isKeyChar_of_isAlpha hcond.1, hcond.1]
      · exact List.all_eq_true.1 List.all_takeWhile c hc
      · have hsub : written.Sublist segment :=
          calc written.Sublist (':' :: written) := List.sublist_cons_self ..
            _ = dropBlanks ((dropBlanks segment).dropWhile isKeyChar) := hwritten.symm
            _ |>.Sublist ((dropBlanks segment).dropWhile isKeyChar) := List.dropWhile_sublist _
            _ |>.Sublist (dropBlanks segment) := List.dropWhile_sublist _
            _ |>.Sublist segment := List.dropWhile_sublist _
        exact hsub.mem (mem_of_mem_trimChars hmem)
    · cases h
  · cases h

/-! ## What a text sets -/

/-- Sets options one after the other. -/
def setAll (o : Options) (entries : List (String × String)) : Options :=
  entries.foldl (fun o e => o.set e.1 e.2) o

/-- Segments are read one by one; those that are blank write nothing. -/
theorem foldlM_addSegment_eq_ok_iff {o₀ : Options} {segments : List (List Char)} :
    segments.foldlM addSegment o₀ = .ok o ↔ ∃ entries,
      (segments.filter fun s => !s.all isBlank).map readEntry? = entries.map some ∧
        o = o₀.setAll entries := by
  induction segments generalizing o₀ with
  | nil =>
    constructor
    · intro h
      exact ⟨[], rfl, (Except.ok.inj h).symm⟩
    · rintro ⟨entries, hentries, rfl⟩
      cases entries <;> simp at hentries
      rfl
  | cons s segments ih =>
    rw [List.foldlM_cons]
    by_cases hblank : s.all isBlank = true
    · have hadd : addSegment o₀ s = .ok o₀ := if_pos hblank
      simp only [hadd, bind, Except.bind, ih, List.filter_cons, hblank, Bool.not_true,
        Bool.false_eq_true, ↓reduceIte]
    · have hkeep : (!s.all isBlank) = true := by simpa using hblank
      rw [addSegment, if_neg hblank, List.filter_cons, if_pos hkeep, List.map_cons]
      cases hread : readEntry? s with
      | none =>
        constructor
        · intro h
          cases h
        · rintro ⟨entries, hentries, -⟩
          cases entries <;> simp at hentries
      | some e =>
        simp only [bind, Except.bind, ih]
        constructor
        · rintro ⟨entries, hentries, rfl⟩
          exact ⟨e :: entries, by simp [hentries], rfl⟩
        · rintro ⟨entries, hentries, rfl⟩
          cases entries with
          | nil => simp at hentries
          | cons e' entries =>
            obtain ⟨rfl, htail⟩ : e = e' ∧ _ := by simpa using hentries
            exact ⟨entries, htail, rfl⟩

/-- A text sets what its segments write, apart from the blank ones, in their order. -/
theorem parse_eq_ok_iff {text : String} : parse text = .ok o ↔ ∃ entries,
    ((splitAt ';' text.toList).filter fun s => !s.all isBlank).map readEntry? = entries.map some ∧
      o = setAll ∅ entries :=
  foldlM_addSegment_eq_ok_iff

theorem get?_setAll {entries : List (String × String)}
    (h : (o.setAll entries).get? key = some value) :
    (key, value) ∈ entries ∨ o.get? key = some value := by
  induction entries generalizing o with
  | nil => exact .inr h
  | cons e entries ih =>
    rcases ih (o := o.set e.1 e.2) h with h | h
    · exact .inl (List.mem_cons_of_mem e h)
    · by_cases hk : e.1 = key
      · subst hk
        rw [get?_set, Option.some.injEq] at h
        exact .inl (List.mem_cons.2 (.inl (Prod.ext rfl h.symm)))
      · simp only [set, get?, ExtTreeMap.getElem?_insert, Std.compare_eq_iff_eq, hk,
          ↓reduceIte] at h
        exact .inr h

/-- Setting the options that there are makes the same options. -/
theorem setAll_toList (o : Options) : setAll ∅ o.entries.toList = o := by
  have hfold : ∀ (l : List (String × String)) (o₀ : Options),
      (o₀.setAll l).entries = o₀.entries.insertMany l := by
    intro l
    induction l with
    | nil => simp [setAll, ExtTreeMap.insertMany_list_eq_foldl]
    | cons e l ih =>
      intro o₀
      rw [setAll, List.foldl_cons, ← setAll, ih]
      simp [ExtTreeMap.insertMany_list_eq_foldl, set]
  have hentries : (setAll ∅ o.entries.toList).entries = o.entries := by
    rw [hfold]
    refine ExtTreeMap.ext_getElem? fun k => ?_
    cases hk : o.entries[k]? with
    | some v =>
      exact ExtTreeMap.getElem?_insertMany_list_of_mem ReflCmp.compare_self
        ExtTreeMap.distinct_keys_toList (ExtTreeMap.mem_toList_iff_getElem?_eq_some.2 hk)
    | none =>
      rw [ExtTreeMap.getElem?_insertMany_list_of_contains_eq_false]
      · exact ExtTreeMap.getElem?_empty
      · rw [ExtTreeMap.map_fst_toList_eq_keys, ExtTreeMap.contains_keys,
          ExtTreeMap.contains_eq_isSome_getElem?, hk]
        rfl
  cases o
  exact congrArg Options.mk hentries

/-- The segments of the text of readable options are their entries. -/
theorem segments_text (h : o.Readable) :
    ((splitAt ';' o.text.toList).filter fun s => !s.all isBlank) =
      o.entries.toList.map segmentOf := by
  have hentry : ∀ e ∈ o.entries.toList, IsKey e.1.toList ∧ IsValue e.2.toList := fun e he =>
    readable_iff.1 h e.1 e.2 (ExtTreeMap.mem_toList_iff_getElem?_eq_some.1 he)
  have htext : o.text.toList = [';'].intercalate (o.entries.toList.map segmentOf) := by
    rw [text, String.toList_intercalate, List.map_map]
    refine congrArg _ (List.map_congr_left fun e _ => ?_)
    simp [segmentOf]
  rw [htext]
  cases hl : o.entries.toList with
  | nil => simp [splitAt]
  | cons e l =>
    rw [← hl, splitAt_intercalate (by simp [hl]), List.filter_eq_self]
    all_goals
      intro s hs
      obtain ⟨e, he, rfl⟩ := List.mem_map.1 hs
      obtain ⟨hkey, hvalue⟩ := hentry e he
    · simp [segmentOf_not_blank hkey e.2]
    · exact semicolon_not_mem_segmentOf hkey hvalue

theorem parse_text (h : o.Readable) : parse o.text = .ok o := by
  refine parse_eq_ok_iff.2 ⟨o.entries.toList, ?_, (setAll_toList o).symm⟩
  rw [segments_text h, List.map_map]
  refine List.map_congr_left fun e he => ?_
  obtain ⟨hkey, hvalue⟩ :=
    readable_iff.1 h e.1 e.2 (ExtTreeMap.mem_toList_iff_getElem?_eq_some.1 he)
  simp [segmentOf, readEntry?_append hkey hvalue]

/-- Reading makes readable options only. -/
theorem readable_of_parse {text : String} (h : parse text = .ok o) : o.Readable := by
  obtain ⟨entries, hread, rfl⟩ := parse_eq_ok_iff.1 h
  refine readable_iff.2 fun k v hv => ?_
  have hnone : get? ∅ k = none := ExtTreeMap.getElem?_empty
  have hmem : (k, v) ∈ entries := (get?_setAll hv).resolve_right (by simp [hnone])
  have hsome := List.mem_map_of_mem (f := some) hmem
  rw [← hread] at hsome
  obtain ⟨segment, hsegment, heq⟩ := List.mem_map.1 hsome
  exact readEntry?_spec heq (not_mem_of_mem_splitAt (List.mem_filter.1 hsegment).1)

/-- Options are read back from their text exactly if they are readable, as all options that were
read from some text are. -/
theorem parse_text_iff : (∀ o : Options, parse o.text = .ok o ↔ o.Readable) ∧
    ∀ (text : String) (o : Options), parse text = .ok o → o.Readable ∧ parse o.text = .ok o := by
  refine ⟨fun o => ⟨readable_of_parse, parse_text⟩, fun text o h => ?_⟩
  have hreadable := readable_of_parse h
  exact ⟨hreadable, parse_text hreadable⟩

/-- A text with blanks, an empty segment, a repeated key and a colon in a value. -/
theorem parse_text_iff_repeated : ∃ o, parse " a : 1;;b: x:y ;a:2" = .ok o ∧ o.text = "a:2;b:x:y" ∧
    o.Readable ∧ parse o.text = .ok o := by
  have hread : parse " a : 1;;b: x:y ;a:2" = .ok (set (set (set ∅ "a" "1") "b" "x:y") "a" "2") :=
    parse_eq_ok_iff.2 ⟨[("a", "1"), ("b", "x:y"), ("a", "2")], by decide +kernel, rfl⟩
  exact ⟨_, hread, by decide +kernel, parse_text_iff.2 _ _ hread⟩

end ObjectFlow.Options
