import ObjectFlow.Proofs.Text.Runs
import ObjectFlow.Signature

/-!
# Reading written signatures

A subsignature of words (`Subsignature.Written`) is read from its text, whatever follows
(`Subsignature.read?_text`), and a signature with such a subsignature from its own
(`Signature.parse_text`). Reading allows blanks between the parts (`Subsignature.read?_layout`);
the text has only one, before the name.
-/

namespace ObjectFlow

open Text

variable {c d : Char} {l r : List Char}

/-! ## Characters -/

theorem solid_isTypeChar : Solid isTypeChar :=
  (((solid_isWord.or (solid_beq (by decide))).or (solid_beq (by decide))).or
    (solid_beq (by decide))).or (solid_beq (by decide))

theorem solid_isNameChar : Solid isNameChar :=
  ((solid_isWord.or (solid_beq (by decide))).or (solid_beq (by decide))).or (solid_beq (by decide))

/-- A character of a class differs from those outside it. -/
theorem ne_of_class {p : Char → Bool} (h : p c = true) (hd : p d = false) : c ≠ d := by
  rintro rfl
  simp [h] at hd

theorem isParamChar_of_isTypeChar (h : isTypeChar c = true) : isParamChar c = true := by
  simp [isParamChar, ne_of_class h (d := '(') (by decide), ne_of_class h (d := ')') (by decide)]

/-- The characters that texts of signatures hold. -/
def isSignatureChar (c : Char) : Bool :=
  isTypeChar c || isNameChar c || c == ' ' || c == ',' || c == '(' || c == ')' || c == ':'

theorem run?_append {p : Char → Bool} (h : IsRun p l) (hr : Stops p r) :
    run? p (l ++ r) = some (l, r) := by
  rw [run?, takeWhile_append h.2 hr, dropWhile_append h.2 hr, if_neg (by simpa using h.1)]

/-! ## Parameters -/

/-- A parameter without blanks around it. -/
structure IsParam (t : String) : Prop where
  ne_nil : t.toList ≠ []
  comma : ',' ∉ t.toList
  trimmed : trimChars t.toList = t.toList

theorem isParam_of_isRun {t : String} (h : IsRun isTypeChar t.toList) : IsParam t where
  ne_nil := h.1
  comma hcomma := ne_of_class (h.2 _ hcomma) (d := ',') (by decide) rfl
  trimmed := h.trimChars solid_isTypeChar

theorem isParam_of_mem_splitParams {t : String} (h : t ∈ splitParams l) : IsParam t := by
  obtain ⟨part, hpart, rfl⟩ := List.mem_map.1 h
  obtain ⟨hpart, hne⟩ := List.mem_filter.1 hpart
  obtain ⟨q, hq, rfl⟩ := List.mem_map.1 hpart
  refine ⟨?_, fun hcomma => ?_, ?_⟩
  · simpa using hne
  · rw [String.toList_ofList] at hcomma
    exact not_mem_of_mem_splitAt hq (mem_of_mem_trimChars hcomma)
  · rw [String.toList_ofList, trimChars_trimChars]

theorem mem_of_mem_splitParams {t : String} (h : t ∈ splitParams l) (hc : c ∈ t.toList) :
    c ∈ l := by
  obtain ⟨part, hpart, rfl⟩ := List.mem_map.1 h
  obtain ⟨q, hq, rfl⟩ := List.mem_map.1 (List.mem_filter.1 hpart).1
  rw [String.toList_ofList] at hc
  exact mem_of_mem_splitAt hq (mem_of_mem_trimChars hc)

/-- Parameters joined by commas are split into these parameters. -/
theorem splitParams_intercalate {params : List String} (h : ∀ t ∈ params, IsParam t) :
    splitParams (",".intercalate params).toList = params := by
  cases params with
  | nil => rfl
  | cons t params =>
    have hsplit : splitAt ',' (",".intercalate (t :: params)).toList
        = (t :: params).map String.toList := by
      rw [String.toList_intercalate]
      refine splitAt_intercalate (by simp) fun part hpart => ?_
      obtain ⟨u, hu, rfl⟩ := List.mem_map.1 hpart
      exact (h u hu).comma
    have htrim : ((t :: params).map String.toList).map trimChars
        = (t :: params).map String.toList := by
      rw [List.map_map]
      exact List.map_congr_left fun u hu => (h u hu).trimmed
    have hfilter : ((t :: params).map String.toList).filter (!·.isEmpty)
        = (t :: params).map String.toList := by
      refine List.filter_eq_self.2 fun part hpart => ?_
      obtain ⟨u, hu, rfl⟩ := List.mem_map.1 hpart
      simpa using (h u hu).ne_nil
    rw [splitParams, hsplit, htrim, hfilter]
    simp [Function.comp_def]

/-- The characters of joined words are those of words, and commas. -/
theorem mem_join {params : List String} (h : ∀ t ∈ params, IsRun isTypeChar t.toList)
    (hc : c ∈ (",".intercalate params).toList) : c = ',' ∨ isTypeChar c = true := by
  rw [String.toList_intercalate] at hc
  refine (mem_of_mem_intercalate hc).imp_right fun ⟨part, hpart, hcp⟩ => ?_
  obtain ⟨t, ht, rfl⟩ := List.mem_map.1 hpart
  exact (h t ht).2 c hcp

/-! ## Subsignatures -/

namespace Subsignature

/-- The parts of a subsignature are found whatever blanks stand between them. -/
theorem read?_layout (gap gap' : List Char) {ret name params : List Char}
    (hret : IsRun isTypeChar ret) (hgap : IsRun isBlank gap) (hname : IsRun isNameChar name)
    (hgap' : ∀ c ∈ gap', isBlank c = true)
    (hparams : ∀ c ∈ params, isParamChar c = true) :
    read? (ret ++ (gap ++ (name ++ (gap' ++ '(' :: (params ++ ')' :: r))))) =
      some (.ofParts (String.ofList ret) (String.ofList name) (splitParams params), r) := by
  have hopen : Stops isBlank ('(' :: (params ++ ')' :: r)) := stops_cons.2 (by decide)
  have hclose : Stops isParamChar (')' :: r) := stops_cons.2 (by decide)
  have hafter : Stops isNameChar (gap' ++ '(' :: (params ++ ')' :: r)) :=
    stops_append (fun c hc => solid_isNameChar.eq_false (hgap' c hc)) (stops_cons.2 (by decide))
  simp only [read?, bind, Option.bind,
    run?_append hret (hgap.stops fun _ => solid_isTypeChar.eq_false),
    run?_append hgap (hname.stops solid_isNameChar), run?_append hname hafter,
    dropBlanks_append hgap' hopen, dropWhile_append hparams hclose,
    takeWhile_append hparams hclose]
  rfl

/-- The return type and the parameter types are words, and so is the name. -/
def Written (s : Subsignature) : Prop :=
  ∃ ret name params, s = ofParts ret name params ∧ IsRun isTypeChar ret.toList ∧
    IsRun isNameChar name.toList ∧ ∀ t ∈ params, IsRun isTypeChar t.toList

variable {s : Subsignature}

/-- The text of a subsignature is read, whatever follows. -/
theorem Written.read?_text (h : s.Written) : read? (s.text.toList ++ r) = some (s, r) := by
  obtain ⟨ret, name, params, rfl, hret, hname, hparams⟩ := h
  have hchars : ∀ c ∈ (",".intercalate params).toList, isParamChar c = true := by
    intro c hc
    rcases mem_join hparams hc with rfl | hc
    · decide
    · exact isParamChar_of_isTypeChar hc
  have hread := read?_layout [' '] [] (r := r) hret (by decide) hname (by simp) hchars
  rw [splitParams_intercalate fun t ht => isParam_of_isRun (hparams t ht)] at hread
  simpa [ofParts] using hread

theorem Written.isSignatureChar (h : s.Written) (hc : c ∈ s.text.toList) :
    isSignatureChar c = true := by
  obtain ⟨ret, name, params, rfl, hret, hname, hparams⟩ := h
  simp only [ofParts, String.toList_append, List.mem_append] at hc
  rcases hc with (((((hc | hc) | hc) | hc) | hc)) | hc
  · simp [ObjectFlow.isSignatureChar, hret.2 c hc]
  · obtain rfl : c = ' ' := by simpa using hc
    decide
  · simp [ObjectFlow.isSignatureChar, hname.2 c hc]
  · obtain rfl : c = '(' := by simpa using hc
    decide
  · rcases mem_join hparams hc with rfl | hc
    · decide
    · simp [ObjectFlow.isSignatureChar, hc]
  · obtain rfl : c = ')' := by simpa using hc
    decide

theorem Written.stops (h : s.Written) : Stops isBlank (s.text.toList ++ r) := by
  obtain ⟨ret, name, params, rfl, hret, -⟩ := h
  simp only [ofParts, String.toList_append, List.append_assoc]
  exact hret.stops solid_isTypeChar

end Subsignature

/-! ## Signatures -/

namespace Signature

/-- The parts of a signature are found whatever blanks stand between them. -/
theorem read?_layout (gap₁ gap₂ gap₃ gap₄ : List Char) {cls l : List Char} {s : Subsignature}
    (h₁ : ∀ c ∈ gap₁, isBlank c = true) (hcls : IsRun isTypeChar cls)
    (h₂ : ∀ c ∈ gap₂, isBlank c = true) (h₃ : ∀ c ∈ gap₃, isBlank c = true)
    (hl : Stops isBlank l) (hs : Subsignature.read? l = some (s, gap₄ ++ '>' :: r))
    (h₄ : ∀ c ∈ gap₄, isBlank c = true) :
    read? ('<' :: (gap₁ ++ (cls ++ (gap₂ ++ ':' :: (gap₃ ++ l))))) =
      some (⟨String.ofList cls, s⟩, r) := by
  have hcolon : Stops isBlank (':' :: (gap₃ ++ l)) := stops_cons.2 (by decide)
  have hclose : Stops isBlank ('>' :: r) := stops_cons.2 (by decide)
  have hafter : Stops isTypeChar (gap₂ ++ ':' :: (gap₃ ++ l)) :=
    stops_append (fun c hc => solid_isTypeChar.eq_false (h₂ c hc)) (stops_cons.2 (by decide))
  simp only [read?, bind, Option.bind, dropBlanks_append h₁ (hcls.stops solid_isTypeChar),
    run?_append hcls hafter, dropBlanks_append h₂ hcolon, dropBlanks_append h₃ hl, hs,
    dropBlanks_append h₄ hclose]
  rfl

/-- The class and all parts of the subsignature are words. -/
structure Written (s : Signature) : Prop where
  cls : IsRun isTypeChar s.cls.toList
  subsignature : s.subsignature.Written

variable {s : Signature}

theorem toList_text : s.text.toList =
    '<' :: (s.cls.toList ++ ':' :: ' ' :: (s.subsignature.text.toList ++ ['>'])) := by
  simp [text]

theorem Written.isSignatureChar (h : s.Written) (hc : c ∈ s.text.toList) :
    isSignatureChar c = true := by
  rw [toList_text] at hc
  simp only [List.mem_cons, List.mem_append, List.not_mem_nil, or_false] at hc
  rcases hc with rfl | hc | rfl | rfl | hc | rfl
  · decide
  · simp [ObjectFlow.isSignatureChar, h.cls.2 c hc]
  · decide
  · decide
  · exact h.subsignature.isSignatureChar hc
  · decide

/-- The text of a signature has no blanks at its ends. -/
theorem trimChars_text (s : Signature) : trimChars s.text.toList = s.text.toList := by
  refine trimChars_of_stops ?_ ?_
  · rw [toList_text]
    exact stops_cons.2 (by decide)
  · simp only [toList_text, List.reverse_cons, List.reverse_append, List.reverse_nil,
      List.nil_append, List.cons_append]
    exact stops_cons.2 (by decide)

/-- A signature is read from its text. -/
theorem Written.parse_text (h : s.Written) : parse s.text = .ok s := by
  have hread : read? s.text.toList = some (s, []) := by
    have hspace : IsRun isBlank [' '] := by decide
    have hlayout := read?_layout [] [] [' '] [] (r := []) (by simp) h.cls (by simp) hspace.2
      h.subsignature.stops h.subsignature.read?_text (by simp)
    simpa [toList_text] using hlayout
  rw [parse, trimChars_text, hread]

/-- What cannot be read is reported as it stands. -/
theorem parse_error {text : String} {e : Error} (h : parse text = .error e) :
    e = .malformedSignature text := by
  unfold parse at h
  split at h
  · cases h
  · exact (Except.error.inj h).symm

end Signature

end ObjectFlow
