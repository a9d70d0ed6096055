import ObjectFlow.Text.Blank
import ObjectFlow.Text.Split
import ObjectFlow.Text.Word

/-!
# Runs of characters

Texts are read by taking the longest front part whose characters are of one class. Such a part is
found again in a longer text if what follows stops the class (`takeWhile_append`,
`dropWhile_append`), blanks between two parts are dropped (`dropBlanks_append`), and parts without
the separator are those into which their join splits (`splitAt_intercalate`).
-/

namespace ObjectFlow.Text

variable {p : Char → Bool} {c : Char} {l r : List Char}

/-! ## Classes -/

/-- The text is not empty and all its characters are in a class. -/
def IsRun (p : Char → Bool) (l : List Char) : Prop := l ≠ [] ∧ ∀ c ∈ l, p c = true

instance : Decidable (IsRun p l) :=
  decidable_of_iff (l ≠ [] ∧ l.all p = true) (by simp [IsRun])

/-- The text does not begin with a character of a class. -/
def Stops (p : Char → Bool) (l : List Char) : Prop := ∀ c, l.head? = some c → p c = false

theorem stops_cons : Stops p (c :: l) ↔ p c = false := by simp [Stops]

theorem stops_append (h : ∀ c ∈ l, p c = false) (hr : Stops p r) : Stops p (l ++ r) := by
  cases l with
  | nil => exact hr
  | cons c l => exact stops_cons.2 (h c List.mem_cons_self)

/-- A run of one class stops another that has no character in common with it. -/
theorem IsRun.stops {q : Char → Bool} (h : IsRun p l) (hpq : ∀ c, p c = true → q c = false) :
    Stops q (l ++ r) := by
  obtain ⟨hne, hall⟩ := h
  cases l with
  | nil => contradiction
  | cons c l => exact stops_cons.2 (hpq c (hall c List.mem_cons_self))

theorem takeWhile_append (h : ∀ c ∈ l, p c = true) (hr : Stops p r) :
    (l ++ r).takeWhile p = l := by
  rw [List.takeWhile_append_of_pos h]
  cases r with
  | nil => simp
  | cons c r => simp [stops_cons.1 hr]

theorem dropWhile_append (h : ∀ c ∈ l, p c = true) (hr : Stops p r) :
    (l ++ r).dropWhile p = r := by
  rw [List.dropWhile_append_of_pos h]
  cases r with
  | nil => simp
  | cons c r => simp [stops_cons.1 hr]

/-- A text is cut into the longest front part of a class and the rest in one way. -/
theorem append_inj_of_stops {a b s : List Char} (ha : ∀ c ∈ a, p c = true) (hr : Stops p r)
    (hb : ∀ c ∈ b, p c = true) (hs : Stops p s) (h : a ++ r = b ++ s) : a = b ∧ r = s := by
  constructor
  · rw [← takeWhile_append ha hr, h, takeWhile_append hb hs]
  · rw [← dropWhile_append ha hr, h, dropWhile_append hb hs]

theorem of_mem_takeWhile (h : c ∈ l.takeWhile p) : p c = true :=
  List.all_eq_true.1 List.all_takeWhile c h

/-- Where a class stops at a character, the characters of the class stand before it. -/
theorem dropWhile_eq_cons (h : l.dropWhile p = c :: r) :
    ∃ a, l = a ++ c :: r ∧ (∀ c ∈ a, p c = true) ∧ l.takeWhile p = a := by
  refine ⟨l.takeWhile p, ?_, fun c => of_mem_takeWhile, rfl⟩
  rw [← h, List.takeWhile_append_dropWhile]

/-! ## Blanks -/

/-- The code points of blanks. -/
def blankCodes : List Nat :=
  [0x09, 0x0A, 0x0B, 0x0C, 0x0D, 0x20, 0x85, 0xA0, 0x1680, 0x2000, 0x2001, 0x2002, 0x2003, 0x2004,
    0x2005, 0x2006, 0x2007, 0x2008, 0x2009, 0x200A, 0x2028, 0x2029, 0x202F, 0x205F, 0x3000]

/-- What holds for the blanks one by one holds for every blank. -/
theorem forall_blank {q : Char → Prop} (hq : ∀ n ∈ blankCodes, q (Char.ofNat n))
    (h : isBlank c = true) : q c := by
  rw [← Char.ofNat_toNat c]
  refine hq _ ?_
  simp only [isBlank, Bool.or_eq_true, Bool.and_eq_true, decide_eq_true_eq, beq_iff_eq] at h
  simp only [blankCodes, List.mem_cons, List.not_mem_nil, or_false]
  omega

/-- A class without blanks. -/
def Solid (p : Char → Bool) : Prop := ∀ c, p c = true → isBlank c = false

theorem solid_of_blankCodes (h : ∀ n ∈ blankCodes, p (Char.ofNat n) = false) : Solid p := by
  intro c hc
  cases hb : isBlank c with
  | false => rfl
  | true =>
    have hnot := forall_blank (q := fun c => p c = false) h hb
    simp [hc] at hnot

theorem solid_beq (h : isBlank c = false) : Solid (· == c) := by
  intro d hd
  rw [eq_of_beq hd, h]

theorem Solid.or {q : Char → Bool} (hp : Solid p) (hq : Solid q) : Solid fun c => p c || q c := by
  intro c hc
  rcases Bool.or_eq_true_iff.1 hc with hc | hc
  · exact hp c hc
  · exact hq c hc

theorem solid_isWord : Solid isWord := by
  refine solid_of_blankCodes ?_
  -- a list is searched faster than an array
  simp only [isWord, ← Array.any_toList]
  decide +kernel

theorem Solid.eq_false (hp : Solid p) (h : isBlank c = true) : p c = false := by
  cases hc : p c with
  | false => rfl
  | true => simp [hp c hc] at h

theorem dropBlanks_append (h : ∀ c ∈ l, isBlank c = true) (hr : Stops isBlank r) :
    dropBlanks (l ++ r) = r := dropWhile_append h hr

theorem dropBlanks_of_stops (h : Stops isBlank l) : dropBlanks l = l :=
  dropBlanks_append (l := []) (by simp) h

theorem trimChars_of_stops (h : Stops isBlank l) (hend : Stops isBlank l.reverse) :
    trimChars l = l := by
  rw [trimChars, dropBlanks_of_stops h, dropBlanks_of_stops hend, List.reverse_reverse]

theorem stops_dropWhile : Stops p (l.dropWhile p) := by
  intro c hc
  have hnot := List.head?_dropWhile_not p l
  rwa [hc] at hnot

theorem Stops.of_prefix (h : Stops p l) (hr : r <+: l) : Stops p r := by
  obtain ⟨t, rfl⟩ := hr
  intro c hc
  exact h c (by simp [hc])

/-- Trimming leaves no blank at the front. -/
theorem stops_trimChars : Stops isBlank (trimChars l) := by
  refine stops_dropWhile.of_prefix (l := dropBlanks l) ?_
  rw [trimChars, ← List.reverse_suffix, List.reverse_reverse]
  exact List.dropWhile_suffix isBlank

/-- Trimming leaves no blank at the end. -/
theorem stops_reverse_trimChars : Stops isBlank (trimChars l).reverse := by
  rw [trimChars, List.reverse_reverse]
  exact stops_dropWhile

theorem exists_dropBlanks (l : List Char) :
    ∃ gap, (∀ c ∈ gap, isBlank c = true) ∧ l = gap ++ dropBlanks l :=
  ⟨l.takeWhile isBlank, fun _ => of_mem_takeWhile, List.takeWhile_append_dropWhile.symm⟩

/-- Trimming drops blanks at both ends and nothing else. -/
theorem exists_trimChars (l : List Char) : ∃ front back, (∀ c ∈ front, isBlank c = true) ∧
    (∀ c ∈ back, isBlank c = true) ∧ l = front ++ (trimChars l ++ back) := by
  obtain ⟨front, hfront, hl⟩ := exists_dropBlanks l
  obtain ⟨back, hback, hrev⟩ := exists_dropBlanks (dropBlanks l).reverse
  have hend : dropBlanks l = trimChars l ++ back.reverse := by
    rw [trimChars, ← List.reverse_append, ← hrev, List.reverse_reverse]
  refine ⟨front, back.reverse, hfront, by simpa using hback, ?_⟩
  rw [← hend]
  exact hl

/-- Blanks around a text that has none at its ends are trimmed. -/
theorem trimChars_append {front back : List Char} (hfront : ∀ c ∈ front, isBlank c = true)
    (hback : ∀ c ∈ back, isBlank c = true) (hne : l ≠ []) (h : Stops isBlank l)
    (hend : Stops isBlank l.reverse) : trimChars (front ++ (l ++ back)) = l := by
  have hl : Stops isBlank (l ++ back) := by
    obtain ⟨c, l, rfl⟩ := List.exists_cons_of_ne_nil hne
    exact stops_cons.2 (stops_cons.1 h)
  rw [trimChars, dropBlanks_append hfront hl, List.reverse_append,
    dropBlanks_append (by simpa using hback) hend, List.reverse_reverse]

theorem trimChars_trimChars : trimChars (trimChars l) = trimChars l :=
  trimChars_of_stops stops_trimChars stops_reverse_trimChars

theorem trimChars_eq_self_iff : trimChars l = l ↔ Stops isBlank l ∧ Stops isBlank l.reverse := by
  refine ⟨fun h => ?_, fun h => trimChars_of_stops h.1 h.2⟩
  rw [← h]
  exact ⟨stops_trimChars, stops_reverse_trimChars⟩

theorem mem_of_mem_trimChars (h : c ∈ trimChars l) : c ∈ l := by
  have hback : c ∈ (dropBlanks l).reverse :=
    (List.dropWhile_sublist isBlank).mem (List.mem_reverse.1 h)
  exact (List.dropWhile_sublist isBlank).mem (List.mem_reverse.1 hback)

theorem IsRun.trimChars (h : IsRun p l) (hp : Solid p) : trimChars l = l := by
  have hrev : IsRun p l.reverse := ⟨by simpa using h.1, by simpa using h.2⟩
  refine trimChars_of_stops ?_ ?_
  · simpa using h.stops hp (r := [])
  · simpa using hrev.stops hp (r := [])

/-! ## Splitting -/

section
variable {α : Type} [DecidableEq α] {sep : α} {part l : List α}

theorem splitAt_of_not_mem (h : sep ∉ l) : splitAt sep l = [l] := by
  induction l with
  | nil => rfl
  | cons a l ih =>
    simp only [List.mem_cons, not_or] at h
    rw [splitAt, if_neg (Ne.symm h.1), ih h.2]

theorem splitAt_append_cons (h : sep ∉ part) :
    splitAt sep (part ++ sep :: l) = part :: splitAt sep l := by
  induction part with
  | nil => simp [splitAt]
  | cons a part ih =>
    simp only [List.mem_cons, not_or] at h
    rw [List.cons_append, splitAt, if_neg (Ne.symm h.1), ih h.2]

/-- Parts that do not hold the separator are those into which their join splits. -/
theorem splitAt_intercalate {parts : List (List α)} (hne : parts ≠ [])
    (h : ∀ part ∈ parts, sep ∉ part) : splitAt sep ([sep].intercalate parts) = parts := by
  induction parts with
  | nil => contradiction
  | cons part parts ih =>
    have hpart := h part List.mem_cons_self
    cases parts with
    | nil => simpa using splitAt_of_not_mem hpart
    | cons next parts =>
      rw [List.intercalate_cons_cons, List.append_assoc, List.singleton_append,
        splitAt_append_cons hpart, ih (by simp) fun q hq => h q (List.mem_cons_of_mem part hq)]

omit [DecidableEq α] in
/-- A join holds nothing but the separator and what the parts hold. -/
theorem mem_of_mem_intercalate {parts : List (List α)} {a : α}
    (h : a ∈ [sep].intercalate parts) : a = sep ∨ ∃ part ∈ parts, a ∈ part := by
  induction parts with
  | nil => simp at h
  | cons part parts ih =>
    cases parts with
    | nil => simpa using Or.inr h
    | cons next parts =>
      rw [List.intercalate_cons_cons, List.append_assoc, List.mem_append, List.singleton_append,
        List.mem_cons] at h
      rcases h with h | h | h
      · exact .inr ⟨part, List.mem_cons_self, h⟩
      · exact .inl h
      · refine (ih h).imp_right fun ⟨q, hq, ha⟩ => ⟨q, List.mem_cons_of_mem part hq, ha⟩

omit [DecidableEq α] in
theorem mem_intercalate {parts : List (List α)} {a : α} (h : part ∈ parts) (ha : a ∈ part) :
    a ∈ [sep].intercalate parts := by
  induction parts with
  | nil => cases h
  | cons first parts ih =>
    cases parts with
    | nil =>
      obtain rfl := List.mem_singleton.1 h
      simpa using ha
    | cons next parts =>
      rw [List.intercalate_cons_cons, List.append_assoc, List.mem_append]
      rcases List.mem_cons.1 h with rfl | h
      · exact .inl ha
      · exact .inr (List.mem_append_right _ (ih h))

/-- What a part holds is in the list that was split. -/
theorem mem_of_mem_splitAt {part l : List α} {a : α} (h : part ∈ splitAt sep l) (ha : a ∈ part) :
    a ∈ l := by
  rw [← intercalate_splitAt sep l]
  exact mem_intercalate h ha

end

end ObjectFlow.Text
