import ObjectFlow.Proofs.Text.Runs

/-!
# Patterns

A pattern lists the parts of a text: single characters and runs of characters of one class, of which
some are captured. `Matches` says what a pattern stands for, whatever way there is to cut the text
into the parts. Matching two patterns one after the other is matching both (`matches_append`).
-/

namespace ObjectFlow.Text

/-- A character, or at least so many characters of a class, which are captured or not. -/
inductive Part where
  | char (c : Char)
  | run (p : Char → Bool) (least : Nat) (captured : Bool)

/-- Characters that are passed over. -/
abbrev Part.skip (p : Char → Bool) (least : Nat) : Part := .run p least false

abbrev Part.capture (p : Char → Bool) (least : Nat) : Part := .run p least true

/-- The text is made of the parts and then the rest; the captured runs are listed in their order. -/
def Matches : List Part → List Char → List (List Char) → List Char → Prop
  | [], l, captures, rest => captures = [] ∧ l = rest
  | .char c :: parts, l, captures, rest => ∃ l', l = c :: l' ∧ Matches parts l' captures rest
  | .run p least captured :: parts, l, captures, rest => ∃ run l' captures', l = run ++ l' ∧
      captures = (if captured then [run] else []) ++ captures' ∧ least ≤ run.length ∧
      (∀ c ∈ run, p c = true) ∧ Matches parts l' captures' rest

section
variable {parts : List Part} {p : Char → Bool} {c : Char} {n : Nat} {a l rest : List Char}
  {captures : List (List Char)}

theorem matches_nil : Matches [] l captures rest ↔ captures = [] ∧ l = rest := Iff.rfl

theorem matches_char : Matches (.char c :: parts) l captures rest ↔
    ∃ l', l = c :: l' ∧ Matches parts l' captures rest := Iff.rfl

theorem matches_skip : Matches (.skip p n :: parts) l captures rest ↔
    ∃ a l', l = a ++ l' ∧ n ≤ a.length ∧ (∀ c ∈ a, p c = true) ∧
      Matches parts l' captures rest := by
  simp [Matches]

theorem matches_capture : Matches (.capture p n :: parts) l (a :: captures) rest ↔
    ∃ l', l = a ++ l' ∧ n ≤ a.length ∧ (∀ c ∈ a, p c = true) ∧ Matches parts l' captures rest := by
  constructor
  · rintro ⟨_, l', _, rfl, h, hlen, ha, hrest⟩
    obtain ⟨rfl, rfl⟩ := List.cons.inj h
    exact ⟨l', rfl, hlen, ha, hrest⟩
  · rintro ⟨l', rfl, hlen, ha, hrest⟩
    exact ⟨a, l', captures, rfl, rfl, hlen, ha, hrest⟩

end

theorem matches_append {parts parts' : List Part} {l rest : List Char}
    {captures : List (List Char)} : Matches (parts ++ parts') l captures rest ↔
      ∃ first second mid, captures = first ++ second ∧ Matches parts l first mid ∧
        Matches parts' mid second rest := by
  induction parts generalizing l captures with
  | nil =>
    constructor
    · exact fun h => ⟨[], captures, l, rfl, ⟨rfl, rfl⟩, h⟩
    · rintro ⟨_, _, _, rfl, ⟨rfl, rfl⟩, h⟩
      exact h
  | cons part parts ih =>
    cases part with
    | char c =>
      simp only [List.cons_append, Matches, ih]
      constructor
      · rintro ⟨l', rfl, first, second, mid, rfl, h, h'⟩
        exact ⟨first, second, mid, rfl, ⟨l', rfl, h⟩, h'⟩
      · rintro ⟨first, second, mid, rfl, ⟨l', rfl, h⟩, h'⟩
        exact ⟨l', rfl, first, second, mid, rfl, h, h'⟩
    | run p least captured =>
      simp only [List.cons_append, Matches, ih]
      constructor
      · rintro ⟨run, l', _, rfl, rfl, hlen, hrun, first, second, mid, rfl, h, h'⟩
        exact ⟨_, second, mid, (List.append_assoc ..).symm,
          ⟨run, l', first, rfl, rfl, hlen, hrun, h⟩, h'⟩
      · rintro ⟨_, second, mid, rfl, ⟨run, l', first, rfl, rfl, hlen, hrun, h⟩, h'⟩
        exact ⟨run, l', _, rfl, List.append_assoc .., hlen, hrun, first, second, mid, rfl, h, h'⟩

/-- What a pattern matches does not depend on what follows. -/
theorem matches_iff_append {parts : List Part} {l rest : List Char} {captures : List (List Char)} :
    Matches parts l captures rest ↔ ∃ m, l = m ++ rest ∧ Matches parts m captures [] := by
  induction parts generalizing l captures with
  | nil =>
    constructor
    · rintro ⟨rfl, rfl⟩
      exact ⟨[], rfl, rfl, rfl⟩
    · rintro ⟨_, rfl, rfl, rfl⟩
      exact ⟨rfl, rfl⟩
  | cons part parts ih =>
    cases part with
    | char c =>
      simp only [matches_char]
      constructor
      · rintro ⟨_, rfl, h⟩
        obtain ⟨m, rfl, hm⟩ := ih.1 h
        exact ⟨c :: m, rfl, m, rfl, hm⟩
      · rintro ⟨_, rfl, m, rfl, h⟩
        exact ⟨m ++ rest, rfl, ih.2 ⟨m, rfl, h⟩⟩
    | run p least captured =>
      constructor
      · rintro ⟨a, _, captures', rfl, rfl, hlen, ha, h⟩
        obtain ⟨m, rfl, hm⟩ := ih.1 h
        exact ⟨a ++ m, (List.append_assoc ..).symm, a, m, captures', rfl, rfl, hlen, ha, hm⟩
      · rintro ⟨_, rfl, a, m, captures', rfl, rfl, hlen, ha, h⟩
        exact ⟨a, m ++ rest, captures', List.append_assoc .., rfl, hlen, ha, ih.2 ⟨m, rfl, h⟩⟩

end ObjectFlow.Text
