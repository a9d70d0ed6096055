import ObjectFlow.Proofs.Signature
import ObjectFlow.Proofs.Text.Pattern

/-!
# The patterns of signatures

A subsignature and a signature are what their patterns match on the trimmed text, with nothing left
over (`Subsignature.parse_eq_ok_iff`, `Signature.parse_eq_ok_iff`). The two patterns agree between
the colon and the closing parenthesis (`Signature.pattern_eq`).
-/

namespace ObjectFlow

open Text

theorem run?_eq_some_iff {p : Char → Bool} {l a r : List Char} :
    run? p l = some (a, r) ↔ l = a ++ r ∧ IsRun p a ∧ Stops p r := by
  constructor
  · intro h
    unfold run? at h
    split at h
    · cases h
    · rename_i hne
      obtain ⟨rfl, rfl⟩ := Prod.mk.inj (Option.some.inj h)
      exact ⟨List.takeWhile_append_dropWhile.symm,
        ⟨by simpa using hne, fun c => of_mem_takeWhile⟩, stops_dropWhile⟩
  · rintro ⟨rfl, ha, hr⟩
    exact run?_append ha hr

namespace Subsignature

/-- Return type, name and parameters; what stands between the parentheses is captured whole. -/
def pattern : List Part :=
  [.capture isTypeChar 1, .skip isBlank 1, .capture isNameChar 1, .skip isBlank 0, .char '(',
    .capture isParamChar 0, .char ')']

variable {l r ret name params : List Char} {s : Subsignature}

/-- The pattern matches the parts with blanks between them. -/
theorem matches_pattern_iff : Matches pattern l [ret, name, params] r ↔ ∃ gap gap',
    l = ret ++ (gap ++ (name ++ (gap' ++ '(' :: (params ++ ')' :: r)))) ∧ IsRun isTypeChar ret ∧
      IsRun isBlank gap ∧ IsRun isNameChar name ∧ (∀ c ∈ gap', isBlank c = true) ∧
      ∀ c ∈ params, isParamChar c = true := by
  simp only [pattern, matches_capture, matches_skip, matches_char, matches_nil, true_and]
  constructor
  · rintro ⟨_, rfl, hret, hret', gap, _, rfl, hgap, hgap', _, rfl, hname, hname', gap', _, rfl, -,
      hblank, _, rfl, _, rfl, -, hparams, _, rfl, rfl⟩
    exact ⟨gap, gap', rfl, ⟨List.length_pos_iff.1 hret, hret'⟩, ⟨List.length_pos_iff.1 hgap, hgap'⟩,
      ⟨List.length_pos_iff.1 hname, hname'⟩, hblank, hparams⟩
  · rintro ⟨gap, gap', rfl, hret, hgap, hname, hblank, hparams⟩
    exact ⟨_, rfl, List.length_pos_iff.2 hret.1, hret.2, gap, _, rfl, List.length_pos_iff.2 hgap.1,
      hgap.2, _, rfl, List.length_pos_iff.2 hname.1, hname.2, gap', _, rfl, Nat.zero_le _, hblank,
      _, rfl, _, rfl, Nat.zero_le _, hparams, _, rfl, rfl⟩

/-- Reading finds what the pattern matches, in whatever way the text can be cut. -/
theorem read?_eq_some_iff : read? l = some (s, r) ↔ ∃ ret name params,
    Matches pattern l [ret, name, params] r ∧
      s = .ofParts (String.ofList ret) (String.ofList name) (splitParams params) := by
  simp only [matches_pattern_iff]
  constructor
  · intro h
    unfold read? at h
    simp only [bind, Option.bind_eq_some_iff, Prod.exists, run?_eq_some_iff] at h
    obtain ⟨ret, _, ⟨rfl, hret, -⟩, gap, _, ⟨rfl, hgap, -⟩, name, l₃, ⟨rfl, hname, -⟩, h⟩ := h
    split at h
    · rename_i l₄ hopen
      obtain ⟨gap', rfl, hgap', -⟩ := dropWhile_eq_cons hopen
      split at h
      · rename_i rest hclose
        obtain ⟨params, hl₄, hparams, htake⟩ := dropWhile_eq_cons hclose
        obtain ⟨rfl, rfl⟩ := Prod.mk.inj (Option.some.inj h)
        rw [htake]
        exact ⟨ret, name, params, ⟨gap, gap', by rw [hl₄], hret, hgap, hname, hgap', hparams⟩, rfl⟩
      · cases h
    · cases h
  · rintro ⟨ret, name, params, ⟨gap, gap', rfl, hret, hgap, hname, hgap', hparams⟩, rfl⟩
    exact read?_layout gap gap' hret hgap hname hgap' hparams

theorem parse_eq_ok_iff {text : String} : parse text = .ok s ↔ ∃ ret name params,
    Matches pattern (trimChars text.toList) [ret, name, params] [] ∧
      s = .ofParts (String.ofList ret) (String.ofList name) (splitParams params) := by
  rw [← read?_eq_some_iff, parse]
  grind

end Subsignature

namespace Signature

/-- A class name, a colon and a subsignature, between angle brackets. -/
def pattern : List Part :=
  [.char '<', .skip isBlank 0, .capture isTypeChar 1, .skip isBlank 0, .char ':', .skip isBlank 0,
    .capture isTypeChar 1, .skip isBlank 1, .capture isNameChar 1, .skip isBlank 0, .char '(',
    .capture isParamChar 0, .char ')', .skip isBlank 0, .char '>']

/-- From its second capture to its last, the pattern is that of subsignatures. -/
theorem pattern_eq : pattern = [.char '<', .skip isBlank 0, .capture isTypeChar 1,
    .skip isBlank 0, .char ':', .skip isBlank 0] ++
      (Subsignature.pattern ++ [.skip isBlank 0, .char '>']) := rfl

variable {l r cls ret name params : List Char} {s : Signature}

theorem matches_pattern_iff : Matches pattern l [cls, ret, name, params] r ↔
    ∃ gap₁ gap₂ gap₃ gap₄ l', l = '<' :: (gap₁ ++ (cls ++ (gap₂ ++ ':' :: (gap₃ ++ l')))) ∧
      (∀ c ∈ gap₁, isBlank c = true) ∧ IsRun isTypeChar cls ∧ (∀ c ∈ gap₂, isBlank c = true) ∧
      (∀ c ∈ gap₃, isBlank c = true) ∧ (∀ c ∈ gap₄, isBlank c = true) ∧
      Matches Subsignature.pattern l' [ret, name, params] (gap₄ ++ '>' :: r) := by
  simp only [pattern_eq, List.cons_append, List.nil_append, matches_append, matches_char,
    matches_skip, matches_capture, matches_nil]
  constructor
  · rintro ⟨_, rfl, gap₁, _, rfl, -, h₁, _, rfl, hcls, hcls', gap₂, _, rfl, -, h₂, _, rfl, gap₃, l',
      rfl, -, h₃, first, _, _, hcaptures, hs, gap₄, _, rfl, -, h₄, _, rfl, rfl, rfl⟩
    rw [List.append_nil] at hcaptures
    subst hcaptures
    exact ⟨gap₁, gap₂, gap₃, gap₄, l', rfl, h₁, ⟨List.length_pos_iff.1 hcls, hcls'⟩, h₂, h₃, h₄, hs⟩
  · rintro ⟨gap₁, gap₂, gap₃, gap₄, l', rfl, h₁, hcls, h₂, h₃, h₄, hs⟩
    exact ⟨_, rfl, gap₁, _, rfl, Nat.zero_le _, h₁, _, rfl, List.length_pos_iff.2 hcls.1, hcls.2,
      gap₂, _, rfl, Nat.zero_le _, h₂, _, rfl, gap₃, l', rfl, Nat.zero_le _, h₃, _, [], _,
      (List.append_nil _).symm, hs, gap₄, _, rfl, Nat.zero_le _, h₄, _, rfl, rfl, rfl⟩

/-- Reading finds what the pattern matches, in whatever way the text can be cut. -/
theorem read?_eq_some_iff : read? l = some (s, r) ↔ ∃ cls ret name params,
    Matches pattern l [cls, ret, name, params] r ∧ s = ⟨String.ofList cls,
      .ofParts (String.ofList ret) (String.ofList name) (splitParams params)⟩ := by
  simp only [matches_pattern_iff]
  constructor
  · intro h
    unfold read? at h
    split at h
    · rename_i l
      simp only [bind, Option.bind_eq_some_iff, Prod.exists, run?_eq_some_iff] at h
      obtain ⟨cls, l', ⟨hfront, hcls, hafter⟩, h⟩ := h
      obtain ⟨gap₁, h₁, hl⟩ := exists_dropBlanks l
      split at h
      · rename_i l₁ hcolon
        obtain ⟨gap₂, h₂, hl'⟩ := exists_dropBlanks l'
        obtain ⟨gap₃, h₃, hl₁⟩ := exists_dropBlanks l₁
        obtain ⟨⟨t, l₂⟩, hread, h⟩ := Option.bind_eq_some_iff.1 h
        obtain ⟨ret, name, params, hs, rfl⟩ := Subsignature.read?_eq_some_iff.1 hread
        split at h
        · rename_i rest hclose
          obtain ⟨gap₄, h₄, hl₂⟩ := exists_dropBlanks l₂
          obtain ⟨rfl, rfl⟩ := Prod.mk.inj (Option.some.inj h)
          have hline : l = gap₁ ++ (cls ++ (gap₂ ++ ':' :: (gap₃ ++ dropBlanks l₁))) := by
            rw [← hl₁, ← hcolon, ← hl', ← hfront, ← hl]
          rw [hl₂, hclose] at hs
          exact ⟨cls, ret, name, params,
            ⟨gap₁, gap₂, gap₃, gap₄, _, congrArg _ hline, h₁, hcls, h₂, h₃, h₄, hs⟩, rfl⟩
        · cases h
      · cases h
    · cases h
  · rintro ⟨cls, ret, name, params,
      ⟨gap₁, gap₂, gap₃, gap₄, l', rfl, h₁, hcls, h₂, h₃, h₄, hs⟩, rfl⟩
    have hstops : Stops isBlank l' := by
      obtain ⟨gap, gap', rfl, hret, -⟩ := Subsignature.matches_pattern_iff.1 hs
      exact hret.stops solid_isTypeChar
    exact read?_layout gap₁ gap₂ gap₃ gap₄ h₁ hcls h₂ h₃ hstops
      (Subsignature.read?_eq_some_iff.2 ⟨ret, name, params, hs, rfl⟩) h₄

theorem parse_eq_ok_iff {text : String} : parse text = .ok s ↔ ∃ cls ret name params,
    Matches pattern (trimChars text.toList) [cls, ret, name, params] [] ∧ s = ⟨String.ofList cls,
      .ofParts (String.ofList ret) (String.ofList name) (splitParams params)⟩ := by
  rw [← read?_eq_some_iff, parse]
  grind

end Signature

end ObjectFlow
