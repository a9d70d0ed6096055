import ObjectFlow.Proofs.Signature.Pattern

/-!
# Subsignatures inside signatures

Between the class and the closing angle bracket, a signature is read as the subsignature is read
alone (`Signature.parse_enclose`). What is read has a text of its own that is read back
(`Subsignature.parse_text`), and that text depends on the return type, the name and the parameters
only: blanks between them and empty parameters leave no trace (`signature_reads_subsignature`).
-/

namespace ObjectFlow

open Text

namespace Subsignature

variable {l ret name params : List Char} {s : Subsignature} {text : String}

/-- What the pattern matches has no blanks at its ends. -/
theorem trimChars_of_matches (h : Matches pattern l [ret, name, params] []) :
    trimChars l = l ∧ l ≠ [] := by
  obtain ⟨gap, gap', rfl, hret, -⟩ := matches_pattern_iff.1 h
  refine ⟨trimChars_of_stops (hret.stops solid_isTypeChar) ?_, by simp [hret.1]⟩
  simp only [List.reverse_append, List.reverse_cons, List.reverse_nil, List.nil_append,
    List.append_assoc, List.cons_append]
  exact stops_cons.2 (by decide)

/-- The text of a subsignature whose parts are of their classes is matched as it stands. -/
theorem matches_text (h : Matches pattern l [ret, name, params] []) :
    Matches pattern
      (ofParts (String.ofList ret) (String.ofList name) (splitParams params)).text.toList
      [ret, name, (",".intercalate (splitParams params)).toList] [] := by
  obtain ⟨gap, gap', -, hret, -, hname, -, hparams⟩ := matches_pattern_iff.1 h
  refine matches_pattern_iff.2
    ⟨[' '], [], by simp [ofParts], hret, by decide, hname, by simp, fun c hc => ?_⟩
  rw [String.toList_intercalate] at hc
  rcases mem_of_mem_intercalate hc with rfl | ⟨part, hpart, hc⟩
  · decide
  · obtain ⟨t, ht, rfl⟩ := List.mem_map.1 hpart
    exact hparams c (mem_of_mem_splitParams ht hc)

/-- The text of what is read is read back. -/
theorem parse_text (h : parse text = .ok s) : parse s.text = .ok s := by
  obtain ⟨ret, name, params, hmatch, rfl⟩ := parse_eq_ok_iff.1 h
  have htext := matches_text hmatch
  refine parse_eq_ok_iff.2 ⟨ret, name, _, by rwa [(trimChars_of_matches htext).1], ?_⟩
  rw [splitParams_intercalate fun t => isParam_of_mem_splitParams]

/-- The name is what stands between the last space before the parenthesis and the parenthesis. -/
theorem name_ofParts {params : List String} (hret : IsRun isTypeChar ret)
    (hname : IsRun isNameChar name) :
    (ofParts (String.ofList ret) (String.ofList name) params).name = String.ofList name := by
  have hfront : ∀ c ∈ ret ++ ' ' :: name, (c != '(') = true := by
    intro c hc
    rcases List.mem_append.1 hc with hc | hc
    · simpa using ne_of_class (hret.2 c hc) (d := '(') (by decide)
    · rcases List.mem_cons.1 hc with rfl | hc
      · decide
      · simpa using ne_of_class (hname.2 c hc) (d := '(') (by decide)
  have hback : ∀ c ∈ name.reverse, (c != ' ') = true := by
    intro c hc
    simpa using ne_of_class (hname.2 c (List.mem_reverse.1 hc)) (d := ' ') (by decide)
  have htext : (ofParts (String.ofList ret) (String.ofList name) params).text.toList =
      (ret ++ ' ' :: name) ++ '(' :: ((",".intercalate params).toList ++ [')']) := by
    simp [ofParts]
  rw [Subsignature.name, htext, takeWhile_append hfront (stops_cons.2 (by decide)),
    List.reverse_append, List.reverse_cons, List.append_assoc, List.singleton_append,
    takeWhile_append hback (stops_cons.2 (by decide)), List.reverse_reverse]

end Subsignature

namespace Signature

variable {cls cls' t ret name params : List Char} {text : String}

/-- A signature's pattern matches a text between a class and a bracket as that of subsignatures
matches the text alone, trimmed. -/
theorem matches_enclose (hcls : IsRun isTypeChar cls) :
    Matches pattern ('<' :: (cls ++ ':' :: ' ' :: (t ++ ['>']))) [cls', ret, name, params] [] ↔
      cls' = cls ∧ Matches Subsignature.pattern (trimChars t) [ret, name, params] [] := by
  rw [matches_pattern_iff]
  constructor
  · rintro ⟨gap₁, gap₂, gap₃, gap₄, l', hline, h₁, hcls', h₂, h₃, h₄, hs⟩
    obtain ⟨l, rfl, hl⟩ := matches_iff_append.1 hs
    -- the text is cut in one way before the colon
    have hcolon {r : List Char} : Stops isBlank (':' :: r) := stops_cons.2 (by decide)
    have hcls_stops (gap : List Char) {r : List Char} (h : ∀ c ∈ gap, isBlank c = true) :
        Stops isTypeChar (gap ++ ':' :: r) :=
      stops_append (fun c hc => solid_isTypeChar.eq_false (h c hc)) (stops_cons.2 (by decide))
    obtain ⟨rfl, hline₁⟩ := append_inj_of_stops (a := []) (by simp) (hcls.stops solid_isTypeChar) h₁
      (hcls'.stops solid_isTypeChar) (List.cons.inj hline).2
    obtain ⟨rfl, hline₂⟩ := append_inj_of_stops hcls.2 (hcls_stops [] (by simp)) hcls'.2
      (hcls_stops gap₂ h₂) hline₁
    obtain ⟨rfl, hline₃⟩ := append_inj_of_stops (a := []) (by simp) hcolon h₂ hcolon hline₂
    have hclosed : (' ' :: t) ++ ['>'] = (gap₃ ++ (l ++ gap₄)) ++ ['>'] := by
      simpa using (List.cons.inj hline₃).2
    have ht := List.append_cancel_right hclosed
    obtain ⟨htrimmed, hne⟩ := Subsignature.trimChars_of_matches hl
    obtain ⟨hstops, hend⟩ := trimChars_eq_self_iff.1 htrimmed
    have htrim : trimChars t = l := by
      have hspace : trimChars (' ' :: t) = trimChars t := rfl
      rw [← hspace, ht, trimChars_append h₃ h₄ hne hstops hend]
    rw [htrim]
    exact ⟨rfl, hl⟩
  · rintro ⟨rfl, hs⟩
    obtain ⟨front, back, hfront, hback, ht⟩ := exists_trimChars t
    have hline : t ++ ['>'] = front ++ (trimChars t ++ (back ++ ['>'])) := by
      simpa using congrArg (· ++ ['>']) ht
    have hgap : ∀ c ∈ ' ' :: front, isBlank c = true := by
      intro c hc
      rcases List.mem_cons.1 hc with rfl | hc
      · decide
      · exact hfront c hc
    refine ⟨[], [], ' ' :: front, back, trimChars t ++ (back ++ ['>']), ?_, by simp, hcls, by simp,
      hgap, hback, matches_iff_append.2 ⟨_, rfl, hs⟩⟩
    rw [hline]
    rfl

/-- A text between a class and a bracket is read as a signature of that class exactly if the text
alone is read as its subsignature. -/
theorem parse_enclose {cls : String} {x : Signature} (hcls : IsRun isTypeChar cls.toList) :
    parse ("<" ++ cls ++ ": " ++ text ++ ">") = .ok x ↔
      x.cls = cls ∧ Subsignature.parse text = .ok x.subsignature := by
  have htrim : trimChars ("<" ++ cls ++ ": " ++ text ++ ">").toList =
      '<' :: (cls.toList ++ ':' :: ' ' :: (text.toList ++ ['>'])) := by
    rw [← toList_text (s := ⟨cls, ⟨text⟩⟩)]
    exact trimChars_text ⟨cls, ⟨text⟩⟩
  simp only [parse_eq_ok_iff, Subsignature.parse_eq_ok_iff, htrim, matches_enclose hcls]
  constructor
  · rintro ⟨_, ret, name, params, ⟨rfl, hs⟩, rfl⟩
    exact ⟨String.ofList_toList, ret, name, params, hs, rfl⟩
  · rintro ⟨rfl, ret, name, params, hs, hx⟩
    exact ⟨_, ret, name, params, ⟨rfl, hs⟩, by rw [String.ofList_toList, ← hx]⟩

end Signature

/-- A signature is read as its class and the subsignature between the colon and the bracket; what is
read is read again from its text, alone or in a signature; and it is determined by the return type,
the name and the parameters that the pattern captures. -/
theorem signature_reads_subsignature {cls : String} (hcls : IsRun isTypeChar cls.toList)
    (text : String) :
    (∀ x, Signature.parse ("<" ++ cls ++ ": " ++ text ++ ">") = .ok x ↔
      x.cls = cls ∧ Subsignature.parse text = .ok x.subsignature) ∧
    ∀ s, Subsignature.parse text = .ok s →
      Subsignature.parse s.text = .ok s ∧
      Signature.parse ("<" ++ cls ++ ": " ++ s.text ++ ">") = .ok ⟨cls, s⟩ ∧
      (∃ ret name params,
        Matches Subsignature.pattern (trimChars text.toList) [ret, name, params] []) ∧
      ∀ ret name params,
        Matches Subsignature.pattern (trimChars text.toList) [ret, name, params] [] →
          s = .ofParts (String.ofList ret) (String.ofList name) (splitParams params) ∧
          s.name = String.ofList name ∧
          ∀ text' params',
            Matches Subsignature.pattern (trimChars text'.toList) [ret, name, params'] [] →
              splitParams params' = splitParams params → Subsignature.parse text' = .ok s := by
  refine ⟨fun x => Signature.parse_enclose hcls, fun s h => ?_⟩
  have htext := Subsignature.parse_text h
  obtain ⟨ret, name, params, hmatch, -⟩ := Subsignature.parse_eq_ok_iff.1 h
  refine ⟨htext, (Signature.parse_enclose hcls).2 ⟨rfl, htext⟩, ⟨ret, name, params, hmatch⟩,
    fun ret name params hmatch => ?_⟩
  have hparts := Subsignature.parse_eq_ok_iff.2 ⟨ret, name, params, hmatch, rfl⟩
  obtain rfl := Except.ok.inj (h.symm.trans hparts)
  obtain ⟨-, -, -, hret, -, hname, -⟩ := Subsignature.matches_pattern_iff.1 hmatch
  refine ⟨rfl, Subsignature.name_ofParts hret hname, fun text' params' hmatch' hparams => ?_⟩
  rw [← hparams]
  exact Subsignature.parse_eq_ok_iff.2 ⟨ret, name, params', hmatch', rfl⟩

/-- A constructor is written with blanks around its parts, with an empty parameter, and with angle
brackets inside the parentheses. -/
theorem signature_reads_subsignature_constructor :
    IsRun isTypeChar "a.B$C[]".toList ∧
      Subsignature.parse " int \t<init>\n( int ,, é<T> )\n" = .ok ⟨"int <init>(int,é<T>)"⟩ ∧
      Signature.parse ("<" ++ "a.B$C[]" ++ ": " ++ " int \t<init>\n( int ,, é<T> )\n" ++ ">") =
        .ok ⟨"a.B$C[]", ⟨"int <init>(int,é<T>)"⟩⟩ ∧
      Signature.parse ("<" ++ "a.B$C[]" ++ ": " ++ "int <init>(int,é<T>)" ++ ">") =
        .ok ⟨"a.B$C[]", ⟨"int <init>(int,é<T>)"⟩⟩ ∧
      (⟨"int <init>(int,é<T>)"⟩ : Subsignature).name = "<init>" ∧
      Subsignature.parse "int <init>(\tint,é<T>,)" = .ok ⟨"int <init>(int,é<T>)"⟩ := by
  have hcls : IsRun isTypeChar "a.B$C[]".toList := by decide +kernel
  have hparse : Subsignature.parse " int \t<init>\n( int ,, é<T> )\n" =
      .ok ⟨"int <init>(int,é<T>)"⟩ := rfl
  have hret : IsRun isTypeChar "int".toList := by decide +kernel
  have hname : IsRun isNameChar "<init>".toList := by decide +kernel
  have hgap : IsRun isBlank "\n".toList := by decide
  have hparams : IsRun isParamChar " int ,, é<T> ".toList := by decide
  have hparams' : IsRun isParamChar "\tint,é<T>,".toList := by decide
  obtain ⟨hiff, hread⟩ := signature_reads_subsignature hcls " int \t<init>\n( int ,, é<T> )\n"
  obtain ⟨-, htext, -, hparts⟩ := hread _ hparse
  obtain ⟨-, hname', hsame⟩ := hparts "int".toList "<init>".toList " int ,, é<T> ".toList
    (Subsignature.matches_pattern_iff.2
      ⟨" \t".toList, "\n".toList, by decide, hret, by decide, hname, hgap.2, hparams.2⟩)
  exact ⟨hcls, hparse, (hiff _).2 ⟨rfl, hparse⟩, htext, hname',
    hsame "int <init>(\tint,é<T>,)" "\tint,é<T>,".toList (Subsignature.matches_pattern_iff.2
      ⟨" ".toList, [], by decide, hret, by decide, hname, by simp, hparams'.2⟩) (by decide)⟩

end ObjectFlow
