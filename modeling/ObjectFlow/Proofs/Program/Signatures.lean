import ObjectFlow.CallGraph.FromHierarchy
import ObjectFlow.Proofs.Options
import ObjectFlow.Proofs.Program.Registry
import ObjectFlow.Proofs.Program.Sites
import ObjectFlow.Proofs.Signature

/-!
# Methods named by their signatures

If the names of classes and methods are words (`WordNames`), so are those of types, and the text of
a method is read back (`parse_methodText`). As classes are found by name and methods by class and
subsignature, the text names its method: at a call (`methodRef_methodText`), from the declaration of
the method on, in a look-up (`findMethod_methodText`) and as an option (`isValue_methodText`).
`Program.signatures_name_methods` assembles this.
-/

namespace ObjectFlow

open Text

namespace Declarations

variable {d d₀ : Declarations} {c : ClassId} {m : MethodId} {x : MethodDecl} {t : Ty}

/-- The names of classes and methods are words of the characters that signatures accept. -/
structure WordNames (d : Declarations) : Prop where
  classes : ∀ x ∈ d.classes, IsRun isTypeChar x.name.toList
  methods : ∀ x ∈ d.methods, IsRun isNameChar x.name.toList

instance (d : Declarations) : Decidable d.WordNames :=
  decidable_of_iff ((∀ x ∈ d.classes, IsRun isTypeChar x.name.toList) ∧
      ∀ x ∈ d.methods, IsRun isNameChar x.name.toList)
    ⟨fun h => ⟨h.1, h.2⟩, fun h => ⟨h.classes, h.methods⟩⟩

/-! ## Words -/

theorem isRun_primitiveName (p : Primitive) : IsRun isTypeChar p.name.toList := by
  cases p <;> decide +kernel

theorem WordNames.className (h : d.WordNames) (hc : d.HasClass c) :
    IsRun isTypeChar (d.className c).toList := by
  rw [className_eq hc]
  exact h.classes _ (Array.getElem_mem hc)

/-- The brackets of arrays are characters of type names. -/
theorem WordNames.typeName (h : d.WordNames) (ht : d.HasType t) :
    IsRun isTypeChar (d.typeName t).toList := by
  induction t with
  | primitive p => exact isRun_primitiveName p
  | cls c => exact h.className (ht c rfl)
  | array elem ih =>
    obtain ⟨hne, hall⟩ := ih ht
    refine ⟨by simp [Declarations.typeName], fun c hc => ?_⟩
    rcases List.mem_append.1 (String.toList_append ▸ hc) with hc | hc
    · exact hall c hc
    · have hbrackets : IsRun isTypeChar "[]".toList := by decide
      exact hbrackets.2 c hc
  | null => exact (by decide : IsRun isTypeChar "null".toList)
  | void => exact (by decide : IsRun isTypeChar "void".toList)

theorem exists_header? (h : d.HasMethod m) : ∃ x, d.header? m = some x :=
  ⟨_, by rw [header?, method?, Array.getElem?_eq_getElem h, Option.map_some]⟩

theorem WordNames.name (h : d.WordNames) (hx : d.header? m = some x) :
    IsRun isNameChar x.name.toList := by
  obtain ⟨y, hy, rfl⟩ := Option.map_eq_some_iff.1 hx
  exact h.methods y (Array.mem_of_getElem? hy)

theorem WordNames.written (hw : d.WordNames) (h : d.Registered) (hx : d.header? m = some x) :
    (Signature.mk (d.className x.cls) x.subsignature).Written := by
  obtain ⟨hc, htypes, hsub⟩ := h.headers hx
  have hwords : ∀ t ∈ x.returnType :: x.paramTypes, IsRun isTypeChar (d.typeName t).toList :=
    fun t ht => hw.typeName (htypes t ht)
  refine ⟨hw.className hc, _, _, _, hsub, hwords _ List.mem_cons_self, hw.name hx,
    fun text htext => ?_⟩
  obtain ⟨t, ht, rfl⟩ := List.mem_map.1 htext
  exact hwords t (List.mem_cons_of_mem _ ht)

/-! ## Look-up -/

theorem methodText_eq (hx : d.header? m = some x) :
    d.methodText m = (Signature.mk (d.className x.cls) x.subsignature).text := by
  obtain ⟨y, hy, rfl⟩ := Option.map_eq_some_iff.1 hx
  rw [methodText, signature?, hy]
  rfl

theorem methodRef?_eq (hx : d.header? m = some x) :
    d.methodRef? m = some ⟨x.cls, x.subsignature⟩ := by
  obtain ⟨y, hy, rfl⟩ := Option.map_eq_some_iff.1 hx
  rw [methodRef?, hy]
  rfl

theorem parse_methodText (h : d.Registered) (hw : d.WordNames) (hx : d.header? m = some x) :
    Signature.parse (d.methodText m) = .ok ⟨d.className x.cls, x.subsignature⟩ := by
  rw [methodText_eq hx, (hw.written h hx).parse_text]

theorem Registered.findClass (h : d.Registered) (hc : d.HasClass c) :
    d.findClass (d.className c) = .ok c := by
  rw [Declarations.findClass, h.classNamed?_iff.2 ⟨hc, rfl⟩]

/-- Wherever a method is declared, the text that it has later names it at a call. -/
theorem methodRef_methodText (h₀ : d₀.Registered) (h : d.Registered) (hw : d.WordNames)
    (he : Extends d₀ d) (hx : d₀.header? m = some x) :
    d₀.methodRef (d.methodText m) = .ok ⟨x.cls, x.subsignature⟩ := by
  have hc := (h₀.headers hx).located
  simp only [methodRef, parse_methodText h hw (he.header? hx), he.className hc, h₀.findClass hc,
    bind, Except.bind]
  rfl

theorem findMethod_methodText (h : d.Registered) (hw : d.WordNames) (hm : d.HasMethod m) :
    d.findMethod (d.methodText m) = .ok m := by
  obtain ⟨x, hx⟩ := exists_header? hm
  have hdecl : d.declaredMethod? x.cls x.subsignature = some m :=
    h.declares.2 ⟨x, hx, rfl, rfl⟩
  simp only [findMethod, parse_methodText h hw hx, h.findClass (h.headers hx).located, hdecl, bind,
    Except.bind]

/-- Different methods have different texts. -/
theorem methodText_inj (h : d.Registered) (hw : d.WordNames) {n : MethodId} (hm : d.HasMethod m)
    (hn : d.HasMethod n) (he : d.methodText m = d.methodText n) : m = n := by
  have hfound := findMethod_methodText h hw hm
  rw [he, findMethod_methodText h hw hn] at hfound
  exact (Except.ok.inj hfound).symm

/-- The text of a method is read whole as the value of an option. -/
theorem isValue_methodText (h : d.Registered) (hw : d.WordNames) (hm : d.HasMethod m) :
    Options.IsValue (d.methodText m).toList := by
  obtain ⟨x, hx⟩ := exists_header? hm
  rw [methodText_eq hx]
  have hchars := fun c => (hw.written h hx).isSignatureChar (c := c)
  refine ⟨fun hc => ?_, fun hc => ?_, Signature.trimChars_text _⟩
  · exact absurd (hchars _ hc) (by decide)
  · exact absurd (hchars _ hc) (by decide)

end Declarations

namespace Program

open Declarations

variable {p : Program} {d : Declarations}

/-- The signature of a method is a name for it, wherever one is read: in a look-up, as the entry of
an analysis and, from the declaration of the method on, at a call. No other method has it. -/
theorem signatures_name_methods (hd : Calls ∅ d) (hw : d.WordNames) (h : d.build = .ok p) :
    (∀ m, p.HasMethod m →
      p.findMethod (p.methodText m) = .ok m ∧
      (∀ id, ∃ config, AnalysisConfig.ofText id ("entry:" ++ p.methodText m) = .ok config ∧
        p.entryMethod config = .ok m) ∧
      ∀ d₀, Calls ∅ d₀ → Calls d₀ d → d₀.HasMethod m →
        ∃ r, d₀.methodRef? m = some r ∧ d₀.methodRef (p.methodText m) = .ok r) ∧
    ∀ m n, p.HasMethod m → p.HasMethod n → p.methodText m = p.methodText n → m = n := by
  obtain ⟨-, -, rfl⟩ := build_ok h
  have hr := hd.registered
  refine ⟨fun m hm => ?_, fun m n => methodText_inj hr hw⟩
  have hfound := findMethod_methodText hr hw hm
  refine ⟨hfound, fun id => ?_, fun d₀ hd₀ hlater hm₀ => ?_⟩
  · have hkey : Options.IsKey "entry".toList := by decide
    obtain ⟨config, hconfig, hentry⟩ := Options.ofText_entry hkey (isValue_methodText hr hw hm) id
    exact ⟨config, hconfig, by simpa only [entryMethod, hentry] using hfound⟩
  · obtain ⟨x, hx⟩ := exists_header? hm₀
    exact ⟨_, methodRef?_eq hx,
      methodRef_methodText hd₀.registered hr hw hlater.extends hx⟩

/-- A constructor that takes arrays of arrays, and its overload. The first is named at a call while
the second is not declared. -/
theorem signatures_name_methods_overloads : ∃ (d₀ d : Declarations) (p : Program), Calls ∅ d ∧
    d.WordNames ∧ d.build = .ok p ∧
      p.findMethod "<a.B$1: void <init>(a.B$1[][],int)>" = .ok ⟨0⟩ ∧
      p.findMethod "<a.B$1: void <init>(int)>" = .ok ⟨1⟩ ∧
      (∃ config, AnalysisConfig.ofText "pta" "entry:<a.B$1: void <init>(a.B$1[][],int)>" =
        .ok config ∧ p.entryMethod config = .ok ⟨0⟩) ∧
      Calls ∅ d₀ ∧ Calls d₀ d ∧ ¬d₀.HasMethod ⟨1⟩ ∧
      ∃ r, d₀.methodRef? ⟨0⟩ = some r ∧
        d₀.methodRef "<a.B$1: void <init>(a.B$1[][],int)>" = .ok r := by
  have h1 := Calls.refl.declareClass "a.B$1" none [] false (addClass_first "a.B$1")
  have h2 := h1.declareMethod ⟨0⟩ "<init>" [.array (.array (.cls ⟨0⟩)), .int] .void false false
    (by decide) (by decide) rfl
  have h3 := h2.declareMethod ⟨0⟩ "<init>" [.int] .void false false (by decide) (by decide) rfl
  have hstart : ∀ {d}, Calls ∅ d → Calls d d := fun _ => .refl
  have hlater := (hstart h2).declareMethod ⟨0⟩ "<init>" [.int] .void false false (by decide)
    (by decide) rfl
  obtain ⟨hnames, -⟩ := signatures_name_methods h3 (by decide +kernel) rfl
  obtain ⟨hfind, hentry, hcall⟩ := hnames ⟨0⟩ (by decide)
  refine ⟨_, _, _, h3, by decide +kernel, rfl, hfind, ?_, hentry "pta", h2, hlater, by decide,
    hcall _ h2 hlater (by decide)⟩
  exact (hnames ⟨1⟩ (by decide)).1

end Program

end ObjectFlow
