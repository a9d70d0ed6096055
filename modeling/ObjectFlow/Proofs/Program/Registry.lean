import ObjectFlow.Proofs.Program.Built

/-!
# Names and signatures of declarations

`Calls d₀ d`: builder calls take the declarations `d₀` to `d`, whatever ids they pass, as long as a
method is declared in a class that exists and its types mention only such classes. They change no
name and no signature that there is (`Calls.extends`). What starts without any declaration has
tables by name that agree with those by id (`Calls.registered`): a class is found by its name and
by no other, and a method by its class and subsignature.
-/

namespace ObjectFlow

open Std

/-- All of a method but its body. -/
def MethodDecl.header (x : MethodDecl) : MethodDecl := { x with body := none }

namespace Declarations

variable {d d' d'' d₀ : Declarations} {c k : ClassId} {m n : MethodId} {t : Ty} {name : String}

/-- A method without its body. -/
def header? (d : Declarations) (m : MethodId) : Option MethodDecl :=
  (d.method? m).map MethodDecl.header

/-- The declarations to which builder calls lead. A method needs its class and the classes of its
types, as their names are part of its signature; nothing else needs to exist. -/
inductive Calls (d₀ : Declarations) : Declarations → Prop
  | refl : Calls d₀ d₀
  | declareClass {d d' : Declarations} {c} (name : String) (superclass : Option ClassId)
      (interfaces : List ClassId) (isInterface : Bool) : Calls d₀ d →
      d.declareClass name superclass interfaces isInterface = .ok (c, d') → Calls d₀ d'
  | setAbstract {d : Declarations} (c : ClassId) : Calls d₀ d → Calls d₀ (d.setAbstract c)
  | addField {d : Declarations} (c : ClassId) (name : String) (type : Ty) (isStatic : Bool) :
      Calls d₀ d → Calls d₀ (d.addField c name type isStatic).2
  | declareMethod {d d' : Declarations} {m} (c : ClassId) (name : String) (params : List Ty)
      (ret : Ty) (isStatic isAbstract : Bool) : Calls d₀ d → d.HasClass c →
      (∀ t ∈ ret :: params, d.HasType t) →
      d.declareMethod c name params ret isStatic isAbstract = .ok (m, d') → Calls d₀ d'
  | setMain {d : Declarations} (m : MethodId) : Calls d₀ d → Calls d₀ (d.setMain m)
  | addVar {d d' : Declarations} {v} (m : MethodId) (name : String) (type : Ty) : Calls d₀ d →
      d.addVar m name type = .ok (v, d') → Calls d₀ d'
  | addStmt {d d' : Declarations} {i} (m : MethodId) (instr : Instr) : Calls d₀ d →
      d.addStmt m instr = .ok (i, d') → Calls d₀ d'

theorem Built.calls (h : d.Built) : Calls ∅ d := by
  induction h with
  | empty => exact .refl
  | addClass name superclass interfaces _ _ _ hd ih =>
    exact ih.declareClass name superclass interfaces false hd
  | addInterface name interfaces _ _ hd ih => exact ih.declareClass name none interfaces true hd
  | setAbstract c _ _ ih => exact ih.setAbstract c
  | addField c name type isStatic _ _ _ ih => exact ih.addField c name type isStatic
  | addMethod c name params ret isStatic _ hc ht hd ih =>
    exact ih.declareMethod c name params ret isStatic false hc ht hd
  | addAbstractMethod c name params ret _ hc ht hd ih =>
    exact ih.declareMethod c name params ret false true hc ht hd
  | setMain m _ _ ih => exact ih.setMain m
  | addVar m name type _ _ _ hd ih => exact ih.addVar m name type hd
  | addStmt m instr _ _ _ hd ih => exact ih.addStmt m instr hd

/-! ## What single calls change -/

section
variable {α β : Type} {f : α → α}

/-- A change to an entry is not seen in what it keeps. -/
theorem bind_getElem?_modify {g : α → Option β} (h : ∀ x, g (f x) = g x) (xs : Array α)
    (i k : Nat) : (xs.modify i f)[k]?.bind g = xs[k]?.bind g := by
  rw [Array.getElem?_modify]
  split
  · simp only [Option.bind_map, Function.comp_def, h]
  · rfl

theorem map_getElem?_modify {g : α → β} (h : ∀ x, g (f x) = g x) (xs : Array α) (i k : Nat) :
    (xs.modify i f)[k]?.map g = xs[k]?.map g := by
  rw [Option.map_eq_bind, Option.map_eq_bind, bind_getElem?_modify]
  exact fun x => congrArg some (h x)

end

/-- Classes have the same names and methods, and methods the same headers. -/
structure SameNames (d d' : Declarations) : Prop where
  size : d'.classes.size = d.classes.size
  className : ∀ c, d'.className c = d.className c
  declaredMethod? : ∀ c s, d'.declaredMethod? c s = d.declaredMethod? c s
  header? : ∀ m, d'.header? m = d.header? m

theorem sameNames_setAbstract (c : ClassId) : SameNames d (d.setAbstract c) where
  size := by simp [Declarations.setAbstract]
  className k := by
    simp only [Declarations.className, class?, Declarations.setAbstract]
    rw [map_getElem?_modify]
    exact fun _ => rfl
  declaredMethod? k s := by
    simp only [Declarations.declaredMethod?, class?, Declarations.setAbstract]
    rw [bind_getElem?_modify]
    exact fun _ => rfl
  header? _ := rfl

theorem header?_modifyBody (f : Body → Body) (n : MethodId) :
    (d.modifyBody m f).header? n = d.header? n := by
  simp only [header?, method?, modifyBody]
  rw [map_getElem?_modify]
  exact fun _ => rfl

section
variable {superclass : Option ClassId} {interfaces : List ClassId} {isInterface : Bool}
  (hd : d.declareClass name superclass interfaces isInterface = .ok (c, d'))
include hd

theorem declareClass_className (k : ClassId) :
    d'.className k = if k = c then name else d.className k := by
  obtain ⟨-, rfl, rfl⟩ := declareClass_ok hd
  obtain ⟨k⟩ := k
  simp only [className, class?, Array.getElem?_push, EntityId.mk.injEq]
  split <;> rfl

/-- The new class has no methods. -/
theorem declareClass_declaredMethod? (k : ClassId) (s : Subsignature) :
    d'.declaredMethod? k s = d.declaredMethod? k s := by
  obtain ⟨-, -, rfl⟩ := declareClass_ok hd
  simp only [declaredMethod?, class?, Array.getElem?_push]
  split
  · rename_i hnew
    simp [hnew]
  · rfl

theorem declareClass_hasClass : d'.HasClass k ↔ k = c ∨ d.HasClass k := by
  obtain ⟨-, rfl, rfl⟩ := declareClass_ok hd
  obtain ⟨k⟩ := k
  simp only [HasClass, Array.size_push, EntityId.mk.injEq]
  omega

theorem declareClass_not_hasClass : ¬d.HasClass c := by
  obtain ⟨-, rfl, -⟩ := declareClass_ok hd
  exact Nat.lt_irrefl _

end

section
variable {params : List Ty} {ret : Ty} {isStatic isAbstract : Bool}
  (hd : d.declareMethod c name params ret isStatic isAbstract = .ok (m, d'))
include hd

theorem declareMethod_className (k : ClassId) : d'.className k = d.className k := by
  obtain ⟨-, -, rfl⟩ := declareMethod_ok hd
  simp only [className, class?]
  rw [map_getElem?_modify]
  exact fun _ => rfl

theorem declareMethod_header? (n : MethodId) : d'.header? n = if n = m then
    some ⟨name, c, .ofParts (d.typeName ret) name (params.map d.typeName), params, ret, isStatic,
      isAbstract, none⟩ else d.header? n := by
  obtain ⟨-, rfl, rfl⟩ := declareMethod_ok hd
  obtain ⟨n⟩ := n
  simp only [header?, method?, Array.getElem?_push, EntityId.mk.injEq]
  split <;> rfl

theorem declareMethod_header?_none : d.header? m = none := by
  obtain ⟨-, rfl, -⟩ := declareMethod_ok hd
  simp [header?, method?]

/-- The class finds the new method. -/
theorem declareMethod_lookup (hc : d.HasClass c) (k : ClassId) (s : Subsignature) :
    d'.declaredMethod? k s =
      if k = c ∧ s = .ofParts (d.typeName ret) name (params.map d.typeName) then some m
      else d.declaredMethod? k s := by
  obtain ⟨-, -, rfl⟩ := declareMethod_ok hd
  simp only [declaredMethod?, class?, Array.getElem?_modify]
  by_cases hk : k = c
  · subst hk
    rw [Array.getElem?_eq_getElem hc]
    simp only [↓reduceIte, Option.map_some, Option.bind_some, true_and,
      ExtTreeMap.getElem?_insert, Std.compare_eq_iff_eq, eq_comm (a := s)]
  · rw [if_neg fun he => hk (by cases k; cases c; exact congrArg _ he.symm),
      if_neg fun he => hk he.1]

end

/-- What is kept by each declaration, and by calls that change no names, is kept by all calls. -/
theorem Calls.preserves {P : Declarations → Prop} (h : Calls d₀ d) (h₀ : P d₀)
    (hclass : ∀ {d d' c name superclass interfaces isInterface}, P d →
      d.declareClass name superclass interfaces isInterface = .ok (c, d') → P d')
    (hmethod : ∀ {d d' m c name params ret isStatic isAbstract}, P d → d.HasClass c →
      (∀ t ∈ ret :: params, d.HasType t) →
      d.declareMethod c name params ret isStatic isAbstract = .ok (m, d') → P d')
    (hsame : ∀ {d d'}, P d → SameNames d d' → P d') : P d := by
  have hbody : ∀ {d : Declarations} {m : MethodId} {vars f}, P d →
      P { d.modifyBody m f with vars := vars } := fun h =>
    hsame h ⟨rfl, fun _ => rfl, fun _ _ => rfl, header?_modifyBody _⟩
  induction h with
  | refl => exact h₀
  | declareClass _ _ _ _ _ hd ih => exact hclass ih hd
  | setAbstract c _ ih => exact hsame ih (sameNames_setAbstract c)
  | addField _ _ _ _ _ ih => exact hsame ih ⟨rfl, fun _ => rfl, fun _ _ => rfl, fun _ => rfl⟩
  | declareMethod _ _ _ _ _ _ _ hc ht hd ih => exact hmethod ih hc ht hd
  | setMain _ _ ih => exact hsame ih ⟨rfl, fun _ => rfl, fun _ _ => rfl, fun _ => rfl⟩
  | addVar _ _ _ _ hd ih =>
    obtain rfl := addVar_ok hd
    exact hbody ih
  | addStmt _ _ _ hd ih =>
    obtain ⟨b, -, rfl⟩ := addStmt_ok hd
    exact hbody ih

/-! ## What stays -/

/-- Classes keep their names and methods their headers. -/
structure Extends (d d' : Declarations) : Prop where
  hasClass : ∀ {c : ClassId}, d.HasClass c → d'.HasClass c
  className : ∀ {c : ClassId}, d.HasClass c → d'.className c = d.className c
  header? : ∀ {m : MethodId} {x : MethodDecl}, d.header? m = some x → d'.header? m = some x

theorem Extends.trans (h : Extends d d') (h' : Extends d' d'') : Extends d d'' where
  hasClass hc := h'.hasClass (h.hasClass hc)
  className hc := (h'.className (h.hasClass hc)).trans (h.className hc)
  header? hx := h'.header? (h.header? hx)

theorem SameNames.extends (h : SameNames d d') : Extends d d' where
  hasClass hc := Nat.lt_of_lt_of_eq hc h.size.symm
  className _ := h.className _
  header? hx := (h.header? _).trans hx

theorem Extends.declareClass {superclass interfaces isInterface}
    (hd : d.declareClass name superclass interfaces isInterface = .ok (c, d')) : Extends d d' where
  hasClass hk := (declareClass_hasClass hd).2 (.inr hk)
  className {k} hk := by
    have hne : k ≠ c := fun he => declareClass_not_hasClass hd (he ▸ hk)
    rw [declareClass_className hd, if_neg hne]
  header? hx := by
    obtain ⟨-, -, rfl⟩ := declareClass_ok hd
    exact hx

theorem Extends.declareMethod {params ret isStatic isAbstract}
    (hd : d.declareMethod c name params ret isStatic isAbstract = .ok (m, d')) :
    Extends d d' where
  hasClass hk := Nat.lt_of_lt_of_eq hk (declareMethod_sizes hd).2.1.symm
  className _ := declareMethod_className hd _
  header? {n x} hx := by
    have hne : n ≠ m := fun he => by simp [he, declareMethod_header?_none hd] at hx
    rw [declareMethod_header? hd, if_neg hne, hx]

theorem Calls.extends (h : Calls d₀ d) : Extends d₀ d :=
  h.preserves (P := Extends d₀) ⟨id, fun _ => rfl, id⟩ (fun ih hd => ih.trans (.declareClass hd))
    (fun ih _ _ hd => ih.trans (.declareMethod hd)) fun ih hs => ih.trans hs.extends

theorem Extends.hasType (h : Extends d d') (ht : d.HasType t) : d'.HasType t :=
  fun c hc => h.hasClass (ht c hc)

theorem Extends.typeName (h : Extends d d') (ht : d.HasType t) : d'.typeName t = d.typeName t := by
  induction t with
  | primitive p => rfl
  | cls c => exact h.className (ht c rfl)
  | array elem ih => simp only [Declarations.typeName, ih ht]
  | null => rfl
  | void => rfl

/-! ## Look-up -/

/-- A header as declarations have it: class and types exist, and the subsignature is that of the
parts. -/
structure Header (d : Declarations) (x : MethodDecl) : Prop where
  located : d.HasClass x.cls
  typed : ∀ t ∈ x.returnType :: x.paramTypes, d.HasType t
  written : x.subsignature =
    .ofParts (d.typeName x.returnType) x.name (x.paramTypes.map d.typeName)

theorem Header.extends {x : MethodDecl} (h : d.Header x) (hd : Extends d d') : d'.Header x where
  located := hd.hasClass h.located
  typed t ht := hd.hasType (h.typed t ht)
  written := by
    rw [hd.typeName (h.typed _ List.mem_cons_self),
      List.map_congr_left fun t ht => hd.typeName (h.typed t (List.mem_cons_of_mem _ ht))]
    exact h.written

/-- The tables by name agree with those by id. -/
structure Registered (d : Declarations) : Prop where
  /-- Classes with one name are one class. -/
  distinct : ∀ {c k : ClassId}, d.HasClass c → d.HasClass k → d.className c = d.className k → c = k
  /-- A class finds exactly the methods that are declared in it. -/
  declares : ∀ {c : ClassId} {s : Subsignature} {m : MethodId}, d.declaredMethod? c s = some m ↔
    ∃ x, d.header? m = some x ∧ x.cls = c ∧ x.subsignature = s
  headers : ∀ {m : MethodId} {x : MethodDecl}, d.header? m = some x → d.Header x

theorem Registered.empty : Registered ∅ where
  distinct h _ _ := absurd h (Nat.not_lt_zero _)
  declares := by simp [declaredMethod?, class?, header?, method?, EmptyCollection.emptyCollection]
  headers h := by simp [header?, method?, EmptyCollection.emptyCollection] at h

theorem className_eq (h : c.index < d.classes.size) : d.className c = d.classes[c.index].name := by
  simp [className, class?, h]

/-- The class of a name is the one that has it. -/
theorem Registered.classNamed?_iff (h : d.Registered) :
    d.classNamed? name = some c ↔ d.HasClass c ∧ d.className c = name := by
  have hfound : ∀ {c}, d.classNamed? name = some c → d.HasClass c ∧ d.className c = name := by
    intro c hc
    obtain ⟨i, hi, rfl⟩ := Option.map_eq_some_iff.1 hc
    obtain ⟨hlt, hname, -⟩ := Array.findIdx?_eq_some_iff_getElem.1 hi
    exact ⟨hlt, (className_eq hlt).trans (of_decide_eq_true hname)⟩
  refine ⟨hfound, fun ⟨hc, hname⟩ => ?_⟩
  cases hk : d.classNamed? name with
  | none =>
    have hnone := Array.findIdx?_eq_none_iff.1 (Option.map_eq_none_iff.1 hk)
    exact absurd ((className_eq hc).symm.trans hname)
      (of_decide_eq_false (hnone _ (Array.getElem_mem hc)))
  | some k => rw [h.distinct (hfound hk).1 hc ((hfound hk).2.trans hname.symm)]

theorem Registered.of_sameNames (h : d.Registered) (hd : SameNames d d') : d'.Registered where
  distinct {c k} hc hk he := by
    rw [hd.className, hd.className] at he
    exact h.distinct (Nat.lt_of_lt_of_eq hc hd.size) (Nat.lt_of_lt_of_eq hk hd.size) he
  declares := by simp only [hd.declaredMethod?, hd.header?, h.declares, implies_true]
  headers {m x} hx := (h.headers (hd.header? m ▸ hx)).extends hd.extends

theorem Registered.declareClass {superclass interfaces isInterface} (h : d.Registered)
    (hd : d.declareClass name superclass interfaces isInterface = .ok (c, d')) :
    d'.Registered := by
  have hname := declareClass_className hd
  have hheader : ∀ n, d'.header? n = d.header? n := fun n => by
    obtain ⟨-, -, rfl⟩ := declareClass_ok hd
    rfl
  have hold : ∀ k, d.HasClass k → d'.className k = d.className k ∧ d.className k ≠ name := by
    refine fun k hk => ⟨(Extends.declareClass hd).className hk, fun he => ?_⟩
    have hnone := (declareClass_ok hd).1
    simp [h.classNamed?_iff.2 ⟨hk, he⟩] at hnone
  have hnew : d'.className c = name := by rw [hname, if_pos rfl]
  refine ⟨fun {k l} hk hl he => ?_, ?_, fun {n x} hx => ?_⟩
  · rcases (declareClass_hasClass hd).1 hk with rfl | hk <;>
      rcases (declareClass_hasClass hd).1 hl with rfl | hl
    · rfl
    · exact absurd ((hold l hl).1.symm.trans (he.symm.trans hnew)) (hold l hl).2
    · exact absurd ((hold k hk).1.symm.trans (he.trans hnew)) (hold k hk).2
    · exact h.distinct hk hl ((hold k hk).1.symm.trans (he.trans (hold l hl).1))
  · simp only [declareClass_declaredMethod? hd, hheader, h.declares, implies_true]
  · exact (h.headers (hheader n ▸ hx)).extends (.declareClass hd)

theorem Registered.declareMethod {params ret isStatic isAbstract} (h : d.Registered)
    (hc : d.HasClass c) (ht : ∀ t ∈ ret :: params, d.HasType t)
    (hd : d.declareMethod c name params ret isStatic isAbstract = .ok (m, d')) :
    d'.Registered := by
  have hname := declareMethod_className hd
  have hsize : d'.classes.size = d.classes.size := (declareMethod_sizes hd).2.1
  have hnone := declareMethod_header?_none hd
  have hfresh := (declareMethod_ok hd).1
  refine ⟨fun {k l} hk hl he => ?_, fun {k s n} => ?_, fun {n x} hx => ?_⟩
  · rw [hname, hname] at he
    exact h.distinct (Nat.lt_of_lt_of_eq hk hsize) (Nat.lt_of_lt_of_eq hl hsize) he
  · rw [declareMethod_lookup hd hc, declareMethod_header? hd]
    by_cases hnew : n = m
    · subst hnew
      have hnot : d.declaredMethod? k s ≠ some n := fun he => by
        obtain ⟨x, hx, -⟩ := h.declares.1 he
        simp [hnone] at hx
      simp [hnot, eq_comm (a := k), eq_comm (a := s)]
    · rw [if_neg hnew, ← h.declares]
      split
      · rename_i hcs
        obtain ⟨rfl, rfl⟩ := hcs
        simp [hfresh, Ne.symm hnew]
      · rfl
  · refine Header.extends ?_ (.declareMethod hd)
    rw [declareMethod_header? hd] at hx
    split at hx
    · obtain rfl := Option.some.inj hx
      exact ⟨hc, ht, rfl⟩
    · exact h.headers hx

theorem Calls.registered (h : Calls ∅ d) : d.Registered :=
  h.preserves .empty (fun ih hd => ih.declareClass hd)
    (fun ih hc ht hd => ih.declareMethod hc ht hd) fun ih hd => ih.of_sameNames hd

end Declarations

end ObjectFlow
