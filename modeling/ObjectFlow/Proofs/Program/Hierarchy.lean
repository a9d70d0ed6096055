import ObjectFlow.Proofs.Program.Indices
import ObjectFlow.Proofs.Program.Parents
import ObjectFlow.Proofs.Search

/-!
# The class hierarchy of built programs

Ids fall on the way up from a class, so the classes above it form a chain that ends
(`Built.isSuperChain`), and dispatch finds the first method on this chain that is not abstract
(`Built.dispatch?_eq_some_iff`). The search for subtypes goes down instead, along what the index
lists below each class (`Valid.mem_directlyBelow`), and finds all that stands below
(`Valid.mem_subtypes`).
-/

namespace ObjectFlow

open Relation (ReflTransGen)

namespace Declarations

variable {d : Declarations} {c k : ClassId} {s : Subsignature} {m : MethodId} {l l' : List ClassId}

/-! ## The way up -/

def superclass? (d : Declarations) (c : ClassId) : Option ClassId :=
  (d.class? c).bind ClassDecl.superclass

/-- The list goes up from a class to one without a super class. -/
inductive IsSuperChain (d : Declarations) : ClassId → List ClassId → Prop
  | root {c : ClassId} : d.superclass? c = none → IsSuperChain d c [c]
  | step {c k : ClassId} {l : List ClassId} : d.superclass? c = some k → IsSuperChain d k l →
      IsSuperChain d c (c :: l)

/-- There is only one way up. -/
theorem IsSuperChain.unique (h : d.IsSuperChain c l) (h' : d.IsSuperChain c l') : l = l' := by
  induction h generalizing l' with
  | root hnone =>
    cases h' with
    | root => rfl
    | step hsome => exact absurd (hnone.symm.trans hsome) nofun
  | step hsome _ ih =>
    cases h' with
    | root hnone => exact absurd (hnone.symm.trans hsome) nofun
    | step hsome' hl =>
      obtain rfl := Option.some.inj (hsome.symm.trans hsome')
      rw [ih hl]

theorem superChain_succ (n : ℕ) (c : ClassId) : d.superChain (n + 1) c =
    c :: (match d.superclass? c with
      | some k => d.superChain n k
      | none => []) := rfl

theorem Built.superclass_lt (h : d.Built) (hk : d.superclass? c = some k) :
    k.index < c.index := by
  obtain ⟨x, hx, hsuper⟩ := Option.bind_eq_some_iff.1 hk
  exact h.parentsFirst c k (mem_parentsOf.2 ⟨x, hx, .inl hsuper⟩)

/-- A bound above the id of a class does not cut its chain off. -/
theorem Built.isSuperChain (h : d.Built) {n : ℕ} (hc : c.index < n) :
    d.IsSuperChain c (d.superChain n c) := by
  induction n generalizing c with
  | zero => omega
  | succ n ih =>
    rw [superChain_succ]
    cases hk : d.superclass? c with
    | none => exact .root hk
    | some k =>
      have hlt := h.superclass_lt hk
      exact .step hk (ih (by omega))

/-! ## Dispatch -/

/-- The class declares a method for the subsignature that is not abstract. -/
def Implements (d : Declarations) (c : ClassId) (s : Subsignature) (m : MethodId) : Prop :=
  d.declaredMethod? c s = some m ∧ ∃ x, d.method? m = some x ∧ x.isAbstract = false

/-- On the way up from the class, the first that implements the subsignature does so with the
method. -/
def Inherits (d : Declarations) (c : ClassId) (s : Subsignature) (m : MethodId) : Prop :=
  ∃ before a after, d.IsSuperChain c (before ++ a :: after) ∧
    (∀ b ∈ before, ∀ n, ¬d.Implements b s n) ∧ d.Implements a s m

theorem WellFormed.concreteMethod?_eq_some_iff (h : d.WellFormed) :
    d.concreteMethod? c s = some m ↔ d.Implements c s m := by
  rw [concreteMethod?, Option.filter_eq_some_iff]
  refine and_congr_right fun hm => ?_
  obtain ⟨x, hx⟩ : ∃ x, d.method? m = some x :=
    ⟨_, Array.getElem?_eq_getElem (h.declared hm)⟩
  simp [hx]

theorem WellFormed.concreteMethod?_eq_none_iff (h : d.WellFormed) :
    d.concreteMethod? c s = none ↔ ∀ n, ¬d.Implements c s n := by
  simp only [Option.eq_none_iff_forall_ne_some, ne_eq, h.concreteMethod?_eq_some_iff]

/-- Dispatch on a class finds the method that it inherits. -/
theorem Built.dispatch?_eq_some_iff (h : d.Built) (hc : d.HasClass c) :
    d.dispatch? c s = some m ↔ d.Inherits c s m := by
  have hchain := h.isSuperChain hc
  have hw := h.wellFormed
  simp only [dispatch?, List.findSome?_eq_some_iff, hw.concreteMethod?_eq_some_iff,
    hw.concreteMethod?_eq_none_iff]
  constructor
  · rintro ⟨before, a, after, heq, ha, hbefore⟩
    exact ⟨before, a, after, heq ▸ hchain, hbefore, ha⟩
  · rintro ⟨before, a, after, hl, hbefore, ha⟩
    exact ⟨before, a, after, hchain.unique hl, ha, hbefore⟩

/-- What dispatch finds is not abstract. -/
theorem WellFormed.isAbstract_of_dispatch? (h : d.WellFormed) (hm : d.dispatch? c s = some m) :
    ∃ x, d.method? m = some x ∧ x.isAbstract = false := by
  obtain ⟨k, -, hk⟩ := List.exists_of_findSome?_eq_some hm
  exact (h.concreteMethod?_eq_some_iff.1 hk).2

/-! ## The way down -/

/-- What stands directly below an interface lists it among its interfaces; what stands directly
below a class that is none is not an interface either, and has it as its super class. -/
def DirectlyBelow (d : Declarations) (c k : ClassId) : Prop :=
  ∃ x y, d.class? c = some x ∧ d.class? k = some y ∧
    (x.isInterface = true ∧ c ∈ y.interfaces ∨
      x.isInterface = false ∧ y.isInterface = false ∧ y.superclass = some c)

theorem DirectlyBelow.hasClass (h : d.DirectlyBelow c k) : d.HasClass k := by
  obtain ⟨-, y, -, hy, -⟩ := h
  exact (Array.getElem?_eq_some_iff.1 hy).1

theorem mem_classIds : c ∈ d.classIds ↔ d.HasClass c := EntityId.mem_below

end Declarations

namespace Program

variable {p : Program} {c k : ClassId}

theorem Valid.mem_directSubtypes (hp : p.Valid) {kind : SubtypeKind} :
    k ∈ p.directSubtypes c kind ↔ ∃ y, p.class? k = some y ∧ 0 < y.timesBelow c kind := by
  rw [← List.count_pos_iff, hp.count_directSubtypes]
  cases p.class? k <;> simp

theorem Valid.mem_subclasses (hp : p.Valid) : k ∈ p.directSubtypes c .subclass ↔
    ∃ y, p.class? k = some y ∧ y.isInterface = false ∧ y.superclass = some c := by
  rw [hp.mem_directSubtypes]
  refine exists_congr fun y => and_congr_right fun _ => ?_
  rw [ClassDecl.timesBelow]
  split <;> simp_all

/-- Whatever lists an interface implements or extends it. -/
theorem Valid.mem_implementors_or_subinterfaces (hp : p.Valid) :
    k ∈ p.directSubtypes c .implementor ++ p.directSubtypes c .subinterface ↔
      ∃ y, p.class? k = some y ∧ c ∈ y.interfaces := by
  rw [List.mem_append, hp.mem_directSubtypes, hp.mem_directSubtypes, ← exists_or]
  refine exists_congr fun y => ?_
  rw [← and_or_left, ← List.count_pos_iff]
  cases hy : y.isInterface <;> simp [ClassDecl.timesBelow, hy]

/-- Super classes have smaller ids, so nothing is a subclass of an id without a class. -/
theorem Valid.mem_directlyBelow (hp : p.Valid) (hd : p.Built) :
    k ∈ p.directlyBelow c ↔ p.DirectlyBelow c k := by
  unfold directlyBelow Declarations.DirectlyBelow
  cases hx : p.class? c with
  | none =>
    have hnone : ∀ y, p.class? k = some y → y.superclass ≠ some c := by
      intro y hy hsuper
      have hlt := hd.parentsFirst k c (Declarations.mem_parentsOf.2 ⟨y, hy, .inl hsuper⟩)
      have hk := (Array.getElem?_eq_some_iff.1 hy).1
      have hc := Array.getElem?_eq_none_iff.1 hx
      omega
    simp only [Option.any_none, Bool.false_eq_true, ↓reduceIte, hp.mem_subclasses, reduceCtorEq,
      false_and, exists_false, iff_false]
    rintro ⟨y, hy, -, hsuper⟩
    exact hnone y hy hsuper
  | some x =>
    cases hi : x.isInterface with
    | true => simp [hi, hp.mem_implementors_or_subinterfaces, -List.mem_append]
    | false => simp [hi, hp.mem_subclasses]

theorem Valid.directlyBelow_eq (hp : p.Valid) (hd : p.Built) :
    (fun c k => k ∈ p.directlyBelow c) = p.DirectlyBelow :=
  funext fun _ => funext fun _ => propext (hp.mem_directlyBelow hd)

/-- What stands below a class is among the classes of the program. -/
theorem Valid.encloses_classIds (hp : p.Valid) (hd : p.Built) (hc : p.HasClass c) :
    Encloses p.directlyBelow c p.classIds where
  start := Declarations.mem_classIds.2 hc
  next _ _ _ hb := Declarations.mem_classIds.2 ((hp.mem_directlyBelow hd).1 hb).hasClass

theorem length_classIds : p.classIds.length = p.classes.size := by
  simp [Declarations.classIds, EntityId.below]

/-- The subtypes of a class are the class and what stands below it, directly or not. -/
theorem Valid.mem_subtypes (hp : p.Valid) (hd : p.Built) (hc : p.HasClass c) :
    k ∈ p.subtypes c ↔ ReflTransGen p.DirectlyBelow c k := by
  rw [subtypes, mem_breadthFirst (hp.encloses_classIds hd hc) length_classIds.le,
    hp.directlyBelow_eq hd]

end Program

end ObjectFlow
