import Mathlib.Logic.Relation
import ObjectFlow.Proofs.Program.Registry

/-!
# The order of classes

A class is declared after its super class and its interfaces: in built declarations these have
smaller ids (`Built.parentsFirst`), and no class stands above itself (`Built.acyclic`).
-/

namespace ObjectFlow.Declarations

variable {d d' : Declarations} {c k : ClassId}

/-- The super class of a class, if it has one, and its interfaces. -/
def parentsOf (d : Declarations) (c : ClassId) : List ClassId :=
  ((d.class? c).map fun x => x.superclass.toList ++ x.interfaces).getD []

theorem mem_parentsOf : k ∈ d.parentsOf c ↔
    ∃ x, d.class? c = some x ∧ (x.superclass = some k ∨ k ∈ x.interfaces) := by
  cases h : d.class? c <;> simp [parentsOf, h]

theorem declareClass_parentsOf {name superclass interfaces isInterface}
    (hd : d.declareClass name superclass interfaces isInterface = .ok (c, d')) (k : ClassId) :
    d'.parentsOf k = if k = c then superclass.toList ++ interfaces else d.parentsOf k := by
  obtain ⟨-, rfl, rfl⟩ := declareClass_ok hd
  obtain ⟨k⟩ := k
  simp only [parentsOf, class?, Array.getElem?_push, EntityId.mk.injEq]
  split <;> rfl

theorem declareMethod_parentsOf {c name params ret isStatic isAbstract m}
    (hd : d.declareMethod c name params ret isStatic isAbstract = .ok (m, d')) (k : ClassId) :
    d'.parentsOf k = d.parentsOf k := by
  obtain ⟨-, -, rfl⟩ := declareMethod_ok hd
  simp only [parentsOf, class?]
  rw [map_getElem?_modify]
  exact fun _ => rfl

theorem setAbstract_parentsOf (c k : ClassId) :
    (d.setAbstract c).parentsOf k = d.parentsOf k := by
  simp only [parentsOf, class?, setAbstract]
  rw [map_getElem?_modify]
  exact fun _ => rfl

/-- The super class and the interfaces of a class have smaller ids. -/
def ParentsFirst (d : Declarations) : Prop :=
  ∀ c k, k ∈ d.parentsOf c → k.index < c.index

/-- What a new class stands below is there already. -/
theorem ParentsFirst.declareClass {name superclass interfaces isInterface} (h : d.ParentsFirst)
    (hs : ∀ s, superclass = some s → d.HasClass s) (hi : ∀ i ∈ interfaces, d.HasClass i)
    (hd : d.declareClass name superclass interfaces isInterface = .ok (c, d')) :
    d'.ParentsFirst := by
  intro c' k hk
  rw [declareClass_parentsOf hd] at hk
  split at hk
  · obtain ⟨-, rfl, -⟩ := declareClass_ok hd
    subst c'
    rcases List.mem_append.1 hk with hk | hk
    · exact hs k (Option.mem_toList.1 hk)
    · exact hi k hk
  · exact h c' k hk

theorem ParentsFirst.of_eq (h : d.ParentsFirst) (hd : ∀ c, d'.parentsOf c = d.parentsOf c) :
    d'.ParentsFirst := fun c k hk => h c k (hd c ▸ hk)

theorem Built.parentsFirst (h : d.Built) : d.ParentsFirst := by
  induction h with
  | empty => simp [ParentsFirst, parentsOf, class?, EmptyCollection.emptyCollection]
  | addClass _ _ _ _ hs hi hd ih => exact ih.declareClass hs hi hd
  | addInterface _ _ _ hi hd ih => exact ih.declareClass (by simp) hi hd
  | setAbstract c _ _ ih => exact ih.of_eq (setAbstract_parentsOf c)
  | addField _ _ _ _ _ _ _ ih => exact ih
  | addMethod _ _ _ _ _ _ _ _ hd ih => exact ih.of_eq (declareMethod_parentsOf hd)
  | addAbstractMethod _ _ _ _ _ _ _ hd ih => exact ih.of_eq (declareMethod_parentsOf hd)
  | setMain _ _ _ ih => exact ih
  | addVar _ _ _ _ _ _ hd ih =>
    obtain rfl := addVar_ok hd
    exact ih
  | addStmt _ _ _ _ _ hd ih =>
    obtain ⟨_, -, rfl⟩ := addStmt_ok hd
    exact ih

/-- No class stands above itself. -/
theorem Built.acyclic (h : d.Built) : ¬Relation.TransGen (fun c k => k ∈ d.parentsOf c) c c := by
  have hlt : ∀ {c k}, Relation.TransGen (fun c k => k ∈ d.parentsOf c) c k →
      k.index < c.index := by
    intro c k hk
    induction hk with
    | single hk => exact h.parentsFirst _ _ hk
    | tail _ hk ih => exact Nat.lt_trans (h.parentsFirst _ _ hk) ih
  exact fun hc => Nat.lt_irrefl _ (hlt hc)

end ObjectFlow.Declarations
