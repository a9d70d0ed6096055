import Mathlib.Data.Finset.Prod
import ObjectFlow.Proofs.PointsTo.Closure

/-!
# The world of a program

The `world` of a setup is all that its program mentions: its methods, its variables and fields, the
objects that its statements make, and the parts of these. For a valid program it meets all demands
(`world_meets`), so it bounds whatever an analysis finds.
-/

namespace ObjectFlow.PointsTo

open Std

namespace Setup

variable (a : Setup)

/-- The objects that the statements of the program make. -/
def objs : Finset Obj :=
  (a.program.allStmts.filterMap fun (site, i) =>
    (allocation? i).map fun (_, type) => a.heap site type).toFinset

def varIds : Finset VarId := (EntityId.below a.program.vars.size).toFinset

def fieldIds : Finset FieldId := (EntityId.below a.program.fields.size).toFinset

def methods : Finset MethodId := a.program.methodIds.toFinset

/-- The variables and fields of the program, and the parts of its objects. -/
def pointers : Finset (Pointer Obj) :=
  a.varIds.image .var ∪ a.fieldIds.image .static ∪
    (a.objs ×ˢ a.fieldIds).image (fun x => .field x.1 x.2) ∪ a.objs.image .element

/-- All that an analysis could find. -/
def world : Outcome where
  reaches m := m ∈ a.methods
  calls e := e.callee ∈ a.methods
  points q o := q ∈ a.pointers ∧ o ∈ a.objs
  flows e := e.1 ∈ a.pointers ∧ e.2 ∈ a.pointers

variable {a : Setup}

theorem mem_methods {m : MethodId} : m ∈ a.methods ↔ a.program.HasMethod m := by
  rw [methods, List.mem_toFinset, Declarations.mem_methodIds]

theorem mem_objs {o : Obj} : o ∈ a.objs ↔ ∃ s i v type,
    (s, i) ∈ a.program.allStmts ∧ allocation? i = some (v, type) ∧ o = a.heap s type := by
  simp only [objs, List.mem_toFinset, List.mem_filterMap, Option.map_eq_some_iff, Prod.exists]
  constructor
  · rintro ⟨s, i, hs, v, type, hi, rfl⟩
    exact ⟨s, i, v, type, hs, hi, rfl⟩
  · rintro ⟨s, i, v, type, hs, hi, rfl⟩
    exact ⟨s, i, hs, v, type, hi, rfl⟩

theorem var_mem_pointers {v : VarId} : .var v ∈ a.pointers ↔ a.program.HasVar v := by
  simp [pointers, varIds, EntityId.mem_below, Declarations.HasVar]

theorem static_mem_pointers {f : FieldId} : .static f ∈ a.pointers ↔ a.program.HasField f := by
  simp [pointers, fieldIds, EntityId.mem_below, Declarations.HasField]

theorem field_mem_pointers {o : Obj} {f : FieldId} :
    .field o f ∈ a.pointers ↔ o ∈ a.objs ∧ a.program.HasField f := by
  simp [pointers, fieldIds, EntityId.mem_below, Declarations.HasField]

theorem element_mem_pointers {o : Obj} : .element o ∈ a.pointers ↔ o ∈ a.objs := by
  simp [pointers]

/-! ## Its size -/

theorem card_below_le {e : Entity} (n : Nat) :
    (EntityId.below n : List (EntityId e)).toFinset.card ≤ n := by
  refine (List.toFinset_card_le _).trans ?_
  simp [EntityId.below]

theorem card_objs_le : a.objs.card ≤
    (a.program.allStmts.filter fun (_, i) => (allocation? i).isSome).length := by
  refine (List.toFinset_card_le _).trans ?_
  rw [List.length_filterMap_eq_countP, List.countP_eq_length_filter]
  simp

theorem card_pointers_le : a.pointers.card ≤ a.program.vars.size + a.program.fields.size +
    a.objs.card * a.program.fields.size + a.objs.card := by
  have hfields : a.fieldIds.card ≤ a.program.fields.size := card_below_le _
  unfold pointers
  refine (Finset.card_union_le _ _).trans (Nat.add_le_add ?_ Finset.card_image_le)
  refine (Finset.card_union_le _ _).trans (Nat.add_le_add ?_ ?_)
  · refine (Finset.card_union_le _ _).trans (Nat.add_le_add ?_ ?_)
    · exact Finset.card_image_le.trans (card_below_le _)
    · exact Finset.card_image_le.trans hfields
  · refine Finset.card_image_le.trans ?_
    rw [Finset.card_product]
    exact Nat.mul_le_mul_left _ hfields

/-! ## Its demands -/

/-- The world of a program meets all demands. -/
theorem world_meets {entry : MethodId} (hp : a.program.Valid) (he : a.program.HasMethod entry) :
    a.world.Meets a entry := by
  have hw := hp.wellFormed
  have hnames : ∀ {s i}, a.program.instrAt? s = some i → a.program.Names i := fun hi =>
    hw.names (hw.instrAt?_iff.1 hi)
  constructor
  case entry => exact mem_methods.2 he
  case new =>
    intro m s i v type _ hs hi
    have hv : v ∈ i.def?.toList := by
      unfold allocation? at hi
      split at hi <;> cases hi
      simp [Instr.def?]
    refine ⟨var_mem_pointers.2 ((hw.names hs).vars v (List.mem_append_right _ hv)),
      mem_objs.2 ⟨s, i, v, type, Declarations.mem_allStmts.2 ?_, hi, rfl⟩⟩
    rwa [Declarations.site_method hs]
  case copy =>
    intro m s i e _ hs hi
    have hn := hw.names hs
    unfold copyEdge? at hi
    split at hi <;> cases hi
    · exact ⟨var_mem_pointers.2 (hn.vars _ (by simp [Instr.uses, Exp.uses])),
        var_mem_pointers.2 (hn.vars _ (by simp [Instr.def?]))⟩
    · exact ⟨var_mem_pointers.2 (hn.vars _ (by simp [Instr.uses, Exp.uses])),
        var_mem_pointers.2 (hn.vars _ (by simp [Instr.def?]))⟩
    · exact ⟨static_mem_pointers.2 (hn.field _ rfl),
        var_mem_pointers.2 (hn.vars _ (by simp [Instr.def?]))⟩
    · exact ⟨var_mem_pointers.2 (hn.vars _ (by simp [Instr.uses])),
        static_mem_pointers.2 (hn.field _ rfl)⟩
  case static =>
    intro m s i e _ _ hi
    obtain ⟨_, _, callee, -, -, hc, rfl⟩ := staticCall?_iff.1 hi
    exact mem_methods.2 (hw.declared hc)
  case access =>
    intro v o e hv he
    obtain ⟨s, -, i, hi, he⟩ := mem_accessFlows.1 he
    have hn := hnames hi
    unfold accessEdge? at he
    split at he <;> cases he
    · exact ⟨field_mem_pointers.2 ⟨hv.2, hn.field _ rfl⟩,
        var_mem_pointers.2 (hn.vars _ (by simp [Instr.def?]))⟩
    · exact ⟨var_mem_pointers.2 (hn.vars _ (by simp [Instr.uses])),
        field_mem_pointers.2 ⟨hv.2, hn.field _ rfl⟩⟩
    · exact ⟨element_mem_pointers.2 hv.2, var_mem_pointers.2 (hn.vars _ (by simp [Instr.def?]))⟩
    · exact ⟨var_mem_pointers.2 (hn.vars _ (by simp [Instr.uses])), element_mem_pointers.2 hv.2⟩
  case receiverCall =>
    intro v o e _ he
    obtain ⟨s, -, _, call, callee, -, hc, rfl⟩ := mem_receiverCalls.1 he
    exact mem_methods.2 (hp.calleeOn? hc)
  case receiver =>
    intro v o e this hv _ ht
    obtain ⟨b, hb, hthis⟩ := thisVar?_iff.1 ht
    exact ⟨var_mem_pointers.2 (hw.owned hb (by simp [hthis])), hv.2⟩
  case callee => exact id
  case binding =>
    intro e f _ hf
    obtain ⟨result, call, b, hi, hb, hf⟩ := mem_bindings.1 hf
    have hn := hnames hi
    rcases mem_bindingEdges.1 hf with ⟨n, arg, param, h1, h2, rfl⟩ | ⟨r, rfl, w, hr, rfl⟩
    · have ha := List.mem_of_getElem? h1
      have hb' := List.mem_of_getElem? h2
      exact ⟨var_mem_pointers.2 (hn.vars _ (by simp [Instr.uses, ha])),
        var_mem_pointers.2 (hw.owned hb (by simp [hb']))⟩
    · obtain ⟨st, hst, hret⟩ := Program.mem_returnVars.1 hr
      exact ⟨var_mem_pointers.2 ((hw.named hb hst).vars _ (by simp [hret, Instr.uses])),
        var_mem_pointers.2 (hn.vars _ (by simp [Instr.def?]))⟩
  case along => exact fun he hq => ⟨he.2, hq.2⟩

end Setup

end ObjectFlow.PointsTo
