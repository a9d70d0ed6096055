import ObjectFlow.Dataflow.Fact
import ObjectFlow.Entity
/-!
# Values of constant propagation

`undef < constant c < nac`, where `undef` says that nothing is known to arrive and `nac` that the
value is not a constant. A `Fact` gives a value to every variable: `get_set` and `get_meet` say what
an update and a merge do to it, and `ext_get` that nothing else tells facts apart.
-/

namespace ObjectFlow.ConstProp

open Std Dataflow

inductive Value where
  | undef
  | constant (c : Int64)
  | nac
deriving DecidableEq, Repr

namespace Value

def constant? : Value → Option Int64
  | constant c => some c
  | _ => none

/-- The least upper bound. -/
def meet : Value → Value → Value
  | nac, _ | _, nac => nac
  | undef, v | v, undef => v
  | constant a, constant b => if a = b then constant a else nac

def text : Value → String
  | undef => "UNDEF"
  | constant c => toString c.toInt
  | nac => "NAC"

instance : ToString Value := ⟨text⟩

@[simp] theorem undef_meet (v : Value) : undef.meet v = v := by
  cases v <;> rfl

end Value

/-- The values of all variables. Those that are not listed are `undef`, and none is listed as
`undef`, so that facts that agree on every variable are equal. -/
structure Fact where
  values : MapFact VarId Value := ∅
  ne_undef : ∀ v : VarId, values[v]? ≠ some Value.undef := by simp
deriving DecidableEq

namespace Fact

instance : EmptyCollection Fact := ⟨{}⟩

def get (f : Fact) (v : VarId) : Value :=
  f.values.getD v .undef

def set (f : Fact) (v : VarId) (x : Value) : Fact where
  values := if x = .undef then f.values.erase v else f.values.insert v x
  ne_undef w := by
    have h := f.ne_undef w
    split
    · rw [ExtTreeMap.getElem?_erase]
      split <;> simp_all
    · rw [ExtTreeMap.getElem?_insert]
      split <;> simp_all

/-- Merges the values of `fact` into `target`. -/
def meet (fact target : Fact) : Fact :=
  fact.values.foldl (fun t v x => t.set v (x.meet (t.get v))) target

/-- The variables with a value other than `undef`. -/
def toList (f : Fact) : List (VarId × Value) :=
  f.values.toList

def size (f : Fact) : Nat :=
  f.values.size

/-! ## Laws -/

@[simp] theorem get_empty (v : VarId) : (∅ : Fact).get v = .undef := by
  rfl

theorem get_set (f : Fact) (v w : VarId) (x : Value) :
    (f.set v x).get w = if v = w then x else f.get w := by
  simp only [get, set]
  split
  · rw [ExtTreeMap.getD_erase]
    split <;> simp_all
  · rw [ExtTreeMap.getD_insert]
    split <;> simp_all

/-- Facts that agree on every variable are equal. -/
theorem ext_get {f g : Fact} (h : ∀ v, f.get v = g.get v) : f = g := by
  obtain ⟨f, hf⟩ := f
  obtain ⟨g, hg⟩ := g
  suffices f = g by subst this; rfl
  ext v : 1
  have hv : f[v]?.getD .undef = g[v]?.getD .undef := by
    simpa only [get, ExtTreeMap.getD_eq_getD_getElem?] using h v
  have hfv := hf v
  have hgv := hg v
  grind

/-- Merging a list of values, each variable at most once, one by one. -/
theorem get_foldl_set {l : List (VarId × Value)} (hl : l.Pairwise fun p q => p.1 ≠ q.1)
    (t : Fact) (v : VarId) :
    (l.foldl (fun t p => t.set p.1 (p.2.meet (t.get p.1))) t).get v
      = ((l.find? (·.1 = v)).elim .undef Prod.snd).meet (t.get v) := by
  induction l generalizing t with
  | nil => simp
  | cons p l ih =>
    obtain ⟨hp, hl⟩ := List.pairwise_cons.1 hl
    simp only [List.foldl_cons, ih hl, get_set]
    by_cases h : p.1 = v
    · have hn : l.find? (·.1 = v) = none := by
        simp only [List.find?_eq_none, decide_eq_true_eq]
        exact fun q hq e => hp q hq (h.trans e.symm)
      simp [h, hn]
    · simp [h]

/-- Merging facts merges the values of each variable. -/
theorem get_meet (f t : Fact) (v : VarId) : (f.meet t).get v = (f.get v).meet (t.get v) := by
  have hl : f.values.toList.Pairwise fun p q => p.1 ≠ q.1 := by
    simpa using ExtTreeMap.distinct_keys_toList (t := f.values)
  rw [meet, ExtTreeMap.foldl_eq_foldl_toList, get_foldl_set hl]
  congr 1
  rw [get, ExtTreeMap.getD_eq_getD_getElem?]
  cases h : f.values.toList.find? (·.1 = v) with
  | none =>
    have hn : f.values[v]? = none := by
      simp only [List.find?_eq_none, decide_eq_true_eq] at h
      refine Option.eq_none_iff_forall_ne_some.2 fun x hx => ?_
      exact h (v, x) (ExtTreeMap.mem_toList_iff_getElem?_eq_some.2 hx) rfl
    simp [hn]
  | some p =>
    obtain ⟨w, x⟩ := p
    have hw : w = v := by simpa using List.find?_some h
    subst hw
    have hx := ExtTreeMap.mem_toList_iff_getElem?_eq_some.1 (List.mem_of_find?_eq_some h)
    simp [hx]

end Fact

end ObjectFlow.ConstProp
