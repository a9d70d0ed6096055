import Mathlib.Data.List.Nodup
import Mathlib.Data.List.Perm.Lattice
import ObjectFlow.PointsTo.Solver

/-!
# Numbers of objects

Objects are numbered in the order in which methods make them: what further methods make comes after
what there is (`prefix_heapOf_append`), and the object of every allocation has a number
(`exists_site_heapOf`). To list a set by these numbers is to list all of it (`perm_inOrder`).
-/

namespace ObjectFlow.PointsTo

open Std

variable {a : Setup} {h : Heap} {o : Obj}

namespace Heap

theorem number?_eq_none {site : Site} : h.number? site = none ↔ ∀ o ∈ h.objs, o.site ≠ site := by
  simp [number?, List.findIdx?_eq_none_iff]

/-- An object is made at the end, unless its site has one. -/
theorem alloc_cases (h : Heap) (o : Obj) :
    ((∃ o' ∈ h.objs, o'.site = o.site) ∧ (h.alloc o).2 = h) ∨
      (∀ o' ∈ h.objs, o'.site ≠ o.site) ∧ (h.alloc o).2 = ⟨h.objs ++ [o]⟩ := by
  unfold alloc
  cases hn : h.number? o.site with
  | none => exact .inr ⟨number?_eq_none.1 hn, rfl⟩
  | some n =>
    refine .inl ⟨?_, rfl⟩
    by_contra hno
    rw [number?_eq_none.2 fun o' ho' he => hno ⟨o', ho', he⟩] at hn
    cases hn

theorem prefix_alloc (h : Heap) (o : Obj) : h.objs <+: (h.alloc o).2.objs := by
  rcases h.alloc_cases o with ⟨-, he⟩ | ⟨-, he⟩
  · exact ⟨[], by rw [he, List.append_nil]⟩
  · exact ⟨[o], by rw [he]⟩

/-- No two objects have one site. -/
def Distinct (h : Heap) : Prop := (h.objs.map Obj.site).Nodup

theorem Distinct.alloc (hd : h.Distinct) (o : Obj) : (h.alloc o).2.Distinct := by
  rcases h.alloc_cases o with ⟨-, he⟩ | ⟨hno, he⟩
  · rwa [he]
  · rw [he, Distinct, List.map_append, List.map_singleton, List.nodup_append]
    refine ⟨hd, List.nodup_singleton _, ?_⟩
    rintro _ hs _ hs' rfl
    obtain ⟨o', ho', rfl⟩ := List.mem_map.1 hs
    exact hno o' ho' (List.mem_singleton.1 hs')

/-- All objects of the set are listed once. -/
theorem Distinct.perm_inOrder (hd : h.Distinct) (objs : ExtTreeSet Obj) :
    (h.inOrder objs).Perm objs.toList := by
  have hheap : h.objs.Nodup := hd.of_map _
  have hset : objs.toList.Nodup := nodup_toList objs
  refine (List.perm_ext_iff_of_nodup ?_ hset).2 fun o => ?_
  · refine (hheap.filter _).append (hset.filter _) fun o ho ho' => ?_
    simp_all [List.mem_filter]
  · simp only [inOrder, List.mem_append, List.mem_filter, decide_eq_true_eq, ExtTreeSet.mem_toList]
    tauto

/-- If all objects of the set have numbers, these ascend along the list. -/
theorem inOrder_sublist {objs : ExtTreeSet Obj} (hall : ∀ o ∈ objs, o ∈ h.objs) :
    (h.inOrder objs).Sublist h.objs := by
  have hnone : objs.toList.filter (· ∉ h.objs) = [] :=
    List.filter_eq_nil_iff.2 fun o ho => by simpa using hall o (ExtTreeSet.mem_toList.1 ho)
  rw [inOrder, hnone, List.append_nil]
  exact List.filter_sublist

theorem exists_site_alloc (h : Heap) (o : Obj) : ∃ o' ∈ (h.alloc o).2.objs, o'.site = o.site := by
  rcases h.alloc_cases o with ⟨hsite, he⟩ | ⟨-, he⟩
  · rwa [he]
  · rw [he]
    exact ⟨o, List.mem_append_right _ (List.mem_singleton_self o), rfl⟩

end Heap

/-! ## The heap of some methods -/

/-- The heap after a statement. -/
def Heap.make (a : Setup) (h : Heap) (x : Site × Instr) : Heap :=
  match allocation? x.2 with
  | some (_, type) => (h.alloc (a.heap x.1 type)).2
  | none => h

theorem heapOf_eq (a : Setup) (methods : List MethodId) :
    heapOf a methods = (methods.flatMap a.program.stmtsOf).foldl (Heap.make a) ∅ := rfl

theorem heapOf_append (a : Setup) (methods methods' : List MethodId) :
    heapOf a (methods ++ methods') =
      (methods'.flatMap a.program.stmtsOf).foldl (Heap.make a) (heapOf a methods) := by
  rw [heapOf_eq, heapOf_eq, List.flatMap_append, List.foldl_append]

theorem Heap.make_new {x : Site × Instr} {v : VarId} {type : Ty}
    (hx : allocation? x.2 = some (v, type)) : h.make a x = (h.alloc (a.heap x.1 type)).2 := by
  rw [make, hx]

theorem Heap.prefix_make (h : Heap) (x : Site × Instr) : h.objs <+: (h.make a x).objs := by
  unfold make
  split
  · exact h.prefix_alloc _
  · exact List.prefix_rfl

theorem Heap.prefix_foldl_make (l : List (Site × Instr)) (h : Heap) :
    h.objs <+: (l.foldl (make a) h).objs := by
  induction l generalizing h with
  | nil => exact List.prefix_rfl
  | cons x l ih => exact (h.prefix_make x).trans (ih _)

/-- Objects keep their numbers when further methods make theirs. -/
theorem prefix_heapOf_append (a : Setup) (methods methods' : List MethodId) :
    (heapOf a methods).objs <+: (heapOf a (methods ++ methods')).objs := by
  rw [heapOf_append]
  exact Heap.prefix_foldl_make _ _

theorem distinct_heapOf (a : Setup) (methods : List MethodId) : (heapOf a methods).Distinct := by
  rw [heapOf_eq]
  refine List.foldlRecOn (motive := Heap.Distinct) _ _ List.nodup_nil fun h hd x _ => ?_
  unfold Heap.make
  split
  · exact hd.alloc _
  · exact hd

/-- Every allocation of the methods makes an object, or its site has one. -/
theorem exists_site_heapOf {methods : List MethodId} {m : MethodId} {x : Site × Instr} {v : VarId}
    {type : Ty} (hm : m ∈ methods) (hx : x ∈ a.program.stmtsOf m)
    (hnew : allocation? x.2 = some (v, type)) :
    ∃ o ∈ (heapOf a methods).objs, o.site = (a.heap x.1 type).site := by
  obtain ⟨before, after, hsplit⟩ := List.append_of_mem (List.mem_flatMap.2 ⟨m, hm, hx⟩)
  obtain ⟨o, ho, hsite⟩ := (before.foldl (Heap.make a) ∅).exists_site_alloc (a.heap x.1 type)
  rw [← Heap.make_new hnew] at ho
  refine ⟨o, ?_, hsite⟩
  rw [heapOf_eq, hsplit, List.foldl_append, List.foldl_cons]
  exact (Heap.prefix_foldl_make after _).subset ho

end ObjectFlow.PointsTo
