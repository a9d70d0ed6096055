import ObjectFlow.Proofs.Listing
import ObjectFlow.Proofs.Program.Checks
import ObjectFlow.Proofs.Program.Steps

/-!
# Indices of built programs

Statements are listed in the order of their sites (`WellFormed.ascending_allStmts`), so a built
program lists those that use a variable in one role ascending and once each. It lists the classes
below another by id, each as often as it is declared to stand there, and the variables that a body
returns in the order of their first return (`Program.Indexed`). `Builder.build_run` puts this together
with what a build refuses, for the builders that calls with their own ids make.
-/

namespace ObjectFlow

open Std

/-! ## Sites in order -/

/-- Sites are ordered by method, then by index. -/
theorem Site.compare_eq_lt_iff {s t : Site} : compare s t = .lt ↔
    s.method.index < t.method.index ∨ s.method = t.method ∧ s.index < t.index := by
  obtain ⟨⟨m⟩, i⟩ := s
  obtain ⟨⟨k⟩, j⟩ := t
  have hsite : compare (⟨⟨m⟩, i⟩ : Site) ⟨⟨k⟩, j⟩ = (compare m k).then (compare i j) := rfl
  rw [hsite, Ordering.then_eq_lt, Nat.compare_eq_lt, Nat.compare_eq_eq, Nat.compare_eq_lt,
    EntityId.mk.injEq]

namespace Declarations

variable {d : Declarations} {m : MethodId}

theorem WellFormed.ascending_stmtsOf (h : d.WellFormed) (m : MethodId) :
    (d.stmtsOf m).Pairwise fun x y => compare x.1 y.1 = .lt := by
  unfold stmtsOf
  split
  · rename_i b hb
    rw [List.pairwise_map, List.pairwise_iff_getElem]
    intro i j hi hj hlt
    have hindex : ∀ {k} (hk : k < b.stmts.length), b.stmts[k].index = k := fun hk =>
      h.indexed hb (List.getElem?_eq_getElem hk)
    exact Site.compare_eq_lt_iff.2 (.inr ⟨rfl, by rwa [hindex hi, hindex hj]⟩)
  · exact .nil

/-- The statements of a program stand in the order of their sites. -/
theorem WellFormed.ascending_allStmts (h : d.WellFormed) :
    d.allStmts.Pairwise fun x y => compare x.1 y.1 = .lt := by
  refine List.pairwise_flatMap.2 ⟨fun m _ => h.ascending_stmtsOf m, ?_⟩
  refine (EntityId.pairwise_below d.methods.size).imp fun {m k} hlt x hx y hy => ?_
  rw [Site.compare_eq_lt_iff, site_method hx, site_method hy]
  exact .inl hlt

end Declarations

/-! ## Uses of variables -/

/-- The instruction uses the variable as the base of what the role says: `x = v.f`, `v.f = x`,
`x = v[i]`, `v[i] = x`, or a call with the receiver `v`. -/
def BaseUse.Occurs (v : VarId) (i : Instr) : BaseUse → Prop
  | loadField => ∃ x f, i = .assign x (.field (.object v f))
  | storeField => ∃ f x, i = .storeField (.object v f) x
  | loadElement => ∃ x k, i = .assign x (.element ⟨v, k⟩)
  | storeElement => ∃ k x, i = .storeElement ⟨v, k⟩ x
  | invoke => ∃ result call, i = .invoke result call ∧ call.base = some v

theorem baseUse?_eq_some_iff {i : Instr} {v : VarId} {use : BaseUse} :
    i.baseUse? = some (v, use) ↔ use.Occurs v i := by
  constructor
  · intro h
    unfold Instr.baseUse? at h
    split at h
    case h_5 result call =>
      obtain ⟨w, hw, heq⟩ := Option.map_eq_some_iff.1 h
      obtain ⟨rfl, rfl⟩ := Prod.mk.inj heq
      exact ⟨result, call, rfl, hw⟩
    case h_6 => cases h
    all_goals
      obtain ⟨rfl, rfl⟩ := Prod.mk.inj (Option.some.inj h)
      exact ⟨_, _, rfl⟩
  · intro h
    cases use with
    | invoke =>
      obtain ⟨result, call, rfl, hv⟩ := h
      simp [Instr.baseUse?, hv]
    | _ =>
      obtain ⟨_, _, rfl⟩ := h
      rfl

namespace Program

variable {p : Program}

theorem Valid.ascending_usesAs (h : p.Valid) (v : VarId) (use : BaseUse) :
    Ascending (p.usesAs v use) := by
  have huses : p.baseUses.Pairwise fun x y => compare x.2.2 y.2.2 = .lt := by
    refine h.wellFormed.ascending_allStmts.filterMap _ fun x y hlt x' hx y' hy => ?_
    obtain ⟨_, _, rfl⟩ := Option.map_eq_some_iff.1 hx
    obtain ⟨_, _, rfl⟩ := Option.map_eq_some_iff.1 hy
    exact hlt
  rw [usesAs, h.uses, getD_group]
  exact List.pairwise_map.2 ((List.pairwise_map.2 (huses.filter _)).filter _)

end Program

/-! ## Returned variables -/

/-- The variables of the return statements, in their order. -/
def Body.returned (b : Body) : List VarId :=
  b.stmts.filterMap fun s =>
    match s.instr with
    | .ret v => v
    | _ => none

theorem Body.firstOccurrences_returnVars (b : Body) :
    FirstOccurrences b.returned b.returnVars := by
  have hfold : b.returnVars = b.returned.foldl adjoin [] := by
    rw [returned, List.foldl_filterMap, returnVars]
    congr 1
    funext l s
    rcases s with ⟨_, _ | _ | _ | _ | _ | _ | _ | (_ | _) | _⟩ <;> rfl
  exact hfold ▸ firstOccurrences_foldl_adjoin _

/-! ## What stands below a class -/

/-- How often a class is declared to stand directly below `c`. -/
def ClassDecl.timesBelow (x : ClassDecl) (c : ClassId) : SubtypeKind → ℕ
  | .subclass => if x.isInterface = false ∧ x.superclass = some c then 1 else 0
  | .subinterface => if x.isInterface then x.interfaces.count c else 0
  | .implementor => if x.isInterface then 0 else x.interfaces.count c

theorem count_map_mk {α β : Type} [DecidableEq α] [DecidableEq β] (l : List α) (a : α) (k k' : β) :
    (l.map (·, k)).count (a, k') = if k = k' then l.count a else 0 := by
  induction l with
  | nil => simp
  | cons x l ih =>
    simp only [List.map_cons, List.count_cons, ih]
    by_cases hk : k = k' <;> simp [hk]

theorem ClassDecl.count_parents (x : ClassDecl) (c : ClassId) (kind : SubtypeKind) :
    x.parents.count (c, kind) = x.timesBelow c kind := by
  unfold ClassDecl.parents
  cases hx : x.isInterface with
  | true => cases kind <;> simp [count_map_mk, timesBelow, hx]
  | false =>
    simp only [Bool.false_eq_true, ↓reduceIte, List.count_append, count_map_mk]
    cases kind with
    | subclass => cases hs : x.superclass <;> simp [timesBelow, hx, hs, List.count_singleton]
    | subinterface => simp [timesBelow, hx]
    | implementor => simp [timesBelow, hx]

/-- Among pairs that are looked up under one key, those with another are counted. -/
theorem filter_map_pair {α β γ : Type} [DecidableEq α] [DecidableEq β] (l : List (α × β)) (a : α)
    (b : β) (k : γ) :
    ((((l.map fun x => (x.1, x.2, k)).filter (·.1 = a)).map Prod.snd).filter (·.1 = b)).map
      Prod.snd = List.replicate (l.count (a, b)) k := by
  induction l with
  | nil => rfl
  | cons x l ih =>
    obtain ⟨a', b'⟩ := x
    by_cases ha : a' = a
    · by_cases hb : b' = b
      · simpa [ha, hb, List.replicate_succ] using ih
      · simpa [ha, hb] using ih
    · simpa [ha] using ih

theorem count_flatMap_replicate {α : Type} [DecidableEq α] {l : List α} (hl : l.Nodup) (n : α → ℕ)
    (a : α) : (l.flatMap fun k => List.replicate (n k) k).count a = if a ∈ l then n a else 0 := by
  induction l with
  | nil => rfl
  | cons k l ih =>
    obtain ⟨hk, hl⟩ := List.nodup_cons.1 hl
    rw [List.flatMap_cons, List.count_append, ih hl, List.count_replicate]
    by_cases ha : k = a
    · subst ha
      simp [hk]
    · simp [ha, Ne.symm ha]

namespace Program

variable {p : Program}

theorem Valid.directSubtypes_eq (h : p.Valid) (c : ClassId) (kind : SubtypeKind) :
    p.directSubtypes c kind = p.classIds.flatMap fun k =>
      List.replicate (((p.class? k).map (·.timesBelow c kind)).getD 0) k := by
  rw [directSubtypes, h.below, getD_group]
  simp only [Declarations.subtypePairs, List.filter_flatMap, List.map_flatMap, filter_map_pair]
  refine List.flatMap_congr fun k _ => ?_
  cases p.class? k with
  | none => rfl
  | some x => rw [Option.map_some, Option.map_some, Option.getD_some, Option.getD_some,
      x.count_parents]

/-- A class stands below another as often as it is declared to. -/
theorem Valid.count_directSubtypes (h : p.Valid) (c k : ClassId) (kind : SubtypeKind) :
    (p.directSubtypes c kind).count k = ((p.class? k).map (·.timesBelow c kind)).getD 0 := by
  rw [h.directSubtypes_eq, Declarations.classIds,
    count_flatMap_replicate (EntityId.nodup_below _)]
  split
  · rfl
  · rename_i hk
    rw [EntityId.mem_below, Nat.not_lt] at hk
    rw [Declarations.class?, Array.getElem?_eq_none hk]
    rfl

theorem Valid.sorted_directSubtypes (h : p.Valid) (c : ClassId) (kind : SubtypeKind) :
    (p.directSubtypes c kind).Pairwise fun i j => i.index ≤ j.index := by
  rw [h.directSubtypes_eq]
  refine List.pairwise_flatMap.2 ⟨fun k _ => List.pairwise_replicate.2 (.inr (Nat.le_refl _)),
    (EntityId.pairwise_below _).imp fun {i j} hlt x hx y hy => ?_⟩
  rw [List.eq_of_mem_replicate hx, List.eq_of_mem_replicate hy]
  exact Nat.le_of_lt hlt

end Program

/-! ## Building -/

/-- The indices of a program list what they are said to list. -/
structure Program.Indexed (p : Program) : Prop where
  ascending_usesAs : ∀ v use, Ascending (p.usesAs v use)
  mem_usesAs : ∀ v use site, site ∈ p.usesAs v use ↔
    ∃ i, p.instrAt? site = some i ∧ use.Occurs v i
  returnVars : ∀ m b, p.body? m = some b → FirstOccurrences b.returned b.returnVars
  sorted_directSubtypes : ∀ c kind,
    (p.directSubtypes c kind).Pairwise fun i j => i.index ≤ j.index
  count_directSubtypes : ∀ c kind k, (p.directSubtypes c kind).count k =
    ((p.class? k).map (·.timesBelow c kind)).getD 0

theorem Program.Valid.indexed {p : Program} (h : p.Valid) : p.Indexed where
  ascending_usesAs := h.ascending_usesAs
  mem_usesAs v use site := by simp only [h.mem_usesAs, baseUse?_eq_some_iff]
  returnVars _ b _ := b.firstOccurrences_returnVars
  sorted_directSubtypes := h.sorted_directSubtypes
  count_directSubtypes c kind k := h.count_directSubtypes c k kind

namespace Builder

open Declarations

/-- A build succeeds unless the main method cannot be run or a jump leaves its body, and reports the
main method or else the first such jump. What it makes has the declarations of the builder, and its
indices list what they are said to list. -/
theorem build_run {calls : List Call} (h : Admissible ∅ calls) :
    ((∃ p, (run calls).build = .ok p) ↔
      (∀ m, (run calls).main = some m → (run calls).Runnable m) ∧
        ∀ m b, (run calls).body? m = some b → b.JumpsInside) ∧
    (∀ e, (run calls).build = .error e ↔ (run calls).Refused e) ∧
    ∀ p, (run calls).build = .ok p → p.toDeclarations = (run calls).toDeclarations ∧
      (∀ name, p.classNamed? name = (run calls).classTable[name]?) ∧ p.Indexed := by
  have hs := sound_run h
  refine ⟨exists_build_iff, fun e => build_eq_error_iff, fun p hp => ?_⟩
  have hvalid := Program.valid_of_build hs.built hp
  obtain ⟨-, -, rfl⟩ := Program.build_ok hp
  exact ⟨rfl, hs.classNamed?, hvalid.indexed⟩

/-- A class lists an interface twice, and a method loads a field of a variable that belongs to
another method. With a jump out of its body the program is refused. -/
theorem build_run_loads : ∃ calls, Admissible ∅ calls ∧
    (∃ p, (run calls).build = .ok p ∧ p.Indexed ∧
      p.usesAs ⟨0⟩ .loadField = [⟨⟨0⟩, 1⟩, ⟨⟨1⟩, 0⟩] ∧
      p.directSubtypes ⟨0⟩ .implementor = [⟨1⟩, ⟨1⟩]) ∧
    Admissible ∅ (calls ++ [.addStmt ⟨1⟩ (.goto 2)]) ∧
    (run (calls ++ [.addStmt ⟨1⟩ (.goto 2)])).Refused
      (.invalidJumpTarget "<B: void n()>" 1 2 2) := by
  let calls : List Call := [
    .addInterface "I" [], .addClass "A" none [⟨0⟩, ⟨0⟩], .addClass "B" (some ⟨1⟩) [],
    .addField ⟨1⟩ "f" (.cls ⟨1⟩) false, .addMethod ⟨1⟩ "m" [] (.cls ⟨1⟩) false,
    .addMethod ⟨2⟩ "n" [] .void true, .addVar ⟨0⟩ "x" (.cls ⟨1⟩),
    .addStmt ⟨0⟩ (.storeField (.object ⟨0⟩ ⟨0⟩) ⟨0⟩),
    .addStmt ⟨0⟩ (.assign ⟨1⟩ (.field (.object ⟨0⟩ ⟨0⟩))),
    .addStmt ⟨1⟩ (.assign ⟨1⟩ (.field (.object ⟨0⟩ ⟨0⟩))), .addStmt ⟨0⟩ (.ret (some ⟨1⟩)),
    .setMain ⟨1⟩]
  have hcalls : Admissible ∅ calls := by decide +kernel
  have hmore : Admissible ∅ (calls ++ [.addStmt ⟨1⟩ (.goto 2)]) := by decide +kernel
  refine ⟨calls, hcalls, ?_, hmore, ?_⟩
  · have hbuild : (run calls).build.toBool = true := by decide +kernel
    cases hp : (run calls).build with
    | error e => rw [hp] at hbuild; cases hbuild
    | ok p =>
      obtain ⟨-, -, hindexed⟩ := (build_run hcalls).2.2 p hp
      obtain ⟨-, -, rfl⟩ := Program.build_ok hp
      exact ⟨_, rfl, hindexed, by decide +kernel, by decide +kernel⟩
  · have hbuild : (run (calls ++ [.addStmt ⟨1⟩ (.goto 2)])).build.map (fun _ => ()) =
        .error (.invalidJumpTarget "<B: void n()>" 1 2 2) := by decide +kernel
    refine ((build_run hmore).2.1 _).1 ?_
    cases hp : (run (calls ++ [.addStmt ⟨1⟩ (.goto 2)])).build with
    | error e => rw [hp] at hbuild; exact congrArg _ (Except.error.inj hbuild)
    | ok p => rw [hp] at hbuild; cases hbuild

end Builder

end ObjectFlow
