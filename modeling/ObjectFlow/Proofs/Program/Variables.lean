import ObjectFlow.Proofs.Program.Ownership
import ObjectFlow.Proofs.Program.Registry

/-!
# Variables of methods

The body of a method lists the variables that belong to it, in the order of their creation
(`Built.bodyVars_eq`), so every variable stands in one body. The list starts with `this`, unless the
method is static, and its parameters (`Built.headed`).
-/

namespace ObjectFlow.Declarations

variable {d d' : Declarations} {m k : MethodId} {v : VarId} {l : List VarDecl}

/-- The variables that belong to a method, in the order of their creation. -/
def varsOf (d : Declarations) (m : MethodId) : List VarId :=
  (EntityId.below d.vars.size).filter (d.owner? · = some m)

/-- The variables that the body of a method lists. -/
def bodyVars (d : Declarations) (m : MethodId) : List VarId :=
  ((d.body? m).map Body.vars).getD []

theorem mem_varsOf : v ∈ d.varsOf m ↔ d.owner? v = some m := by
  simp only [varsOf, List.mem_filter, EntityId.mem_below, decide_eq_true_eq, and_iff_right_iff_imp]
  intro h
  obtain ⟨x, hx, -⟩ := Option.map_eq_some_iff.1 h
  exact (Array.getElem?_eq_some_iff.1 hx).1

theorem nodup_varsOf (d : Declarations) (m : MethodId) : (d.varsOf m).Nodup :=
  (EntityId.nodup_below _).filter _

/-! ## More variables -/

theorem var?_of_append (hl : d'.vars.toList = d.vars.toList ++ l) (hv : d.HasVar v) :
    d'.var? v = d.var? v := by
  rw [var?, var?, ← Array.getElem?_toList, ← Array.getElem?_toList, hl,
    List.getElem?_append_left hv]

theorem var?_nextVars (hl : d'.vars.toList = d.vars.toList ++ l) :
    (d.nextVars l.length).map d'.var? = l.map some := by
  have hnew : ∀ i, d'.var? ⟨d.vars.size + i⟩ = l[i]? := fun i => by
    rw [var?, ← Array.getElem?_toList, hl, List.getElem?_append_right (by simp)]
    simp
  refine List.ext_getElem (by simp [nextVars]) fun i hi hi' => ?_
  simp only [nextVars, List.getElem_map, List.getElem_range, hnew]
  exact List.getElem?_eq_getElem (by simpa using hi')

/-- New variables of one method are listed after those that it has. -/
theorem varsOf_append (hl : d'.vars.toList = d.vars.toList ++ l) (hm : ∀ x ∈ l, x.method = m)
    (k : MethodId) : d'.varsOf k = d.varsOf k ++ if k = m then d.nextVars l.length else [] := by
  have hsize : d'.vars.size = d.vars.size + l.length := by
    rw [← Array.length_toList, hl, List.length_append, Array.length_toList]
  have hids : (EntityId.below d'.vars.size : List VarId) =
      EntityId.below d.vars.size ++ d.nextVars l.length := by
    rw [hsize, EntityId.below, List.range_add, List.map_append, List.map_map]
    rfl
  have hold : ∀ v ∈ (EntityId.below d.vars.size : List VarId), d'.owner? v = d.owner? v :=
    fun v hv => by rw [owner?, owner?, var?_of_append hl (EntityId.mem_below.1 hv)]
  have hnew : ∀ v ∈ d.nextVars l.length, d'.owner? v = some m := by
    intro v hv
    have hmem : d'.var? v ∈ l.map some := var?_nextVars hl ▸ List.mem_map_of_mem hv
    obtain ⟨x, hx, hvx⟩ := List.mem_map.1 hmem
    rw [owner?, ← hvx, Option.map_some, hm x hx]
  rw [varsOf, hids, List.filter_append, varsOf]
  congr 1
  · exact List.filter_congr fun v hv => by rw [hold v hv]
  · split
    · subst k
      exact List.filter_eq_self.2 fun v hv => decide_eq_true (hnew v hv)
    · rename_i hk
      refine List.filter_eq_nil_iff.2 fun v hv => ?_
      rw [hnew v hv]
      simpa using Ne.symm hk

/-! ## Variables of a new body -/

theorem headBody_vars (d : Declarations) (c : ClassId) (params : List Ty) (isStatic : Bool) :
    (d.headBody params isStatic).vars = d.nextVars (headVars c params isStatic).length := by
  cases isStatic <;> simp [headBody, headVars]

theorem headBody_this (d : Declarations) (params : List Ty) (isStatic : Bool) :
    (d.headBody params isStatic).this.isSome = !isStatic := by
  cases isStatic <;> simp [headBody, nextVars]

theorem headBody_heads (d : Declarations) (params : List Ty) (isStatic : Bool) :
    (d.headBody params isStatic).this.toList ++ (d.headBody params isStatic).params =
      (d.headBody params isStatic).vars := by
  cases isStatic with
  | true => rfl
  | false => simp [headBody, nextVars, List.range_succ_eq_map]

/-! ## Variables of bodies -/

/-- A new method lists its own new variables and no others. -/
theorem declareMethod_bodyVars {c name params ret isStatic isAbstract}
    (h : ∀ k, d.bodyVars k = d.varsOf k)
    (hd : d.declareMethod c name params ret isStatic isAbstract = .ok (m, d')) (k : MethodId) :
    d'.bodyVars k = d'.varsOf k := by
  have hnone : d.bodyVars m = [] := by
    have hm : ¬d.HasMethod m := by
      obtain ⟨-, rfl, -⟩ := declareMethod_ok hd
      exact Nat.lt_irrefl _
    cases hb : d.body? m with
    | none => rw [bodyVars, hb]; rfl
    | some b => exact absurd (body?_lt hb) hm
  have hlist := varsOf_append (m := m) (declareMethod_vars hd)
    (fun x hx => by obtain ⟨y, -, rfl⟩ := List.mem_map.1 hx; rfl) k
  rw [hlist, bodyVars, declareMethod_body?_eq hd, List.length_map]
  by_cases hk : k = m
  · subst hk
    rw [← h, hnone, if_pos rfl, if_pos rfl, List.nil_append]
    cases isAbstract with
    | true => rfl
    | false => exact headBody_vars d c params isStatic
  · rw [if_neg hk, if_neg hk, List.append_nil, ← h, bodyVars]

theorem addVar_bodyVars {name : String} {type : Ty} (h : ∀ k, d.bodyVars k = d.varsOf k)
    (hd : d.addVar m name type = .ok (v, d')) (k : MethodId) : d'.bodyVars k = d'.varsOf k := by
  obtain ⟨b, hb⟩ := addVar_body hd
  have hlist := varsOf_append (m := m) (addVar_vars hd) (by simp) k
  have hbody : d'.body? k =
      if k = m then (d.body? k).map fun b => { b with vars := b.vars ++ [⟨d.vars.size⟩] }
      else d.body? k := by
    obtain rfl := addVar_ok hd
    exact body?_modifyBody_eq _ k
  rw [hlist, bodyVars, hbody, ← h, bodyVars]
  by_cases hk : k = m
  · subst hk
    simp [hb, nextVars]
  · simp [hk]

/-- The body of a method lists the variables that belong to the method. -/
theorem Built.bodyVars_eq (h : d.Built) : ∀ m, d.bodyVars m = d.varsOf m := by
  induction h with
  | empty => exact fun m => rfl
  | addClass _ _ _ _ _ _ hd ih =>
    obtain ⟨-, -, rfl⟩ := declareClass_ok hd
    exact ih
  | addInterface _ _ _ _ hd ih =>
    obtain ⟨-, -, rfl⟩ := declareClass_ok hd
    exact ih
  | setAbstract _ _ _ ih => exact ih
  | addField _ _ _ _ _ _ _ ih => exact ih
  | addMethod _ _ _ _ _ _ _ _ hd ih => exact declareMethod_bodyVars ih hd
  | addAbstractMethod _ _ _ _ _ _ _ hd ih => exact declareMethod_bodyVars ih hd
  | setMain _ _ _ ih => exact ih
  | addVar _ _ _ _ _ _ hd ih => exact addVar_bodyVars ih hd
  | addStmt m instr _ _ _ hd ih =>
    obtain ⟨_, -, rfl⟩ := addStmt_ok hd
    intro k
    refine Eq.trans ?_ (ih k)
    rw [bodyVars, body?_modifyBody_eq, bodyVars]
    split
    · rw [Option.map_map]; rfl
    · rfl

/-! ## The first variables -/

/-- A body starts with `this`, unless its method is static, and one variable for each parameter. -/
structure Headed (d : Declarations) (m : MethodId) (x : MethodDecl) (b : Body) : Prop where
  this : b.this.isSome = !x.isStatic
  first : b.this.toList ++ b.params <+: b.vars
  declared : (b.this.toList ++ b.params).map d.var? =
    (headVars x.cls x.paramTypes x.isStatic).map fun y => some ⟨y.1, y.2, m⟩

/-- All bodies start so. -/
def HeadedBodies (d : Declarations) : Prop :=
  ∀ m x b, d.header? m = some x → d.body? m = some b → d.Headed m x b

theorem Headed.of_vars {x : MethodDecl} {b : Body} (h : d.Headed m x b) (hv : d'.vars = d.vars) :
    d'.Headed m x b where
  this := h.this
  first := h.first
  declared := by
    have hvar : d'.var? = d.var? := funext fun v => by rw [var?, var?, hv]
    rw [hvar, h.declared]

/-- More variables, in the body or elsewhere, leave the first ones as they are. -/
theorem Headed.mono {x : MethodDecl} {b : Body} (h : d.Headed m x b)
    (hl : d'.vars.toList = d.vars.toList ++ l) (vars : List VarId) (stmts : List Stmt) :
    d'.Headed m x { b with vars := b.vars ++ vars, stmts } where
  this := h.this
  first := h.first.trans (List.prefix_append ..)
  declared := by
    refine Eq.trans (List.map_congr_left fun v hv => var?_of_append hl ?_) h.declared
    have hmem : d.var? v ∈ _ := h.declared ▸ List.mem_map_of_mem hv
    obtain ⟨y, -, hy⟩ := List.mem_map.1 hmem
    exact (Array.getElem?_eq_some_iff.1 hy.symm).1

theorem HeadedBodies.declareMethod {c : ClassId} {name : String} {params : List Ty} {ret : Ty}
    {isStatic isAbstract : Bool} (h : d.HeadedBodies)
    (hd : d.declareMethod c name params ret isStatic isAbstract = .ok (m, d')) :
    d'.HeadedBodies := by
  intro k x b hx hb
  have hvars := declareMethod_vars hd
  rw [declareMethod_header? hd] at hx
  rw [declareMethod_body?_eq hd] at hb
  by_cases hk : k = m
  · subst hk
    rw [if_pos rfl] at hx hb
    cases isAbstract with
    | true => cases hb
    | false =>
      obtain rfl := Option.some.inj hx
      obtain rfl := Option.some.inj hb
      have hnew := var?_nextVars hvars
      rw [List.length_map, List.map_map] at hnew
      refine ⟨headBody_this d params isStatic, ?_, ?_⟩
      · exact headBody_heads d params isStatic ▸ List.prefix_refl _
      · rw [headBody_heads, headBody_vars d c params isStatic]
        exact hnew
  · rw [if_neg hk] at hx hb
    simpa using (h k x b hx hb).mono hvars [] b.stmts

theorem HeadedBodies.modifyBody {f : Body → Body} {vars : Array VarDecl} (h : d.HeadedBodies)
    (hf : ∀ b, ∃ vars stmts, f b = { b with vars := b.vars ++ vars, stmts })
    (hl : vars.toList = d.vars.toList ++ l) :
    HeadedBodies { d.modifyBody m f with vars := vars } := by
  intro k x b hx hb
  have hx : (d.modifyBody m f).header? k = some x := hx
  rw [header?_modifyBody] at hx
  obtain ⟨b₀, hb₀, rfl | ⟨rfl, -⟩⟩ := body?_modifyBody hb
  · have hsame : Headed { d.modifyBody m f with vars := vars } k x { b with vars := b.vars ++ [] } :=
      (h k x b hx hb₀).mono hl [] b.stmts
    rwa [List.append_nil] at hsame
  · obtain ⟨vars', stmts, hfb⟩ := hf b₀
    exact hfb ▸ (h k x b₀ hx hb₀).mono hl vars' stmts

theorem Built.headed (h : d.Built) : d.HeadedBodies := by
  induction h with
  | empty => exact fun m x b _ hb => absurd (body?_lt hb) (Nat.not_lt_zero _)
  | addClass _ _ _ _ _ _ hd ih =>
    obtain ⟨-, -, rfl⟩ := declareClass_ok hd
    exact fun m x b hx hb => (ih m x b hx hb).of_vars rfl
  | addInterface _ _ _ _ hd ih =>
    obtain ⟨-, -, rfl⟩ := declareClass_ok hd
    exact fun m x b hx hb => (ih m x b hx hb).of_vars rfl
  | setAbstract _ _ _ ih => exact fun m x b hx hb => (ih m x b hx hb).of_vars rfl
  | addField _ _ _ _ _ _ _ ih => exact fun m x b hx hb => (ih m x b hx hb).of_vars rfl
  | addMethod _ _ _ _ _ _ _ _ hd ih => exact ih.declareMethod hd
  | addAbstractMethod _ _ _ _ _ _ _ hd ih => exact ih.declareMethod hd
  | setMain _ _ _ ih => exact fun m x b hx hb => (ih m x b hx hb).of_vars rfl
  | addVar _ _ _ _ _ _ hd ih =>
    obtain rfl := addVar_ok hd
    exact ih.modifyBody (fun b => ⟨_, _, rfl⟩) Array.toList_push
  | addStmt m instr _ _ _ hd ih =>
    obtain ⟨_, -, rfl⟩ := addStmt_ok hd
    exact ih.modifyBody (fun b => ⟨[], _, by rw [List.append_nil]⟩)
      (List.append_nil _).symm

end ObjectFlow.Declarations
