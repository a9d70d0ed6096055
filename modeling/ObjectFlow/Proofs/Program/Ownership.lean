import ObjectFlow.Proofs.Program.Sites

/-!
# Ownership of variables

Every variable belongs to the method for which it was added. In a built program the variables that
the body of a method lists belong to it (`ownBodies_of_build`). `OwnVars d` says so of those that
its statements mention, which no builder call checks.
-/

namespace ObjectFlow.Declarations

variable {d d' : Declarations} {m : MethodId} {v : VarId}

/-- The method that a variable belongs to. -/
def owner? (d : Declarations) (v : VarId) : Option MethodId :=
  (d.var? v).map VarDecl.method

/-- Statements mention only variables of their own methods. -/
def OwnVars (d : Declarations) : Prop :=
  ∀ y ∈ d.allStmts, ∀ v ∈ y.2.uses ++ y.2.def?.toList, d.owner? v = some y.1.method

instance : Decidable d.OwnVars :=
  inferInstanceAs (Decidable (∀ y ∈ d.allStmts, ∀ v ∈ y.2.uses ++ y.2.def?.toList,
    d.owner? v = some y.1.method))

theorem OwnVars.owner {site : Site} {i : Instr} (h : d.OwnVars) (hd : d.WellFormed)
    (hi : d.instrAt? site = some i) (hv : v ∈ i.uses ++ i.def?.toList) :
    d.owner? v = some site.method :=
  h (site, i) (mem_allStmts.2 (hd.instrAt?_iff.1 hi)) v hv

/-! ## Variables of bodies -/

/-- The variables that a body lists belong to its method. -/
def OwnBodies (d : Declarations) : Prop :=
  ∀ m b v, d.body? m = some b → v ∈ b.this.toList ++ b.params ++ b.vars → d.owner? v = some m

/-- More variables take none from its owner. -/
theorem owner?_of_append {l : List VarDecl} (hl : d'.vars.toList = d.vars.toList ++ l)
    (h : d.owner? v = some m) : d'.owner? v = some m := by
  obtain ⟨x, hx, rfl⟩ := Option.map_eq_some_iff.1 h
  refine Option.map_eq_some_iff.2 ⟨x, ?_, rfl⟩
  rw [var?, ← Array.getElem?_toList] at hx ⊢
  rw [hl, List.getElem?_append_left (List.getElem?_eq_some_iff.1 hx).1, hx]

theorem OwnBodies.mono {l : List VarDecl} (h : d.OwnBodies)
    (hb : ∀ m b, d'.body? m = some b → d.body? m = some b)
    (hl : d'.vars.toList = d.vars.toList ++ l) : d'.OwnBodies := fun m b v hm hv =>
  owner?_of_append hl (h m b v (hb m b hm) hv)

theorem OwnBodies.declareClass {name superclass interfaces isInterface c} (h : d.OwnBodies)
    (hd : d.declareClass name superclass interfaces isInterface = .ok (c, d')) :
    d'.OwnBodies := by
  obtain ⟨-, -, rfl⟩ := declareClass_ok hd
  exact h.mono (fun _ _ hb => hb) (List.append_nil _).symm

theorem OwnBodies.declareMethod {c : ClassId} {name : String} {params : List Ty} {ret : Ty}
    {isStatic isAbstract : Bool} (h : d.OwnBodies)
    (hd : d.declareMethod c name params ret isStatic isAbstract = .ok (m, d')) :
    d'.OwnBodies := by
  intro k b v hb hv
  have hvars := declareMethod_vars hd
  rcases declareMethod_body? hd hb with hb | ⟨rfl, rfl, rfl⟩
  · exact owner?_of_append hvars (h k b v hb hv)
  · obtain ⟨hlow, hhigh⟩ := headBody_bounds (c := c) hv
    rw [owner?, var?, ← Array.getElem?_toList, hvars, List.getElem?_append_right (by simpa)]
    simp only [Array.length_toList, Bool.false_eq_true, ↓reduceIte, List.getElem?_map,
      Option.map_map]
    have hlt : v.index - d.vars.size < (headVars c params isStatic).length := by omega
    rw [List.getElem?_eq_getElem hlt]
    rfl

theorem OwnBodies.addVar {name type v} (h : d.OwnBodies)
    (hd : d.addVar m name type = .ok (v, d')) : d'.OwnBodies := by
  have hvars := addVar_vars hd
  have hnew : d'.owner? ⟨d.vars.size⟩ = some m := by
    obtain rfl := addVar_ok hd
    change (d.vars.push _)[d.vars.size]?.map VarDecl.method = some m
    rw [Array.getElem?_push_size]
    rfl
  intro k b w hb hw
  rw [addVar_ok hd] at hb
  obtain ⟨b₀, hb₀, rfl | ⟨rfl, rfl⟩⟩ := body?_modifyBody hb
  · exact owner?_of_append hvars (h k b w hb₀ hw)
  · rw [← List.append_assoc] at hw
    rcases List.mem_append.1 hw with hw | hw
    · exact owner?_of_append hvars (h k b₀ w hb₀ hw)
    · exact List.mem_singleton.1 hw ▸ hnew

theorem OwnBodies.addStmt {instr i} (h : d.OwnBodies) (hd : d.addStmt m instr = .ok (i, d')) :
    d'.OwnBodies := by
  obtain ⟨-, -, rfl⟩ := addStmt_ok hd
  intro k b w hb hw
  obtain ⟨b₀, hb₀, rfl | ⟨rfl, -⟩⟩ := body?_modifyBody hb
  · exact h k b w hb₀ hw
  · exact h k b₀ w hb₀ hw

theorem Built.ownBodies (h : Built d) : d.OwnBodies := by
  induction h with
  | empty => exact fun m b v hb _ => absurd (body?_lt hb) (Nat.not_lt_zero _)
  | addClass _ _ _ _ _ _ hd ih => exact ih.declareClass hd
  | addInterface _ _ _ _ hd ih => exact ih.declareClass hd
  | setAbstract _ _ _ ih => exact ih.mono (fun _ _ hb => hb) (List.append_nil _).symm
  | addField _ _ _ _ _ _ _ ih => exact ih.mono (fun _ _ hb => hb) (List.append_nil _).symm
  | addMethod _ _ _ _ _ _ _ _ hd ih => exact ih.declareMethod hd
  | addAbstractMethod _ _ _ _ _ _ _ hd ih => exact ih.declareMethod hd
  | setMain _ _ _ ih => exact ih.mono (fun _ _ hb => hb) (List.append_nil _).symm
  | addVar _ _ _ _ _ _ hd ih => exact ih.addVar hd
  | addStmt _ _ _ _ _ hd ih => exact ih.addStmt hd

/-- In a built program the variables that a body lists belong to its method. -/
theorem ownBodies_of_build {p : Program} (hd : d.Built) (h : d.build = .ok p) : p.OwnBodies := by
  obtain ⟨-, -, rfl⟩ := Program.build_ok h
  exact hd.ownBodies

end ObjectFlow.Declarations
