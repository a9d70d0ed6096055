import ObjectFlow.Program.Build

/-!
# Built declarations

`Built d`: a sequence of builder calls makes the declarations `d`, where every id passed is that of
an entity added before. `Built.wellFormed`: then every statement stands at its own index
(`WellFormed.indexed`), every id in a body exists (`named`, `owned`), and so does every method found
in a class (`declared`).
-/

namespace ObjectFlow

open Std

/-! ## Ids in statements -/

/-- The class that a type mentions. -/
def Ty.cls? : Ty → Option ClassId
  | .cls c => some c
  | .array elem => elem.cls?
  | _ => none

/-- The type that an expression mentions. -/
def Exp.type? : Exp → Option Ty
  | .new t | .cast t _ | .instanceOf _ t => some t
  | _ => none

/-- The class that a statement mentions. -/
def Instr.cls? : Instr → Option ClassId
  | .assign _ rhs => rhs.type?.bind Ty.cls?
  | .invoke _ call => some call.target.cls
  | _ => none

namespace Declarations

variable {d d' : Declarations}

def HasClass (d : Declarations) (c : ClassId) : Prop := c.index < d.classes.size

def HasField (d : Declarations) (f : FieldId) : Prop := f.index < d.fields.size

def HasMethod (d : Declarations) (m : MethodId) : Prop := m.index < d.methods.size

def HasVar (d : Declarations) (v : VarId) : Prop := v.index < d.vars.size

def HasType (d : Declarations) (t : Ty) : Prop := ∀ c, t.cls? = some c → d.HasClass c

instance (c : ClassId) : Decidable (d.HasClass c) := inferInstanceAs (Decidable (_ < _))

instance (f : FieldId) : Decidable (d.HasField f) := inferInstanceAs (Decidable (_ < _))

instance (m : MethodId) : Decidable (d.HasMethod m) := inferInstanceAs (Decidable (_ < _))

instance (v : VarId) : Decidable (d.HasVar v) := inferInstanceAs (Decidable (_ < _))

instance (t : Ty) : Decidable (d.HasType t) :=
  match h : t.cls? with
  | none => isTrue fun c hc => by simp [h] at hc
  | some c => decidable_of_iff (d.HasClass c) ⟨fun k c' hc => by simp_all, fun k => k c h⟩

/-- All ids in a statement exist. -/
structure Names (d : Declarations) (i : Instr) : Prop where
  vars : ∀ v ∈ i.uses ++ i.def?.toList, d.HasVar v
  field : ∀ access, i.fieldAccess? = some access → d.HasField access.field
  cls : ∀ c, i.cls? = some c → d.HasClass c

instance (i : Instr) : Decidable (d.Names i) :=
  decidable_of_iff ((∀ v ∈ i.uses ++ i.def?.toList, d.HasVar v) ∧
      (∀ access ∈ i.fieldAccess?.toList, d.HasField access.field) ∧
      ∀ c ∈ i.cls?.toList, d.HasClass c)
    ⟨fun ⟨hv, hf, hc⟩ => ⟨hv, fun a h => hf a (Option.mem_toList.2 h),
        fun c h => hc c (Option.mem_toList.2 h)⟩,
      fun h => ⟨h.vars, fun a ha => h.field a (Option.mem_toList.1 ha),
        fun c hc => h.cls c (Option.mem_toList.1 hc)⟩⟩

/-- The declarations that builder calls make, each with ids that earlier calls returned. -/
inductive Built : Declarations → Prop
  | empty : Built ∅
  | addClass {d d' : Declarations} {c} (name : String) (superclass : Option ClassId)
      (interfaces : List ClassId) : Built d → (∀ s, superclass = some s → d.HasClass s) →
      (∀ i ∈ interfaces, d.HasClass i) →
      d.addClass name superclass interfaces = .ok (c, d') → Built d'
  | addInterface {d d' : Declarations} {c} (name : String) (interfaces : List ClassId) :
      Built d → (∀ i ∈ interfaces, d.HasClass i) →
      d.addInterface name interfaces = .ok (c, d') → Built d'
  | setAbstract {d : Declarations} (c : ClassId) : Built d → d.HasClass c →
      Built (d.setAbstract c)
  | addField {d : Declarations} (c : ClassId) (name : String) (type : Ty) (isStatic : Bool) :
      Built d → d.HasClass c → d.HasType type → Built (d.addField c name type isStatic).2
  | addMethod {d d' : Declarations} {m} (c : ClassId) (name : String) (params : List Ty) (ret : Ty)
      (isStatic : Bool) : Built d → d.HasClass c → (∀ t ∈ ret :: params, d.HasType t) →
      d.addMethod c name params ret isStatic = .ok (m, d') → Built d'
  | addAbstractMethod {d d' : Declarations} {m} (c : ClassId) (name : String) (params : List Ty)
      (ret : Ty) : Built d → d.HasClass c → (∀ t ∈ ret :: params, d.HasType t) →
      d.addAbstractMethod c name params ret = .ok (m, d') → Built d'
  | setMain {d : Declarations} (m : MethodId) : Built d → d.HasMethod m → Built (d.setMain m)
  | addVar {d d' : Declarations} {v} (m : MethodId) (name : String) (type : Ty) : Built d →
      d.HasMethod m → d.HasType type → d.addVar m name type = .ok (v, d') → Built d'
  | addStmt {d d' : Declarations} {i} (m : MethodId) (instr : Instr) : Built d → d.HasMethod m →
      d.Names instr → d.addStmt m instr = .ok (i, d') → Built d'

/-- A class with a new name can be added. -/
theorem addClass_fresh {name : String} (superclass : Option ClassId) (interfaces : List ClassId)
    (h : ∀ c ∈ d.classes, c.name ≠ name) : d.addClass name superclass interfaces =
      .ok (⟨d.classes.size⟩, { d with
        classes := d.classes.push ⟨name, superclass, interfaces, false, false, ∅⟩ }) := by
  have hnew : d.classNamed? name = none := by
    rw [classNamed?, Option.map_eq_none_iff, Array.findIdx?_eq_none_iff]
    exact fun c hc => decide_eq_false (h c hc)
  rw [addClass, declareClass, if_neg (by simp [hnew])]

/-- The first class can be added whatever its name. -/
theorem addClass_first (name : String) : (∅ : Declarations).addClass name none [] =
    .ok (⟨0⟩, { classes := #[⟨name, none, [], false, false, ∅⟩] }) :=
  addClass_fresh none [] fun _ hc => absurd hc (Array.not_mem_empty _)

/-- What builder calls keep. -/
structure WellFormed (d : Declarations) : Prop where
  indexed : ∀ {m : MethodId} {b : Body} {i : Nat} {s : Stmt}, d.body? m = some b →
    b.stmts[i]? = some s → s.index = i
  named : ∀ {m : MethodId} {b : Body} {s : Stmt}, d.body? m = some b → s ∈ b.stmts →
    d.Names s.instr
  owned : ∀ {m : MethodId} {b : Body} {v : VarId}, d.body? m = some b →
    v ∈ b.this.toList ++ b.params ++ b.vars → d.HasVar v
  declared : ∀ {c : ClassId} {s : Subsignature} {m : MethodId}, d.declaredMethod? c s = some m →
    d.HasMethod m

/-! ## Calls that succeed -/

theorem declareClass_ok {name superclass interfaces isInterface c}
    (h : d.declareClass name superclass interfaces isInterface = .ok (c, d')) :
    d.classNamed? name = none ∧ c = ⟨d.classes.size⟩ ∧ d' = { d with
      classes := d.classes.push
        { name, superclass, interfaces, isInterface, isAbstract := isInterface } } := by
  unfold declareClass at h
  split at h
  · cases h
  · rename_i hnew
    obtain ⟨rfl, rfl⟩ := Prod.mk.inj (Except.ok.inj h)
    exact ⟨by simpa using hnew, rfl, rfl⟩

theorem declareMethod_ok {c name params ret isStatic isAbstract m}
    (h : d.declareMethod c name params ret isStatic isAbstract = .ok (m, d')) :
    let subsignature := Subsignature.ofParts (d.typeName ret) name (params.map d.typeName)
    d.declaredMethod? c subsignature = none ∧ m = ⟨d.methods.size⟩ ∧ d' = { d with
      classes := d.classes.modify c.index fun decl =>
        { decl with methods := decl.methods.insert subsignature m }
      methods := d.methods.push
        { name, cls := c, subsignature, paramTypes := params, returnType := ret, isStatic,
          isAbstract, body := if isAbstract then none else some (d.headBody params isStatic) }
      vars := d.vars ++ (if isAbstract then [] else headVars c params isStatic).map
        fun x => (⟨x.1, x.2, m⟩ : VarDecl) } := by
  unfold declareMethod at h
  dsimp only at h ⊢
  split at h
  · cases h
  · rename_i hnew
    obtain ⟨rfl, rfl⟩ := Prod.mk.inj (Except.ok.inj h)
    exact ⟨by simpa using hnew, rfl, rfl⟩

theorem requireBody_ok {m : MethodId} {b : Body} (h : d.requireBody m = .ok b) :
    d.body? m = some b := by
  unfold requireBody at h
  split at h
  · rename_i hb
    rw [hb, Except.ok.inj h]
  · cases h

theorem addVar_ok {m name type v} (h : d.addVar m name type = .ok (v, d')) :
    d' = { d.modifyBody m fun b => { b with vars := b.vars ++ [⟨d.vars.size⟩] } with
      vars := d.vars.push { name, type, method := m } } := by
  unfold addVar at h
  cases hb : d.requireBody m with
  | error e => rw [hb] at h; cases h
  | ok b =>
    rw [hb] at h
    exact (Prod.mk.inj (Except.ok.inj h)).2.symm

theorem addVar_vars {m name type v} (h : d.addVar m name type = .ok (v, d')) :
    d'.vars.toList = d.vars.toList ++ [⟨name, type, m⟩] := by
  obtain rfl := addVar_ok h
  exact Array.toList_push

theorem addVar_body {m name type v} (h : d.addVar m name type = .ok (v, d')) :
    ∃ b, d.body? m = some b := by
  unfold addVar at h
  cases hb : d.requireBody m with
  | error e => rw [hb] at h; cases h
  | ok b => exact ⟨b, requireBody_ok hb⟩

theorem addStmt_ok {m instr i} (h : d.addStmt m instr = .ok (i, d')) :
    ∃ b, d.body? m = some b ∧
      d' = d.modifyBody m fun b' => { b' with stmts := b'.stmts ++ [⟨b.stmts.length, instr⟩] } := by
  unfold addStmt at h
  cases hb : d.requireBody m with
  | error e => rw [hb] at h; cases h
  | ok b =>
    rw [hb] at h
    exact ⟨b, requireBody_ok hb, (Prod.mk.inj (Except.ok.inj h)).2.symm⟩

/-! ## Preservation -/

theorem Names.mono {i : Instr} (h : d.Names i) (hc : d.classes.size ≤ d'.classes.size)
    (hf : d.fields.size ≤ d'.fields.size) (hv : d.vars.size ≤ d'.vars.size) : d'.Names i where
  vars v hm := Nat.lt_of_lt_of_le (h.vars v hm) hv
  field a ha := Nat.lt_of_lt_of_le (h.field a ha) hf
  cls c hm := Nat.lt_of_lt_of_le (h.cls c hm) hc

/-- More classes, fields, methods and variables do no harm to the bodies that there are. -/
theorem WellFormed.mono (h : d.WellFormed) (hb : ∀ m b, d'.body? m = some b → d.body? m = some b)
    (hd : ∀ c s m, d'.declaredMethod? c s = some m → d.declaredMethod? c s = some m)
    (hc : d.classes.size ≤ d'.classes.size) (hf : d.fields.size ≤ d'.fields.size)
    (hm : d.methods.size ≤ d'.methods.size) (hv : d.vars.size ≤ d'.vars.size) :
    d'.WellFormed where
  indexed h1 h2 := h.indexed (hb _ _ h1) h2
  named h1 h2 := (h.named (hb _ _ h1) h2).mono hc hf hv
  owned h1 h2 := Nat.lt_of_lt_of_le (h.owned (hb _ _ h1) h2) hv
  declared h1 := Nat.lt_of_lt_of_le (h.declared (hd _ _ _ h1)) hm

theorem body?_lt {m : MethodId} {b : Body} (h : d.body? m = some b) : d.HasMethod m := by
  obtain ⟨decl, hm, -⟩ := Option.bind_eq_some_iff.1 h
  exact (Array.getElem?_eq_some_iff.1 hm).1

theorem WellFormed.empty : WellFormed ∅ where
  indexed h _ := absurd (body?_lt h) (Nat.not_lt_zero _)
  named h _ := absurd (body?_lt h) (Nat.not_lt_zero _)
  owned h _ := absurd (body?_lt h) (Nat.not_lt_zero _)
  declared {c s m} h := by
    obtain ⟨decl, hc, -⟩ := Option.bind_eq_some_iff.1 h
    exact absurd (Array.getElem?_eq_some_iff.1 hc).1 (Nat.not_lt_zero _)

theorem WellFormed.declareClass {name superclass interfaces isInterface c} (h : d.WellFormed)
    (hd : d.declareClass name superclass interfaces isInterface = .ok (c, d')) :
    d'.WellFormed := by
  obtain ⟨-, -, rfl⟩ := declareClass_ok hd
  refine h.mono (fun _ _ hb => hb) (fun c s m hm => ?_) (by simp) (Nat.le_refl _) (Nat.le_refl _)
    (Nat.le_refl _)
  obtain ⟨decl, hc, hs⟩ := Option.bind_eq_some_iff.1 hm
  simp only [class?, Array.getElem?_push] at hc
  split at hc
  · simp only [Option.some.injEq] at hc
    subst hc
    simp at hs
  · exact Option.bind_eq_some_iff.2 ⟨decl, hc, hs⟩

theorem WellFormed.setAbstract (h : d.WellFormed) (c : ClassId) :
    (d.setAbstract c).WellFormed := by
  refine h.mono (fun _ _ hb => hb) (fun k s m hm => ?_) (by simp [Declarations.setAbstract])
    (Nat.le_refl _) (Nat.le_refl _) (Nat.le_refl _)
  obtain ⟨decl, hc, hs⟩ := Option.bind_eq_some_iff.1 hm
  simp only [Declarations.setAbstract, class?, Array.getElem?_modify] at hc
  split at hc
  · obtain ⟨decl', hc', rfl⟩ := Option.map_eq_some_iff.1 hc
    exact Option.bind_eq_some_iff.2 ⟨decl', hc', hs⟩
  · exact Option.bind_eq_some_iff.2 ⟨decl, hc, hs⟩

/-- The variables of a new body are the next ones. -/
theorem headBody_bounds {params : List Ty} {isStatic : Bool} {c : ClassId} {v : VarId}
    (hv : v ∈ (d.headBody params isStatic).this.toList ++ (d.headBody params isStatic).params ++
      (d.headBody params isStatic).vars) :
    d.vars.size ≤ v.index ∧ v.index < d.vars.size + (headVars c params isStatic).length := by
  have key : ∀ n, ∀ v ∈ d.nextVars n, d.vars.size ≤ v.index ∧ v.index < d.vars.size + n := by
    intro n v hv
    obtain ⟨i, hi, rfl⟩ := List.mem_map.1 hv
    have := List.mem_range.1 hi
    simp only
    omega
  cases isStatic with
  | true =>
    simp only [headBody, ↓reduceIte, Option.toList_none, List.nil_append, List.mem_append,
      or_self] at hv
    simpa [headVars] using key _ v hv
  | false =>
    simp only [headBody, Bool.false_eq_true, ↓reduceIte, List.mem_append, Option.mem_toList] at hv
    have hmem : v ∈ d.nextVars (params.length + 1) := by
      rcases hv with (hv | hv) | hv
      · exact List.mem_of_mem_head? hv
      · exact List.mem_of_mem_tail hv
      · exact hv
    have := key _ v hmem
    simpa [headVars, Nat.add_comm] using this

section
variable {c : ClassId} {name : String} {params : List Ty} {ret : Ty} {isStatic isAbstract : Bool}
  {m : MethodId} (hd : d.declareMethod c name params ret isStatic isAbstract = .ok (m, d'))
include hd

theorem declareMethod_sizes : m.index = d.methods.size ∧ d'.classes.size = d.classes.size ∧
    d'.fields.size = d.fields.size ∧ d'.methods.size = d.methods.size + 1 ∧ d'.vars.size =
      d.vars.size + (if isAbstract then [] else headVars c params isStatic).length := by
  obtain ⟨-, rfl, rfl⟩ := declareMethod_ok hd
  simp [← Array.length_toList]

theorem declareMethod_vars : d'.vars.toList = d.vars.toList ++ (if isAbstract then [] else
    headVars c params isStatic).map fun x => ⟨x.1, x.2, m⟩ := by
  obtain ⟨-, -, rfl⟩ := declareMethod_ok hd
  exact Array.toList_appendList ..

theorem declareMethod_body?_eq (k : MethodId) : d'.body? k =
    if k = m then if isAbstract then none else some (d.headBody params isStatic)
    else d.body? k := by
  obtain ⟨-, rfl, rfl⟩ := declareMethod_ok hd
  obtain ⟨k⟩ := k
  simp only [body?, method?, Array.getElem?_push, EntityId.mk.injEq]
  split <;> rfl

/-- A body is an old one or the new method's. -/
theorem declareMethod_body? {k : MethodId} {b : Body} (hb : d'.body? k = some b) :
    d.body? k = some b ∨ k = m ∧ isAbstract = false ∧ b = d.headBody params isStatic := by
  rw [declareMethod_body?_eq hd] at hb
  split at hb
  · rename_i hk
    cases isAbstract with
    | true => cases hb
    | false => exact .inr ⟨hk, rfl, (Option.some.inj hb).symm⟩
  · exact .inl hb

/-- A method declared in a class is an old one or the new one. -/
theorem declareMethod_declaredMethod? {k : ClassId} {s : Subsignature} {n : MethodId}
    (hn : d'.declaredMethod? k s = some n) : d.declaredMethod? k s = some n ∨ n = m := by
  obtain ⟨-, rfl, rfl⟩ := declareMethod_ok hd
  obtain ⟨decl, hc, hs⟩ := Option.bind_eq_some_iff.1 hn
  simp only [class?, Array.getElem?_modify] at hc
  split at hc
  · obtain ⟨decl', hc', rfl⟩ := Option.map_eq_some_iff.1 hc
    rw [ExtTreeMap.getElem?_insert] at hs
    split at hs
    · exact .inr (Option.some.inj hs).symm
    · exact .inl (Option.bind_eq_some_iff.2 ⟨decl', hc', hs⟩)
  · exact .inl (Option.bind_eq_some_iff.2 ⟨decl, hc, hs⟩)

theorem WellFormed.declareMethod (h : d.WellFormed) : d'.WellFormed := by
  obtain ⟨hm, hc, hf, hms, hv⟩ := declareMethod_sizes hd
  have hstmts : (d.headBody params isStatic).stmts = [] := by cases isStatic <;> rfl
  refine ⟨fun {k b i s} hb hi => ?_, fun {k b s} hb hs => ?_, fun {k b v} hb hw => ?_,
    fun {k s n} hn => ?_⟩
  · rcases declareMethod_body? hd hb with hb | ⟨-, -, rfl⟩
    · exact h.indexed hb hi
    · simp [hstmts] at hi
  · rcases declareMethod_body? hd hb with hb | ⟨-, -, rfl⟩
    · exact (h.named hb hs).mono (by omega) (by omega) (by omega)
    · simp [hstmts] at hs
  · rcases declareMethod_body? hd hb with hb | ⟨-, rfl, rfl⟩
    · have := h.owned hb hw
      simp only [HasVar] at this ⊢
      omega
    · have := (headBody_bounds (c := c) hw).2
      simpa only [HasVar, hv, Bool.false_eq_true, ↓reduceIte] using this
  · rcases declareMethod_declaredMethod? hd hn with hn | rfl
    · have := h.declared hn
      simp only [HasMethod] at this ⊢
      omega
    · simp only [HasMethod]
      omega

end

theorem body?_modifyBody_eq {m : MethodId} (f : Body → Body) (k : MethodId) :
    (d.modifyBody m f).body? k = if k = m then (d.body? k).map f else d.body? k := by
  obtain ⟨m⟩ := m
  obtain ⟨k⟩ := k
  simp only [body?, method?, modifyBody, Array.getElem?_modify, EntityId.mk.injEq, eq_comm (a := m)]
  split
  · cases d.methods[k]? <;> rfl
  · rfl

/-- A body after a change to one of them. -/
theorem body?_modifyBody {m k : MethodId} {f : Body → Body} {b : Body}
    (h : (d.modifyBody m f).body? k = some b) :
    ∃ b₀, d.body? k = some b₀ ∧ (b = b₀ ∨ b = f b₀ ∧ k = m) := by
  rw [body?_modifyBody_eq] at h
  split at h
  · rename_i hk
    obtain ⟨b₀, hb₀, rfl⟩ := Option.map_eq_some_iff.1 h
    exact ⟨b₀, hb₀, .inr ⟨rfl, hk⟩⟩
  · exact ⟨b, h, .inl rfl⟩

theorem WellFormed.addVar {m name type v} (h : d.WellFormed)
    (hd : d.addVar m name type = .ok (v, d')) : d'.WellFormed := by
  obtain rfl := addVar_ok hd
  refine ⟨fun {k b i s} hb hi => ?_, fun {k b s} hb hs => ?_, fun {k b v} hb hv => ?_,
    fun {k s m} hm => ?_⟩
  · obtain ⟨b₀, hb₀, rfl | ⟨rfl, -⟩⟩ := body?_modifyBody hb
    · exact h.indexed hb₀ hi
    · exact h.indexed hb₀ hi
  · obtain ⟨b₀, hb₀, rfl | ⟨rfl, -⟩⟩ := body?_modifyBody hb
    · exact (h.named hb₀ hs).mono (Nat.le_refl _) (Nat.le_refl _) (by simp)
    · exact (h.named hb₀ hs).mono (Nat.le_refl _) (Nat.le_refl _) (by simp)
  · simp only [HasVar, Array.size_push]
    obtain ⟨b₀, hb₀, rfl | ⟨rfl, -⟩⟩ := body?_modifyBody hb
    · have := h.owned hb₀ hv
      simp only [HasVar] at this
      omega
    · rw [← List.append_assoc] at hv
      rcases List.mem_append.1 hv with hv | hv
      · have := h.owned hb₀ hv
        simp only [HasVar] at this
        omega
      · simp only [List.mem_singleton] at hv
        subst hv
        simp
  · have := h.declared (c := k) (s := s) (m := m) hm
    simpa [HasMethod, modifyBody] using this

theorem WellFormed.addStmt {m instr i} (h : d.WellFormed) (hi : d.Names instr)
    (hd : d.addStmt m instr = .ok (i, d')) : d'.WellFormed := by
  obtain ⟨b, hb, rfl⟩ := addStmt_ok hd
  refine ⟨fun {k b' i s} hb' hs => ?_, fun {k b' s} hb' hs => ?_, fun {k b' v} hb' hv => ?_,
    fun {k s m} hm => ?_⟩
  · obtain ⟨b₀, hb₀, rfl | ⟨rfl, rfl⟩⟩ := body?_modifyBody hb'
    · exact h.indexed hb₀ hs
    · rw [hb, Option.some.injEq] at hb₀
      subst hb₀
      simp only [List.getElem?_append] at hs
      split at hs
      · exact h.indexed hb hs
      · rename_i hl
        have hlt := (List.getElem?_eq_some_iff.1 hs).1
        simp only [List.length_singleton] at hlt
        have : i - b.stmts.length = 0 := by omega
        rw [this] at hs
        simp only [List.getElem?_cons_zero, Option.some.injEq] at hs
        subst hs
        simp only
        omega
  · obtain ⟨b₀, hb₀, rfl | ⟨rfl, rfl⟩⟩ := body?_modifyBody hb'
    · exact (h.named hb₀ hs).mono (Nat.le_refl _) (Nat.le_refl _) (Nat.le_refl _)
    · rcases List.mem_append.1 hs with hs | hs
      · exact (h.named hb₀ hs).mono (Nat.le_refl _) (Nat.le_refl _) (Nat.le_refl _)
      · simp only [List.mem_singleton] at hs
        subst hs
        exact hi.mono (Nat.le_refl _) (Nat.le_refl _) (Nat.le_refl _)
  · obtain ⟨b₀, hb₀, rfl | ⟨rfl, rfl⟩⟩ := body?_modifyBody hb'
    · exact h.owned hb₀ hv
    · exact h.owned hb₀ hv
  · have := h.declared (c := k) (s := s) (m := m) hm
    simpa [HasMethod, modifyBody] using this

theorem Built.wellFormed (h : Built d) : d.WellFormed := by
  induction h with
  | empty => exact .empty
  | addClass _ _ _ _ _ _ hd ih => exact ih.declareClass hd
  | addInterface _ _ _ _ hd ih => exact ih.declareClass hd
  | setAbstract _ _ _ ih => exact ih.setAbstract _
  | addField _ _ _ _ _ _ _ ih =>
    exact ih.mono (fun _ _ hb => hb) (fun _ _ _ hm => hm) (Nat.le_refl _)
      (by simp [Declarations.addField]) (Nat.le_refl _) (Nat.le_refl _)
  | addMethod _ _ _ _ _ _ _ _ hd ih => exact ih.declareMethod hd
  | addAbstractMethod _ _ _ _ _ _ _ hd ih => exact ih.declareMethod hd
  | setMain _ _ _ ih =>
    exact ih.mono (fun _ _ hb => hb) (fun _ _ _ hm => hm) (Nat.le_refl _) (Nat.le_refl _)
      (Nat.le_refl _) (Nat.le_refl _)
  | addVar _ _ _ _ _ _ hd ih => exact ih.addVar hd
  | addStmt _ _ _ _ hi hd ih => exact ih.addStmt hi hd

end Declarations

end ObjectFlow
