import ObjectFlow.Program.Steps
import ObjectFlow.Proofs.Program.Registry
import ObjectFlow.Proofs.Signature

/-!
# Calls of the builder

A step of the builder does to the declarations what the operation of the same name does to them
(`declareMethod_on` and its siblings). So each call checks first and changes the builder only if
nothing is wrong (`perform_on`), and one that fails leaves it as it was (`perform_eq_error_iff`).
`Admissible b calls`: every id that the calls pass is that of an entity that an earlier call added.
Such calls make built declarations, and a table that finds each class by its name (`sound_run`).
-/

namespace ObjectFlow.Builder

open Std Declarations

variable {α β : Type} {b b' : Builder} {d : Declarations} {name : String} {c : ClassId}
  {m : MethodId} {e : Error}

/-! ## Steps -/

section
variable {x : Step α}

theorem Step.on_pure (a : α) : (pure a : Step α).on b = (.ok a, b) := rfl

theorem Step.on_get : (get : Step Builder).on b = (.ok b, b) := rfl

theorem Step.on_modify (f : Builder → Builder) : (modify f : Step Unit).on b = (.ok (), f b) := rfl

theorem Step.on_bind (f : α → Step β) : (x >>= f).on b =
    match x.on b with
    | (.ok a, b') => (f a).on b'
    | (.error e, b') => (.error e, b') := by
  simp only [Step.on, ExceptT.run_bind, StateT.run_bind]
  rcases x.run.run b with ⟨_ | _, b'⟩ <;> rfl

theorem Step.on_map (f : α → β) : (f <$> x).on b = ((x.on b).1.map f, (x.on b).2) := by
  rw [← bind_pure_comp, on_bind]
  rcases x.on b with ⟨_ | _, b'⟩ <;> rfl

theorem Step.on_discard : (discard x).on b = ((x.on b).1.map fun _ => (), (x.on b).2) :=
  on_map _

end

/-- The builder after an operation on its declarations, which fails without a trace. -/
def settle (b : Builder) : Except Error (α × Declarations) → Except Error α × Builder
  | .ok (a, d) => (.ok a, { b with toDeclarations := d })
  | .error e => (.error e, b)

theorem findClass_on (name : String) : (findClass name).on b =
    (match b.classTable[name]? with
      | some c => .ok c
      | none => .error (.unknownClass name), b) := by
  simp only [findClass, Step.on_bind, Step.on_get]
  cases b.classTable[name]? <;> rfl

theorem declareClass_on (name : String) (superclass : Option ClassId) (interfaces : List ClassId)
    (isInterface : Bool) : (declareClass name superclass interfaces isInterface).on b =
      if b.classTable.contains name then (.error (.duplicateClass name), b)
      else (.ok ⟨b.classes.size⟩, { b with
        classes := b.classes.push
          { name, superclass, interfaces, isInterface, isAbstract := isInterface }
        classTable := b.classTable.insert name ⟨b.classes.size⟩ }) := by
  simp only [declareClass, Step.on_bind, Step.on_get]
  split <;> rfl

theorem newVar_on (m : MethodId) (name : String) (type : Ty) : (newVar m name type).on b =
    (.ok ⟨b.vars.size⟩, { b with vars := b.vars.push ⟨name, type, m⟩ }) := rfl

/-- Variables that are made one after the other get the next ids. -/
theorem mapM_newVar_on (m : MethodId) (heads : List (String × Ty)) :
    (heads.mapM fun x => newVar m x.1 x.2).on b = (.ok (b.nextVars heads.length), { b with
      vars := b.vars ++ heads.map fun x => (⟨x.1, x.2, m⟩ : VarDecl) }) := by
  induction heads generalizing b with
  | nil => simp [Declarations.nextVars, Step.on_pure]
  | cons x heads ih =>
    rw [List.mapM_cons, Step.on_bind, newVar_on]
    simp only [Step.on_bind, ih, Step.on_pure]
    simp [Declarations.nextVars, List.range_succ_eq_map, Function.comp_def, Nat.add_assoc,
      Nat.add_comm 1]

theorem newBody_on (m : MethodId) (c : ClassId) (params : List Ty) (isStatic : Bool) :
    (newBody m c params isStatic).on b = (.ok (b.headBody params isStatic), { b with
      vars := b.vars ++ (headVars c params isStatic).map fun x => (⟨x.1, x.2, m⟩ : VarDecl) }) := by
  have hparams : ∀ b : Builder, (params.zipIdx.mapM fun x => newVar m s!"p{x.2}" x.1).on b =
      (.ok (b.nextVars params.length), { b with
        vars := b.vars ++ (params.zipIdx.map fun x => (s!"p{x.2}", x.1)).map
          fun x => (⟨x.1, x.2, m⟩ : VarDecl) }) := by
    intro b
    have h := mapM_newVar_on (b := b) m (params.zipIdx.map fun x => (s!"p{x.2}", x.1))
    rwa [List.mapM_map, List.length_map, List.length_zipIdx] at h
  cases isStatic with
  | true =>
    simp only [newBody, ↓reduceIte, Step.on_bind, Step.on_pure, hparams]
    simp [headBody, headVars]
  | false =>
    simp only [newBody, Bool.false_eq_true, ↓reduceIte, Step.on_bind, Step.on_map, newVar_on,
      Except.map, hparams, Step.on_pure]
    simp [headBody, headVars, Declarations.nextVars, List.range_succ_eq_map, Function.comp_def,
      Nat.add_assoc, Nat.add_comm 1]

theorem declareMethod_on (c : ClassId) (name : String) (params : List Ty) (ret : Ty)
    (isStatic isAbstract : Bool) : (declareMethod c name params ret isStatic isAbstract).on b =
      b.settle (b.toDeclarations.declareMethod c name params ret isStatic isAbstract) := by
  simp only [declareMethod, Declarations.declareMethod, Step.on_bind, Step.on_get]
  split
  · rfl
  · cases isAbstract with
    | true => simp [Step.on_bind, Step.on_map, Step.on_modify, settle, Except.map]
    | false => simp [Step.on_bind, Step.on_map, Step.on_modify, newBody_on, settle, Except.map]

theorem openBody_on (m : MethodId) : (openBody m).on b = (b.toDeclarations.requireBody m, b) := by
  simp only [openBody, requireBody, Step.on_bind, Step.on_get]
  cases b.body? m <;> rfl

theorem addVar_on (m : MethodId) (name : String) (type : Ty) :
    (addVar m name type).on b = b.settle (b.toDeclarations.addVar m name type) := by
  simp only [addVar, Declarations.addVar, Step.on_bind, openBody_on]
  cases b.toDeclarations.requireBody m <;> rfl

theorem addStmt_on (m : MethodId) (instr : Instr) :
    (addStmt m instr).on b = b.settle (b.toDeclarations.addStmt m instr) := by
  simp only [addStmt, Declarations.addStmt, Step.on_bind, openBody_on]
  cases b.toDeclarations.requireBody m <;> rfl

/-! ## Calls that fail -/

/-- Why a call fails, if it does. -/
def Call.failure? (b : Builder) : Call → Option Error
  | addClass name _ _ | addInterface name _ =>
    if b.classTable.contains name then some (.duplicateClass name) else none
  | classId name => if b.classTable.contains name then none else some (.unknownClass name)
  | addMethod c name params ret _ | addAbstractMethod c name params ret =>
    let s := Subsignature.ofParts (b.typeName ret) name (params.map b.typeName)
    if (b.declaredMethod? c s).isSome then some (.duplicateMethod (b.className c) s.text) else none
  | methodRef text =>
    match Signature.parse text with
    | .error _ => some (.malformedSignature text)
    | .ok s => if b.classTable.contains s.cls then none else some (.unknownClass s.cls)
  | body m | addVar m _ _ | addStmt m _ =>
    if (b.body? m).isSome then none else some (.missingBody (b.methodText m))
  | setAbstract _ | addField .. | setMain _ => none

/-- Each call checks first and changes the builder only if nothing is wrong. -/
theorem perform_on (call : Call) : call.perform.on b =
    match call.failure? b with
    | some e => (.error e, b)
    | none => (.ok (), b.after call) := by
  cases call with
  | addClass name superclass interfaces =>
    simp only [Call.perform, Call.failure?, after, Step.on_discard, declareClass_on]
    split <;> rfl
  | addInterface name interfaces =>
    simp only [Call.perform, Call.failure?, after, Step.on_discard, declareClass_on]
    split <;> rfl
  | setAbstract c => rfl
  | classId name =>
    simp only [Call.perform, Call.failure?, after, Step.on_discard, findClass_on,
      ExtTreeMap.contains_eq_isSome_getElem?]
    cases b.classTable[name]? <;> rfl
  | addField c name type isStatic => rfl
  | addMethod c name params ret isStatic =>
    simp only [Call.perform, Call.failure?, after, Step.on_discard, declareMethod_on,
      Declarations.declareMethod]
    split <;> rfl
  | addAbstractMethod c name params ret =>
    simp only [Call.perform, Call.failure?, after, Step.on_discard, declareMethod_on,
      Declarations.declareMethod]
    split <;> rfl
  | methodRef text =>
    simp only [Call.perform, Call.failure?, after, Step.on_discard, methodRef]
    cases hs : Signature.parse text with
    | error e => rw [Signature.parse_error hs]; rfl
    | ok s =>
      simp only [Step.on_bind, findClass_on, ExtTreeMap.contains_eq_isSome_getElem?]
      cases b.classTable[s.cls]? <;> rfl
  | setMain m => rfl
  | body m =>
    simp only [Call.perform, Call.failure?, after, Step.on_discard, openBody_on, requireBody]
    cases b.body? m <;> rfl
  | addVar m name type =>
    simp only [Call.perform, Call.failure?, after, Step.on_discard, addVar_on,
      Declarations.addVar, requireBody]
    cases b.body? m <;> rfl
  | addStmt m instr =>
    simp only [Call.perform, Call.failure?, after, Step.on_discard, addStmt_on,
      Declarations.addStmt, requireBody]
    cases b.body? m <;> rfl

/-- A call that fails leaves the whole builder as it was. -/
theorem perform_eq_error_iff {call : Call} :
    call.perform.on b = (.error e, b') ↔ call.failure? b = some e ∧ b' = b := by
  rw [perform_on]
  cases call.failure? b <;> simp [eq_comm]

/-! ## Calls with ids of the builder -/

/-- The ids that a call passes are those of entities that there are. -/
def Call.Admissible (d : Declarations) : Call → Prop
  | addClass _ superclass interfaces =>
    (∀ s ∈ superclass, d.HasClass s) ∧ ∀ i ∈ interfaces, d.HasClass i
  | addInterface _ interfaces => ∀ i ∈ interfaces, d.HasClass i
  | setAbstract c => d.HasClass c
  | addField c _ type _ => d.HasClass c ∧ d.HasType type
  | addMethod c _ params ret _ | addAbstractMethod c _ params ret =>
    d.HasClass c ∧ ∀ t ∈ ret :: params, d.HasType t
  | setMain m | body m => d.HasMethod m
  | addVar m _ type => d.HasMethod m ∧ d.HasType type
  | addStmt m instr => d.HasMethod m ∧ d.Names instr
  | classId _ | methodRef _ => True

instance Call.decidableAdmissible (d : Declarations) :
    (call : Call) → Decidable (call.Admissible d)
  | .addClass .. | .addField .. | .addMethod .. | .addAbstractMethod .. | .addVar ..
  | .addStmt .. => inferInstanceAs (Decidable (_ ∧ _))
  | .addInterface _ interfaces => inferInstanceAs (Decidable (∀ i ∈ interfaces, d.HasClass i))
  | .setAbstract c => inferInstanceAs (Decidable (d.HasClass c))
  | .setMain m | .body m => inferInstanceAs (Decidable (d.HasMethod m))
  | .classId _ | .methodRef _ => isTrue trivial

/-- Every id that a call passes was returned before. -/
def Admissible (b : Builder) : List Call → Prop
  | [] => True
  | call :: calls => call.Admissible b.toDeclarations ∧ Admissible (b.after call) calls

instance decidableAdmissible (b : Builder) : (calls : List Call) → Decidable (b.Admissible calls)
  | [] => isTrue trivial
  | call :: calls =>
    have := decidableAdmissible (b.after call) calls
    inferInstanceAs (Decidable (call.Admissible b.toDeclarations ∧ Admissible (b.after call) calls))

/-- Declarations that calls with their own ids made, and a table that finds each class by its name
and nothing else. -/
structure Sound (b : Builder) : Prop where
  built : b.toDeclarations.Built
  table : ∀ {name : String} {c : ClassId},
    b.classTable[name]? = some c ↔ b.HasClass c ∧ b.className c = name

theorem Sound.empty : Sound ∅ where
  built := .empty
  table {name c} := by
    refine ⟨fun h => ?_, fun h => absurd h.1 (Nat.not_lt_zero _)⟩
    have hnone : (∅ : Builder).classTable[name]? = none := ExtTreeMap.getElem?_empty
    rw [hnone] at h
    cases h

/-- The table and a search among the classes find the same. -/
theorem Sound.classNamed? (h : b.Sound) (name : String) :
    b.classNamed? name = b.classTable[name]? := by
  ext c
  rw [h.built.calls.registered.classNamed?_iff, h.table]

/-- Operations that change no name of a class need not touch the table. -/
theorem Sound.mono (h : b.Sound) (hd : d.Built) (hsize : d.classes.size = b.classes.size)
    (hname : ∀ c, d.className c = b.className c) : Sound { b with toDeclarations := d } where
  built := hd
  table := by simp only [h.table, HasClass, hsize, hname, implies_true]

theorem Sound.settle {r : Except Error (α × Declarations)} (h : b.Sound)
    (hr : ∀ a d, r = .ok (a, d) → d.Built ∧ d.classes.size = b.classes.size ∧
      ∀ c, d.className c = b.className c) : (b.settle r).2.Sound := by
  rcases r with e | ⟨a, d⟩
  · exact h
  · obtain ⟨hd, hsize, hname⟩ := hr a d rfl
    exact h.mono hd hsize hname

theorem Sound.declareClass {superclass : Option ClassId} {interfaces : List ClassId}
    {isInterface : Bool} (h : b.Sound)
    (hd : ∀ c d, b.toDeclarations.declareClass name superclass interfaces isInterface =
      .ok (c, d) → d.Built) :
    ((declareClass name superclass interfaces isInterface).on b).2.Sound := by
  rw [declareClass_on]
  split
  · exact h
  · rename_i hnew
    rw [Bool.not_eq_true, ExtTreeMap.contains_eq_isSome_getElem?, ← h.classNamed?] at hnew
    have hok : b.toDeclarations.declareClass name superclass interfaces isInterface = _ :=
      if_neg (ne_true_of_eq_false hnew)
    refine ⟨hd _ _ hok, fun {n k} => ?_⟩
    rw [declareClass_hasClass hok, declareClass_className hok, ExtTreeMap.getElem?_insert]
    have hfresh := declareClass_not_hasClass hok
    have hold : b.HasClass k → b.className k ≠ name := fun hk he => by
      simp [h.classNamed?, h.table.2 ⟨hk, he⟩] at hnew
    by_cases hk : k = ⟨b.classes.size⟩
    · subst hk
      by_cases hn : name = n
      · simp [hn]
      · simp [hn, h.table, hfresh]
    · by_cases hn : name = n
      · subst hn
        simpa [hk, Ne.symm hk] using hold
      · simp [hn, hk, h.table]

theorem Sound.declareMethod {params : List Ty} {ret : Ty} {isStatic isAbstract : Bool}
    (h : b.Sound)
    (hd : ∀ m d, b.toDeclarations.declareMethod c name params ret isStatic isAbstract =
      .ok (m, d) → d.Built) :
    ((declareMethod c name params ret isStatic isAbstract).on b).2.Sound := by
  rw [declareMethod_on]
  exact h.settle fun m d hok =>
    ⟨hd m d hok, (declareMethod_sizes hok).2.1, declareMethod_className hok⟩

/-- What holds after calls with their own ids holds after one more. -/
theorem Sound.after {call : Call} (h : b.Sound) (hc : call.Admissible b.toDeclarations) :
    (b.after call).Sound := by
  cases call with
  | addClass name superclass interfaces =>
    rw [Builder.after, Call.perform, Step.on_discard]
    exact h.declareClass fun _ _ hok =>
      .addClass name superclass interfaces h.built hc.1 hc.2 hok
  | addInterface name interfaces =>
    rw [Builder.after, Call.perform, Step.on_discard]
    exact h.declareClass fun _ _ hok => .addInterface name interfaces h.built hc hok
  | setAbstract c =>
    have hs := sameNames_setAbstract (d := b.toDeclarations) c
    exact h.mono (h.built.setAbstract c hc) hs.size hs.className
  | addField c name type isStatic =>
    exact h.mono (h.built.addField c name type isStatic hc.1 hc.2) rfl fun _ => rfl
  | addMethod c name params ret isStatic =>
    rw [Builder.after, Call.perform, Step.on_discard]
    exact h.declareMethod fun _ _ hok =>
      .addMethod c name params ret isStatic h.built hc.1 hc.2 hok
  | addAbstractMethod c name params ret =>
    rw [Builder.after, Call.perform, Step.on_discard]
    exact h.declareMethod fun _ _ hok => .addAbstractMethod c name params ret h.built hc.1 hc.2 hok
  | setMain m => exact h.mono (h.built.setMain m hc) rfl fun _ => rfl
  | addVar m name type =>
    rw [Builder.after, Call.perform, Step.on_discard, addVar_on]
    refine h.settle fun v d hok => ⟨.addVar m name type h.built hc.1 hc.2 hok, ?_⟩
    obtain rfl := addVar_ok hok
    exact ⟨rfl, fun _ => rfl⟩
  | addStmt m instr =>
    rw [Builder.after, Call.perform, Step.on_discard, addStmt_on]
    refine h.settle fun i d hok => ⟨.addStmt m instr h.built hc.1 hc.2 hok, ?_⟩
    obtain ⟨_, -, rfl⟩ := addStmt_ok hok
    exact ⟨rfl, fun _ => rfl⟩
  | classId name =>
    rw [Builder.after, Call.perform, Step.on_discard, findClass_on]
    exact h
  | body m =>
    rw [Builder.after, Call.perform, Step.on_discard, openBody_on]
    exact h
  | methodRef text =>
    rw [Builder.after, Call.perform, Step.on_discard, methodRef]
    cases Signature.parse text with
    | error e => exact h
    | ok s =>
      rw [Step.on_bind, findClass_on]
      cases b.classTable[s.cls]? <;> exact h

theorem Sound.foldl_after {calls : List Call} (h : b.Sound) (hc : b.Admissible calls) :
    (calls.foldl Builder.after b).Sound := by
  induction calls generalizing b with
  | nil => exact h
  | cons call calls ih => exact ih (h.after hc.1) hc.2

theorem sound_run {calls : List Call} (h : Admissible ∅ calls) : (run calls).Sound :=
  Sound.empty.foldl_after h

end ObjectFlow.Builder
