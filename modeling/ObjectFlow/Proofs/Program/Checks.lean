import ObjectFlow.Proofs.Program.Sites

/-!
# Programs that cannot be built

`Declarations.build` refuses a main method that nobody can call, and otherwise the first jump out of
its body, by method, statement and target (`build_eq_error_iff`). It succeeds if there is neither
(`exists_build_iff`).
-/

namespace ObjectFlow

/-- A loop over a list stops at the first error. -/
theorem forM_eq_error_iff {α ε : Type} {l : List α} {f : α → Except ε Unit} {e : ε} :
    l.forM f = .error e ↔
      ∃ before x after, l = before ++ x :: after ∧ (∀ y ∈ before, f y = .ok ()) ∧
        f x = .error e := by
  induction l with
  | nil => simp [pure, Except.pure]
  | cons a l ih =>
    rw [List.forM_eq_forM, List.forM_cons]
    constructor
    · intro h
      cases ha : f a with
      | error e' =>
        rw [ha] at h
        exact ⟨[], a, l, rfl, by simp, ha.trans h⟩
      | ok u =>
        rw [ha] at h
        obtain ⟨before, x, after, rfl, hbefore, hx⟩ := ih.1 h
        exact ⟨a :: before, x, after, rfl, List.forall_mem_cons.2 ⟨ha, hbefore⟩, hx⟩
    · rintro ⟨before, x, after, hl, hbefore, hx⟩
      cases before with
      | nil =>
        obtain ⟨rfl, -⟩ := List.cons.inj hl
        rw [hx]
        rfl
      | cons y before =>
        obtain ⟨rfl, htail⟩ := List.cons.inj hl
        obtain ⟨ha, hbefore⟩ := List.forall_mem_cons.1 hbefore
        rw [ha]
        exact ih.2 ⟨before, x, after, htail, hbefore, hx⟩

theorem forM_eq_ok_iff {α ε : Type} {l : List α} {f : α → Except ε Unit} :
    l.forM f = .ok () ↔ ∀ x ∈ l, f x = .ok () := by
  induction l with
  | nil => simp [pure, Except.pure]
  | cons a l ih =>
    rw [List.forM_eq_forM, List.forM_cons, List.forall_mem_cons, ← ih]
    cases f a <;> simp [bind, Except.bind]

/-- The ids before another are the smaller ones. -/
theorem EntityId.mem_before_iff {k : Entity} {n : ℕ} {before after : List (EntityId k)}
    {i j : EntityId k} (h : EntityId.below n = before ++ i :: after) :
    j ∈ before ↔ j.index < i.index := by
  have hsorted := h ▸ EntityId.pairwise_below (e := k) n
  obtain ⟨-, hafter, hbefore⟩ := List.pairwise_append.1 hsorted
  refine ⟨fun hj => hbefore j hj i List.mem_cons_self, fun hlt => ?_⟩
  have hi : i.index < n := EntityId.mem_below.1 (h ▸ by simp)
  have hj : j ∈ before ++ i :: after := h ▸ EntityId.mem_below.2 (Nat.lt_trans hlt hi)
  rcases List.mem_append.1 hj with hj | hj
  · exact hj
  · rcases List.mem_cons.1 hj with rfl | hj
    · exact absurd hlt (Nat.lt_irrefl _)
    · exact absurd ((List.pairwise_cons.1 hafter).1 j hj) (Nat.lt_asymm hlt)

/-! ## Jumps -/

/-- No statement jumps out of the body. -/
def Body.JumpsInside (b : Body) : Prop :=
  ∀ s ∈ b.stmts, ∀ t ∈ s.instr.targets, t < b.stmts.length

/-- The target `t` of the statement `s` is the first that lies outside of the body. -/
structure Body.FirstStray (b : Body) (s : Stmt) (t : ℕ) : Prop where
  outside : b.stmts.length ≤ t
  target : ∃ before after, s.instr.targets = before ++ t :: after ∧
    ∀ t' ∈ before, t' < b.stmts.length
  stmt : ∃ before after, b.stmts = before ++ s :: after ∧
    ∀ s' ∈ before, ∀ t' ∈ s'.instr.targets, t' < b.stmts.length

namespace Declarations

variable {d : Declarations} {m : MethodId} {e : Error}

theorem badJump?_eq_none_iff {b : Body} : badJump? b = none ↔ b.JumpsInside := by
  simp [badJump?, Body.JumpsInside]

theorem badJump?_eq_some_iff {b : Body} {i t : ℕ} :
    badJump? b = some (i, t) ↔ ∃ s, s.index = i ∧ b.FirstStray s t := by
  simp only [badJump?, List.findSome?_eq_some_iff, Option.map_eq_some_iff,
    List.find?_eq_some_iff_append, decide_eq_true_eq, Bool.not_eq_true', decide_eq_false_iff_not,
    Nat.not_le, Option.map_eq_none_iff, List.find?_eq_none]
  constructor
  · rintro ⟨before, s, after, hb, ⟨t', ⟨hout, htarget⟩, ht⟩, hbefore⟩
    obtain ⟨rfl, rfl⟩ := Prod.mk.inj ht
    exact ⟨s, rfl, hout, htarget, before, after, hb, hbefore⟩
  · rintro ⟨s, rfl, hout, htarget, before, after, hb, hbefore⟩
    exact ⟨before, s, after, hb, ⟨t, ⟨hout, htarget⟩, rfl⟩, hbefore⟩

/-- The check of one method. -/
def checkBody (d : Declarations) (m : MethodId) : Except Error Unit :=
  match d.body? m with
  | none => .ok ()
  | some b =>
    match badJump? b with
    | none => .ok ()
    | some (stmt, target) =>
      .error (.invalidJumpTarget (d.methodText m) stmt target b.stmts.length)

theorem checkJumps_eq (d : Declarations) : d.checkJumps = d.methodIds.forM d.checkBody := rfl

theorem checkBody_ok_iff :
    d.checkBody m = .ok () ↔ ∀ b, d.body? m = some b → b.JumpsInside := by
  unfold checkBody
  cases hb : d.body? m with
  | none => simp
  | some b =>
    simp only [Option.some.injEq, forall_eq', ← badJump?_eq_none_iff]
    cases badJump? b <;> simp

theorem checkBody_error_iff : d.checkBody m = .error e ↔ ∃ b s t, d.body? m = some b ∧
    b.FirstStray s t ∧ e = .invalidJumpTarget (d.methodText m) s.index t b.stmts.length := by
  unfold checkBody
  cases hb : d.body? m with
  | none => simp
  | some b =>
    simp only [Option.some.injEq]
    constructor
    · intro h
      split at h
      · cases h
      · rename_i hjump
        obtain ⟨s, rfl, hfirst⟩ := badJump?_eq_some_iff.1 hjump
        exact ⟨b, s, _, rfl, hfirst, (Except.error.inj h).symm⟩
    · rintro ⟨_, s, t, rfl, hfirst, rfl⟩
      rw [badJump?_eq_some_iff.2 ⟨s, rfl, hfirst⟩]

theorem checkJumps_ok_iff :
    d.checkJumps = .ok () ↔ ∀ m b, d.body? m = some b → b.JumpsInside := by
  simp only [checkJumps_eq, forM_eq_ok_iff, checkBody_ok_iff, mem_methodIds]
  exact ⟨fun h m b hb => h m (body?_lt hb) b hb, fun h m _ => h m⟩

theorem checkJumps_error_iff : d.checkJumps = .error e ↔ ∃ m b s t, d.body? m = some b ∧
    b.FirstStray s t ∧ (∀ k b', k.index < m.index → d.body? k = some b' → b'.JumpsInside) ∧
      e = .invalidJumpTarget (d.methodText m) s.index t b.stmts.length := by
  simp only [checkJumps_eq, forM_eq_error_iff, checkBody_ok_iff, checkBody_error_iff]
  constructor
  · rintro ⟨before, m, after, hids, hbefore, b, s, t, hb, hfirst, rfl⟩
    exact ⟨m, b, s, t, hb, hfirst, fun k b' hk => hbefore k ((EntityId.mem_before_iff hids).2 hk) b',
      rfl⟩
  · rintro ⟨m, b, s, t, hb, hfirst, hbefore, rfl⟩
    obtain ⟨before, after, hids⟩ := List.append_of_mem (mem_methodIds.2 (body?_lt hb))
    exact ⟨before, m, after, hids, fun k hk b' => hbefore k b' ((EntityId.mem_before_iff hids).1 hk),
      b, s, t, hb, hfirst, rfl⟩

/-! ## The main method -/

/-- A method that can be called without a receiver and runs. -/
def Runnable (d : Declarations) (m : MethodId) : Prop :=
  ∃ x, d.method? m = some x ∧ x.isStatic = true ∧ x.body.isSome

theorem runnable_iff :
    d.Runnable m ↔ (d.method? m).any (fun x => x.isStatic && x.body.isSome) = true := by
  unfold Runnable
  cases hx : d.method? m <;> simp

theorem checkMain_ok_iff :
    d.checkMain = .ok () ↔ ∀ m, d.main = some m → d.Runnable m := by
  simp only [checkMain, runnable_iff]
  cases d.main with
  | none => simp
  | some m => simp

theorem checkMain_error_iff : d.checkMain = .error e ↔
    ∃ m, d.main = some m ∧ ¬d.Runnable m ∧ e = .invalidMain (d.methodText m) := by
  simp only [checkMain, runnable_iff]
  cases d.main with
  | none => simp
  | some m =>
    simp only [Option.some.injEq, exists_eq_left']
    split
    · simp [*]
    · simp [*, eq_comm (a := e)]

/-! ## Building -/

/-- What a build reports. -/
inductive Refused (d : Declarations) : Error → Prop
  | main {m : MethodId} : d.main = some m → ¬d.Runnable m →
      Refused d (.invalidMain (d.methodText m))
  | jump {m : MethodId} {b : Body} {s : Stmt} {t : ℕ} : (∀ m, d.main = some m → d.Runnable m) →
      d.body? m = some b → b.FirstStray s t →
      (∀ k b', k.index < m.index → d.body? k = some b' → b'.JumpsInside) →
      Refused d (.invalidJumpTarget (d.methodText m) s.index t b.stmts.length)

theorem exists_build_iff : (∃ p, d.build = .ok p) ↔
    (∀ m, d.main = some m → d.Runnable m) ∧ ∀ m b, d.body? m = some b → b.JumpsInside := by
  rw [← checkMain_ok_iff, ← checkJumps_ok_iff, build]
  cases d.checkMain <;> cases d.checkJumps <;> simp [bind, Except.bind, pure, Except.pure]

theorem build_eq_error_iff : d.build = .error e ↔ d.Refused e := by
  have hbuild : d.build = .error e ↔
      d.checkMain = .error e ∨ d.checkMain = .ok () ∧ d.checkJumps = .error e := by
    rw [build]
    cases d.checkMain <;> cases d.checkJumps <;> simp [bind, Except.bind, pure, Except.pure]
  rw [hbuild, checkMain_error_iff, checkMain_ok_iff, checkJumps_error_iff]
  constructor
  · rintro (⟨m, hm, hrun, rfl⟩ | ⟨hmain, m, b, s, t, hb, hfirst, hbefore, rfl⟩)
    · exact .main hm hrun
    · exact .jump hmain hb hfirst hbefore
  · rintro (⟨hm, hrun⟩ | ⟨hmain, hb, hfirst, hbefore⟩)
    · exact .inl ⟨_, hm, hrun, rfl⟩
    · exact .inr ⟨hmain, _, _, _, _, hb, hfirst, hbefore, rfl⟩

end Declarations

end ObjectFlow
