/-!
# Iteration

`iterate step fuel s` follows `step` from `s` until it stops. `none` means that the fuel did not
suffice, which no end state is confused with; more fuel keeps an answer (`iterate_mono`).
-/

namespace ObjectFlow

variable {σ : Type}

/-- The state in which `step` stops, if it does so within fewer than `fuel` steps. -/
def iterate (step : σ → Option σ) : Nat → σ → Option σ
  | 0, _ => none
  | fuel + 1, s =>
    match step s with
    | none => some s
    | some t => iterate step fuel t

theorem iterate_mono {step : σ → Option σ} {m n : Nat} {s t : σ} (hmn : m ≤ n)
    (h : iterate step m s = some t) : iterate step n s = some t := by
  induction m generalizing n s with
  | zero => simp [iterate] at h
  | succ m ih =>
    obtain ⟨n, rfl⟩ : ∃ k, n = k + 1 := ⟨n - 1, by omega⟩
    simp only [iterate] at h ⊢
    cases hs : step s with
    | none => simpa [hs] using h
    | some u =>
      simp only [hs] at h
      exact ih (by omega) h

/-- Different fuel does not give different answers. -/
theorem iterate_unique {step : σ → Option σ} {m n : Nat} {s t u : σ}
    (ht : iterate step m s = some t) (hu : iterate step n s = some u) : t = u := by
  rcases Nat.le_total m n with h | h
  · simpa [hu] using (iterate_mono h ht).symm
  · simpa [ht] using iterate_mono h hu

/-- What a step keeps, an iteration keeps. -/
theorem iterate_invariant {step : σ → Option σ} {p : σ → Prop}
    (hp : ∀ s t, p s → step s = some t → p t) {n : Nat} {s t : σ} (hs : p s)
    (h : iterate step n s = some t) : p t := by
  induction n generalizing s with
  | zero => simp [iterate] at h
  | succ n ih =>
    simp only [iterate] at h
    cases hu : step s with
    | none =>
      simp only [hu, Option.some.injEq] at h
      exact h ▸ hs
    | some u =>
      simp only [hu] at h
      exact ih (hp s u hs hu) h

/-- An iteration ends if a measure falls with every step from a state in `p`, which steps keep. -/
theorem exists_iterate {step : σ → Option σ} {p : σ → Prop} {μ : σ → Nat}
    (hp : ∀ s t, p s → step s = some t → p t) (hμ : ∀ s t, p s → step s = some t → μ t < μ s)
    {n : Nat} {s : σ} (hs : p s) (hn : μ s < n) : ∃ t, iterate step n s = some t := by
  induction n generalizing s with
  | zero => omega
  | succ n ih =>
    simp only [iterate]
    cases hu : step s with
    | none => exact ⟨s, rfl⟩
    | some u =>
      have := hμ s u hs hu
      exact ih (hp s u hs hu) (by omega)

/-- An iteration ends if its steps from states in `p` descend in a well-founded relation. -/
theorem exists_iterate_of_wf {step : σ → Option σ} {p : σ → Prop} {r : σ → σ → Prop}
    (hwf : WellFounded r) (hp : ∀ s t, p s → step s = some t → p t)
    (hr : ∀ s t, p s → step s = some t → r t s) {s : σ} (hs : p s) :
    ∃ n t, iterate step n s = some t := by
  induction s using hwf.induction with
  | _ s ih =>
    cases hu : step s with
    | none => exact ⟨1, s, by simp [iterate, hu]⟩
    | some u =>
      obtain ⟨n, t, h⟩ := ih u (hr s u hs hu) (hp s u hs hu)
      exact ⟨n + 1, t, by simp only [iterate, hu, h]⟩

/-- A map under which the steps from states in `p`, which they keep, correspond to each other takes
an iteration to the iteration from the image. -/
theorem iterate_conj {τ : Type} {step : σ → Option σ} {step' : τ → Option τ} {f : σ → τ}
    {p : σ → Prop} (hp : ∀ s t, p s → step s = some t → p t)
    (hstep : ∀ s, p s → step' (f s) = (step s).map f) {n : Nat} {s : σ} (hs : p s) :
    iterate step' n (f s) = (iterate step n s).map f := by
  induction n generalizing s with
  | zero => rfl
  | succ n ih =>
    simp only [iterate, hstep s hs]
    cases hu : step s with
    | none => rfl
    | some u => exact ih (hp s u hs hu)

/-- Steps that agree on states in `p`, which they keep, give the same iteration from there. -/
theorem iterate_congr {step step' : σ → Option σ} {p : σ → Prop}
    (hp : ∀ s t, p s → step s = some t → p t) (hstep : ∀ s, p s → step' s = step s) {n : Nat}
    {s : σ} (hs : p s) : iterate step' n s = iterate step n s := by
  have hid : ∀ s, p s → step' (id s) = (step s).map id := fun s hs => by
    rw [Option.map_id]
    exact hstep s hs
  have h := iterate_conj hp hid hs (n := n)
  rwa [Option.map_id] at h

/-- A map under which each step is a step or does nothing takes an iteration to an iteration. -/
theorem iterate_map {τ : Type} {step : σ → Option σ} {step' : τ → Option τ} {f : σ → τ}
    (hstep : ∀ s t, step s = some t → f t = f s ∨ step' (f s) = some (f t))
    (hstop : ∀ s, step s = none → step' (f s) = none) {n : Nat} {s t : σ}
    (h : iterate step n s = some t) : iterate step' n (f s) = some (f t) := by
  induction n generalizing s with
  | zero => simp [iterate] at h
  | succ n ih =>
    simp only [iterate] at h
    cases hu : step s with
    | none =>
      simp only [hu, Option.some.injEq] at h
      simp only [iterate, hstop s hu]
      rw [h]
    | some u =>
      simp only [hu] at h
      rcases hstep s u hu with hf | hf
      · exact iterate_mono (Nat.le_succ n) (hf ▸ ih h)
      · simpa only [iterate, hf] using ih h

/-- The end state of an iteration has no step. -/
theorem step_eq_none_of_iterate {step : σ → Option σ} {n : Nat} {s t : σ}
    (h : iterate step n s = some t) : step t = none := by
  induction n generalizing s with
  | zero => simp [iterate] at h
  | succ n ih =>
    simp only [iterate] at h
    cases hu : step s with
    | none =>
      simp only [hu, Option.some.injEq] at h
      exact h ▸ hu
    | some u =>
      simp only [hu] at h
      exact ih h

/-! ## Runs without end -/

/-- The state after `n` steps, or the state in which `step` stops before. -/
def follow (step : σ → Option σ) : Nat → σ → σ
  | 0, s => s
  | n + 1, s =>
    match step s with
    | none => s
    | some t => follow step n t

/-- A map under which steps correspond to each other takes each run to the run from the image. -/
theorem follow_conj {τ : Type} {step : σ → Option σ} {step' : τ → Option τ} {f : σ → τ}
    (hstep : ∀ s, step' (f s) = (step s).map f) (n : Nat) (s : σ) :
    follow step' n (f s) = f (follow step n s) := by
  induction n generalizing s with
  | zero => rfl
  | succ n ih =>
    simp only [follow, hstep s]
    cases step s with
    | none => rfl
    | some t => exact ih t

end ObjectFlow
