import ObjectFlow.Proofs.Search

/-!
# Distances in breadth-first search

`LeadsIn r a n b`: a path of `n` edges of `r` leads from `a` to `b`; `IsDistance r a n b`: and none
of fewer. `NearestFirst r start l`: `l` lists what paths from the start lead to, each once and none
before one that is nearer.

What waits in a search lies in two layers, those at some distance `d` and behind them those at
`d + 1` (`Search.Layers`). Expanding the first of the nearer ones keeps this
(`Search.Layers.expand`), and when none of these is left, all at distance `d + 1` have been found
and `d` can grow (`Search.Layers.advance`). So a breadth-first search lists the nearest first
(`nearestFirst_breadthFirst`).
-/

namespace ObjectFlow

open Relation (ReflTransGen)

/-! ## Paths -/

section
variable {α : Type} {r : α → α → Prop} {start a b : α} {m n : ℕ}

/-- A path of `n` edges leads from `a` to an element. -/
inductive LeadsIn (r : α → α → Prop) (a : α) : ℕ → α → Prop
  | refl : LeadsIn r a 0 a
  | tail {n b c} : LeadsIn r a n b → r b c → LeadsIn r a (n + 1) c

theorem exists_leadsIn_iff : (∃ n, LeadsIn r a n b) ↔ ReflTransGen r a b := by
  constructor
  · rintro ⟨n, h⟩
    induction h with
    | refl => exact .refl
    | tail _ hbc ih => exact ih.tail hbc
  · intro h
    induction h with
    | refl => exact ⟨0, .refl⟩
    | tail _ hbc ih =>
      obtain ⟨n, hn⟩ := ih
      exact ⟨n + 1, hn.tail hbc⟩

/-- The length of the shortest paths. -/
structure IsDistance (r : α → α → Prop) (a : α) (n : ℕ) (b : α) : Prop where
  leads : LeadsIn r a n b
  least : ∀ k, LeadsIn r a k b → n ≤ k

/-- The first of two elements is no farther from the start than the second. -/
def NotFarther (r : α → α → Prop) (start a b : α) : Prop :=
  ∃ m n, IsDistance r start m a ∧ IsDistance r start n b ∧ m ≤ n

/-- A list of all that paths from the start lead to, the nearest first. -/
structure NearestFirst (r : α → α → Prop) (start : α) (l : List α) : Prop where
  head? : l.head? = some start
  nodup : l.Nodup
  mem : ∀ a, a ∈ l ↔ ∃ n, LeadsIn r start n a
  order : l.Pairwise (NotFarther r start)

end

variable {α : Type} {next : α → List α} {start a : α} {l done near far : List α} {d : ℕ}

/-! ## Layers -/

namespace Search

/-- What has been found, cut into what has been expanded and what waits at the distances `d` and
`d + 1`. All within distance `d` has been found. -/
structure Layers (next : α → List α) (start : α) (d : ℕ) (done near far : List α) : Prop where
  nearer : ∀ a ∈ near, IsDistance (fun a b => b ∈ next a) start d a
  farther : ∀ a ∈ far, IsDistance (fun a b => b ∈ next a) start (d + 1) a
  complete : ∀ a, ∀ k ≤ d, LeadsIn (fun a b => b ∈ next a) start k a → a ∈ done ++ near ++ far
  expanded : ∀ a ∈ done, ∀ b ∈ next a, b ∈ done ++ near ++ far
  within : ∀ a ∈ done ++ near ++ far, ∃ k ≤ d + 1, IsDistance (fun a b => b ∈ next a) start k a
  order : (done ++ near ++ far).Pairwise (NotFarther (fun a b => b ∈ next a) start)

theorem layers_start : Layers next start 0 [] [start] [] := by
  have hstart : ∀ a ∈ [start], IsDistance (fun a b => b ∈ next a) start 0 a := by
    intro a ha
    obtain rfl := List.mem_singleton.1 ha
    exact ⟨.refl, fun k _ => Nat.zero_le k⟩
  refine {
    nearer := hstart
    farther := fun a ha => nomatch ha
    complete := fun a k hk ha => ?_
    expanded := fun a ha => nomatch ha
    within := fun a ha => ⟨0, Nat.zero_le _, hstart a ha⟩
    order := List.pairwise_singleton _ _ }
  obtain rfl := Nat.le_zero.1 hk
  cases ha
  exact List.mem_singleton_self start

/-- When the nearer layer has been expanded, the farther one is complete: a path to it passes
through the nearer one, none of which waits. -/
theorem Layers.advance (h : Layers next start d done [] far) :
    Layers next start (d + 1) done far [] := by
  have hall : done ++ far ++ [] = done ++ [] ++ far := by simp
  refine {
    nearer := h.farther
    farther := fun a ha => nomatch ha
    complete := fun a k hk ha => ?_
    expanded := hall ▸ h.expanded
    within := fun a ha => ?_
    order := hall ▸ h.order }
  · rw [hall]
    rcases Nat.le_succ_iff.1 hk with hk | rfl
    · exact h.complete a k hk ha
    · cases ha with
      | tail hb hba =>
        rename_i b
        have hmem := h.complete b d (Nat.le_refl d) hb
        rw [List.append_nil] at hmem
        rcases List.mem_append.1 hmem with hdone | hfar
        · exact h.expanded b hdone a hba
        · exact absurd ((h.farther b hfar).least d hb) (Nat.not_succ_le_self d)
  · obtain ⟨k, hk, hdist⟩ := h.within a (hall ▸ ha)
    exact ⟨k, Nat.le_succ_of_le hk, hdist⟩

variable [DecidableEq α]

/-- What is new around an element of the nearer layer belongs to the farther one. -/
theorem Layers.isDistance_fresh (h : Layers next start d done (a :: near) far) :
    ∀ b ∈ fresh (done ++ a :: near ++ far) (next a),
      IsDistance (fun a b => b ∈ next a) start (d + 1) b := by
  intro b hb
  obtain ⟨hnext, hnew⟩ := mem_fresh.1 hb
  refine ⟨(h.nearer a List.mem_cons_self).leads.tail hnext, fun k hk => ?_⟩
  by_contra hlt
  exact hnew (h.complete b k (by omega) hk)

theorem Layers.expand (h : Layers next start d done (a :: near) far) :
    Layers next start d (done ++ [a]) near
      (far ++ fresh (done ++ a :: near ++ far) (next a)) := by
  have hfresh := h.isDistance_fresh
  have hall : done ++ [a] ++ near ++ (far ++ fresh (done ++ a :: near ++ far) (next a)) =
      done ++ a :: near ++ far ++ fresh (done ++ a :: near ++ far) (next a) := by simp
  refine {
    nearer := fun b hb => h.nearer b (List.mem_cons_of_mem a hb)
    farther := fun b hb => (List.mem_append.1 hb).elim (h.farther b) (hfresh b)
    complete := fun b k hk hb => hall ▸ List.mem_append_left _ (h.complete b k hk hb)
    expanded := fun b hb c hc => ?_
    within := fun b hb => ?_
    order := ?_ }
  · rw [hall]
    rcases List.mem_append.1 hb with hb | hb
    · exact List.mem_append_left _ (h.expanded b hb c hc)
    · obtain rfl := List.mem_singleton.1 hb
      by_cases hseen : c ∈ done ++ b :: near ++ far
      · exact List.mem_append_left _ hseen
      · exact List.mem_append_right _ (mem_fresh.2 ⟨hc, hseen⟩)
  · rw [hall] at hb
    rcases List.mem_append.1 hb with hb | hb
    · exact h.within b hb
    · exact ⟨d + 1, Nat.le_refl _, hfresh b hb⟩
  · rw [hall]
    refine List.pairwise_append.2 ⟨h.order, ?_, fun b hb c hc => ?_⟩
    · exact List.pairwise_of_forall_mem_list fun b hb c hc =>
        ⟨d + 1, d + 1, hfresh b hb, hfresh c hc, Nat.le_refl _⟩
    · obtain ⟨k, hk, hdist⟩ := h.within b hb
      exact ⟨k, d + 1, hdist, hfresh c hc, hk⟩

/-- The queue holds two layers. -/
def Layered (next : α → List α) (start : α) (s : Search α) : Prop :=
  ∃ d done near far, s.seen = done ++ near ++ far ∧ s.todo = near ++ far ∧
    Layers next start d done near far

theorem Layered.step {s t : Search α} (h : Layered next start s)
    (hs : Search.step next s = some t) : Layered next start t := by
  obtain ⟨d, done, near, far, hseen, htodo, hlayers⟩ := h
  obtain ⟨a, todo, ha, rfl⟩ := step_cases hs
  rw [hseen]
  cases near with
  | nil =>
    rw [htodo, List.nil_append] at ha
    subst ha
    refine ⟨d + 1, done ++ [a], todo, _, ?_, ?_, hlayers.advance.expand⟩ <;> simp
  | cons b near =>
    rw [htodo, List.cons_append, List.cons.injEq] at ha
    obtain ⟨rfl, rfl⟩ := ha
    refine ⟨d, done ++ [b], near, _, ?_, ?_, hlayers.expand⟩ <;> simp

end Search

/-! ## The search -/

variable [DecidableEq α]

/-- A breadth-first search lists the nearest first. -/
theorem nearestFirst_breadthFirst {bound : ℕ} (hl : Encloses next start l) (hb : l.length ≤ bound) :
    NearestFirst (fun a b => b ∈ next a) start (breadthFirst next bound start) where
  head? := head?_breadthFirst hl hb
  nodup := nodup_breadthFirst hl hb
  mem _ := (mem_breadthFirst hl hb).trans exists_leadsIn_iff.symm
  order := by
    have hlayered : Search.Layered next start ⟨breadthFirst next bound start, []⟩ :=
      iterate_invariant (fun s t h hs => h.step hs)
        ⟨0, [], [start], [], rfl, rfl, Search.layers_start⟩
        (iterate_search hl hb (Nat.lt_succ_self bound))
    obtain ⟨d, done, near, far, hseen, -, hlayers⟩ := hlayered
    have hall : breadthFirst next bound start = done ++ near ++ far := hseen
    exact hall ▸ hlayers.order

end ObjectFlow
