import Mathlib.Data.List.Nodup
import Mathlib.Data.List.Perm.Subperm
import Mathlib.Logic.Relation
import ObjectFlow.Search

/-!
# Breadth-first search

`Search.Invariant next start s`: what `s` has found can be reached from the start, and what no
longer waits has been expanded. It is kept by every step (`Search.Invariant.step`). When nothing
waits, all that can be reached has been found, so the search lists this and nothing else
(`mem_breadthFirst`), provided that the bound covers some list that edges do not leave.
-/

namespace ObjectFlow

open Relation (ReflTransGen)

variable {α : Type} [DecidableEq α] {next : α → List α} {start a b : α} {l seen : List α}

/-! ## What is new -/

theorem mem_fresh : a ∈ fresh seen l ↔ a ∈ l ∧ a ∉ seen := by
  induction l generalizing seen with
  | nil => simp [fresh]
  | cons b l ih =>
    unfold fresh
    split
    · rename_i hb
      rw [ih, List.mem_cons]
      constructor
      · exact fun ⟨hl, hs⟩ => ⟨.inr hl, hs⟩
      · rintro ⟨rfl | hl, hs⟩
        · exact absurd hb hs
        · exact ⟨hl, hs⟩
    · rename_i hb
      rw [List.mem_cons, ih, List.mem_cons, List.mem_cons]
      constructor
      · rintro (rfl | ⟨hl, hs⟩)
        · exact ⟨.inl rfl, hb⟩
        · exact ⟨.inr hl, fun h => hs (.inr h)⟩
      · rintro ⟨rfl | hl, hs⟩
        · exact .inl rfl
        · by_cases hab : a = b
          · exact .inl hab
          · exact .inr ⟨hl, fun h => h.elim hab hs⟩

theorem nodup_fresh : (fresh seen l).Nodup := by
  induction l generalizing seen with
  | nil => exact List.nodup_nil
  | cons b l ih =>
    unfold fresh
    split
    · exact ih
    · refine List.nodup_cons.2 ⟨fun h => ?_, ih⟩
      exact (mem_fresh.1 h).2 List.mem_cons_self

/-- What is new depends on the elements that have been seen, not on their order. -/
theorem fresh_congr {seen' : List α} (h : ∀ a, a ∈ seen ↔ a ∈ seen') :
    fresh seen l = fresh seen' l := by
  induction l generalizing seen seen' with
  | nil => rfl
  | cons b l ih =>
    simp only [fresh, h b]
    split
    · exact ih h
    · have hcons : ∀ a, a ∈ b :: seen ↔ a ∈ b :: seen' := fun a => by simp [h a]
      rw [ih hcons]

theorem fresh_append {l' : List α} :
    fresh seen (l ++ l') = fresh seen l ++ fresh (seen ++ fresh seen l) l' := by
  induction l generalizing seen with
  | nil => simp [fresh]
  | cons b l ih =>
    simp only [List.cons_append, fresh]
    split
    · exact ih
    · rw [ih, List.cons_append]
      congr 2
      exact fresh_congr fun a => by simp [or_left_comm]

/-- Elements that have been seen may be left out beforehand. -/
theorem fresh_filter {q : α → Bool} (hq : ∀ a, a ∉ seen → q a) :
    fresh seen (l.filter q) = fresh seen l := by
  induction l generalizing seen with
  | nil => rfl
  | cons b l ih =>
    cases hb : q b with
    | true =>
      rw [List.filter_cons_of_pos hb, fresh, fresh, ih hq,
        ih fun a ha => hq a fun h => ha (List.mem_cons_of_mem b h)]
    | false =>
      have hseen : b ∈ seen := by
        by_contra h
        simp [hq b h] at hb
      rw [List.filter_cons_of_neg (by simp [hb]), fresh, if_pos hseen, ih hq]

/-! ## The invariant -/

/-- The list holds the start, and edges do not leave it. -/
structure Encloses (next : α → List α) (start : α) (l : List α) : Prop where
  start : start ∈ l
  next : ∀ a ∈ l, ∀ b ∈ next a, b ∈ l

omit [DecidableEq α] in
theorem Encloses.mem (h : Encloses next start l)
    (ha : ReflTransGen (fun a b => b ∈ next a) start a) : a ∈ l := by
  induction ha with
  | refl => exact h.start
  | tail _ hb ih => exact h.next _ ih _ hb

namespace Search

variable {s t : Search α}

/-- What has been found can be reached, and it waits or has been expanded. -/
structure Invariant (next : α → List α) (start : α) (s : Search α) : Prop where
  nodup : s.seen.Nodup
  reachable : ∀ a ∈ s.seen, ReflTransGen (fun a b => b ∈ next a) start a
  start : start ∈ s.seen
  expanded : ∃ done, s.seen = done ++ s.todo ∧ ∀ a ∈ done, ∀ b ∈ next a, b ∈ s.seen

omit [DecidableEq α] in
theorem invariant_start : Invariant next start ⟨[start], [start]⟩ where
  nodup := List.nodup_singleton start
  reachable _ ha := List.mem_singleton.1 ha ▸ .refl
  start := List.mem_singleton_self start
  expanded := ⟨[], rfl, fun _ h => nomatch h⟩

/-- A step expands the node that waits longest. -/
theorem step_cases (h : step next s = some t) : ∃ a todo, s.todo = a :: todo ∧
    t = ⟨s.seen ++ fresh s.seen (next a), todo ++ fresh s.seen (next a)⟩ := by
  unfold step at h
  split at h
  · cases h
  · rename_i a todo htodo
    exact ⟨a, todo, htodo, (Option.some.inj h).symm⟩

theorem step_eq_none_iff : Search.step next s = none ↔ s.todo = [] := by
  unfold Search.step
  split
  · simpa
  · rename_i htodo
    simp [htodo]

theorem Invariant.step (h : Invariant next start s) (hs : Search.step next s = some t) :
    Invariant next start t := by
  obtain ⟨a, todo, htodo, rfl⟩ := step_cases hs
  obtain ⟨done, hseen, hdone⟩ := h.expanded
  have ha : a ∈ s.seen := by
    rw [hseen, htodo]
    exact List.mem_append_right _ List.mem_cons_self
  refine ⟨?_, fun b hb => ?_, List.mem_append_left _ h.start, done ++ [a], ?_, fun c hc b hb => ?_⟩
  · refine List.nodup_append.2 ⟨h.nodup, nodup_fresh, fun b hb c hc => ?_⟩
    rintro rfl
    exact (mem_fresh.1 hc).2 hb
  · rcases List.mem_append.1 hb with hb | hb
    · exact h.reachable b hb
    · exact (h.reachable a ha).tail (mem_fresh.1 hb).1
  · simp only [hseen, htodo, List.append_assoc, List.cons_append, List.nil_append]
  · rcases List.mem_append.1 hc with hc | hc
    · exact List.mem_append_left _ (hdone c hc b hb)
    · rw [List.mem_singleton.1 hc] at hb
      by_cases hbs : b ∈ s.seen
      · exact List.mem_append_left _ hbs
      · exact List.mem_append_right _ (mem_fresh.2 ⟨hb, hbs⟩)

/-- When nothing waits, all that can be reached has been found. -/
theorem Invariant.mem_seen (h : Invariant next start s) (hs : Search.step next s = none) :
    a ∈ s.seen ↔ ReflTransGen (fun a b => b ∈ next a) start a := by
  refine ⟨h.reachable a, fun ha => ?_⟩
  have htodo := step_eq_none_iff.1 hs
  obtain ⟨done, hseen, hdone⟩ := h.expanded
  rw [htodo, List.append_nil] at hseen
  induction ha with
  | refl => exact h.start
  | tail _ hb ih => exact hdone _ (hseen ▸ ih) _ hb

/-- A search that ends has found all that can be reached. -/
theorem mem_seen_of_iterate {n : ℕ} (h : iterate (Search.step next) n ⟨[start], [start]⟩ = some s) :
    a ∈ s.seen ↔ ReflTransGen (fun a b => b ∈ next a) start a := by
  have hinv : Invariant next start s :=
    iterate_invariant (fun s t h hs => h.step hs) invariant_start h
  exact hinv.mem_seen (step_eq_none_of_iterate h)

/-- What the search does depends on the neighbours of what can be reached. -/
theorem iterate_step_congr {next' : α → List α} {n : ℕ}
    (h : ∀ a, ReflTransGen (fun a b => b ∈ next a) start a → next' a = next a) :
    iterate (Search.step next') n ⟨[start], [start]⟩
      = iterate (Search.step next) n ⟨[start], [start]⟩ := by
  refine iterate_congr (p := Invariant next start) (fun s t h hs => h.step hs) (fun s hs => ?_)
    invariant_start
  unfold Search.step
  split
  · rfl
  · rename_i a todo htodo
    obtain ⟨done, hseen, -⟩ := hs.expanded
    have ha : a ∈ s.seen := by simp [hseen, htodo]
    rw [h a (hs.reachable a ha)]

omit [DecidableEq α] in
/-- No more is found than there is. -/
theorem Invariant.length_seen_le (h : Invariant next start s) (hl : Encloses next start l) :
    s.seen.length ≤ l.length :=
  (h.nodup.subperm fun a ha => hl.mem (h.reachable a ha)).length_le

end Search

/-! ## The search -/

/-- A search ends if its bound covers a list that edges do not leave: every step takes one node of
it from the queue for good. -/
theorem exists_search {bound : ℕ} (hl : Encloses next start l) (hb : l.length ≤ bound) :
    ∃ s, iterate (Search.step next) (bound + 1) ⟨[start], [start]⟩ = some s := by
  refine exists_iterate (p := Search.Invariant next start)
    (μ := fun s => bound - s.seen.length + s.todo.length)
    (fun s t h hs => h.step hs) (fun s t h hs => ?_) Search.invariant_start ?_
  · have hlen := (h.step hs).length_seen_le hl
    obtain ⟨a, todo, htodo, rfl⟩ := Search.step_cases hs
    simp only [List.length_append] at hlen ⊢
    rw [htodo, List.length_cons]
    omega
  · have := List.length_pos_of_mem hl.start
    simp only [List.length_singleton]
    omega

/-- Where a search ends with some fuel, the bound gives the same end. -/
theorem breadthFirst_eq {bound n : ℕ} {s : Search α} (hl : Encloses next start l)
    (hb : l.length ≤ bound) (h : iterate (Search.step next) n ⟨[start], [start]⟩ = some s) :
    breadthFirst next bound start = s.seen := by
  obtain ⟨t, ht⟩ := exists_search hl hb
  simp only [breadthFirst, ht, iterate_unique ht h]

/-- With any fuel above the bound the search ends, and nothing waits any more. -/
theorem iterate_search {bound fuel : ℕ} (hl : Encloses next start l) (hb : l.length ≤ bound)
    (hf : bound < fuel) : iterate (Search.step next) fuel ⟨[start], [start]⟩ =
      some ⟨breadthFirst next bound start, []⟩ := by
  obtain ⟨⟨seen, todo⟩, hs⟩ := exists_search hl hb
  have htodo : todo = [] := Search.step_eq_none_iff.1 (step_eq_none_of_iterate hs)
  rw [breadthFirst_eq hl hb hs, iterate_mono hf hs, htodo]

/-- A breadth-first search lists nothing twice. -/
theorem nodup_breadthFirst {bound : ℕ} (hl : Encloses next start l) (hb : l.length ≤ bound) :
    (breadthFirst next bound start).Nodup := by
  have hinv : Search.Invariant next start ⟨breadthFirst next bound start, []⟩ :=
    iterate_invariant (fun s t h hs => h.step hs) Search.invariant_start
      (iterate_search hl hb (Nat.lt_succ_self bound))
  exact hinv.nodup

/-- It lists the start first. -/
theorem head?_breadthFirst {bound : ℕ} (hl : Encloses next start l) (hb : l.length ≤ bound) :
    (breadthFirst next bound start).head? = some start := by
  refine iterate_invariant (p := fun s => s.seen.head? = some start) (fun s t h hs => ?_) rfl
    (iterate_search hl hb (Nat.lt_succ_self bound))
  obtain ⟨a, todo, -, rfl⟩ := Search.step_cases hs
  simp [h]

/-- A breadth-first search lists what can be reached, and nothing else. -/
theorem mem_breadthFirst {bound : ℕ} (hl : Encloses next start l) (hb : l.length ≤ bound) :
    a ∈ breadthFirst next bound start ↔ ReflTransGen (fun a b => b ∈ next a) start a := by
  obtain ⟨s, hs⟩ := exists_search hl hb
  rw [breadthFirst_eq hl hb hs]
  exact Search.mem_seen_of_iterate hs

end ObjectFlow
