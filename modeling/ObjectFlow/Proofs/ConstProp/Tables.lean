import Mathlib.Logic.Relation
import Mathlib.Order.Bounds.Basic
import ObjectFlow.ConstProp.Table
import ObjectFlow.Proofs.ConstProp.Lattice

/-!
# Tables as total functions

Operations keep tables in the form of facts: what each does to the table of a fact is what it does
to the fact (`update_table`, `copyFrom_table`, `transferNode_table`), and so is a merge, in whatever
order the entries are met, because steps of a merge commute (`meetInto_table`). So tables that
operations make of empty ones are told apart by their values alone, and whatever is merged into one
of them lets it rise to the least table above (`tables_are_functions`).
-/

namespace ObjectFlow.ConstProp

open Std Dataflow

/-! ## Runs of operations -/

/-- Tables with a number each. -/
abbrev Tables := ℕ → Table

/-- One table is merged into another, the entries in some order. -/
def Merges (source target : ℕ) (s t : Tables) : Prop :=
  ∃ entries, entries.Perm (s source).values.toList ∧
    t = Function.update s target ((s target).meetInto entries)

/-- The tables of a list are merged into a table one after the other. -/
inductive MergesAll (target : ℕ) : List ℕ → Tables → Tables → Prop
  | nil {s} : MergesAll target [] s s
  | cons {i l s t u} : Merges i target s t → MergesAll target l t u →
      MergesAll target (i :: l) s u

/-- An operation changes one of the tables. -/
inductive Changes (s : Tables) : Tables → Prop
  | update (target : ℕ) (v : VarId) (x : Value) :
      Changes s (Function.update s target ((s target).update v x).2)
  | copyFrom (source target : ℕ) :
      Changes s (Function.update s target ((s target).copyFrom (s source)).2)
  | meetInto {source target : ℕ} {t : Tables} : Merges source target s t → Changes s t
  | transferNode (holdsInt : VarId → Bool) (b : Body) (n : Cfg.Node) (source target : ℕ) :
      Changes s (Function.update s target
        (Table.transferNode holdsInt b n (s source) (s target)).2)

/-- Operations have made the tables of empty ones. -/
def Made (s : Tables) : Prop := Relation.ReflTransGen Changes (fun _ => ∅) s

/-- A table is below another if the values of all variables are. -/
instance : LE Table := ⟨fun t u => ∀ v, t.get v ≤ u.get v⟩

/-! ## Facts as tables -/

/-- The table that lists the values of a fact. -/
def Fact.table (f : Fact) : Table := ⟨f.values⟩

variable {holdsInt : VarId → Bool} {b : Body} {n : Cfg.Node} {f g : Fact} {v : VarId} {x : Value}

theorem Fact.get_table (f : Fact) (v : VarId) : f.table.get v = f.get v := rfl

theorem table_inj : f.table = g.table ↔ f = g := by
  refine ⟨fun h => Fact.ext_get fun v => ?_, congrArg _⟩
  rw [← f.get_table, h, g.get_table]

theorem table_eq_iff : f.table = g.table ↔ ∀ v, f.table.get v = g.table.get v :=
  ⟨fun h _ => by rw [h], fun h => table_inj.2 (Fact.ext_get h)⟩

theorem update_table : (f.table.update v x).2 = (f.set v x).table := by
  unfold Table.update Fact.table Fact.set
  split <;> rfl

/-- An update tells of a change if the variable had another value. -/
theorem update_table_changed : (f.table.update v x).1 = true ↔ f.get v ≠ x := by
  have hget : f.get v = f.values[v]?.getD .undef := ExtTreeMap.getD_eq_getD_getElem?
  have hne := f.ne_undef v
  rw [hget]
  unfold Table.update MapFact.update MapFact.remove Fact.table
  cases hv : f.values[v]? with
  | none => split <;> simp_all [eq_comm]
  | some old => split <;> simp_all

theorem exists_get_update_ne :
    (∃ w, (f.table.update v x).2.get w ≠ f.table.get w) ↔ f.get v ≠ x := by
  simp only [update_table, Fact.get_table, Fact.get_set]
  constructor
  · rintro ⟨w, hw⟩
    split at hw
    · rename_i h
      exact h ▸ hw.symm
    · exact absurd rfl hw
  · intro h
    exact ⟨v, by rwa [if_pos rfl, ne_comm]⟩

theorem copyFrom_table : f.table.copyFrom g.table = (decide (f ≠ g), g.table) := by
  have hvalues : f.values = g.values ↔ f = g := by
    rw [← table_inj, Fact.table, Fact.table, Table.mk.injEq]
  unfold Table.copyFrom MapFact.copyFrom
  by_cases h : f = g
  · simp [Fact.table, h]
  · simp [Fact.table, hvalues, h]

theorem copyFrom_table_changed : (f.table.copyFrom g.table).1 = true ↔
    ∃ w, (f.table.copyFrom g.table).2.get w ≠ f.table.get w := by
  rw [copyFrom_table]
  dsimp only
  rw [decide_eq_true_iff, ne_comm, ← table_inj.ne, Ne, table_eq_iff, not_forall]

theorem eval_table (e : Exp) : f.table.eval holdsInt e = eval holdsInt f e := by
  cases e with
  | literal l => cases l <;> rfl
  | _ => rfl

theorem transferInstr_table (i : Instr) :
    f.table.transferInstr holdsInt i = (transferInstr holdsInt i f).table := by
  unfold Table.transferInstr transferInstr
  cases i.def? with
  | none => rfl
  | some v =>
    simp only [eval_table, update_table]
    split <;> rfl

/-- A node makes of the table of a fact the table of what it makes of the fact. -/
theorem transferNode_table : Table.transferNode holdsInt b n f.table g.table =
    g.table.copyFrom (transfer holdsInt b n f).table := by
  unfold Table.transferNode transfer
  cases b.at? n with
  | none => rfl
  | some s => exact congrArg g.table.copyFrom (transferInstr_table s.instr)

/-! ## Merges -/

/-- Merges one value into a fact. -/
def Fact.mergeEntry (f : Fact) (p : VarId × Value) : Fact := f.set p.1 (p.2.meet (f.get p.1))

theorem get_mergeEntry (p : VarId × Value) :
    (f.mergeEntry p).get v = if p.1 = v then p.2 ⊔ f.get v else f.get v := by
  rw [Fact.mergeEntry, Fact.get_set]
  split
  · rename_i h
    rw [h]
    rfl
  · rfl

/-- It does not matter which of two entries is merged first. -/
theorem mergeEntry_comm (f : Fact) (p q : VarId × Value) :
    (f.mergeEntry p).mergeEntry q = (f.mergeEntry q).mergeEntry p := by
  refine Fact.ext_get fun v => ?_
  simp only [get_mergeEntry]
  split <;> split
  · exact sup_left_comm _ _ _
  all_goals rfl

theorem meetInto_foldl (l : List (VarId × Value)) (g : Fact) :
    g.table.meetInto l = (l.foldl Fact.mergeEntry g).table := by
  unfold Table.meetInto
  exact List.foldl_hom Fact.table fun g p => update_table

/-- In whatever order the entries of a fact are met, the table of the merged facts results. -/
theorem meetInto_table {entries : List (VarId × Value)}
    (h : entries.Perm f.table.values.toList) : g.table.meetInto entries = (f.meet g).table := by
  have hmeet : f.meet g = f.values.toList.foldl Fact.mergeEntry g :=
    ExtTreeMap.foldl_eq_foldl_toList
  rw [meetInto_foldl, hmeet]
  exact congrArg Fact.table (h.foldl_eq' (fun p _ q _ g => mergeEntry_comm g p q) g)

/-! ## Tables of facts -/

/-- The tables that list the values of facts. -/
def tablesOf (F : ℕ → Fact) : Tables := fun i => (F i).table

@[simp] theorem tablesOf_apply (F : ℕ → Fact) (i : ℕ) : tablesOf F i = (F i).table := rfl

variable {F : ℕ → Fact} {s t : Tables}

theorem update_tablesOf (F : ℕ → Fact) (i : ℕ) (f : Fact) :
    Function.update (tablesOf F) i f.table = tablesOf (Function.update F i f) := by
  funext k
  exact (Function.apply_update (fun _ => Fact.table) F i f k).symm

theorem merges_tablesOf {i j : ℕ} (h : Merges i j (tablesOf F) t) :
    t = tablesOf (Function.update F j ((F i).meet (F j))) := by
  obtain ⟨entries, hperm, rfl⟩ := h
  rw [tablesOf, meetInto_table hperm]
  exact update_tablesOf F j _

/-- Every operation leaves tables of facts. -/
theorem Changes.facts (h : Changes (tablesOf F) t) : ∃ G, t = tablesOf G := by
  have hset : ∀ j (u : Table) (f : Fact), u = f.table →
      ∃ G, Function.update (tablesOf F) j u = tablesOf G := by
    rintro j _ f rfl
    exact ⟨_, update_tablesOf F j f⟩
  cases h with
  | update j v x => exact hset j _ _ update_table
  | copyFrom i j => exact hset j _ _ (congrArg Prod.snd copyFrom_table)
  | meetInto h => exact ⟨_, merges_tablesOf h⟩
  | transferNode holdsInt b n i j =>
    exact hset j _ _ (congrArg Prod.snd (transferNode_table.trans copyFrom_table))

theorem Made.facts (h : Made s) : ∃ F, s = tablesOf F := by
  induction h with
  | refl => exact ⟨fun _ => ∅, rfl⟩
  | tail _ hchange ih =>
    obtain ⟨F, rfl⟩ := ih
    exact hchange.facts

/-- Merging one more fact raises the bound on the values by one more. -/
theorem bounds_update_meet {i j : ℕ} {l : List ℕ} {v : VarId} {x : Value} :
    ((Function.update F j ((F i).meet (F j)) j).get v ≤ x ∧
      ∀ k ∈ l, (Function.update F j ((F i).meet (F j)) k).get v ≤ x) ↔
    (F j).get v ≤ x ∧ ∀ k ∈ i :: l, (F k).get v ≤ x := by
  have hmerged : (Function.update F j ((F i).meet (F j)) j).get v ≤ x ↔
      (F i).get v ≤ x ∧ (F j).get v ≤ x := by
    rw [Function.update_self, Fact.get_meet]
    exact sup_le_iff
  rw [hmerged, List.forall_mem_cons]
  -- the rest of the list may name the table itself
  constructor
  · rintro ⟨⟨hi, hj⟩, hl⟩
    refine ⟨hj, hi, fun k hk => ?_⟩
    by_cases hkj : k = j
    · exact hkj ▸ hj
    · have h := hl k hk
      rwa [Function.update_of_ne hkj] at h
  · rintro ⟨hj, hi, hl⟩
    refine ⟨⟨hi, hj⟩, fun k hk => ?_⟩
    by_cases hkj : k = j
    · exact hkj ▸ hmerged.2 ⟨hi, hj⟩
    · rw [Function.update_of_ne hkj]
      exact hl k hk

/-- Merges raise the values of one table to the least ones above all that are merged. -/
theorem MergesAll.facts {j : ℕ} {l : List ℕ} (h : MergesAll j l (tablesOf F) t) :
    ∃ g, t = tablesOf (Function.update F j g) ∧
      ∀ v, IsLeast {x | (F j).get v ≤ x ∧ ∀ i ∈ l, (F i).get v ≤ x} (g.get v) := by
  -- each merge changes one of the facts, so the induction is over all of them
  generalize hs : tablesOf F = s at h
  induction h generalizing F with
  | nil =>
    subst hs
    exact ⟨F j, by rw [Function.update_eq_self], fun v => by simp [IsLeast, lowerBounds]⟩
  | @cons i l s t u hmerge hrest ih =>
    subst hs
    obtain ⟨g, rfl, hg⟩ := ih (merges_tablesOf hmerge).symm
    refine ⟨g, by rw [Function.update_idem], fun v => ?_⟩
    simpa only [bounds_update_meet] using hg v

/-- What bounds the values in a list of tables bounds them in every list of the same tables. -/
theorem bounds_of_same {l l' : List ℕ} {v : VarId} {x : Value}
    (hsame : ∀ u, (∃ i ∈ l, tablesOf F i = u) ↔ ∃ i ∈ l', tablesOf F i = u)
    (h : ∀ i ∈ l, (F i).get v ≤ x) : ∀ i ∈ l', (F i).get v ≤ x := fun i hi => by
  obtain ⟨k, hk, he⟩ := (hsame _).2 ⟨i, hi, rfl⟩
  exact table_inj.1 he ▸ h k hk

theorem MergesAll.eq_of_same {j : ℕ} {l l' : List ℕ} {t' : Tables}
    (h : MergesAll j l (tablesOf F) t) (h' : MergesAll j l' (tablesOf F) t')
    (hsame : ∀ u, (∃ i ∈ l, tablesOf F i = u) ↔ ∃ i ∈ l', tablesOf F i = u) : t = t' := by
  obtain ⟨g, rfl, hg⟩ := h.facts
  obtain ⟨g', rfl, hg'⟩ := h'.facts
  have hbounds : ∀ v x, (∀ i ∈ l, (F i).get v ≤ x) ↔ ∀ i ∈ l', (F i).get v ≤ x := fun v x =>
    ⟨bounds_of_same hsame, bounds_of_same fun u => (hsame u).symm⟩
  have heq : g = g' := Fact.ext_get fun v => (hg v).unique (by simpa only [hbounds] using hg' v)
  rw [heq]

/-- The tables are those of facts, and operations do with them what they do with the facts. -/
structure Lists (F : ℕ → Fact) (s : Tables) : Prop where
  table (i : ℕ) : s i = (F i).table
  update (i : ℕ) (v : VarId) (x : Value) : ((s i).update v x).2 = ((F i).set v x).table
  transferNode (holdsInt : VarId → Bool) (b : Body) (n : Cfg.Node) (i j : ℕ) :
    Table.transferNode holdsInt b n (s i) (s j) =
      (decide (F j ≠ transfer holdsInt b n (F i)), (transfer holdsInt b n (F i)).table)
  merges {i j : ℕ} {t : Tables} : Merges i j s t → t j = ((F i).meet (F j)).table

theorem lists_tablesOf (F : ℕ → Fact) : Lists F (tablesOf F) where
  table _ := rfl
  update _ _ _ := update_table
  transferNode _ _ _ _ _ := transferNode_table.trans copyFrom_table
  merges h := by rw [merges_tablesOf h, tablesOf_apply, Function.update_self]

/-- Tables that operations have made list facts, and are total functions. No entry is `undef`,
tables with the same values are equal, and an operation tells of a change if it changes a value. A
merge gives each variable the least upper bound of its values and leaves the table that is merged
alone. Merges of many tables, whatever their order and however often one is merged, give the least
table above. -/
theorem tables_are_functions {s s' : Tables} (hs : Made s) (hs' : Made s') :
    (∃ F, Lists F s) ∧
    (∀ i (v : VarId), (s i).values[v]? ≠ some .undef) ∧
    (∀ i j, s i = s' j ↔ ∀ v, (s i).get v = (s' j).get v) ∧
    (∀ i v x, (∀ w, ((s i).update v x).2.get w = if v = w then x else (s i).get w) ∧
      (((s i).update v x).1 = true ↔ ∃ w, ((s i).update v x).2.get w ≠ (s i).get w)) ∧
    (∀ i j, ((s i).copyFrom (s' j)).2 = s' j ∧
      (((s i).copyFrom (s' j)).1 = true ↔
        ∃ w, ((s i).copyFrom (s' j)).2.get w ≠ (s i).get w)) ∧
    (∀ i j t, Merges i j s t → t i = s i ∧ ∀ v, IsLUB {(s i).get v, (s j).get v} ((t j).get v)) ∧
    (∀ j l t, MergesAll j l s t → IsLeast {u | s j ≤ u ∧ ∀ i ∈ l, s i ≤ u} (t j)) ∧
    ∀ j l l' t t', MergesAll j l s t → MergesAll j l' s t' →
      (∀ u, (∃ i ∈ l, s i = u) ↔ ∃ i ∈ l', s i = u) → t = t' := by
  obtain ⟨F, rfl⟩ := hs.facts
  obtain ⟨G, rfl⟩ := hs'.facts
  refine ⟨⟨F, lists_tablesOf F⟩, fun i => (F i).ne_undef, fun i j => table_eq_iff,
    fun i v x => ⟨fun w => ?_, ?_⟩, fun i j => ⟨?_, ?_⟩, fun i j t h => ⟨?_, fun v => ?_⟩,
    fun j l t h => ?_, fun j l l' t t' h h' hsame => h.eq_of_same h' hsame⟩
  · rw [(lists_tablesOf F).update]
    exact Fact.get_set (F i) v w x
  · exact update_table_changed.trans exists_get_update_ne.symm
  · exact congrArg Prod.snd copyFrom_table
  · exact copyFrom_table_changed
  · rw [merges_tablesOf h]
    refine table_inj.2 ?_
    by_cases hij : i = j
    · subst hij
      rw [Function.update_self]
      exact sup_idem (F i)
    · rw [Function.update_of_ne hij]
  · rw [(lists_tablesOf F).merges h]
    simp only [tablesOf_apply, Fact.get_table, Fact.get_meet]
    exact isLUB_pair
  · obtain ⟨g, rfl, hg⟩ := h.facts
    rw [tablesOf_apply (Function.update F j g), Function.update_self]
    exact ⟨⟨fun v => (hg v).1.1, fun i hi v => (hg v).1.2 i hi⟩,
      fun u hu v => (hg v).2 ⟨hu.1 v, fun i hi => hu.2 i hi v⟩⟩

/-- Of two tables the first has values for two variables, the second another for one of them. -/
def pairOfTables : Tables :=
  let s := Function.update (fun _ => ∅) 0 ((∅ : Table).update ⟨0⟩ (.constant 1)).2
  let t := Function.update s 0 ((s 0).update ⟨1⟩ (.constant 2)).2
  Function.update t 1 ((t 1).update ⟨0⟩ (.constant 3)).2

theorem made_pairOfTables : Made pairOfTables :=
  ((Relation.ReflTransGen.refl.tail (.update 0 ⟨0⟩ (.constant 1))).tail
    (.update 0 ⟨1⟩ (.constant 2))).tail (.update 1 ⟨0⟩ (.constant 3))

/-- The entries of a table are merged from the last to the first, and once more in their order;
merging them once gives the same. -/
theorem tables_are_functions_reversed : ∃ t t' : Tables, Made pairOfTables ∧
    MergesAll 1 [0, 0] pairOfTables t ∧ MergesAll 1 [0] pairOfTables t' ∧ t = t' ∧
    IsLeast {u | pairOfTables 1 ≤ u ∧ pairOfTables 0 ≤ u} (t 1) ∧
    (t 1).get ⟨0⟩ = .nac ∧ (t 1).get ⟨1⟩ = .constant 2 := by
  obtain ⟨-, -, -, -, -, -, hleast, hsame⟩ :=
    tables_are_functions made_pairOfTables made_pairOfTables
  have hfirst : Merges 0 1 pairOfTables _ := ⟨_, List.reverse_perm _, rfl⟩
  have htwice : MergesAll 1 [0, 0] pairOfTables _ := .cons hfirst (.cons ⟨_, .refl _, rfl⟩ .nil)
  have honce : MergesAll 1 [0] pairOfTables _ := .cons ⟨_, .refl _, rfl⟩ .nil
  refine ⟨_, _, made_pairOfTables, htwice, honce, hsame 1 _ _ _ _ htwice honce (by simp), ?_,
    by decide +kernel, by decide +kernel⟩
  simpa using hleast 1 _ _ htwice

end ObjectFlow.ConstProp
