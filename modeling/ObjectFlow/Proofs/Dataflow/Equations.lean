import Mathlib.Order.Lattice
import Mathlib.Order.Bounds.Basic
import ObjectFlow.Dataflow.Analysis

/-!
# The equations of a dataflow analysis

`Solves a g inp out`: the inputs and outputs of the nodes satisfy the equations of the analysis.
`Bounds` asks for inequalities only. A state in which every node is `Settled` and which lies below
all bounds holds the least solution (`State.least_of_settled`): its inputs satisfy the equations, as
the inputs computed anew from its outputs are a bound too.

Both solvers change facts by `State.put` only, so the invariants here are kept by both.
-/

namespace ObjectFlow.Dataflow

open Std (ExtTreeMap TransOrd LawfulEqOrd)

variable {N F : Type}

/-! ## Graphs and analyses -/

/-- The graph with the given nodes and edges. -/
def FlowGraph.ofEdges [DecidableEq N] (entry exit : N) (nodes : List N) (edges : List (N × N)) :
    FlowGraph N where
  entry := entry
  exit := exit
  nodes := nodes
  preds n := (edges.filter (·.2 = n)).map Prod.fst
  succs n := (edges.filter (·.1 = n)).map Prod.snd

theorem FlowGraph.turned_ofEdges [DecidableEq N] {entry exit m n : N} {nodes : List N}
    {edges : List (N × N)} :
    m ∈ (ofEdges entry exit nodes edges).preds n ↔
      n ∈ (ofEdges entry exit nodes edges).succs m := by
  simp [ofEdges]

/-- Predecessors and successors are the ends of the same edges, and no edge leads to the node where
the analysis starts. -/
structure Analysis.Rooted (a : Analysis N F) (g : FlowGraph N) : Prop where
  turned : ∀ m n, m ∈ g.preds n ↔ n ∈ g.succs m
  start : a.sources g (a.start g) = []

/-- Predecessors and successors are the ends of the same edges, and if the analysis starts at a node
of the graph, no edge leads there from another node. -/
structure Analysis.Unentered (a : Analysis N F) (g : FlowGraph N) : Prop where
  turned : ∀ m n, m ∈ g.preds n ↔ n ∈ g.succs m
  start : a.start g ∈ g.nodes → ∀ n ∈ g.nodes, n ≠ a.start g → n ∉ a.sources g (a.start g)

theorem Analysis.Rooted.unentered {a : Analysis N F} {g : FlowGraph N} (h : a.Rooted g) :
    a.Unentered g where
  turned := h.turned
  start _ _ _ _ hn := by simp [h.start] at hn

instance {a : Analysis N F} {g : FlowGraph N} : Coe (a.Rooted g) (a.Unentered g) :=
  ⟨Analysis.Rooted.unentered⟩

theorem Analysis.Unentered.mem_targets {a : Analysis N F} {g : FlowGraph N} (h : a.Unentered g)
    {m n : N} : n ∈ a.targets g m ↔ m ∈ a.sources g n := by
  unfold targets sources
  cases a.direction with
  | forward => exact (h.turned m n).symm
  | backward => exact h.turned n m

/-- No node calls the start. -/
theorem Analysis.Unentered.ne_start {a : Analysis N F} {g : FlowGraph N} (h : a.Unentered g)
    {m n : N} (hm : m ∈ g.nodes) (hne : m ≠ a.start g) (hn : n ∈ g.nodes)
    (hmn : n ∈ a.targets g m) : n ≠ a.start g := by
  rintro rfl
  exact h.start hn m hm hne (h.mem_targets.1 hmn)

/-- Facts are merged to their least upper bound. -/
structure Analysis.Joins [Preorder F] (a : Analysis N F) : Prop where
  left : ∀ x y, x ≤ a.meet x y
  right : ∀ x y, y ≤ a.meet x y
  least : ∀ {x y z}, x ≤ z → y ≤ z → a.meet x y ≤ z

/-- The facts that can arise: the boundary, the initial fact, and what merging and the transfer
functions make of these. -/
inductive Analysis.Arises (a : Analysis N F) (g : FlowGraph N) : F → Prop
  | boundary : Arises a g a.boundary
  | initial : Arises a g a.initial
  | meet {x y} : Arises a g x → Arises a g y → Arises a g (a.meet x y)
  | transfer {n x} : n ∈ g.nodes → Arises a g x → Arises a g (a.transfer n x)

/-- The equations: the input of a node merges the initial fact and the outputs of its sources, its
output is what the transfer function makes of its input. -/
structure Solves [Preorder F] (a : Analysis N F) (g : FlowGraph N) (inp out : N → F) : Prop where
  input : ∀ n ∈ g.nodes, n ≠ a.start g →
    IsLUB {x | x = a.initial ∨ ∃ p ∈ a.sources g n, p ∈ g.nodes ∧ x = out p} (inp n)
  output : ∀ n ∈ g.nodes, n ≠ a.start g → out n = a.transfer n (inp n)
  start : a.start g ∈ g.nodes → inp (a.start g) = a.boundary ∧ out (a.start g) = a.boundary

/-- The least solution of the equations. -/
structure Least [Preorder F] (a : Analysis N F) (g : FlowGraph N) (inp out : N → F) : Prop where
  solves : Solves a g inp out
  least : ∀ inp' out', Solves a g inp' out' → ∀ n ∈ g.nodes, inp n ≤ inp' n ∧ out n ≤ out' n

/-- The equations with inequalities in their place. -/
structure Bounds [Preorder F] (a : Analysis N F) (g : FlowGraph N) (inp out : N → F) : Prop where
  initial : ∀ n ∈ g.nodes, n ≠ a.start g → a.initial ≤ inp n
  flow : ∀ n ∈ g.nodes, n ≠ a.start g → ∀ p ∈ a.sources g n, p ∈ g.nodes → out p ≤ inp n
  transfer : ∀ n ∈ g.nodes, n ≠ a.start g → a.transfer n (inp n) ≤ out n
  start : a.start g ∈ g.nodes →
    a.boundary ≤ inp (a.start g) ∧ a.boundary ≤ out (a.start g)

theorem Solves.bounds [Preorder F] {a : Analysis N F} {g : FlowGraph N} {inp out : N → F}
    (h : Solves a g inp out) : Bounds a g inp out where
  initial n hn hs := (h.input n hn hs).1 (.inl rfl)
  flow n hn hs p hp hm := (h.input n hn hs).1 (.inr ⟨p, hp, hm, rfl⟩)
  transfer n hn hs := (h.output n hn hs).ge
  start hs := ⟨(h.start hs).1.ge, (h.start hs).2.ge⟩

theorem Analysis.mem_order [DecidableEq N] {a : Analysis N F} {g : FlowGraph N} {n : N} :
    n ∈ a.order g ↔ n ∈ g.nodes ∧ n ≠ a.start g := by
  unfold order
  cases a.direction <;> simp

/-! ## Gathering -/

variable [Ord N] [TransOrd N] {a : Analysis N F} {g : FlowGraph N} {s : State N F} {n m : N}
  {x y z : F}

/-- Merges the output of one source, if it is known, into a fact. -/
def State.merge (s : State N F) (a : Analysis N F) (fact : F) (p : N) : F :=
  match s.outputs[p]? with
  | some output => a.meet output fact
  | none => fact

theorem State.gather_eq : s.gather a g n x = (a.sources g n).foldl (s.merge a) x := rfl

theorem State.merge_of_some {p : N} (h : s.outputs[p]? = some y) : s.merge a x p = a.meet y x := by
  simp only [merge, h]

/-- What has arisen is merged to what can arise. -/
theorem State.arises_gather (h : ∀ (p : N) y, s.outputs[p]? = some y → a.Arises g y)
    (hx : a.Arises g x) : a.Arises g (s.gather a g n x) := by
  rw [gather_eq]
  refine List.foldlRecOn (motive := a.Arises g) _ _ hx fun fact hf p _ => ?_
  unfold merge
  split
  · exact .meet (h p _ ‹_›) hf
  · exact hf

section
variable [Preorder F] (hj : a.Joins)
include hj

theorem State.le_foldl_merge (l : List N) (x : F) : x ≤ l.foldl (s.merge a) x := by
  refine List.foldlRecOn (motive := (x ≤ ·)) _ _ le_rfl fun fact hf p _ => hf.trans ?_
  unfold merge
  split
  · exact hj.right _ _
  · exact le_rfl

theorem State.le_gather : x ≤ s.gather a g n x := le_foldl_merge hj _ x

theorem State.output_le_gather {p : N} (hp : p ∈ a.sources g n) (hy : s.outputs[p]? = some y) :
    y ≤ s.gather a g n x := by
  obtain ⟨l, l', hl⟩ := List.append_of_mem hp
  rw [gather_eq, hl, List.foldl_append, List.foldl_cons, merge_of_some hy]
  exact (hj.left _ _).trans (le_foldl_merge hj l' _)

theorem State.gather_le (hx : x ≤ z)
    (hp : ∀ p ∈ a.sources g n, ∀ y, s.outputs[p]? = some y → y ≤ z) : s.gather a g n x ≤ z := by
  rw [gather_eq]
  refine List.foldlRecOn (motive := (· ≤ z)) _ _ hx fun fact hf p hm => ?_
  unfold merge
  split
  · exact hj.least (hp p hm _ ‹_›) hf
  · exact hf

end

/-! ## Invariants of both solvers -/

/-- The facts of a state are those of the nodes; the start has the boundary fact, and no input lies
below the initial fact. -/
structure State.Fits [Preorder F] (s : State N F) (a : Analysis N F) (g : FlowGraph N) : Prop where
  inputs : ∀ n : N, (∃ x, s.inputs[n]? = some x) ↔ n ∈ g.nodes
  outputs : ∀ n : N, (∃ y, s.outputs[n]? = some y) ↔ n ∈ g.nodes
  start : a.start g ∈ g.nodes →
    s.inputs[a.start g]? = some a.boundary ∧ s.outputs[a.start g]? = some a.boundary
  initial : ∀ (n : N) x, n ≠ a.start g → s.inputs[n]? = some x → a.initial ≤ x

/-- The facts of a state lie below bounds. Before its first visit a node has the initial output. -/
structure State.Below [Preorder F] (s : State N F) (a : Analysis N F) (g : FlowGraph N)
    (inp out : N → F) : Prop where
  input : ∀ (n : N) x, s.inputs[n]? = some x → x ≤ inp n
  output : ∀ (n : N) y, s.outputs[n]? = some y → (y = a.initial ∧ n ≠ a.start g) ∨ y ≤ out n

/-- All facts of a state can arise. -/
structure State.Arisen (s : State N F) (a : Analysis N F) (g : FlowGraph N) : Prop where
  input : ∀ (n : N) x, s.inputs[n]? = some x → a.Arises g x
  output : ∀ (n : N) y, s.outputs[n]? = some y → a.Arises g y

/-- The equations hold at a node as far as its own facts are concerned: its output belongs to its
input, and its input lies above the outputs of its sources. -/
def State.Settled [Preorder F] (s : State N F) (a : Analysis N F) (g : FlowGraph N) (n : N) : Prop :=
  ∃ x, s.inputs[n]? = some x ∧ s.outputs[n]? = some (a.transfer n x) ∧
    ∀ p ∈ a.sources g n, ∀ y, s.outputs[p]? = some y → y ≤ x

/-- What is gathered below bounds stays below them. -/
theorem State.Below.gather_le [Preorder F] {inp out : N → F}
    (h : s.Below a g inp out) (hf : s.Fits a g) (hj : a.Joins) (hb : Bounds a g inp out)
    (hn : n ∈ g.nodes) (hs : n ≠ a.start g) (hx : x ≤ inp n) :
    s.gather a g n x ≤ inp n := by
  refine State.gather_le hj hx fun p hp y hy => ?_
  rcases h.output p y hy with ⟨rfl, -⟩ | hle
  · exact hb.initial n hn hs
  · exact hle.trans (hb.flow n hn hs p hp ((hf.outputs p).1 ⟨y, hy⟩))

/-- Maps that list the same nodes are equal if they agree there. -/
theorem ext_of_domain [LawfulEqOrd N] {m m' : ExtTreeMap N F} {l : List N}
    (hm : ∀ n : N, (∃ x, m[n]? = some x) ↔ n ∈ l) (hm' : ∀ n : N, (∃ x, m'[n]? = some x) ↔ n ∈ l)
    (h : ∀ n ∈ l, m[n]? = m'[n]?) : m = m' := by
  refine ExtTreeMap.ext_getElem? fun n => ?_
  by_cases hn : n ∈ l
  · exact h n hn
  · have hnone : m[n]? = none := Option.eq_none_iff_forall_ne_some.2 fun x hx =>
      hn ((hm n).1 ⟨x, hx⟩)
    have hnone' : m'[n]? = none := Option.eq_none_iff_forall_ne_some.2 fun x hx =>
      hn ((hm' n).1 ⟨x, hx⟩)
    rw [hnone, hnone']

/-! ## Settled states -/

namespace State

/-- The input of a node, and its output. -/
def input (s : State N F) (a : Analysis N F) (n : N) : F := (s.inputs[n]?).getD a.initial

def output (s : State N F) (a : Analysis N F) (n : N) : F := (s.outputs[n]?).getD a.initial

theorem Fits.inputs_eq [Preorder F] (h : s.Fits a g) (hn : n ∈ g.nodes) :
    s.inputs[n]? = some (s.input a n) := by
  obtain ⟨x, hx⟩ := (h.inputs n).2 hn
  rw [input, hx, Option.getD_some]

theorem Fits.outputs_eq [Preorder F] (h : s.Fits a g) (hn : n ∈ g.nodes) :
    s.outputs[n]? = some (s.output a n) := by
  obtain ⟨x, hx⟩ := (h.outputs n).2 hn
  rw [output, hx, Option.getD_some]

/-- States with the same outputs at all nodes have the same outputs. -/
theorem Fits.outputs_ext [LawfulEqOrd N] [Preorder F] {t : State N F} (hs : s.Fits a g)
    (ht : t.Fits a g) (h : ∀ n ∈ g.nodes, s.output a n = t.output a n) :
    s.outputs = t.outputs := by
  refine ext_of_domain hs.outputs ht.outputs fun n hn => ?_
  rw [hs.outputs_eq hn, ht.outputs_eq hn, h n hn]

theorem Settled.output_eq [Preorder F] (h : s.Settled a g n) :
    s.output a n = a.transfer n (s.input a n) := by
  obtain ⟨x, hx, hy, -⟩ := h
  rw [output, hy, input, hx, Option.getD_some, Option.getD_some]

section
variable [PartialOrder F] (hj : a.Joins) (hm : ∀ n ∈ g.nodes, Monotone (a.transfer n))
  (hf : s.Fits a g) (hs : ∀ n ∈ g.nodes, n ≠ a.start g → s.Settled a g n)
include hj hf hs

/-- What the outputs of a settled state give as inputs does not exceed its inputs. -/
theorem gather_le_input (hn : n ∈ g.nodes) (hne : n ≠ a.start g) :
    s.gather a g n a.initial ≤ s.input a n := by
  obtain ⟨x, hx, -, hle⟩ := hs n hn hne
  rw [input, hx, Option.getD_some]
  exact gather_le hj (hf.initial n x hne hx) hle

include hm

variable [DecidableEq N]

/-- The inputs computed anew from a settled state are bounds. -/
theorem bounds_gather : Bounds a g
    (fun n => if n = a.start g then a.boundary else s.gather a g n a.initial)
    (fun n => if n = a.start g then a.boundary
      else a.transfer n (s.gather a g n a.initial)) where
  initial n _ hne := by
    rw [if_neg hne]
    exact le_gather hj
  flow n hn hne p hp hpn := by
    rw [if_neg hne]
    refine le_trans ?_ (output_le_gather hj hp (hf.outputs_eq hpn))
    split
    · rename_i he
      rw [he] at hpn ⊢
      rw [output, (hf.start hpn).2, Option.getD_some]
    · rename_i hps
      rw [(hs p hpn hps).output_eq]
      exact hm p hpn (gather_le_input hj hf hs hpn hps)
  transfer n _ hne := by rw [if_neg hne, if_neg hne]
  start _ := by rw [if_pos rfl, if_pos rfl]; exact ⟨le_rfl, le_rfl⟩

/-- A settled state below all bounds holds the least solution. -/
theorem least_of_settled (hb : ∀ inp out, Bounds a g inp out → s.Below a g inp out) :
    Least a g (s.input a) (s.output a) := by
  have hgather : ∀ n ∈ g.nodes, n ≠ a.start g → s.input a n = s.gather a g n a.initial := by
    intro n hn hne
    refine le_antisymm ?_ (gather_le_input hj hf hs hn hne)
    have := (hb _ _ (bounds_gather hj hm hf hs)).input n _ (hf.inputs_eq hn)
    rwa [if_neg hne] at this
  refine ⟨⟨fun n hn hne => ?_, fun n hn hne => (hs n hn hne).output_eq, fun hstart => ?_⟩,
    fun inp out hsol n hn => ?_⟩
  · rw [hgather n hn hne]
    constructor
    · rintro x (rfl | ⟨p, hp, hpn, rfl⟩)
      · exact le_gather hj
      · exact output_le_gather hj hp (hf.outputs_eq hpn)
    · intro z hz
      refine gather_le hj (hz (.inl rfl)) fun p hp y hy => hz (.inr ⟨p, hp, ?_, ?_⟩)
      · exact (hf.outputs p).1 ⟨y, hy⟩
      · rw [output, hy, Option.getD_some]
  · rw [input, output, (hf.start hstart).1, (hf.start hstart).2]
    exact ⟨rfl, rfl⟩
  · have hbelow := hb inp out hsol.bounds
    refine ⟨hbelow.input n _ (hf.inputs_eq hn), ?_⟩
    by_cases hne : n = a.start g
    · subst hne
      rw [output, (hf.start hn).2, (hsol.start hn).2, Option.getD_some]
    · rw [(hs n hn hne).output_eq, hsol.output n hn hne]
      exact hm n hn (hbelow.input n _ (hf.inputs_eq hn))

end

end State

/-! ## Visits -/

variable [LawfulEqOrd N] [DecidableEq N]

namespace State

/-- The state after a visit of `n` with the input `x`. -/
def put (s : State N F) (a : Analysis N F) (n : N) (x : F) : State N F where
  inputs := s.inputs.insert n x
  outputs := s.outputs.insert n (a.transfer n x)
  visits := (n, x) :: s.visits

theorem inputs_put : (s.put a n x).inputs[m]? = if n = m then some x else s.inputs[m]? := by
  rw [put, ExtTreeMap.getElem?_insert]
  simp only [Std.compare_eq_iff_eq]

theorem outputs_put :
    (s.put a n x).outputs[m]? = if n = m then some (a.transfer n x) else s.outputs[m]? := by
  rw [put, ExtTreeMap.getElem?_insert]
  simp only [Std.compare_eq_iff_eq]

theorem input_put : (s.put a n x).input a m = if n = m then x else s.input a m := by
  rw [input, inputs_put]
  split <;> rfl

theorem output_put :
    (s.put a n x).output a m = if n = m then a.transfer n x else s.output a m := by
  rw [output, outputs_put]
  split <;> rfl

theorem foldl_insert (l : List N) (f : N → F) (t : ExtTreeMap N F) :
    (l.foldl (fun (t : ExtTreeMap N F) k => t.insert k (f k)) t)[n]? =
      if n ∈ l then some (f n) else t[n]? := by
  induction l generalizing t with
  | nil => simp
  | cons k l ih =>
    rw [List.foldl_cons, ih, ExtTreeMap.getElem?_insert]
    by_cases hl : n ∈ l
    · simp [hl]
    · by_cases hk : k = n
      · subst hk
        simp
      · simp [hl, hk, Ne.symm hk]

/-- What is known at the start. -/
theorem inputs_start : (start a g).inputs[n]? =
    if n ∈ g.nodes then some (if n = a.start g then a.boundary else a.initial) else none := by
  rw [start, foldl_insert]
  simp

theorem outputs_start : (start a g).outputs[n]? =
    if n ∈ g.nodes then some (if n = a.start g then a.boundary else a.initial) else none :=
  inputs_start

theorem arisen_start : (start a g).Arisen a g := by
  have key : ∀ (n : N) x, (start a g).inputs[n]? = some x → a.Arises g x := by
    intro n x h
    rw [inputs_start] at h
    split at h
    · split at h
      · exact Option.some.inj h ▸ .boundary
      · exact Option.some.inj h ▸ .initial
    · cases h
  exact ⟨key, key⟩

theorem Arisen.put (h : s.Arisen a g) (hn : n ∈ g.nodes) (hx : a.Arises g x) :
    (s.put a n x).Arisen a g := by
  refine ⟨fun m y hy => ?_, fun m y hy => ?_⟩
  · rw [inputs_put] at hy
    split at hy
    · exact Option.some.inj hy ▸ hx
    · exact h.input m y hy
  · rw [outputs_put] at hy
    split at hy
    · exact Option.some.inj hy ▸ .transfer hn hx
    · exact h.output m y hy

variable [Preorder F] {inp out : N → F}

theorem fits_start : (start a g).Fits a g := by
  have key : ∀ n : N, (∃ x, (start a g).inputs[n]? = some x) ↔ n ∈ g.nodes := by
    intro n
    rw [inputs_start]
    split <;> simp [*]
  refine ⟨key, key, fun h => ?_, fun n x hn hx => ?_⟩
  · rw [inputs_start, outputs_start]
    simp [h]
  · rw [inputs_start] at hx
    split at hx
    · exact (Option.some.inj hx).le
    · cases hx

theorem Fits.put (h : s.Fits a g) (hn : n ∈ g.nodes) (hs : n ≠ a.start g) (hx : a.initial ≤ x) :
    (s.put a n x).Fits a g := by
  refine ⟨fun m => ?_, fun m => ?_, fun hm => ?_, fun m y hm hy => ?_⟩
  · rw [inputs_put]
    split
    · rename_i he
      simp [← he, hn]
    · exact h.inputs m
  · rw [outputs_put]
    split
    · rename_i he
      simp [← he, hn]
    · exact h.outputs m
  · rw [inputs_put, outputs_put, if_neg hs, if_neg hs]
    exact h.start hm
  · rw [inputs_put] at hy
    split at hy
    · exact Option.some.inj hy ▸ hx
    · exact h.initial m y hm hy

theorem below_start (hb : Bounds a g inp out) : (start a g).Below a g inp out := by
  refine ⟨fun n x hx => ?_, fun n y hy => ?_⟩
  · rw [inputs_start] at hx
    split at hx
    · rename_i hn
      split at hx
      · rename_i he
        rw [he] at hn ⊢
        exact Option.some.inj hx ▸ (hb.start hn).1
      · exact Option.some.inj hx ▸ hb.initial n hn ‹_›
    · cases hx
  · rw [outputs_start] at hy
    split at hy
    · rename_i hn
      split at hy
      · rename_i he
        rw [he] at hn ⊢
        exact .inr (Option.some.inj hy ▸ (hb.start hn).2)
      · exact .inl ⟨(Option.some.inj hy).symm, ‹_›⟩
    · cases hy

theorem Below.put (h : s.Below a g inp out) (hb : Bounds a g inp out)
    (hm : ∀ n ∈ g.nodes, Monotone (a.transfer n)) (hn : n ∈ g.nodes) (hs : n ≠ a.start g)
    (hx : x ≤ inp n) :
    (s.put a n x).Below a g inp out := by
  refine ⟨fun m y hy => ?_, fun m y hy => ?_⟩
  · rw [inputs_put] at hy
    split at hy
    · rename_i he
      exact he ▸ Option.some.inj hy ▸ hx
    · exact h.input m y hy
  · rw [outputs_put] at hy
    split at hy
    · rename_i he
      subst he
      exact .inr (Option.some.inj hy ▸ (hm n hn hx).trans (hb.transfer n hn hs))
    · exact h.output m y hy

/-- A visit settles its node if the outputs that it gathers stay. -/
theorem settled_put_self (hj : a.Joins)
    (h : ∀ p ∈ a.sources g n, (s.put a n (s.gather a g n x)).outputs[p]? = s.outputs[p]?) :
    (s.put a n (s.gather a g n x)).Settled a g n := by
  refine ⟨s.gather a g n x, by rw [inputs_put, if_pos rfl], by rw [outputs_put, if_pos rfl],
    fun p hp y hy => ?_⟩
  rw [h p hp] at hy
  exact output_le_gather hj hp hy

/-- Other nodes stay settled if the outputs of their sources stay. -/
theorem Settled.put (h : s.Settled a g m) (hne : n ≠ m)
    (hsame : ∀ p ∈ a.sources g m, (s.put a n x).outputs[p]? = s.outputs[p]?) :
    (s.put a n x).Settled a g m := by
  obtain ⟨z, hx, hy, hle⟩ := h
  refine ⟨z, by rw [inputs_put, if_neg hne, hx], by rw [outputs_put, if_neg hne, hy],
    fun p hp y hy => ?_⟩
  rw [hsame p hp] at hy
  exact hle p hp y hy

end State

end ObjectFlow.Dataflow
