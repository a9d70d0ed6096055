import ObjectFlow.Cfg
import ObjectFlow.Dataflow.GenKill
/-!
# Live variables

A backward analysis: a variable is live where some path from there reads it before it assigns it.
-/

namespace ObjectFlow.Liveness

open Std Dataflow

variable (b : Body)

/-- The variables that the statement at a node reads. -/
def uses (n : Cfg.Node) : SetFact VarId :=
  match b.at? n with
  | some s => ExtTreeSet.ofList s.instr.uses
  | none => ∅

/-- The variable that the statement at a node assigns. -/
def defs (n : Cfg.Node) : SetFact VarId :=
  match b.at? n with
  | some s => ExtTreeSet.ofList s.instr.def?.toList
  | none => ∅

/-- A node makes what it reads live and ends the life of what it assigns. -/
def genKill : GenKill Cfg.Node VarId where
  direction := .backward
  merge := .union
  boundary := ∅
  initial := ∅
  gen := uses b
  kill := defs b

/-- Liveness on a body. -/
def analysis : Analysis Cfg.Node (SetFact VarId) :=
  (genKill b).analysis (Cfg.ofBody b).nodes

end ObjectFlow.Liveness
