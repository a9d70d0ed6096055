/-!
# Errors

What can be wrong with declarations, signatures and options. Analyses never fail; what they cannot
resolve they leave out.
-/

namespace ObjectFlow

/-- Why a declaration, a look-up or an option was refused. Methods are given by signature. -/
inductive Error where
  | unknownClass (name : String)
  | duplicateClass (name : String)
  | unknownMethod (signature : String)
  | duplicateMethod (cls subsignature : String)
  | malformedSignature (text : String)
  /-- A branch leaves the body of its method, which has `length` statements. -/
  | invalidJumpTarget (method : String) (stmt target length : Nat)
  | missingBody (method : String)
  /-- The main method must be static and have a body. -/
  | invalidMain (method : String)
  | missingEntry
  | malformedOption (segment : String)
  | invalidOptionValue (key value : String)
deriving DecidableEq, Repr

/-- The text shown to the user. -/
def Error.message : Error → String
  | unknownClass name => s!"unknown class `{name}`"
  | duplicateClass name => s!"class `{name}` is declared twice"
  | unknownMethod signature => s!"unknown method `{signature}`"
  | duplicateMethod cls subsignature => s!"method `{subsignature}` is declared twice in `{cls}`"
  | malformedSignature text => s!"malformed method signature `{text}`"
  | invalidJumpTarget method stmt target length =>
    s!"statement {stmt} of `{method}` jumps to {target}, but the body has {length} statements"
  | missingBody method => s!"method `{method}` has no body"
  | invalidMain method => s!"`{method}` cannot be the main method"
  | missingEntry => "no entry method: set a main method or pass the `entry` option"
  | malformedOption segment => s!"malformed option `{segment}`, expected `key:value`"
  | invalidOptionValue key value => s!"invalid value `{value}` for option `{key}`"

instance : ToString Error := ⟨Error.message⟩

end ObjectFlow
