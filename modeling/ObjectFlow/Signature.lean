import ObjectFlow.Entity
import ObjectFlow.Error
import ObjectFlow.Text.Blank
import ObjectFlow.Text.Split
import ObjectFlow.Text.Word
/-!
# Method signatures

A subsignature `ret name(p1,p2)` names a method within its class, a signature
`<Class: ret name(p1,p2)>` within the program. Reading accepts blanks between the parts and empty
parameters; the text of what is read has none of them.
-/

namespace ObjectFlow

open Std Text

/-- A method within its class: return type, name and parameter types as one text. -/
structure Subsignature where
  text : String
deriving DecidableEq, Repr

instance : ToString Subsignature := ⟨Subsignature.text⟩

instance : Ord Subsignature := ⟨compareOn Subsignature.text⟩

instance : TransOrd Subsignature := inferInstanceAs (TransCmp (compareOn Subsignature.text))

instance : LawfulEqOrd Subsignature := lawfulEq_compareOn fun ⟨_⟩ ⟨_⟩ h => congrArg _ h

/-- A method within the program. -/
structure Signature where
  cls : String
  subsignature : Subsignature
deriving DecidableEq, Repr

/-- A method as it is named at a call: the declared class and the subsignature. -/
structure MethodRef where
  cls : ClassId
  subsignature : Subsignature
deriving DecidableEq, Repr

/-! ## Writing -/

def Subsignature.ofParts (ret name : String) (params : List String) : Subsignature :=
  ⟨ret ++ " " ++ name ++ "(" ++ ",".intercalate params ++ ")"⟩

/-- The text from the last space before the first parenthesis up to that parenthesis. -/
def Subsignature.name (s : Subsignature) : String :=
  let front := s.text.toList.takeWhile (· != '(')
  String.ofList (front.reverse.takeWhile (· != ' ')).reverse

def Signature.text (s : Signature) : String :=
  "<" ++ s.cls ++ ": " ++ s.subsignature.text ++ ">"

instance : ToString Signature := ⟨Signature.text⟩

/-! ## Reading -/

/-- The characters of type names: word characters, `.`, `$` and brackets. -/
def isTypeChar (c : Char) : Bool :=
  isWord c || c == '.' || c == '$' || c == '[' || c == ']'

/-- The characters of method names: word characters, `$` and angle brackets. -/
def isNameChar (c : Char) : Bool :=
  isWord c || c == '$' || c == '<' || c == '>'

/-- Anything but a parenthesis. -/
def isParamChar (c : Char) : Bool :=
  c != '(' && c != ')'

/-- The longest front part whose characters satisfy `p`, if there is one, and the rest. -/
def run? (p : Char → Bool) (l : List Char) : Option (List Char × List Char) :=
  if (l.takeWhile p).isEmpty then none else some (l.takeWhile p, l.dropWhile p)

/-- The parameters of a comma-separated list, without blanks around them and without empty ones. -/
def splitParams (l : List Char) : List String :=
  (((splitAt ',' l).map trimChars).filter (!·.isEmpty)).map String.ofList

/-- Reads `ret name(params)` at the front and returns what follows. -/
def Subsignature.read? (l : List Char) : Option (Subsignature × List Char) := do
  let (ret, l) ← run? isTypeChar l
  let (_, l) ← run? isBlank l
  let (name, l) ← run? isNameChar l
  let '(' :: l := dropBlanks l | none
  let ')' :: rest := l.dropWhile isParamChar | none
  let params := splitParams (l.takeWhile isParamChar)
  return (.ofParts (String.ofList ret) (String.ofList name) params, rest)

/-- Reads a whole subsignature. -/
def Subsignature.parse (text : String) : Except Error Subsignature :=
  match read? (trimChars text.toList) with
  | some (s, []) => .ok s
  | _ => .error (.malformedSignature text)

/-- Reads `<Class: ret name(params)>` at the front and returns what follows. -/
def Signature.read? (l : List Char) : Option (Signature × List Char) := do
  let '<' :: l := l | none
  let (cls, l) ← run? isTypeChar (dropBlanks l)
  let ':' :: l := dropBlanks l | none
  let (s, l) ← Subsignature.read? (dropBlanks l)
  let '>' :: rest := dropBlanks l | none
  return (⟨String.ofList cls, s⟩, rest)

/-- Reads a whole signature. -/
def Signature.parse (text : String) : Except Error Signature :=
  match read? (trimChars text.toList) with
  | some (s, []) => .ok s
  | _ => .error (.malformedSignature text)

end ObjectFlow
