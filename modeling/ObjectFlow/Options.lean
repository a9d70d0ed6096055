import ObjectFlow.Error
import ObjectFlow.Order
import ObjectFlow.Text.Blank
import ObjectFlow.Text.Split
import ObjectFlow.Text.Word
/-!
# Options

An analysis is configured by an id and options written `key:value;key:value`. The first colon ends
the key, so values may hold colons. Options are shown in the order of their keys.
-/

namespace ObjectFlow

open Std Text

/-- The values of the options that are set. -/
structure Options where
  entries : ExtTreeMap String String := ∅
deriving DecidableEq

namespace Options

instance : EmptyCollection Options := ⟨{}⟩

def get? (o : Options) (key : String) : Option String :=
  o.entries[key]?

def getD (o : Options) (key default : String) : String :=
  (o.get? key).getD default

/-- The truth value of an option, `default` where it is not set. -/
def getBool (o : Options) (key : String) (default : Bool) : Except Error Bool :=
  match o.get? key with
  | none => .ok default
  | some "true" => .ok true
  | some "false" => .ok false
  | some value => .error (.invalidOptionValue key value)

/-- Sets an option, whatever the texts hold. -/
def set (o : Options) (key value : String) : Options :=
  ⟨o.entries.insert key value⟩

/-- The options as one text, in the order of their keys. -/
def text (o : Options) : String :=
  ";".intercalate (o.entries.toList.map fun (key, value) => key ++ ":" ++ value)

instance : ToString Options := ⟨text⟩

/-! ## Reading -/

/-- The characters of a key after its first letter. -/
def isKeyChar (c : Char) : Bool :=
  isWord c || c == '-'

/-- Reads `key:value`. The key starts with an ASCII letter, and the value, whose outer blanks are
dropped, stays on one line. -/
def readEntry? (segment : List Char) : Option (String × String) := do
  let l := dropBlanks segment
  let first ← l.head?
  let ':' :: value := dropBlanks (l.dropWhile isKeyChar) | none
  if first.isAlpha && !(trimChars value).contains '\n' then
    return (String.ofList (l.takeWhile isKeyChar), String.ofList (trimChars value))
  else none

/-- Adds the option that a segment writes; a blank segment adds none. -/
def addSegment (o : Options) (segment : List Char) : Except Error Options :=
  if segment.all isBlank then .ok o
  else
    match readEntry? segment with
    | some (key, value) => .ok (o.set key value)
    | none => .error (.malformedOption (String.ofList (trimChars segment)))

/-- Reads options. Of two values for one key the later counts. -/
def parse (text : String) : Except Error Options :=
  (splitAt ';' text.toList).foldlM addSegment ∅

end Options

/-- The configuration of one analysis. -/
structure AnalysisConfig where
  id : String
  options : Options := ∅
deriving DecidableEq

/-- The configuration with options read from a text. -/
def AnalysisConfig.ofText (id text : String) : Except Error AnalysisConfig :=
  return { id, options := ← Options.parse text }

end ObjectFlow
