import Switchboard.Base64
import Switchboard.Decimal.Shortest
import Switchboard.Json.Outline
import Switchboard.Text.Quoted

/-!
Why a text does not decode. It is either no JSON of the right form, or well formed and wrong at some
place; then the cause has a message and the place a path.
-/

namespace Switchboard.Wire

/-- What stands where something else was expected. -/
inductive Found where
  | null
  | bool (b : Bool)
  | integer (i : Int)
  | float (text : String)
  | string (s : String)
  | sequence
  | map
  | unitVariant
  deriving DecidableEq, Repr, Inhabited

def Found.describe : Found → String
  | .null => "null"
  | .bool b => s!"boolean `{b}`"
  | .integer i => s!"integer `{i}`"
  | .float text => s!"floating point `{text}`"
  | .string s => "string " ++ Text.quote s
  | .sequence => "sequence"
  | .map => "map"
  | .unitVariant => "unit variant"

inductive Cause where
  | duplicate (field : String)
  | missing (field : String)
  | unknownVariant (name : String) (known : List String)
  | tooShort (length : Nat) (shape : String) (fields : Nat)
  | wrongType (found : Found) (expected : String)
  | wrongInteger (i : Int) (expected : String)
  | base64 (fault : Base64.Fault)
  deriving DecidableEq, Repr, Inhabited

/-- A choice of names, in words. -/
def oneOf : List String → String
  | [] => "nothing"
  | [a] => s!"`{a}`"
  | [a, b] => s!"`{a}` or `{b}`"
  | names => "one of " ++ ", ".intercalate (names.map fun name => s!"`{name}`")

def Cause.message : Cause → String
  | .duplicate field => s!"duplicate field `{field}`"
  | .missing field => s!"missing field `{field}`"
  | .unknownVariant name known => s!"unknown variant `{name}`, expected {oneOf known}"
  | .tooShort length shape fields =>
    s!"invalid length {length}, expected {shape} with {fields} elements"
  | .wrongType found expected => s!"invalid type: {found.describe}, expected {expected}"
  | .wrongInteger i expected => s!"invalid value: integer `{i}`, expected {expected}"
  | .base64 fault => fault.message

/-- One step from a value to a part of it. -/
inductive Segment where
  | member (name : String)
  | item (index : Nat)
  deriving DecidableEq, Repr, Inhabited

/-- A path as text: member names joined by points, indices in brackets. -/
def pathText (path : List Segment) : String :=
  let part (first : Bool) : Segment → String
    | .item i => s!"[{i}]"
    | .member name => if first then name else "." ++ name
  match path with
  | [] => ""
  | s :: rest => part true s ++ String.join (rest.map (part false))

inductive Fault where
  | malformed
  | wrong (path : List Segment) (cause : Cause)
  deriving DecidableEq, Repr, Inhabited

namespace Fault

/-- The same fault, seen from the value that holds the faulty part. -/
def inside (s : Segment) : Fault → Fault
  | .malformed => .malformed
  | .wrong path cause => .wrong (s :: path) cause

/-- The message of a cause, with the path in front where there is one. -/
def located (path : List Segment) (cause : Cause) : String :=
  match path with
  | [] => cause.message
  | _ => pathText path ++ ": " ++ cause.message

end Fault

end Switchboard.Wire
