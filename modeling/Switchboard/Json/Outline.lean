import Switchboard.Json.Number

/-!
The outline of a JSON text: all that can be read of it before its first fault. A container that the
text breaks off is left unclosed, so faults stand only along the last branch, and whoever decodes an
outline from left to right meets them where the text has them.
-/

namespace Switchboard.Json

/-- A value as far as the text has it. A string without content is written correctly but names no
characters, through undecodable bytes or half a surrogate pair. -/
inductive Outline where
  | broken
  | null
  | bool (b : Bool)
  | number (n : Number)
  | string (content : Option String)
  | array (items : List Outline) (closed : Bool)
  | object (members : List (Option String × Outline)) (closed : Bool)
  deriving Inhabited

namespace Outline

/-- No fault lies inside the value. -/
def isWhole : Outline → Bool
  | .broken => false
  | .array _ closed | .object _ closed => closed
  | _ => true

end Outline

/-- An outline together with what follows it: `clean` when the text holds nothing more. -/
structure Document where
  outline : Outline
  clean : Bool
  deriving Inhabited

end Switchboard.Json
