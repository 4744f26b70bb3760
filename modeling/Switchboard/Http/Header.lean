import Switchboard.Text.Blank
import Switchboard.Text.Utf8

/-!
Header fields of a request: names without case, values as bytes. Of several fields of one name the
first is the one that counts.
-/

namespace Switchboard.Http

abbrev Headers := List (String × Bytes)

namespace Headers

/-- The value of the first field of that name, which is given in lower case. -/
def first? (headers : Headers) (name : String) : Option Bytes :=
  (headers.find? fun h => Text.lowerAscii h.1 = name).map Prod.snd

end Headers

/-- The value as a text, if it has visible ASCII characters, spaces and tabs only. -/
def visibleText? (value : Bytes) : Option String :=
  if value.all fun b => (0x20 ≤ b && b ≤ 0x7e) || b = 0x09 then
    some (.ofList (value.map fun b => Char.ofNat b.toNat))
  else none

/-- The value without spaces and tabs at its ends. -/
def stripValue (value : Bytes) : Bytes :=
  let isPad (b : UInt8) : Bool := b = 0x20 || b = 0x09
  ((value.dropWhile isPad).reverse.dropWhile isPad).reverse

end Switchboard.Http
