import Switchboard.Text.Blank
import Switchboard.Text.Utf8

/-!
The query of a request, in form encoding: fields joined by ampersands, a plus for a space, and
percent signs before two hexadecimal digits. A percent sign without them stands for itself.
-/

namespace Switchboard.Http

/-- The fields of a query in the order of the text. -/
abbrev Query := List (String × String)

namespace Query

def hexValue? (b : UInt8) : Option UInt8 :=
  if 0x30 ≤ b && b ≤ 0x39 then some (b - 0x30)
  else if 0x41 ≤ b && b ≤ 0x46 then some (b - 0x41 + 10)
  else if 0x61 ≤ b && b ≤ 0x66 then some (b - 0x61 + 10)
  else none

/-- The bytes that an encoded part stands for. -/
def unescape : Bytes → Bytes
  | [] => []
  | 0x2b :: rest => 0x20 :: unescape rest
  | 0x25 :: a :: b :: rest =>
    match hexValue? a, hexValue? b with
    | some x, some y => (x * 16 + y) :: unescape rest
    -- no escape, so the two bytes are looked at again
    | _, _ => 0x25 :: unescape (a :: b :: rest)
  | b :: rest => b :: unescape rest

def decodePart (part : Bytes) : String := Text.Utf8.decodeLossy (unescape part)

/-- One field; without an equals sign it has an empty value. -/
def field (part : Bytes) : String × String :=
  (decodePart (part.takeWhile (· ≠ 0x3d)), decodePart ((part.dropWhile (· ≠ 0x3d)).drop 1))

def parts : Bytes → List Bytes
  | [] => [[]]
  | b :: bs =>
    if b = 0x26 then [] :: parts bs
    else
      match parts bs with
      | [] => [[b]]
      | p :: ps => (b :: p) :: ps

def ofBytes (bytes : Bytes) : Query := ((parts bytes).filter (! ·.isEmpty)).map field

def last? (query : Query) (name : String) : Option String :=
  (query.reverse.find? (·.1 = name)).map Prod.snd

end Query

end Switchboard.Http
