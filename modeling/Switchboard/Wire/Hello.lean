import Switchboard.Json.Reader
import Switchboard.Json.Value
import Switchboard.Wire.Decoder

/-!
The first frame on a link, by which a gateway names itself to a logic node.
-/

namespace Switchboard.Wire

structure Hello where
  name : String
  hostname : String
  deriving DecidableEq, Repr, Inhabited

namespace Hello

structure Draft where
  name : Option String := none
  hostname : Option String := none
  deriving DecidableEq, Repr, Inhabited

def shape : Shape Draft Hello where
  title := "struct LinkRequest"
  fields := [
    { name := "name", required := true, isSet := (·.name.isSome)
      read := fun v d => (decodeText v).map fun s => { d with name := some s } },
    { name := "hostname", required := true, isSet := (·.hostname.isSome)
      read := fun v d => (decodeText v).map fun s => { d with hostname := some s } }]
  draft := {}
  build := fun d => do
    let name ← require "name" d.name
    let hostname ← require "hostname" d.hostname
    return { name, hostname }

def decode : Decoder Hello := shape.decode

def toValue (h : Hello) : Json.Value :=
  .object [("name", .string h.name), ("hostname", .string h.hostname)]

def encode (h : Hello) : String := h.toValue.text

def ofText (s : String) : Except Fault Hello :=
  decodeDocument decode (.read (Json.symbolsOfText s))

def ofBytes (bytes : Bytes) : Except Fault Hello :=
  decodeDocument decode (.read (Json.symbolsOfBytes bytes))

end Hello

end Switchboard.Wire
