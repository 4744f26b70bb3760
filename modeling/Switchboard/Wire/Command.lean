import Switchboard.Json.Reader
import Switchboard.Json.Value
import Switchboard.Wire.Args
import Switchboard.Wire.Decoder

/-!
Commands, the administrative instructions of a logic node. A gateway routes them by their kind.
-/

namespace Switchboard.Wire

structure Command where
  kind : String
  args : Args
  deriving DecidableEq, Repr, Inhabited

namespace Command

structure Draft where
  kind : Option String := none
  args : Option Args := none
  deriving DecidableEq, Repr, Inhabited

def shape : Shape Draft Command where
  title := "struct Command"
  fields := [
    { name := "kind", required := true, isSet := (·.kind.isSome)
      read := fun v d => (decodeText v).map fun s => { d with kind := some s } },
    { name := "args", required := false, isSet := (·.args.isSome)
      read := fun v d =>
        (decodeMap decodeText v).map fun entries => { d with args := some (.ofList entries) } }]
  draft := {}
  build := fun d => do
    let kind ← require "kind" d.kind
    return { kind, args := d.args.getD .empty }

def decode : Decoder Command := shape.decode

def toValue (c : Command) : Json.Value :=
  .object [
    ("kind", .string c.kind),
    ("args", .object (c.args.entries.map fun (k, v) => (k, .string v)))]

def encode (c : Command) : String := c.toValue.text

def ofBytes (bytes : Bytes) : Except Fault Command :=
  decodeDocument decode (.read (Json.symbolsOfBytes bytes))

end Command

end Switchboard.Wire
