import Switchboard.Wire.Packet

/-!
Push requests of the ingress: a packet whose payload is a text, or Base64 when it says so.
-/

namespace Switchboard.Wire

structure Push where
  kind : Audience
  targets : List Int64
  payload : String
  base64 : Bool
  deriving DecidableEq, Repr, Inhabited

namespace Push

structure Draft where
  kind : Option Audience := none
  targets : Option (List Int64) := none
  payload : Option String := none
  base64 : Option Bool := none
  deriving DecidableEq, Repr, Inhabited

def shape : Shape Draft Push where
  title := "struct PushRequest"
  fields := [
    { name := "kind", required := true, isSet := (·.kind.isSome)
      read := fun v d => (Audience.decode v).map fun x => { d with kind := some x } },
    { name := "target_ids", required := false, isSet := (·.targets.isSome)
      read := fun v d => (decodeList decodeInt64 v).map fun x => { d with targets := some x } },
    { name := "payload", required := true, isSet := (·.payload.isSome)
      read := fun v d => (decodeText v).map fun x => { d with payload := some x } },
    { name := "base64", required := false, isSet := (·.base64.isSome)
      read := fun v d => (decodeBool v).map fun x => { d with base64 := some x } }]
  draft := {}
  build := fun d => do
    let kind ← require "kind" d.kind
    let payload ← require "payload" d.payload
    return { kind, targets := d.targets.getD [], payload, base64 := d.base64.getD false }

def decode : Decoder Push := shape.decode

def ofBytes (bytes : Bytes) : Except Fault Push :=
  decodeDocument decode (.read (Json.symbolsOfBytes bytes))

end Push

end Switchboard.Wire
