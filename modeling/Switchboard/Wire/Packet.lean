import Switchboard.Json.Reader
import Switchboard.Json.Value
import Switchboard.Wire.Decoder

/-!
Packets, the unit of routing: a payload for all sessions, or for those of the listed users or
groups. The payload is opaque and travels as Base64.
-/

namespace Switchboard.Wire

/-- Whom the targets of a packet name. -/
inductive Audience where
  | user
  | group
  | all
  deriving DecidableEq, Repr, Inhabited

namespace Audience

/-- The name in a frame. -/
def tag : Audience → String
  | .user => "USER"
  | .group => "GROUP"
  | .all => "ALL"

/-- The name in a message. -/
def title : Audience → String
  | .user => "User"
  | .group => "Group"
  | .all => "All"

def tags : List (String × Audience) := [("USER", .user), ("GROUP", .group), ("ALL", .all)]

def decode : Decoder Audience := decodeName tags

end Audience

structure Packet where
  kind : Audience
  targets : List Int64
  payload : Bytes
  deriving DecidableEq, Repr, Inhabited

def decodePayload (v : Json.Outline) : Except Fault Bytes := do
  let s ← decodeText v
  match Base64.decode (Text.Utf8.encode s) with
  | .ok bytes => return bytes
  | .error fault => throw (wrong (.base64 fault))

namespace Packet

def forUsers (uids : List Int64) (payload : Bytes) : Packet := ⟨.user, uids, payload⟩

def forGroups (gids : List Int64) (payload : Bytes) : Packet := ⟨.group, gids, payload⟩

def forEveryone (payload : Bytes) : Packet := ⟨.all, [], payload⟩

structure Draft where
  kind : Option Audience := none
  targets : Option (List Int64) := none
  payload : Option Bytes := none
  deriving DecidableEq, Repr, Inhabited

def shape : Shape Draft Packet where
  title := "struct PacketMixin"
  fields := [
    { name := "kind", required := true, isSet := (·.kind.isSome)
      read := fun v d => (Audience.decode v).map fun x => { d with kind := some x } },
    { name := "target_ids", required := false, isSet := (·.targets.isSome)
      read := fun v d => (decodeList decodeInt64 v).map fun x => { d with targets := some x } },
    { name := "payload", required := true, isSet := (·.payload.isSome)
      read := fun v d => (decodePayload v).map fun x => { d with payload := some x } }]
  draft := {}
  build := fun d => do
    let kind ← require "kind" d.kind
    let payload ← require "payload" d.payload
    return { kind, targets := d.targets.getD [], payload }

def decode : Decoder Packet := shape.decode

def toValue (p : Packet) : Json.Value :=
  .object [
    ("kind", .string p.kind.tag),
    ("target_ids", .array (p.targets.map fun i => .integer i.toInt)),
    ("payload", .string (.ofList (Base64.encode p.payload)))]

def encode (p : Packet) : String := p.toValue.text

def ofBytes (bytes : Bytes) : Except Fault Packet :=
  decodeDocument decode (.read (Json.symbolsOfBytes bytes))

end Packet

end Switchboard.Wire
