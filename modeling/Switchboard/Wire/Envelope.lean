import Switchboard.Wire.Command
import Switchboard.Wire.Packet

/-!
Envelopes, the frames that a logic node pushes down a link: an object with one key, which says
whether a packet or a command is inside.
-/

namespace Switchboard.Wire

inductive Envelope where
  | packet (p : Packet)
  | command (c : Command)
  deriving DecidableEq, Repr, Inhabited

namespace Envelope

/-- The keys of an envelope, with the decoders of what they hold. -/
def contents : List (String × Decoder Envelope) := [
  ("packet_mixin", fun v => (Packet.decode v).map packet),
  ("command", fun v => (Command.decode v).map command)]

def content (name : String) : Except Fault (Decoder Envelope) :=
  match contents.lookup name with
  | some decoder => .ok decoder
  | none => .error (wrong (.unknownVariant name (contents.map Prod.fst)))

def decode : Decoder Envelope
  | .string (some s) => do
    let _ ← content s
    throw (wrong (.wrongType .unitVariant "newtype variant"))
  | .object ((some k, v) :: rest) closed => do
    let decoder ← content k
    let x ← within (.member k) (decoder v)
    if rest.isEmpty && closed then return x else throw .malformed
  | _ => .error .malformed

def toValue : Envelope → Json.Value
  | .packet p => .object [("packet_mixin", p.toValue)]
  | .command c => .object [("command", c.toValue)]

def encode (e : Envelope) : String := e.toValue.text

def ofText (s : String) : Except Fault Envelope :=
  decodeDocument decode (.read (Json.symbolsOfText s))

def ofBytes (bytes : Bytes) : Except Fault Envelope :=
  decodeDocument decode (.read (Json.symbolsOfBytes bytes))

end Envelope

end Switchboard.Wire
