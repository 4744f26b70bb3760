/-!
How a link ends, reduced to the coarse statuses by which repeated failures are recognised.
-/

namespace Switchboard.Link

inductive Status where
  | ok
  | unavailable
  | dataLoss
  | internal
  | unknown
  deriving DecidableEq, Repr, Inhabited

def Status.name : Status → String
  | .ok => "OK"
  | .unavailable => "UNAVAILABLE"
  | .dataLoss => "DATA_LOSS"
  | .internal => "INTERNAL"
  | .unknown => "UNKNOWN"

def Status.all : List Status := [.ok, .unavailable, .dataLoss, .internal, .unknown]

/-- What goes wrong below the link protocol. -/
inductive TransportFault where
  | io
  | connectionClosed
  | alreadyClosed
  | http (code : Nat)
  | httpFormat
  | url
  | protocol
  | capacity
  | utf8
  | attack
  | writeBufferFull
  deriving DecidableEq, Repr, Inhabited

/-- An answer from the server's own failures may pass, one that refuses the request will not. -/
def TransportFault.status : TransportFault → Status
  | .io | .connectionClosed | .alreadyClosed => .unavailable
  | .http code => if 500 ≤ code ∧ code ≤ 599 then .unavailable else .internal
  | .httpFormat | .url | .protocol => .internal
  | .capacity => .dataLoss
  | .utf8 | .attack | .writeBufferFull => .unknown

inductive Fault where
  | connect (fault : TransportFault)
  | handshake (message : String)
  | transport (fault : TransportFault)
  | closed
  deriving DecidableEq, Repr, Inhabited

namespace Fault

def status : Fault → Status
  | .connect fault | .transport fault => fault.status
  | .handshake _ => .internal
  | .closed => .unavailable

/-- What happened, without the detail of a transport fault. -/
def summary : Fault → String
  | .connect _ => "connect failed"
  | .handshake message => "link handshake failed: " ++ message
  | .transport _ => "transport error"
  | .closed => "stream closed by peer"

end Fault

end Switchboard.Link
