import Switchboard.Http.Head
import Switchboard.Http.Url
import Switchboard.Link.Fault

/-!
Where the address of a link leads, and what an answer that is no link comes to.
-/

namespace Switchboard.Link

/-- A host, a port, and what is asked for there. -/
structure Address where
  host : String
  port : UInt16
  target : String
  deriving DecidableEq, Repr, Inhabited

/-- The port of a scheme that links can have. -/
def defaultPort? : String → Option UInt16
  | "ws" => some 80
  | "wss" => some 443
  | _ => none

/-- An address needs an authority, and a port or a scheme that has one. -/
def Address.ofUrl (url : String) : Except TransportFault Address :=
  match Http.Url.parse? url with
  | none => .error .httpFormat
  | some parsed =>
    match parsed.authority with
    | none => .error .url
    | some authority =>
      -- a port that is written goes before that of the scheme
      match (Http.Url.port? authority).or (parsed.scheme.bind defaultPort?) with
      | none => .error .url
      | some port => .ok ⟨Http.Url.host authority, port, parsed.pathAndQuery⟩

/-- Bytes of an answer after which its head has to be complete. -/
def maxAnswer : Nat := 65536

/-- Why the bytes of an answer are no link. An upgrade would have to prove that it read the
request, which none of these can. -/
def answerFault (bytes : Bytes) : TransportFault :=
  match Http.Head.read (bytes.take maxAnswer) with
  | .ok ⟨1, code⟩ =>
    if code = 101 then .protocol else if code < 100 then .httpFormat else .http code
  -- an answer in another version is no upgrade, whatever its code
  | .ok _ | .error .malformed => .protocol
  | .error .incomplete => if maxAnswer < bytes.length then .attack else .protocol

end Switchboard.Link
