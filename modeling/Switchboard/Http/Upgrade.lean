import Switchboard.Http.Message

/-!
When a request becomes a WebSocket connection.
-/

namespace Switchboard.Http

/-- Why a request is not upgraded, in the order in which it is checked. -/
inductive UpgradeFault where
  | method
  | connection
  | upgrade
  | key
  | version
  | unsupported
  deriving DecidableEq, Repr, Inhabited

namespace UpgradeFault

def status : UpgradeFault → Nat
  | .method => 405
  | .unsupported => 426
  | _ => 400

def message : UpgradeFault → String
  | .method => "Request method must be `GET`"
  | .connection => "Connection header did not include 'upgrade'"
  | .upgrade => "`Upgrade` header did not include 'websocket'"
  | .key => "`Sec-WebSocket-Key` header missing"
  | .version => "`Sec-WebSocket-Version` header did not include '13'"
  | .unsupported => "WebSocket request couldn't be upgraded since no upgrade state was present"

def response (fault : UpgradeFault) : Response := .plain fault.status fault.message

end UpgradeFault

/-- The word stands somewhere in the text. -/
def containsWord (word : List Char) : List Char → Bool
  | [] => word.isEmpty
  | c :: cs => word.isPrefixOf (c :: cs) || containsWord word cs

/-- The first header of that name, in lower case, if it is a text. -/
def Headers.lowerText? (headers : Headers) (name : String) : Option String :=
  ((headers.first? name).bind Text.Utf8.decode?).map Text.lowerAscii

/-- Checks that a request asks for an upgrade; `connected` says whether it came over a connection
that can be handed over. -/
def checkUpgrade (request : Request) (connected : Bool) : Except UpgradeFault Unit :=
  let headers := request.headers
  if request.method ≠ "GET" then .error .method
  else if !((headers.lowerText? "connection").any fun s =>
      containsWord "upgrade".toList s.toList) then .error .connection
  else if headers.lowerText? "upgrade" ≠ some "websocket" then .error .upgrade
  else if (headers.first? "sec-websocket-key").isNone then .error .key
  else if headers.lowerText? "sec-websocket-version" ≠ some "13" then .error .version
  else if !connected then .error .unsupported
  else .ok ()

/-- The bytes of the answer to an upgrade, with the fields that a server adds. The key is answered
by twenty bytes in Base64. -/
def acceptSize (added : List (String × String)) : Nat :=
  headSize 101 ([("connection", "upgrade".utf8ByteSize), ("upgrade", "websocket".utf8ByteSize),
    ("sec-websocket-accept", 28)] ++ added.map fun h => (h.1, h.2.utf8ByteSize))

end Switchboard.Http
