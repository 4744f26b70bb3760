import Switchboard.WebSocket.Pipe
import Switchboard.WebSocket.Reader

/-!
A server's end of a connection: what has come from the client, and the pipe to it. Either end may
go first. Once the client is gone, what it sent can still be read, and writing fails.
-/

namespace Switchboard.WebSocket

structure Socket where
  reader : Reader := { role := .server }
  pipe : Pipe
  gone : Bool := false
  closed : Bool := false
  deriving DecidableEq, Repr, Inhabited

namespace Socket

def receive (s : Socket) (bytes : Bytes) : Socket := { s with reader := s.reader.feed bytes }

def write (s : Socket) (m : Message) : Socket := { s with pipe := s.pipe.write m }

def isFlushed (s : Socket) : Bool := s.pipe.isFlushed

def drop (s : Socket) : Socket := { s with gone := true }

def close (s : Socket) : Socket := { s with closed := true, pipe := s.pipe.shut }

/-- Answers a ping; other messages need no answer. -/
def reply (s : Socket) : Message → Socket
  | .ping bytes => s.write (.pong bytes)
  | _ => s

end Socket

inductive ClientEvent where
  | response (status : Nat) (body : Bytes)
  | message (m : Message)
  | ended
  deriving DecidableEq, Repr, Inhabited

/-- A client and the server's end of its connection; `done` once the client has seen the end. -/
structure Client (τ : Type) where
  socket : Socket
  task : τ
  unseen : List ClientEvent := []
  done : Bool := false

namespace Client

variable {τ : Type}

/-- A client whose sending can reach anyone. -/
def isLive (c : Client τ) : Bool := !c.done && !c.socket.gone && !c.socket.closed

/-- What the client has seen since the last look. A close frame without a reason says no more than
the end that comes with it, so it is left out. -/
def look (c : Client τ) : List ClientEvent × Client τ :=
  if c.socket.gone then ([], { c with unseen := [] })
  else if c.done then (c.unseen, { c with unseen := [] })
  else
    let (messages, pipe) := c.socket.pipe.take
    -- a client that does not read does not see the end either
    let ended := c.socket.closed && pipe.reading
    (c.unseen ++ (messages.filter (· ≠ .close none)).map .message ++
        (if ended then [.ended] else []),
      { c with socket := { c.socket with pipe }, unseen := [], done := ended })

/-- The client stops reading, unless it has seen the end. -/
def stall (c : Client τ) : Client τ :=
  { c with socket := { c.socket with pipe := c.socket.pipe.stall } }

def resume (c : Client τ) : Client τ :=
  { c with socket := { c.socket with pipe := c.socket.pipe.resume } }

/-- The client goes without a word. -/
def drop (c : Client τ) : Client τ := { c with socket := c.socket.drop }

/-- Bytes come from the client, if they can reach anyone. -/
def hear (bytes : Bytes) (c : Client τ) : Client τ :=
  if c.isLive then { c with socket := c.socket.receive bytes } else c

end Client

end Switchboard.WebSocket
