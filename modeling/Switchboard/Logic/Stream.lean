import Switchboard.Logic.Hub
import Switchboard.WebSocket.Endpoint
import Switchboard.Wire.Hello

/-!
The task behind a connection of a gateway. First the gateway has to name itself, which registers a
link; then the frames of the link are written, and what the gateway sends is skipped.
-/

namespace Switchboard.Logic

open WebSocket

/-- How long a gateway may take to name itself, in milliseconds. -/
def helloLimit : Nat := 10000

/-- What is being written to a gateway. -/
inductive LinkWrite where
  | frame
  | close
  deriving DecidableEq, Repr, Inhabited

/-- What the task of a connection is at. `capacity` is what the queue of the link will hold. -/
inductive Stream where
  | greeting (deadline capacity : Nat)
  | linked (id : UInt64) (write : Option LinkWrite)
  | finished
  deriving DecidableEq, Repr, Inhabited

abbrev Turn := WebSocket.Turn Hub Stream

inductive Wakeup where
  | cancelled
  | queued
  | frame
  deriving DecidableEq, Repr, Inhabited

namespace Stream

/-- The task ends before there is a link. -/
def giveUp (socket : Socket) (hub : Hub) (log : List LogLine) : Turn :=
  { socket := socket.close, task := .finished, state := hub, log }

/-- The task ends: its link is cancelled, taken out, and its queue goes. -/
def finish (socket : Socket) (hub : Hub) (id : UInt64) (log : List LogLine) : Turn :=
  { socket := socket.close
    task := .finished
    state := ((hub.cancel id).watch id).dropReceiver id
    log }

/-- Why a gateway that has not named itself properly is turned away. -/
def invalidHello : Wire.Fault → LogLine
  | .malformed => warning "invalid link request"
  | .wrong _ cause => warning s!"invalid link request: {cause.message}"

/-- Takes the text by which a gateway names itself, and registers its link. No link comes of a queue
that cannot be made. -/
def greet (capacity : Nat) (socket : Socket) (hub : Hub) (text : String) : Turn :=
  match Wire.Hello.ofText text, checkCapacity capacity with
  | .error fault, _ => giveUp socket hub [invalidHello fault]
  | .ok _, .error _ => giveUp socket hub []
  | .ok hello, .ok () =>
    let (id, hub) := hub.register hello.name hello.hostname capacity
    { socket, task := .linked id none, state := hub }

/-- The next step while the gateway has not named itself. -/
def stepGreeting? (now deadline capacity : Nat) (socket : Socket) (hub : Hub) : Option Turn :=
  match socket.reader.next with
  | .starved =>
    if socket.gone then some (giveUp socket hub [])
    else if deadline ≤ now then some (giveUp socket hub [warning "link handshake timed out"])
    else none
  | .fault _ | .frame (some (.close _)) _ => some (giveUp socket hub [])
  -- fragments and pings are no greeting, and the deadline stays where it is
  | .frame none reader =>
    some { socket := { socket with reader }, task := .greeting deadline capacity, state := hub }
  | .frame (some (.text text)) reader => some (greet capacity { socket with reader } hub text)
  | .frame (some message) reader =>
    some { socket := { socket with reader }.reply message
           task := .greeting deadline capacity, state := hub }

def isReady (socket : Socket) (hub : Hub) (id : UInt64) : Wakeup → Bool
  | .cancelled => (hub.link id).cancelled
  -- a queue is at its end when it is empty and the hub has let go of the link
  | .queued => !(hub.link id).queue.isEmpty || id ∉ hub.registered
  | .frame => socket.gone || socket.reader.next ≠ .starved

def order : List Wakeup := [.cancelled, .queued, .frame]

def wake (socket : Socket) (hub : Hub) (id : UInt64) : Wakeup → Turn
  | .cancelled =>
    { socket := socket.write (.close none), task := .linked id (some .close), state := hub }
  | .queued =>
    match hub.receive id with
    | (none, _) => finish socket hub id []
    | (some frame, hub) =>
      { socket := socket.write (.text frame), task := .linked id (some .frame), state := hub }
  | .frame =>
    match socket.reader.next with
    | .starved | .fault _ | .frame (some (.close _)) _ => finish socket hub id []
    | .frame none reader =>
      { socket := { socket with reader }, task := .linked id none, state := hub }
    | .frame (some message) reader =>
      { socket := { socket with reader }.reply message
        task := .linked id none, state := hub }

/-- The end of a write, which fails when the gateway is gone. Of a close frame that does not matter:
the task ends either way. -/
def written (socket : Socket) (hub : Hub) (id : UInt64) : LinkWrite → Turn
  | .frame =>
    if socket.gone then
      finish socket hub id [warning s!"link {(hub.link id).name} write failed"]
    else { socket, task := .linked id none, state := hub }
  | .close => finish socket hub id []

/-- Goes on with a write. -/
def pursue? (socket : Socket) (hub : Hub) (id : UInt64) (w : LinkWrite) : Option Turn :=
  if socket.gone || socket.isFlushed then some (written socket hub id w) else none

/-- The next step of the task, unless it has to wait. -/
def step? (now : Nat) (socket : Socket) (hub : Hub) : Stream → Option Turn
  | .greeting deadline capacity => stepGreeting? now deadline capacity socket hub
  | .linked id (some w) => pursue? socket hub id w
  | .linked id none => (order.find? (isReady socket hub id)).map (wake socket hub id)
  | .finished => none

def deadline? : Stream → Option Nat
  | .greeting deadline _ => some deadline
  | _ => none

/-- A bound on the steps until the task has to wait: each reads a byte, takes a frame, or ends one
of these. -/
def budget (socket : Socket) (hub : Hub) : Stream → Nat
  | .linked id _ => 2 * (socket.reader.pending.length + (hub.link id).queue.length) + 3
  | _ => 2 * socket.reader.pending.length + 3

end Stream

instance : ConnectionTask Hub Stream where
  step? := Stream.step?
  deadline? := Stream.deadline?
  budget _ := Stream.budget

end Switchboard.Logic
