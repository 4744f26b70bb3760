import Switchboard.Auth.Token
import Switchboard.Gateway.Dispatch
import Switchboard.WebSocket.Endpoint

/-!
The task behind a client's connection. It waits for one of four things: its session is closed, a
frame has come, a payload is queued, or a heartbeat is due. While a write is under way it waits for
that alone. Times are in milliseconds.
-/

namespace Switchboard.Gateway

open Session WebSocket

def pingInterval : Nat := 45000

/-- Silence after which a client counts as gone. -/
def silenceLimit : Nat := 90000

/-- How long a payload may take to be written. -/
def writeLimit : Nat := 10000

/-- Why a gateway closes a connection. -/
inductive Closing where
  | noToken (fault : Auth.Fault)
  | unknownToken (fault : Auth.Fault)
  | silence
  | sessionEnd
  deriving DecidableEq, Repr, Inhabited

namespace Closing

def code : Closing → UInt16
  | .noToken _ => 1007
  | .unknownToken _ => 4004
  | .silence => 4009
  | .sessionEnd => 4010

def reason : Closing → String
  | .noToken fault | .unknownToken fault => fault.message
  | .silence => "session timed out"
  | .sessionEnd => "session closed"

def frame (c : Closing) : Message := .close (some (c.code, c.reason))

end Closing

/-- A write under way. Only a payload has a deadline. -/
inductive Write where
  | payload (h : Handle) (deadline : Nat)
  | ping
  | close
  deriving DecidableEq, Repr, Inhabited

structure Serving where
  session : SessionRef
  lastSeen : Nat
  nextTick : Nat
  write : Option Write := none
  deriving DecidableEq, Repr, Inhabited

/-- What the task of a connection is at. A refused connection only has to be told so. -/
inductive Task where
  | refusing
  | serving (s : Serving)
  | finished
  deriving DecidableEq, Repr, Inhabited

inductive Wakeup where
  | closed
  | frame
  | payload
  | tick
  deriving DecidableEq, Repr, Inhabited

abbrev Turn := WebSocket.Turn Node Task

namespace Serving

def isReady (now : Nat) (socket : Socket) (node : Node) (s : Serving) : Wakeup → Bool
  | .closed => (node.post.box s.session.slot).cancelled
  | .frame => socket.gone || socket.reader.next ≠ .starved
  | .payload => !(node.post.box s.session.slot).queue.isEmpty
  | .tick => s.nextTick ≤ now

/-- Wakeups in the order in which they are looked at. -/
def order : List Wakeup := [.closed, .frame, .payload, .tick]

/-- The task ends: its session is closed and taken out of the registries, and what is queued or in
its hands is given back. -/
def finish (socket : Socket) (node : Node) (s : Serving) (log : List LogLine) : Turn :=
  -- the payload of a write that is cut off has not been given back yet
  let pool := match s.write with
    | some (.payload h _) => node.post.pool.release h
    | _ => node.post.pool
  let (node, rest) := (Script.leave s.session).run { node with post := { node.post with pool } }
  { socket := socket.close
    task := .finished
    state := { node with post := node.post.dropReceiver s.session.slot }
    log := log ++ rest }

/-- Starts a close frame, after which the task ends. -/
def startClose (socket : Socket) (node : Node) (s : Serving) (closing : Closing) : Turn where
  socket := socket.write closing.frame
  task := .serving { s with write := some .close }
  state := node

def readFrame (now : Nat) (socket : Socket) (node : Node) (s : Serving) : Turn :=
  match socket.reader.next with
  | .starved | .fault _ | .frame (some (.close _)) _ => s.finish socket node []
  -- only a whole message is a sign of life, not one of its fragments
  | .frame none reader =>
    { socket := { socket with reader }, task := .serving s, state := node }
  | .frame (some message) reader =>
    { socket := { socket with reader }.reply message
      task := .serving { s with lastSeen := now }
      state := node }

/-- Takes a payload from the queue and starts to write it. -/
def writePayload (now : Nat) (socket : Socket) (node : Node) (s : Serving) : Turn :=
  match node.post.receive s.session.slot with
  -- only a queue that holds something wakes the task up, so this case is never met
  | (none, _) => { socket, task := .serving s, state := node }
  | (some h, post) =>
    { socket := socket.write (.ofPayload (post.pool.bytes h))
      task := .serving { s with write := some (.payload h (now + writeLimit)) }
      state := { node with post } }

/-- A heartbeat: a ping, or the end of a session that has been silent for too long. -/
def tick (now : Nat) (socket : Socket) (node : Node) (s : Serving) : Turn :=
  -- heartbeats keep their places on the clock, however late this one is taken
  let s := { s with nextTick := s.nextTick + pingInterval }
  if silenceLimit < now - s.lastSeen then
    s.startClose socket node .silence
  else
    { socket := socket.write (.ping [])
      task := .serving { s with write := some .ping }
      state := node }

def wake (now : Nat) (socket : Socket) (node : Node) (s : Serving) : Wakeup → Turn
  | .closed => s.startClose socket node .sessionEnd
  | .frame => s.readFrame now socket node
  | .payload => s.writePayload now socket node
  | .tick => s.tick now socket node

def written (socket : Socket) (node : Node) (s : Serving) : Write → Turn
  | .payload h _ =>
    { socket
      task := .serving { s with write := none }
      state := { node with post := { node.post with pool := node.post.pool.release h } } }
  | .ping => { socket, task := .serving { s with write := none }, state := node }
  | .close => s.finish socket node []

/-- Goes on with a write: it fails when the client is gone, and a payload that takes too long ends
the session. -/
def pursue? (now : Nat) (socket : Socket) (node : Node) (s : Serving) (w : Write) : Option Turn :=
  if socket.gone then some (s.finish socket node [])
  else if socket.isFlushed then some (s.written socket node w)
  else
    -- a ping or a close frame may wait for as long as the client stays
    match w with
    | .payload _ deadline =>
      if deadline ≤ now then
        some (s.finish socket node
          [warning s!"{s.session.describe} stopped reading for 10s, dropping it"])
      else none
    | _ => none

/-- The next step of the task, unless it has to wait. -/
def step? (now : Nat) (socket : Socket) (node : Node) (s : Serving) : Option Turn :=
  match s.write with
  -- during a write nothing else is looked at, not even that the session has been closed
  | some w => s.pursue? now socket node w
  | none => (order.find? (s.isReady now socket node)).map (s.wake now socket node)

/-- The next moment at which the task would act by itself. -/
def deadline? (s : Serving) : Option Nat :=
  match s.write with
  | none => some s.nextTick
  | some (.payload _ deadline) => some deadline
  | some _ => none

/-- A bound on the steps until the task has to wait: each reads a byte, takes a payload, passes a
heartbeat, or ends one of these. -/
def budget (now : Nat) (socket : Socket) (node : Node) (s : Serving) : Nat :=
  2 * (socket.reader.pending.length + (node.post.box s.session.slot).queue.length +
    (now + pingInterval - s.nextTick) / pingInterval) + 4

end Serving

def Task.step? (now : Nat) (socket : Socket) (node : Node) : Task → Option Turn
  | .refusing =>
    if socket.gone || socket.isFlushed then
      some { socket := socket.close, task := .finished, state := node }
    else none
  | .serving s => s.step? now socket node
  | .finished => none

def Task.deadline? : Task → Option Nat
  | .serving s => s.deadline?
  | _ => none

def Task.budget (now : Nat) (socket : Socket) (node : Node) : Task → Nat
  | .refusing => 1
  | .serving s => s.budget now socket node
  | .finished => 0

instance : ConnectionTask Node Task where
  step? := Task.step?
  deadline? := Task.deadline?
  budget := Task.budget

end Switchboard.Gateway
