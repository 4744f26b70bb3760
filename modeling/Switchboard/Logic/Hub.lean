import Switchboard.Log
import Switchboard.Table
import Switchboard.Wire.Envelope

/-!
The hub of a logic node. Every frame goes to every link that is registered; a link takes it unless
it is cancelled, its receiver is gone, or its queue is full. A cancelled link leaves the hub when
its watcher runs, or when the next frame finds it.
-/

namespace Switchboard.Logic

/-- The queue between the hub and the stream of a link. -/
structure Link where
  name : String
  hostname : String
  capacity : Nat
  queue : List String := []
  cancelled : Bool := false
  receiving : Bool := true
  deriving DecidableEq, Repr, Inhabited

inductive Offer where
  | taken
  | full
  | cancelled
  | gone
  deriving DecidableEq, Repr, Inhabited

def Link.offer (l : Link) : Offer :=
  if l.cancelled then .cancelled
  else if !l.receiving then .gone
  else if l.queue.length < l.capacity then .taken
  else .full

/-- The greatest capacity that a queue can have. -/
def maxCapacity : Nat := 0x1fffffffffffffff

/-- Why no queue of that capacity can be made. -/
inductive CapacityFault where
  | zero
  | tooLarge
  deriving DecidableEq, Repr, Inhabited

def CapacityFault.message : CapacityFault → String
  | .zero => "mpsc bounded channel requires buffer > 0"
  | .tooLarge => s!"a semaphore may not have more than MAX_PERMITS permits ({maxCapacity})"

def checkCapacity (capacity : Nat) : Except CapacityFault Unit :=
  if capacity = 0 then .error .zero
  else if maxCapacity < capacity then .error .tooLarge
  else .ok ()

/-- All links by id, those that have left the hub included, and the ids of the registered ones in
ascending order. -/
structure Hub where
  links : Table UInt64 Link := .empty
  registered : List UInt64 := []
  lastId : UInt64 := 0

namespace Hub

instance : Inhabited Hub := ⟨{}⟩

/-- The link of an id; one that was never registered is cancelled and has no receiver. -/
def link (hub : Hub) (id : UInt64) : Link :=
  hub.links.getD id ⟨"", "", 0, [], true, false⟩

def register (hub : Hub) (name hostname : String) (capacity : Nat) : UInt64 × Hub :=
  let id := hub.lastId + 1
  (id,
    { links := hub.links.insert id { name, hostname, capacity }
      registered := hub.registered ++ [id]
      lastId := id })

def cancel (hub : Hub) (id : UInt64) : Hub :=
  { hub with links := hub.links.modify id fun l => { l with cancelled := true } }

/-- Takes a link out and cancels it; `false` when it was out already. -/
def remove (hub : Hub) (id : UInt64) : Bool × Hub :=
  if id ∈ hub.registered then
    (true, { hub.cancel id with registered := hub.registered.filter (· ≠ id) })
  else (false, hub)

/-- The watcher of a link runs: once the link is cancelled, it is taken out. -/
def watch (hub : Hub) (id : UInt64) : Hub :=
  if (hub.link id).cancelled then (hub.remove id).2 else hub

def settle (hub : Hub) : Hub := hub.registered.foldl watch hub

def shutdown (hub : Hub) : Hub := hub.registered.foldl cancel hub

/-- The receiver of a link goes, with the frames in its queue. -/
def dropReceiver (hub : Hub) (id : UInt64) : Hub :=
  { hub with links := hub.links.modify id fun l => { l with queue := [], receiving := false } }

def receive (hub : Hub) (id : UInt64) : Option String × Hub :=
  match (hub.link id).queue with
  | [] => (none, hub)
  | frame :: rest =>
    (some frame, { hub with links := hub.links.modify id fun l => { l with queue := rest } })

def size (hub : Hub) : Nat := hub.registered.length

/-- The links that are registered and not cancelled, by id. -/
def listed (hub : Hub) : List (UInt64 × Link) :=
  (hub.registered.map fun id => (id, hub.link id)).filter fun (_, l) => !l.cancelled

structure Sweep where
  hub : Hub
  reached : Nat := 0
  dead : List UInt64 := []
  log : List LogLine := []

def Sweep.step (frame : String) (sweep : Sweep) (id : UInt64) : Sweep :=
  let l := sweep.hub.link id
  match l.offer with
  | .taken =>
    { sweep with
      hub := { sweep.hub with
        links := sweep.hub.links.modify id fun l => { l with queue := l.queue ++ [frame] } }
      reached := sweep.reached + 1 }
  -- a link that is behind stays, without this frame
  | .full =>
    { sweep with
      log := sweep.log ++ [warning s!"gateway link {id} ({l.name}) is backed up, frame dropped"] }
  | .cancelled => { sweep with dead := sweep.dead ++ [id] }
  -- nobody reads from it any more, so it is cancelled at once
  | .gone => { sweep with hub := sweep.hub.cancel id, dead := sweep.dead ++ [id] }

/-- Offers a frame to every registered link, and takes out the links found dead. The number says
how many links took it. -/
def push (hub : Hub) (envelope : Wire.Envelope) : Nat × Hub × List LogLine :=
  let sweep := hub.registered.foldl (Sweep.step envelope.encode) { hub }
  -- links found dead stay registered until all have had their offer
  (sweep.reached, sweep.dead.foldl (fun hub id => (hub.remove id).2) sweep.hub, sweep.log)

end Hub

end Switchboard.Logic
