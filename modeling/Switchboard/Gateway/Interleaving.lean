import Switchboard.Gateway.Script

/-!
Tasks of a gateway side by side. A mutation that a task hands in waits in the queue of its writer
until the writer takes it, and the task waits for that; in between all others may act. A schedule is
a list of moves, of which each must be possible when its turn comes.
-/

namespace Switchboard.Gateway

open Session

/-- What a task is at: an action of its script is next, or a writer owes it an answer. -/
inductive Job where
  | ready (script : Script)
  | awaitingIndex (next : List SessionRef → Script)
  | awaitingGroups (next : Script)
  | abandoned

/-- A node, its tasks, and the mutations that wait for the writers, each with its task. -/
structure Crowd where
  node : Node
  jobs : List Job
  indexQueue : List (Nat × IndexChange) := []
  groupQueue : List (Nat × GroupChange) := []
  log : List LogLine := []

/-- Who acts next. A task may also be dropped, which leaves what it has handed in. -/
inductive Move where
  | job (i : Nat)
  | indexWriter
  | groupWriter
  | abandon (i : Nat)
  deriving DecidableEq, Repr, Inhabited

namespace Crowd

/-- Tasks that are about to carry out their scripts. -/
def ofScripts (node : Node) (scripts : List Script) : Crowd where
  node
  jobs := scripts.map .ready

def setJob (c : Crowd) (i : Nat) (job : Job) : Crowd := { c with jobs := c.jobs.set i job }

/-- The next action of a task. A mutation for a writer that has stopped is dropped at once. -/
def act (c : Crowd) (i : Nat) : Script → Option Crowd
  | .done => none
  | .find uid next => some (c.setJob i (.ready (next (c.node.index.ofUser uid))))
  | .groupsOf s next => some (c.setJob i (.ready (next (c.node.groups.groupsOf s))))
  | .close s next =>
    some ({ c with node := { c.node with post := c.node.post.close s } }.setJob i (.ready next))
  | .mutate op next =>
    -- the mutation waits for its writer, and the task for the answer
    if c.node.indexWriter then
      some ({ c with indexQueue := c.indexQueue ++ [(i, op)] }.setJob i (.awaitingIndex next))
    else
      let (answer, node, log) := c.node.mutate op
      some ({ c with node, log := c.log ++ log }.setJob i (.ready (next answer)))
  | .regroup op next =>
    if c.node.groupWriter then
      some ({ c with groupQueue := c.groupQueue ++ [(i, op)] }.setJob i (.awaitingGroups next))
    else
      let (node, log) := c.node.regroup op
      some ({ c with node, log := c.log ++ log }.setJob i (.ready next))

/-- The writer of the index takes the next mutation and answers its task, if that still waits. -/
def writeIndex (c : Crowd) : Option Crowd :=
  match c.indexQueue with
  | [] => none
  | (i, op) :: rest =>
    let (answer, node, log) := c.node.mutate op
    let c : Crowd := { c with node, indexQueue := rest, log := c.log ++ log }
    match c.jobs[i]? with
    -- the mutation of a dropped task is carried out, only its answer reaches nobody
    | some (.awaitingIndex next) => some (c.setJob i (.ready (next answer)))
    | _ => some c

/-- The writer of the groups takes the next mutation and tells its task, if that still waits. -/
def writeGroups (c : Crowd) : Option Crowd :=
  match c.groupQueue with
  | [] => none
  | (i, op) :: rest =>
    let (node, log) := c.node.regroup op
    let c : Crowd := { c with node, groupQueue := rest, log := c.log ++ log }
    match c.jobs[i]? with
    | some (.awaitingGroups next) => some (c.setJob i (.ready next))
    | _ => some c

def move? (c : Crowd) : Move → Option Crowd
  | .job i =>
    match c.jobs[i]? with
    | some (.ready script) => c.act i script
    | _ => none
  | .indexWriter => c.writeIndex
  | .groupWriter => c.writeGroups
  | .abandon i => if i < c.jobs.length then some (c.setJob i .abandoned) else none

def follow? (c : Crowd) (schedule : List Move) : Option Crowd := schedule.foldlM move? c

def IsDone (c : Crowd) (i : Nat) : Prop := c.jobs[i]? = some (.ready .done)

def IsDrained (c : Crowd) : Prop := c.indexQueue = [] ∧ c.groupQueue = []

end Crowd

end Switchboard.Gateway
