import Switchboard.Gateway.Request
import Switchboard.Wire.Envelope

/-!
Delivering what arrives over a link. A packet is queued once for each time that its targets name a
session; a command is carried out by the script of its request.
-/

namespace Switchboard.Gateway

open Session Wire

structure Delivery where
  post : Post
  count : Nat := 0
  log : List LogLine := []

namespace Delivery

/-- One target. A closed session is passed over, and one that fails to take its copy is closed. -/
def step (h : Handle) (d : Delivery) (s : SessionRef) : Delivery :=
  if d.post.isClosed s then d
  else
    match d.post.send s h with
    | (.ok (), post) => { d with post, count := d.count + 1 }
    | (.error fault, post) =>
      { d with
        post := post.close s
        log := d.log ++ [failure s!"failed to deliver to {s.describe}: {fault.message}"] }

end Delivery

/-- Queues the bytes on every target. The handle that the payload is made with is given back at the
end. -/
def distribute (post : Post) (targets : List SessionRef) (bytes : Bytes) : Delivery :=
  let (h, pool) := post.pool.create bytes
  let d := targets.foldl (Delivery.step h) { post := { post with pool } }
  { d with post := { d.post with pool := d.post.pool.release h } }

namespace Node

/-- The sessions that a packet is for, each as often as the packet names it. -/
def targets (node : Node) (packet : Packet) : List SessionRef :=
  match packet.kind with
  | .user => packet.targets.flatMap node.index.ofUser
  | .group => packet.targets.flatMap node.groups.members
  | .all => node.index.all

/-- Delivers a packet; the number says how many copies were queued. -/
def deliver (node : Node) (packet : Packet) : Nat × Node × List LogLine :=
  match node.targets packet with
  -- no payload is made for nobody
  | [] => (0, node, [])
  | targets =>
    let d := distribute node.post targets packet.payload
    (d.count, { node with post := d.post }, d.log)

def obey (node : Node) (command : Command) : Node × List LogLine :=
  match Request.ofCommand? command with
  | none => (node, [warning s!"dropping command of unknown kind {Text.quote command.kind}"])
  | some (.error fault) => (node, [failure s!"command {command.kind} failed: {fault.message}"])
  | some (.ok request) => request.script.run node

def accept (node : Node) : Envelope → Node × List LogLine
  | .packet packet => (node.deliver packet).2
  | .command command => node.obey command

end Node

end Switchboard.Gateway
