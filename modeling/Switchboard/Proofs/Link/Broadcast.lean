import Switchboard.Link.Worker
import Switchboard.Proofs.Gateway.Delivery
import Switchboard.Proofs.Logic.Hub
import Switchboard.Proofs.Text.Utf8
import Switchboard.Proofs.Wire.Envelope

/-!
# Broadcast — from the hub to the mailboxes of every gateway

A packet goes into the hub once and comes to every gateway as the same frame. Each gateway reads the
packet out of it and delivers it to its own sessions, so a session gets its copies wherever it is.
-/

namespace Switchboard

open Gateway Wire
open Session (SessionRef Handle)

namespace WebSocket

/-- The message has exactly these bytes, as a text if they spell one and as they are otherwise. -/
def Message.Carries (m : Message) (bytes : Bytes) : Prop :=
  (∃ s, m = .text s ∧ Text.Utf8.encode s = bytes) ∨
    (m = .binary bytes ∧ ∀ s, Text.Utf8.encode s ≠ bytes)

theorem Message.carries_ofPayload (bytes : Bytes) : (Message.ofPayload bytes).Carries bytes := by
  unfold Message.ofPayload
  cases hdecode : Text.Utf8.decode? bytes with
  | some s => exact .inl ⟨s, rfl, (Text.Utf8.decode?_eq_some_iff bytes s).1 hdecode⟩
  | none =>
    refine .inr ⟨rfl, fun s hs => ?_⟩
    rw [(Text.Utf8.decode?_eq_some_iff bytes s).2 hs] at hdecode
    cases hdecode

end WebSocket

namespace Link

open WebSocket (Message)

/-- A linked worker that hears the frame of a packet delivers the packet. -/
theorem Worker.step?_packet {w : Worker} (hphase : w.phase = .streaming) (now : Nat) (node : Node)
    (packet : Packet) :
    w.step? now node (.item (.message (.text (Envelope.encode (.packet packet))))) =
      some
        { worker := { w with retry := w.retry.afterMessage }
          node := (node.deliver packet).2.1
          notes := (node.deliver packet).2.2.map .line } := by
  obtain ⟨phase, retry⟩ := w
  obtain rfl : phase = .streaming := hphase
  show some (Worker.hear ⟨.streaming, retry⟩ node (Envelope.encode (.packet packet))) = _
  rw [hear, Envelope.ofText_encode]
  rfl

/-- Every link of the hub takes one frame of the packet. Behind each link, the worker of its gateway
reads the packet out of the frame and stays linked; every registered session there that takes
payloads then has as many copies more as the packet names it, closed sessions have no more than
before, and the message made of a copy has the bytes of the packet. -/
theorem broadcast_delivered {hub : Logic.Hub} (hnodup : hub.registered.Nodup)
    (htaken : ∀ id ∈ hub.registered, (hub.link id).offer = .taken)
    {worker : UInt64 → Worker} {node : UInt64 → Node} {known : UInt64 → SessionRef → Prop}
    (hstreaming : ∀ id ∈ hub.registered, (worker id).phase = .streaming)
    (hnode : ∀ id ∈ hub.registered, (node id).Recorded (known id)) (now : Nat) (packet : Packet) :
    (hub.push (.packet packet)).1 = hub.registered.length ∧
    ∀ id ∈ hub.registered, ∃ frame p,
      ((hub.push (.packet packet)).2.1.link id).queue = (hub.link id).queue ++ [frame] ∧
      (worker id).step? now (node id) (.item (.message (.text frame))) = some p ∧
      p.worker.phase = .streaming ∧
      (∀ s ∈ (node id).index.all, ((node id).post.box s.slot).takes = true →
        ∃ copies : List Handle,
          (p.node.post.box s.slot).queue = ((node id).post.box s.slot).queue ++ copies ∧
          copies.length = (node id).copies packet s ∧
          ∀ h ∈ copies, p.node.post.pool.bytes h = packet.payload ∧
            (Message.ofPayload (p.node.post.pool.bytes h)).Carries packet.payload) ∧
      ∀ s, (node id).post.isClosed s = true →
        p.node.post.box s.slot = (node id).post.box s.slot := by
  -- one frame for each link, and behind each link one delivery
  have hpush := Logic.Hub.push_of_taken hnodup htaken (.packet packet)
  refine ⟨hpush.1, fun id hid => ?_⟩
  have hdelivered := (hnode id hid).delivered packet
  refine ⟨Envelope.encode (.packet packet), _, ?_,
    Worker.step?_packet (hstreaming id hid) now (node id) packet, hstreaming id hid, ?_,
    hdelivered.closed⟩
  · rw [hpush.2.2 id, if_pos hid]
    rfl
  · intro s hs htakes
    obtain ⟨copies, hqueue, hlength, hbytes⟩ := hdelivered.taking s hs htakes
    refine ⟨copies, hqueue, hlength, fun h hh => ⟨hbytes h hh, ?_⟩⟩
    show (Message.ofPayload (((node id).deliver packet).2.1.post.pool.bytes h)).Carries _
    rw [hbytes h hh]
    exact Message.carries_ofPayload packet.payload

/-- A hub with two gateways. -/
def pairedHub : Logic.Hub :=
  ((({} : Logic.Hub).register "east" "host-a" 4).2.register "west" "host-b" 4).2

theorem pairedHub_takes :
    ∀ id ∈ pairedHub.registered, (pairedHub.link id).offer = .taken := by
  intro id hid
  have hregistered : pairedHub.registered = [1, 2] := by decide
  rw [hregistered, List.mem_pair] at hid
  rcases hid with rfl | rfl
  · decide
  · decide

/-- A gateway whose one session is in group 10. -/
def loungeNode : Node :=
  ((Script.enter ⟨0, 1, 100, "token"⟩ [10]).run (({} : Node).openSession 1 100 "token" false).2).1

theorem loungeNode_recorded : loungeNode.Recorded (· = ⟨0, 1, 100, "token"⟩) where
  distinct := ⟨fun _ _ hs ht _ => hs.trans ht.symm, fun _ _ hs ht _ => hs.trans ht.symm⟩
  index := ⟨[.add ⟨0, 1, 100, "token"⟩], rfl, fun _ hs => List.mem_singleton.1 hs⟩
  groups := ⟨[.subscribe ⟨0, 1, 100, "token"⟩ [10]], rfl, fun op hop => by
    rw [List.mem_singleton.1 hop]
    rfl⟩

/-- Group 10 is named twice, so its session gets two copies. -/
theorem broadcast_delivered_lounge :
    (pairedHub.push (.packet (.forGroups [10, 20, 10] [0, 255]))).1 = 2 ∧
    ∃ frame p,
      ((pairedHub.push (.packet (.forGroups [10, 20, 10] [0, 255]))).2.1.link 2).queue = [frame] ∧
      Worker.step? 0 ⟨.streaming, {}⟩ loungeNode (.item (.message (.text frame))) = some p ∧
      ∃ copies : List Handle, (p.node.post.box 0).queue = copies ∧ copies.length = 2 ∧
        ∀ h ∈ copies, p.node.post.pool.bytes h = [0, 255] := by
  obtain ⟨hreached, heach⟩ := @broadcast_delivered pairedHub (by decide) pairedHub_takes
    (fun _ => ⟨.streaming, {}⟩) (fun _ => loungeNode) (fun _ => (· = ⟨0, 1, 100, "token"⟩))
    (fun _ _ => rfl) (fun _ _ => loungeNode_recorded) 0 (.forGroups [10, 20, 10] [0, 255])
  obtain ⟨frame, p, hqueue, hstep, -, htaking, -⟩ := heach 2 (by decide)
  obtain ⟨copies, hbox, hlength, hbytes⟩ :=
    htaking ⟨0, 1, 100, "token"⟩ (by decide) (by decide)
  exact ⟨hreached, frame, p, hqueue, hstep, copies, hbox, hlength, fun h hh => (hbytes h hh).1⟩

end Link

end Switchboard
