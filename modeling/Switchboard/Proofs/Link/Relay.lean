import Switchboard.Link.Worker
import Switchboard.Logic.Routing
import Switchboard.Proofs.Gateway.Queueing
import Switchboard.Proofs.Logic.Fanout
import Switchboard.Proofs.Logic.Stream
import Switchboard.Proofs.Wire.Envelope

/-!
# Relay — from the hub over a link to the clients of a gateway

An envelope goes through the queue of its link, the connection, the worker of the gateway and the
queues of the sessions, and each of them is emptied by a task of its own. Whatever these do in which
order, every client gets its copies in the order in which the hub has accepted the envelopes.
-/

namespace Switchboard

open Gateway (Gesture Traffic)
open WebSocket (Message Pipe Socket texts texts_append)
open Wire (Envelope)

/-! ## 1. Events of the hub -/

namespace Logic

namespace Hub

/-- An event that neither makes a link nor reads from this one. -/
def Event.Spares (id : UInt64) : Event → Bool
  | .register _ _ _ => false
  | .receive id' | .dropReceiver id' => id' ≠ id
  | .cancel _ | .remove _ | .watch _ | .shutdown | .push _ => true

variable {hub : Hub} {id : UInt64}

theorem issuedBy_of_spares {e : Event} (h : e.Spares id = true) : hub.issuedBy e = [] := by
  cases e with
  | register => cases h
  | _ => rfl

/-- What an event leaves of a link that it does not read from. -/
theorem Coherent.spared (h : hub.Coherent) {e : Event} (hspares : e.Spares id = true) :
    ((hub.apply e).link id).queue = (hub.link id).queue ++ hub.acceptedBy id e ∧
      ((hub.apply e).link id).receiving = (hub.link id).receiving := by
  have hwithdrawn : ∀ {after : Hub}, Withdrawn hub after →
      (after.link id).queue = (hub.link id).queue ++ [] ∧
        (after.link id).receiving = (hub.link id).receiving := fun hw =>
    ⟨by rw [hw.queue, List.append_nil], hw.receiving id⟩
  cases e with
  | register => cases hspares
  | cancel id' => exact hwithdrawn (withdrawn_cancel hub id')
  | remove id' => exact hwithdrawn (withdrawn_remove hub id')
  | watch id' => exact hwithdrawn (withdrawn_watch hub id')
  | shutdown => exact hwithdrawn (withdrawn_shutdown hub)
  | push envelope =>
    have hpushed := h.pushed envelope
    refine ⟨?_, hpushed.receiving id⟩
    rw [Hub.apply, hpushed.queue, acceptedBy]
    split
    · rfl
    · rw [List.append_nil]
  | receive id' =>
    have hne : id' ≠ id := by simpa [Event.Spares] using hspares
    have hlink : (hub.receive id').2.link id = hub.link id := by
      cases hqueue : (hub.link id').queue with
      | nil => rw [receive_of_nil hqueue]
      | cons frame rest => rw [link_receive hqueue, if_neg (Ne.symm hne)]
    rw [Hub.apply, hlink]
    exact ⟨(List.append_nil _).symm, rfl⟩
  | dropReceiver id' =>
    have hne : id' ≠ id := by simpa [Event.Spares] using hspares
    rw [Hub.apply, link_dropReceiver, if_neg (Ne.symm hne)]
    exact ⟨(List.append_nil _).symm, rfl⟩

end Hub

end Logic

/-! ## 2. A relay -/

namespace Link

/-- A hub, the task behind one of its links, the connection, and the gateway at its other end. The
socket is the hub's end; what has come to the gateway waits in an inbox. -/
structure Relay where
  id : UInt64
  hub : Logic.Hub
  stream : Logic.Stream
  socket : Socket
  inbox : List Message := []
  worker : Worker
  traffic : Traffic
  /-- The envelopes that the hub has accepted on the link. -/
  accepted : List Envelope := []

namespace Relay

inductive Event where
  | hub (e : Logic.Hub.Event)
  | stream (choice : Option Logic.Wakeup)
  /-- What the gateway does at its end of the connection. -/
  | touch (gesture : Gesture)
  /-- What has passed through the connection comes to the gateway. -/
  | arrive
  /-- The worker takes the next message. -/
  | hear
  | signal (s : Signal)
  | gateway (e : Traffic.Event)
  deriving DecidableEq, Repr

/-- The envelope that a message carries, if it is the text of one. -/
def envelope? : Message → Option Envelope
  | .text s => (Envelope.ofText s).toOption
  | _ => none

/-- The envelope that an event of the hub puts into the queue of the link. -/
def acceptedBy (id : UInt64) (hub : Logic.Hub) : Logic.Hub.Event → List Envelope
  | .push envelope => if hub.Accepts id then [envelope] else []
  | _ => []

def pursue (r : Relay) (choice : Option Logic.Wakeup) : Relay :=
  match r.stream.turn? r.socket r.hub choice with
  | none => r
  | some turn => { r with hub := turn.state, stream := turn.task, socket := turn.socket }

def arrive (r : Relay) : Relay :=
  let (messages, pipe) := r.socket.pipe.take
  { r with inbox := r.inbox ++ messages, socket := { r.socket with pipe } }

/-- One envelope is seen to after the other. -/
def hear (r : Relay) : Relay :=
  match r.traffic.duty, r.inbox with
  | .free, m :: rest =>
    match r.worker.step? (r.traffic.now / 1000) r.traffic.node (.item (.message m)) with
    | none => r
    | some p =>
      { r with
        inbox := rest
        worker := p.worker
        traffic := ((envelope? m).map r.traffic.hear).getD r.traffic }
  | _, _ => r

/-- The connection is lost, or the worker is stopped. -/
def signal (r : Relay) (s : Signal) : Relay :=
  match s with
  | .item .ended | .item (.broken _) | .stop =>
    match r.worker.step? (r.traffic.now / 1000) r.traffic.node s with
    | none => r
    | some p => { r with worker := p.worker }
  | _ => r

/-- An event that cannot come now changes nothing. -/
def apply (r : Relay) : Event → Relay
  | .hub e =>
    if e.Spares r.id then
      { r with hub := r.hub.apply e, accepted := r.accepted ++ acceptedBy r.id r.hub e }
    else r
  | .stream choice => r.pursue choice
  | .touch gesture =>
    if r.socket.gone then r else { r with socket := gesture.onSocket r.socket }
  | .arrive => r.arrive
  | .hear => r.hear
  | .signal s => r.signal s
  | .gateway e => { r with traffic := r.traffic.apply e }

def after (r : Relay) (events : List Event) : Relay := events.foldl apply r

/-- A link that has just been made. Its pipe has held the answer to the upgrade, and has this much
room beyond; the pipes to the clients likewise. -/
def start (name hostname : String) (capacity linkRoom room : Nat) : Relay :=
  let (id, hub) := ({} : Logic.Hub).register name hostname capacity
  { id
    hub
    stream := .linked id none
    socket := { pipe := { capacity := Http.acceptSize Logic.answerHeaders + linkRoom } }
    worker := { phase := .streaming }
    traffic := { room } }

/-! ## 3. Envelopes on their way -/

/-- The frames that have left the queue of the link and were not heard yet. -/
def underWay (r : Relay) : List String := texts (r.inbox ++ r.socket.pipe.sent)

/-- What the hub has accepted was heard, is under way, or is in the queue of the link, and only what
was lost with the link is missing at the end. -/
structure Chained (r : Relay) : Prop where
  coherent : r.hub.Coherent
  stream : (∃ write, r.stream = .linked r.id write) ∨ r.stream = .finished
  chain : ∃ rest lost, r.accepted = r.traffic.heard ++ rest ∧
    rest.map Envelope.encode = r.underWay ++ (r.hub.link r.id).queue ++ lost ∧
    ((r.hub.link r.id).receiving = true → lost = [])
  inOrder : r.traffic.InOrder

variable {r r' : Relay}

/-- Frames move on from place to place. Their order stays, and some may be lost at the end. -/
theorem Chained.move (h : r.Chained) (hcoherent : r'.hub.Coherent)
    (hstream : (∃ write, r'.stream = .linked r'.id write) ∨ r'.stream = .finished)
    (haccepted : r'.accepted = r.accepted) (htraffic : r'.traffic = r.traffic)
    (hframes : ∃ lost, r'.underWay ++ (r'.hub.link r'.id).queue ++ lost =
        r.underWay ++ (r.hub.link r.id).queue ∧
      ((r'.hub.link r'.id).receiving = true →
        lost = [] ∧ (r.hub.link r.id).receiving = true)) : r'.Chained where
  coherent := hcoherent
  stream := hstream
  chain := by
    obtain ⟨rest, lost, hheard, hrest, hlost⟩ := h.chain
    obtain ⟨lost', hmoved, hlost'⟩ := hframes
    refine ⟨rest, lost' ++ lost, ?_, ?_, fun hr => ?_⟩
    · rw [haccepted, htraffic, hheard]
    · rw [hrest, ← hmoved, List.append_assoc _ lost']
    · rw [(hlost' hr).1, hlost (hlost' hr).2, List.append_nil]
  inOrder := htraffic ▸ h.inOrder

/-- Frames move on within the connection and the inbox. -/
theorem Chained.pass (h : r.Chained) {inbox : List Message} {socket : Socket}
    (hframes : texts (inbox ++ socket.pipe.sent) = r.underWay) :
    Chained { r with inbox, socket } :=
  h.move h.coherent h.stream rfl rfl
    ⟨[], by rw [underWay, hframes, List.append_nil], fun hr => ⟨rfl, hr⟩⟩

theorem Chained.hub (h : r.Chained) {e : Logic.Hub.Event} (hspares : e.Spares r.id = true) :
    Chained { r with
      hub := r.hub.apply e
      accepted := r.accepted ++ acceptedBy r.id r.hub e } where
  coherent := h.coherent.aged (h.coherent.aged_apply (Logic.Hub.issuedBy_of_spares hspares))
  stream := h.stream
  chain := by
    obtain ⟨hqueue, hreceiving⟩ := h.coherent.spared hspares
    obtain ⟨rest, lost, hheard, hrest, hlost⟩ := h.chain
    have hencode : (acceptedBy r.id r.hub e).map Envelope.encode = r.hub.acceptedBy r.id e := by
      cases e with
      | push envelope =>
        rw [acceptedBy, Logic.Hub.acceptedBy]
        split <;> rfl
      | _ => rfl
    refine ⟨rest ++ acceptedBy r.id r.hub e, lost, ?_, ?_, ?_⟩
    · rw [hheard, List.append_assoc]
    · rw [List.map_append, hrest, hencode, hqueue]
      by_cases hr : (r.hub.link r.id).receiving = true
      · rw [hlost hr, List.append_nil, List.append_nil, ← List.append_assoc]
        rfl
      -- a link that nobody reads from accepts nothing
      · have hnone : r.hub.acceptedBy r.id e = [] := by
          cases e with
          | push => exact if_neg fun haccepts => hr haccepts.2.2.1
          | _ => rfl
        rw [hnone, List.append_nil, List.append_nil]
        rfl
    · rw [hreceiving]
      exact hlost
  inOrder := h.inOrder

theorem Chained.pursue (h : r.Chained) (choice : Option Logic.Wakeup) :
    (r.pursue choice).Chained := by
  unfold Relay.pursue
  split
  · exact h
  · next turn hturn =>
    rcases h.stream with ⟨write, hstream⟩ | hstream
    · rw [hstream] at hturn
      have htaken := Logic.Stream.taken_turn? hturn
      cases htaken with
      | quiet hstate htask htexts =>
        refine h.move (hstate ▸ h.coherent) (.inl htask) rfl rfl ⟨[], ?_, fun hr => ⟨rfl, ?_⟩⟩
        · rw [underWay, hstate, texts_append, htexts, ← texts_append, List.append_nil]
          rfl
        · rwa [hstate] at hr
      | @frame frame rest hqueue =>
        have hlink := Logic.Hub.link_receive hqueue r.id
        rw [if_pos rfl] at hlink
        refine h.move (h.coherent.aged (Logic.Hub.aged_receive _ _)) (.inl ⟨some .frame, rfl⟩) rfl
          rfl ⟨[], ?_, fun hr => ⟨rfl, ?_⟩⟩
        · have hsent : (r.socket.write (.text frame)).pipe.sent =
              r.socket.pipe.sent ++ [.text frame] := Pipe.sent_write _ _
          rw [underWay, hlink, hsent, hqueue, ← List.append_assoc, texts_append _ [_],
            List.append_nil, List.append_assoc]
          rfl
        · rwa [hlink] at hr
      | ended log =>
        obtain ⟨hqueue, hreceiving⟩ := Logic.Stream.link_finish r.socket r.hub r.id log
        have hcoherent := ((h.coherent.aged (Logic.Hub.withdrawn_cancel r.hub r.id).toAged).aged
          (Logic.Hub.withdrawn_watch _ r.id).toAged).aged (Logic.Hub.aged_dropReceiver _ r.id)
        -- what is in front of the pipe goes, and so does the queue
        refine h.move hcoherent (.inr rfl) rfl rfl
          ⟨texts (r.socket.pipe.waiting.map Prod.fst) ++ (r.hub.link r.id).queue, ?_, fun hr => ?_⟩
        · have hsent : (Logic.Stream.finish r.socket r.hub r.id log).socket.pipe.sent =
              r.socket.pipe.arrived := List.append_nil _
          rw [underWay, hqueue, hsent, underWay, Pipe.sent]
          simp [texts_append]
        · rw [hreceiving] at hr
          cases hr
    · rw [hstream] at hturn
      cases hturn

theorem Chained.arrive (h : r.Chained) : r.arrive.Chained := by
  refine h.pass ?_
  rw [underWay, List.append_assoc]
  exact congrArg (fun sent => texts (r.inbox ++ sent)) r.socket.pipe.take_sent

/-- The worker hears the first of the envelopes that the gateway has not heard yet. -/
theorem Chained.hear (h : r.Chained) : r.hear.Chained := by
  unfold Relay.hear
  split
  · next m inbox hduty hinbox =>
    split
    · exact h
    · next p hstep =>
      obtain ⟨rest, lost, hheard, hrest, hlost⟩ := h.chain
      have hskip : envelope? m = none → texts [m] = [] → Chained { r with
          inbox
          worker := p.worker
          traffic := ((envelope? m).map r.traffic.hear).getD r.traffic } := by
        intro hnone htext
        rw [hnone]
        refine ⟨h.coherent, h.stream, ⟨rest, lost, hheard, ?_, hlost⟩, h.inOrder⟩
        rw [hrest, underWay, hinbox, List.cons_append, ← List.singleton_append, texts_append, htext]
        rfl
      cases m with
      | text s =>
        -- the text is that of the first envelope under way, and is read back as it
        rw [underWay, hinbox] at hrest
        obtain ⟨e, rest', rfl, hencode, hrest'⟩ := List.map_eq_cons_iff.1 hrest
        have henvelope : envelope? (.text s) = some e := by
          rw [envelope?, ← hencode, Envelope.ofText_encode]
          rfl
        rw [henvelope]
        refine ⟨h.coherent, h.stream, ⟨rest', lost, ?_, hrest', hlost⟩, h.inOrder.hear hduty e⟩
        rw [hheard, Option.map_some, Option.getD_some, Traffic.heard_hear, List.append_assoc]
        rfl
      | binary | ping | pong | close => exact hskip rfl rfl
  · exact h

theorem Chained.signal (h : r.Chained) (s : Signal) : (r.signal s).Chained := by
  have hworker : ∀ worker, Chained { r with worker } := fun worker =>
    ⟨h.coherent, h.stream, h.chain, h.inOrder⟩
  unfold Relay.signal
  split
  · split
    · exact h
    · exact hworker _
  · split
    · exact h
    · exact hworker _
  · split
    · exact h
    · exact hworker _
  · exact h

theorem Chained.gateway (h : r.Chained) (e : Traffic.Event) :
    Chained { r with traffic := r.traffic.apply e } where
  coherent := h.coherent
  stream := h.stream
  chain := by
    obtain ⟨rest, lost, hheard, hrest⟩ := h.chain
    refine ⟨rest, lost, ?_, hrest⟩
    rw [hheard, Traffic.heard_apply]
  inOrder := h.inOrder.apply e

theorem Chained.apply (h : r.Chained) (e : Event) : (r.apply e).Chained := by
  cases e with
  | hub e =>
    unfold Relay.apply
    dsimp only
    split
    · next hspares => exact h.hub hspares
    · exact h
  | stream choice => exact h.pursue choice
  | touch gesture =>
    unfold Relay.apply
    dsimp only
    split
    · exact h
    · exact h.pass (by rw [gesture.sent_onSocket]; rfl)
  | arrive => exact h.arrive
  | hear => exact h.hear
  | signal s => exact h.signal s
  | gateway e => exact h.gateway e

/-! ## 4. Whole runs -/

theorem chained_start (name hostname : String) (capacity linkRoom room : Nat) :
    (start name hostname capacity linkRoom room).Chained where
  coherent := Logic.Hub.coherent_empty.register (by decide) name hostname capacity
  stream := .inl ⟨none, rfl⟩
  chain := by
    refine ⟨[], [], rfl, ?_, fun _ => rfl⟩
    have hlink : (start name hostname capacity linkRoom room).hub.link 1 =
        { name, hostname, capacity } := Logic.Hub.link_register {} name hostname capacity 1
    show [] = [] ++ ((start name hostname capacity linkRoom room).hub.link 1).queue ++ []
    rw [hlink]
    rfl
  inOrder := Traffic.inOrder_start room

theorem Chained.after (h : r.Chained) (events : List Event) : (r.after events).Chained := by
  induction events generalizing r with
  | nil => exact h
  | cons e events ih => exact ih (h.apply e)

theorem traffic_signal (r : Relay) (s : Signal) : (r.signal s).traffic = r.traffic := by
  unfold signal
  split <;> first | rfl | (split <;> rfl)

/-- A session whose task has returned is out of everybody's reach. -/
theorem Chained.returned_apply (h : r.Chained) {slot : Nat} (hreturned : r.traffic.Returned slot)
    (e : Event) :
    (r.apply e).traffic.Returned slot ∧
      (r.apply e).traffic.connections slot = r.traffic.connections slot := by
  cases e with
  | hub e =>
    unfold Relay.apply
    dsimp only
    split <;> exact ⟨hreturned, rfl⟩
  | stream choice =>
    unfold Relay.apply Relay.pursue
    dsimp only
    split <;> exact ⟨hreturned, rfl⟩
  | touch gesture =>
    unfold Relay.apply
    dsimp only
    split <;> exact ⟨hreturned, rfl⟩
  | arrive => exact ⟨hreturned, rfl⟩
  | hear =>
    unfold Relay.apply Relay.hear
    dsimp only
    split
    · next m inbox hduty hinbox =>
      split
      · exact ⟨hreturned, rfl⟩
      · cases envelope? m with
        | none => exact ⟨hreturned, rfl⟩
        | some envelope => exact hreturned.hear envelope
    · exact ⟨hreturned, rfl⟩
  | signal s =>
    have htraffic : (r.apply (.signal s)).traffic = r.traffic := r.traffic_signal s
    rw [htraffic]
    exact ⟨hreturned, rfl⟩
  | gateway e => exact hreturned.apply h.inOrder e

theorem Chained.returned_after (h : r.Chained) {slot : Nat} (hreturned : r.traffic.Returned slot)
    (events : List Event) :
    (r.after events).traffic.Returned slot ∧
      (r.after events).traffic.connections slot = r.traffic.connections slot := by
  induction events generalizing r with
  | nil => exact ⟨hreturned, rfl⟩
  | cons e events ih =>
    obtain ⟨hstill, hsame⟩ := h.returned_apply hreturned e
    obtain ⟨hstill', hsame'⟩ := ih (h.apply e) hstill
    exact ⟨hstill', hsame'.trans hsame⟩

/-- In every run of a hub, a link and a gateway, whoever acts whenever: the data whose writing to a
client has begun are the first of what was queued for its session, in that order, and until its task
returns the rest still waits. The copies were queued in the order in which the hub has accepted the
envelopes that they come from, all of one before any of the next. When the task of the session
returns, what still waits is dropped, and nothing more is queued or written. -/
theorem delivered_in_order (name hostname : String) (capacity linkRoom room : Nat)
    (events : List Event) (slot : Nat) :
    let r := (start name hostname capacity linkRoom room).after events
    let c := r.traffic.connections slot
    c.diary.begun <+: c.diary.copies ∧
    (c.stage ≠ .gone → c.diary.copies = c.diary.begun ++ r.traffic.waiting slot) ∧
    (c.diary.queued.map Prod.fst).Pairwise (· ≤ ·) ∧
    (∀ e ∈ c.diary.queued, ∃ packet, r.accepted[e.1]? = some (.packet packet) ∧
      packet.payload = e.2) ∧
    (r.traffic.Returned slot → r.traffic.waiting slot = [] ∧
      ∀ more, (r.after more).traffic.waiting slot = [] ∧
        ((r.after more).traffic.connections slot).diary = c.diary) := by
  intro r c
  have hchained : r.Chained := (chained_start name hostname capacity linkRoom room).after events
  have hkept := hchained.inOrder.kept slot
  refine ⟨hkept.lossless.begun_prefix, hchained.inOrder.copies_eq, hkept.ordered, ?origin, ?ended⟩
  case origin =>
    intro e he
    obtain ⟨packet, hpacket, hbytes⟩ := hkept.origin e he
    obtain ⟨rest, -, hheard, -⟩ := hchained.chain
    exact ⟨packet, Gateway.getElem?_of_prefix (hheard ▸ List.prefix_append _ _) hpacket, hbytes⟩
  case ended =>
    intro hreturned
    refine ⟨hreturned.waiting_eq hchained.inOrder, fun more => ?_⟩
    obtain ⟨hstill, hsame⟩ := hchained.returned_after hreturned more
    exact ⟨hstill.waiting_eq (hchained.after more).inOrder,
      congrArg Gateway.Connection.diary hsame⟩

/-- A client connects, two packets come for it, and the first is written. -/
def notices : List Event :=
  [.gateway (.connect 7 100 "token" []), .gateway (.move (.job 0)), .gateway (.move .indexWriter),
    .gateway (.enter 0), .hub (.push (.packet (.forEveryone [97]))),
    .hub (.push (.packet (.forEveryone [98]))), .stream (some .queued), .stream none,
    .stream (some .queued), .stream none, .arrive, .hear, .gateway .copy, .gateway .conclude, .hear,
    .gateway .copy, .gateway .conclude, .gateway (.step 0 (some .payload))]

/-- The client goes, and its session is taken out. -/
def hangUp : List Event :=
  [.gateway (.touch 0 .drop), .gateway (.step 0 none), .gateway (.move (.job 1)),
    .gateway (.move (.job 1)), .gateway (.move .indexWriter), .gateway (.move (.job 1)),
    .gateway (.leave 0)]

def phone : Relay := start "gw" "host" 8 4096 4096

/-- The second packet waits until the client goes, and is never written. -/
theorem delivered_in_order_hangUp :
    ((phone.after notices).traffic.connections 0).diary.copies =
      [.text "a"] ++ (phone.after notices).traffic.waiting 0 ∧
    (phone.after notices).traffic.waiting 0 = [.text "b"] ∧
    (∃ packet, (phone.after notices).accepted[1]? = some (.packet packet) ∧
      packet.payload = [98]) ∧
    (phone.after (notices ++ hangUp)).traffic.waiting 0 = [] ∧
    ∀ more, (((phone.after (notices ++ hangUp)).after more).traffic.connections 0).diary.begun =
      [.text "a"] := by
  obtain ⟨-, hwaits, -, horigin, -⟩ := delivered_in_order "gw" "host" 8 4096 4096 notices 0
  obtain ⟨-, -, -, -, hover⟩ := delivered_in_order "gw" "host" 8 4096 4096 (notices ++ hangUp) 0
  rw [← phone] at hwaits horigin hover
  obtain ⟨hserving, hbegun, hsecond, hlast⟩ :
      ((phone.after notices).traffic.connections 0).stage ≠ .gone ∧
      ((phone.after notices).traffic.connections 0).diary.begun = [.text "a"] ∧
      (1, [98]) ∈ ((phone.after notices).traffic.connections 0).diary.queued ∧
      (phone.after notices).traffic.waiting 0 = [.text "b"] := by
    decide +kernel
  obtain ⟨hsize, hgone, hbegun'⟩ :
      0 < (phone.after (notices ++ hangUp)).traffic.node.post.boxes.size ∧
      ((phone.after (notices ++ hangUp)).traffic.connections 0).stage = .gone ∧
      ((phone.after (notices ++ hangUp)).traffic.connections 0).diary.begun = [.text "a"] := by
    decide +kernel
  have hreturned : (phone.after (notices ++ hangUp)).traffic.Returned 0 := ⟨hsize, hgone⟩
  obtain ⟨hdropped, hlater⟩ := hover hreturned
  have hpacket := horigin _ hsecond
  dsimp only at hpacket
  refine ⟨?_, hlast, hpacket, hdropped, fun more => ?_⟩
  · rw [← hbegun]
    exact hwaits hserving
  · exact (congrArg Gateway.Diary.begun (hlater more).2).trans hbegun'

end Relay

end Link

end Switchboard
