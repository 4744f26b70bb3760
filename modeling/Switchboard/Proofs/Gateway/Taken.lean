import Switchboard.Gateway.Connection
import Switchboard.Proofs.Session.Counting
import Switchboard.Proofs.WebSocket.Pipe

/-!
# Taken — the steps that a task can take, written out

Several wakeups can be ready at once, and a task may take any of them, not only the first in order.
Each step comes to one of a few things, which are listed here once; what it writes to the client and
what becomes of the payloads are read off the list.
-/

namespace Switchboard.Gateway

open Session WebSocket

/-! ## 1. What scripts leave alone -/

theorem Node.post_mutate (node : Node) (op : IndexChange) :
    (node.mutate op).2.1.post = node.post := by
  unfold mutate
  split <;> rfl

theorem Node.post_regroup (node : Node) (op : GroupChange) :
    (node.regroup op).1.post = node.post := by
  unfold regroup
  split <;> rfl

namespace Script

theorem queue_close (post : Post) (s : SessionRef) (slot : Nat) :
    ((post.close s).box slot).queue = (post.box slot).queue := by
  rcases post.box_close_cases s slot with hsame | hclosed
  · rw [hsame]
  · rw [hclosed]

/-- A script only ever closes mailboxes, and leaves in them what was queued. -/
theorem queue_run (script : Script) (node : Node) (slot : Nat) :
    ((script.run node).1.post.box slot).queue = (node.post.box slot).queue := by
  induction script generalizing node with
  | done => rfl
  | find uid next ih => exact ih _ node
  | mutate op next ih =>
    have hnext := ih (node.mutate op).1 (node.mutate op).2.1
    rwa [node.post_mutate] at hnext
  | groupsOf s next ih => exact ih _ node
  | regroup op next ih =>
    have hnext := ih (node.regroup op).1
    rwa [node.post_regroup] at hnext
  | close s next ih => exact (ih _).trans (queue_close node.post s slot)

end Script

namespace Serving

variable {now : Nat} {socket : Socket} {node : Node} {v : Serving} {turn : Turn}

/-! ## 2. Steps -/

/-- A step that a task can take: one of the wakeups that are ready, or, during a write, to go on
with it. -/
def turn? (now : Nat) (socket : Socket) (node : Node) (v : Serving) : Option Wakeup → Option Turn
  | none => v.write.bind (v.pursue? now socket node)
  | some w =>
    if v.write = none ∧ v.isReady now socket node w = true then some (v.wake now socket node w)
    else none

/-- Why a task is over: the client is gone, or what it sent ends the connection, or the close frame
is out, or a payload has taken too long. -/
inductive Ending (now : Nat) (socket : Socket) (v : Serving) : Prop where
  | gone (h : socket.gone = true)
  | broken (hwrite : v.write = none) (hstarved : socket.reader.next ≠ .starved)
      (hnext : ∀ message reader, socket.reader.next = .frame message reader →
        ∃ reason, message = some (.close reason))
  | closed (hwrite : v.write = some .close) (hflushed : socket.isFlushed = true)
  | late {h : Handle} {deadline : Nat} (hwrite : v.write = some (.payload h deadline))
      (hflushed : socket.isFlushed = false) (hlate : deadline ≤ now)

/-- What a step of a task comes to. -/
inductive Taken (now : Nat) (socket : Socket) (node : Node) (v : Serving) :
    Option Wakeup → Turn → Prop where
  | part {reader : Reader} (hwrite : v.write = none)
      (hnext : socket.reader.next = .frame none reader) :
      Taken now socket node v (some .frame)
        { socket := { socket with reader }, task := .serving v, state := node }
  | heard {message : Message} {reader : Reader} (hwrite : v.write = none)
      (hnext : socket.reader.next = .frame (some message) reader)
      (hopen : ∀ reason, message ≠ .close reason) :
      Taken now socket node v (some .frame)
        { socket := { socket with reader }.reply message
          task := .serving { v with lastSeen := now }
          state := node }
  | payload {h : Handle} {rest : List Handle} (hwrite : v.write = none)
      (hqueue : (node.post.box v.session.slot).queue = h :: rest) :
      Taken now socket node v (some .payload)
        { socket := socket.write (.ofPayload (node.post.pool.bytes h))
          task := .serving { v with write := some (.payload h (now + writeLimit)) }
          state := { node with post := ⟨node.post.pool, node.post.boxes.modify v.session.slot
            fun m => { m with queue := rest }⟩ } }
  | ping (hwrite : v.write = none) (hdue : v.nextTick ≤ now)
      (hheard : now - v.lastSeen ≤ silenceLimit) :
      Taken now socket node v (some .tick)
        { socket := socket.write (.ping [])
          task := .serving { v with nextTick := v.nextTick + pingInterval, write := some .ping }
          state := node }
  | silence (hwrite : v.write = none) (hdue : v.nextTick ≤ now)
      (hsilent : silenceLimit < now - v.lastSeen) :
      Taken now socket node v (some .tick)
        { socket := socket.write Closing.silence.frame
          task := .serving { v with nextTick := v.nextTick + pingInterval, write := some .close }
          state := node }
  | closing (hwrite : v.write = none)
      (hcancelled : (node.post.box v.session.slot).cancelled = true) :
      Taken now socket node v (some .closed)
        { socket := socket.write Closing.sessionEnd.frame
          task := .serving { v with write := some .close }
          state := node }
  | written {w : Write} {pool : Pool} (hwrite : v.write = some w) (hclose : w ≠ .close)
      (hflushed : socket.isFlushed = true) (hpool : node.post.pool.Later pool) :
      Taken now socket node v none
        { socket
          task := .serving { v with write := none }
          state := { node with post := { node.post with pool } } }
  | ended {choice : Option Wakeup} (log : List LogLine) (hending : Ending now socket v) :
      Taken now socket node v choice (v.finish socket node log)

theorem taken_readFrame (hwrite : v.write = none)
    (hready : v.isReady now socket node .frame = true) :
    Taken now socket node v (some .frame) (v.readFrame now socket node) := by
  unfold readFrame
  split
  · next hnext =>
    -- with nothing to read it is the client that has gone
    have hgone : socket.gone = true := by simpa [isReady, hnext] using hready
    exact .ended [] (.gone hgone)
  · next fault hnext =>
    exact .ended [] (.broken hwrite (by simp [hnext]) fun message reader h => by simp [hnext] at h)
  · next reason reader hnext =>
    refine .ended [] (.broken hwrite (by simp [hnext]) fun message reader h => ⟨reason, ?_⟩)
    rw [hnext] at h
    exact (Reading.frame.inj h).1.symm
  · next reader hnext => exact .part hwrite hnext
  · next message reader hopen hnext =>
    exact .heard hwrite hnext fun reason h => hopen reason h

theorem taken_writePayload (hwrite : v.write = none)
    (hready : v.isReady now socket node .payload = true) :
    Taken now socket node v (some .payload)
      (v.writePayload now socket node) := by
  unfold writePayload
  cases hqueue : (node.post.box v.session.slot).queue with
  | nil => simp [isReady, hqueue] at hready
  | cons h rest =>
    rw [Post.receive_of_cons hqueue]
    exact .payload hwrite hqueue

theorem taken_tick (hwrite : v.write = none) (hready : v.isReady now socket node .tick = true) :
    Taken now socket node v (some .tick) (v.tick now socket node) := by
  have hdue : v.nextTick ≤ now := by simpa [isReady] using hready
  unfold tick
  dsimp only
  split
  · next hsilent => exact .silence hwrite hdue hsilent
  · next hheard => exact .ping hwrite hdue (Nat.le_of_not_lt hheard)

theorem taken_pursue? {w : Write} (hwrite : v.write = some w)
    (h : v.pursue? now socket node w = some turn) : Taken now socket node v none turn := by
  unfold pursue? at h
  split at h
  · next hgone =>
    obtain rfl := Option.some.inj h
    exact .ended [] (.gone hgone)
  split at h
  · next hflushed =>
    obtain rfl := Option.some.inj h
    cases w with
    | payload handle deadline =>
      exact .written hwrite nofun hflushed (Pool.later_release _ handle)
    | ping => exact .written hwrite nofun hflushed (Pool.Later.refl _)
    | close => exact .ended [] (.closed hwrite hflushed)
  · next hflushed =>
    split at h
    · split at h
      · next handle deadline hlate =>
        obtain rfl := Option.some.inj h
        exact .ended _ (.late hwrite (Bool.eq_false_iff.2 hflushed) hlate)
      · cases h
    · cases h

/-- Every step is one of those listed. -/
theorem taken_turn? {choice : Option Wakeup} (h : v.turn? now socket node choice = some turn) :
    Taken now socket node v choice turn := by
  cases choice with
  | none =>
    obtain ⟨w, hwrite, hpursue⟩ := Option.bind_eq_some_iff.1 h
    exact taken_pursue? hwrite hpursue
  | some w =>
    obtain ⟨⟨hwrite, hready⟩, hwake⟩ := Option.ite_none_right_eq_some.1 h
    obtain rfl := Option.some.inj hwake
    cases w with
    | closed => exact .closing hwrite hready
    | frame => exact taken_readFrame hwrite hready
    | payload => exact taken_writePayload hwrite hready
    | tick => exact taken_tick hwrite hready

/-- When its turn comes, a task takes the first of the steps that it can take. -/
theorem exists_turn? (h : v.step? now socket node = some turn) :
    ∃ choice, v.turn? now socket node choice = some turn := by
  unfold step? at h
  split at h
  · next w hwrite =>
    refine ⟨none, ?_⟩
    rw [turn?, hwrite]
    exact h
  · next hwrite =>
    obtain ⟨w, hfind, rfl⟩ := Option.map_eq_some_iff.1 h
    exact ⟨some w, if_pos ⟨hwrite, List.find?_some hfind⟩⟩

/-! ## 3. What a step leaves alone -/

/-- A task that goes on serves whom it served. -/
theorem Taken.session {choice : Option Wakeup} {v' : Serving}
    (h : Taken now socket node v choice turn) (htask : turn.task = .serving v') :
    v'.session = v.session := by
  cases h with
  | part | heard | payload | ping | silence | closing | written =>
    cases htask
    rfl
  | ended => cases htask

theorem Taken.finish {choice : Option Wakeup} (h : Taken now socket node v choice turn)
    (htask : turn.task = .finished) :
    Ending now socket v ∧ ∃ log, turn = v.finish socket node log := by
  cases h with
  | part | heard | payload | ping | silence | closing | written => cases htask
  | ended log hending => exact ⟨hending, log, rfl⟩

/-- A task that is writing can only go on when the write is over, or end. -/
theorem Taken.writing {choice : Option Wakeup} {w : Write}
    (h : Taken now socket node v choice turn) (hwrite : v.write = some w) :
    (w ≠ .close ∧ socket.isFlushed = true) ∨
      Ending now socket v ∧ ∃ log, turn = v.finish socket node log := by
  cases h with
  | part hnone | heard hnone | payload hnone | ping hnone | silence hnone | closing hnone =>
    rw [hnone] at hwrite
    cases hwrite
  | written hsome hclose hflushed =>
    obtain rfl := Option.some.inj (hsome.symm.trans hwrite)
    exact .inl ⟨hclose, hflushed⟩
  | ended log hending => exact .inr ⟨hending, log, rfl⟩

theorem gone_reply (socket : Socket) (m : Message) : (socket.reply m).gone = socket.gone := by
  cases m <;> rfl

theorem reader_reply (socket : Socket) (m : Message) : (socket.reply m).reader = socket.reader := by
  cases m <;> rfl

/-- A task never changes whether its client is there. -/
theorem Taken.gone {choice : Option Wakeup} (h : Taken now socket node v choice turn) :
    turn.socket.gone = socket.gone := by
  cases h with
  | heard => exact gone_reply _ _
  | part | payload | ping | silence | closing | written | ended => rfl

end Serving

end Switchboard.Gateway
