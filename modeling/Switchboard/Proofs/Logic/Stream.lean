import Switchboard.Logic.Stream
import Switchboard.Proofs.Logic.Hub
import Switchboard.Proofs.WebSocket.Pipe

/-!
# Stream — the steps of the task behind a link, written out

Whatever the task does next, it writes the frame that is first in the queue of its link, or ends, or
does nothing to the frames. What else it writes are answers to pings, which are no texts.
-/

namespace Switchboard

/-! ## 1. Texts -/

namespace WebSocket

/-- The texts among messages. Only these are frames of the hub. -/
def texts (messages : List Message) : List String :=
  messages.filterMap fun
    | .text s => some s
    | _ => none

@[simp] theorem texts_append (messages more : List Message) :
    texts (messages ++ more) = texts messages ++ texts more :=
  List.filterMap_append

theorem texts_reply (socket : Socket) (message : Message) :
    texts (socket.reply message).pipe.sent = texts socket.pipe.sent := by
  cases message with
  | ping bytes =>
    rw [Socket.reply, Socket.write, Pipe.sent_write, texts_append]
    exact List.append_nil _
  | text | binary | pong | close => rfl

theorem texts_close (socket : Socket) (reason : Option (UInt16 × String)) :
    texts (socket.write (.close reason)).pipe.sent = texts socket.pipe.sent := by
  rw [Socket.write, Pipe.sent_write, texts_append]
  exact List.append_nil _

end WebSocket

/-! ## 2. Steps -/

namespace Logic.Stream

open WebSocket (Socket texts texts_close texts_reply)

/-- A step that the task of a link can take: one of the wakeups that are ready, or, during a write,
to go on with it. -/
def turn? (socket : Socket) (hub : Hub) : Stream → Option Wakeup → Option Turn
  | .linked id (some w), none => pursue? socket hub id w
  | .linked id none, some w =>
    if isReady socket hub id w = true then some (wake socket hub id w) else none
  | _, _ => none

variable {socket : Socket} {hub : Hub} {id : UInt64} {write : Option LinkWrite} {turn : Turn}

/-- What a step of the task comes to: it writes the first frame of its queue, it ends, or it is
nothing to the frames. -/
inductive Taken (socket : Socket) (hub : Hub) (id : UInt64) : Turn → Prop where
  | quiet {turn : Turn} (hstate : turn.state = hub)
      (htask : ∃ write, turn.task = .linked id write)
      (htexts : texts turn.socket.pipe.sent = texts socket.pipe.sent) : Taken socket hub id turn
  | frame {frame : String} {rest : List String} (hqueue : (hub.link id).queue = frame :: rest) :
      Taken socket hub id
        { socket := socket.write (.text frame)
          task := .linked id (some .frame)
          state := (hub.receive id).2 }
  | ended (log : List LogLine) : Taken socket hub id (finish socket hub id log)

theorem taken_wake {w : Wakeup} (hready : isReady socket hub id w = true) :
    Taken socket hub id (wake socket hub id w) := by
  cases w with
  | cancelled => exact .quiet rfl ⟨some .close, rfl⟩ (texts_close socket none)
  | queued =>
    unfold wake
    cases hqueue : (hub.link id).queue with
    | nil =>
      rw [Hub.receive_of_nil hqueue]
      exact .ended []
    | cons frame rest =>
      have hframe : Taken socket hub id _ := .frame hqueue
      rw [Hub.receive_of_cons hqueue] at hframe ⊢
      exact hframe
  | frame =>
    unfold wake
    dsimp only
    split
    · exact .ended []
    · exact .ended []
    · exact .ended []
    · exact .quiet rfl ⟨none, rfl⟩ rfl
    · next message reader _ _ => exact .quiet rfl ⟨none, rfl⟩ (texts_reply _ message)

theorem taken_written (socket : Socket) (hub : Hub) (id : UInt64) (w : LinkWrite) :
    Taken socket hub id (written socket hub id w) := by
  cases w with
  | frame =>
    unfold written
    dsimp only
    split
    · exact .ended _
    · exact .quiet rfl ⟨none, rfl⟩ rfl
  | close => exact .ended []

theorem taken_turn? {choice : Option Wakeup}
    (h : turn? socket hub (.linked id write) choice = some turn) : Taken socket hub id turn := by
  cases write with
  | some w =>
    cases choice with
    | none =>
      obtain ⟨-, hwritten⟩ := Option.ite_none_right_eq_some.1 h
      obtain rfl := Option.some.inj hwritten
      exact taken_written socket hub id w
    | some _ => cases h
  | none =>
    cases choice with
    | none => cases h
    | some w =>
      obtain ⟨hready, hwake⟩ := Option.ite_none_right_eq_some.1 h
      obtain rfl := Option.some.inj hwake
      exact taken_wake hready

/-- The queue of a link goes with its task. -/
theorem link_finish (socket : Socket) (hub : Hub) (id : UInt64) (log : List LogLine) :
    ((finish socket hub id log).state.link id).queue = [] ∧
      ((finish socket hub id log).state.link id).receiving = false := by
  have hlink := Hub.link_dropReceiver ((hub.cancel id).watch id) id id
  rw [if_pos rfl] at hlink
  exact ⟨congrArg Link.queue hlink, congrArg Link.receiving hlink⟩

end Logic.Stream

end Switchboard
