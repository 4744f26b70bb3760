import Switchboard.Proofs.Gateway.Orderly
import Switchboard.Proofs.Gateway.Taken
import Switchboard.Proofs.WebSocket.Reader

/-!
# Turn — what the task of one connection does to its node

A step of a task either leaves the registries alone and touches no mailbox but its own, or it is the
last one, and its session has departed: closed, out of the registries, and with nothing queued.
Every step uses up something, so there are only so many.
-/

namespace Switchboard.Gateway

open Session WebSocket

/-! ## 1. Staying and departing -/

namespace Node

/-- The nodes differ at most in payload handles and in what is queued in the mailbox of a slot. -/
structure SameBut (slot : Nat) (before after : Node) : Prop where
  index : after.index = before.index
  groups : after.groups = before.groups
  indexWriter : after.indexWriter = before.indexWriter
  groupWriter : after.groupWriter = before.groupWriter
  size : after.post.boxes.size = before.post.boxes.size
  box : ∀ k, k ≠ slot → after.post.box k = before.post.box k
  own : ∃ queue, after.post.box slot = { before.post.box slot with queue }

/-- A session has left the registries, and its mailbox is closed and empty. -/
structure Departed (s : SessionRef) (before after : Node) : Prop where
  index : after.index = before.index.remove s
  groups : after.groups = before.groups.unsubscribeAll s
  indexWriter : after.indexWriter = before.indexWriter
  groupWriter : after.groupWriter = before.groupWriter
  size : after.post.boxes.size = before.post.boxes.size
  box : ∀ k, k ≠ s.slot → after.post.box k = before.post.box k
  own : s.slot < before.post.boxes.size →
    (after.post.box s.slot).isClosed = true ∧ (after.post.box s.slot).queue = []

variable {slot : Nat} {s : SessionRef} {before middle after : Node}

theorem SameBut.refl (slot : Nat) (node : Node) : node.SameBut slot node :=
  ⟨rfl, rfl, rfl, rfl, rfl, fun _ _ => rfl, _, rfl⟩

theorem SameBut.trans (h : before.SameBut slot middle) (h' : middle.SameBut slot after) :
    before.SameBut slot after where
  index := h'.index.trans h.index
  groups := h'.groups.trans h.groups
  indexWriter := h'.indexWriter.trans h.indexWriter
  groupWriter := h'.groupWriter.trans h.groupWriter
  size := h'.size.trans h.size
  box k hk := (h'.box k hk).trans (h.box k hk)
  own := by
    obtain ⟨queue, hqueue⟩ := h.own
    obtain ⟨queue', hqueue'⟩ := h'.own
    exact ⟨queue', by rw [hqueue', hqueue]⟩

theorem SameBut.departed (h : before.SameBut s.slot middle) (h' : middle.Departed s after) :
    before.Departed s after where
  index := by rw [h'.index, h.index]
  groups := by rw [h'.groups, h.groups]
  indexWriter := h'.indexWriter.trans h.indexWriter
  groupWriter := h'.groupWriter.trans h.groupWriter
  size := h'.size.trans h.size
  box k hk := (h'.box k hk).trans (h.box k hk)
  own hslot := h'.own (h.size ▸ hslot)

/-- Handles may be given back at any time. -/
theorem sameBut_release (slot : Nat) (node : Node) (pool : Pool) :
    node.SameBut slot { node with post := { node.post with pool } } :=
  ⟨rfl, rfl, rfl, rfl, rfl, fun _ _ => rfl, _, rfl⟩

end Node

/-! ## 2. One step -/

def Task.session? : Task → Option SessionRef
  | .serving v => some v.session
  | _ => none

/-- What a task that serves a session comes to: it goes on with it, or it is over. -/
inductive Outcome (s : SessionRef) (node : Node) (turn : Turn) : Prop where
  | stays (htask : turn.task.session? = some s) (hnode : node.SameBut s.slot turn.state)
  | departs (htask : turn.task = .finished) (hnode : node.Departed s turn.state)

namespace Serving

variable {now : Nat} {socket : Socket} {node : Node} {v : Serving} {turn : Turn}

/-- The end of a task, written out. What becomes of the payload handles does not matter here. -/
theorem finish_eq (hindex : node.indexWriter = true) (hgroups : node.groupWriter = true)
    (log : List LogLine) :
    ∃ pool : Pool, v.finish socket node log =
      { socket := socket.close
        task := .finished
        state := { node with
          post := (Post.close ⟨pool, node.post.boxes⟩ v.session).dropReceiver v.session.slot
          index := node.index.remove v.session
          groups := node.groups.unsubscribeAll v.session }
        log := log ++ [] } := by
  have hleave : ∀ pool : Pool,
      (Script.leave v.session).run { node with post := ⟨pool, node.post.boxes⟩ } =
        ({ node with
          post := Post.close ⟨pool, node.post.boxes⟩ v.session
          index := node.index.remove v.session
          groups := node.groups.unsubscribeAll v.session }, []) := by
    intro pool
    have hindex' : ({ node with post := ⟨pool, node.post.boxes⟩ } : Node).indexWriter = true :=
      hindex
    exact Script.run_leave hindex' hgroups v.session
  unfold finish
  dsimp only
  -- whichever handles were given back before, the script finds the same registries
  rw [hleave]
  exact ⟨_, rfl⟩

theorem outcome_finish (hindex : node.indexWriter = true) (hgroups : node.groupWriter = true)
    (log : List LogLine) : Outcome v.session node (v.finish socket node log) := by
  obtain ⟨pool, hfinish⟩ := @finish_eq socket node v hindex hgroups log
  rw [hfinish]
  -- closing comes first, and then the receiver goes with the queue
  refine .departs rfl ⟨rfl, rfl, rfl, rfl, ?_, fun k hk => ?_, fun hslot => ?_⟩
  · exact (Post.size_dropReceiver _ _).trans (Post.size_close _ _)
  · exact (Post.box_dropReceiver_of_ne _ hk).trans (Post.box_close_of_ne _ hk)
  · have hclosed : v.session.slot <
        (Post.close ⟨pool, node.post.boxes⟩ v.session).boxes.size := by
      rw [Post.size_close]
      exact hslot
    have hbox := Post.box_dropReceiver_self hclosed
    refine ⟨?_, ?_⟩
    · show ((Post.dropReceiver _ _).box _).isClosed = true
      rw [hbox]
      exact Bool.or_true _
    · show ((Post.dropReceiver _ _).box _).queue = []
      rw [hbox]

theorem Taken.outcome {choice : Option Wakeup} (h : Taken now socket node v choice turn)
    (hindex : node.indexWriter = true) (hgroups : node.groupWriter = true) :
    Outcome v.session node turn := by
  cases h with
  | part | heard | ping | silence | closing => exact .stays rfl (.refl _ node)
  | written => exact .stays rfl (Node.sameBut_release _ node _)
  | ended log => exact outcome_finish hindex hgroups log
  | @payload handle rest hwrite hqueue =>
    -- the handle is now in the hands of the task
    have hslot : v.session.slot < node.post.boxes.size := Post.lt_size_of_queue (by simp [hqueue])
    refine .stays rfl ⟨rfl, rfl, rfl, rfl, Array.size_modify, fun k hk => ?_, ?_⟩
    · exact Post.box_modify_of_ne node.post hk _ _
    · exact ⟨rest, Post.box_modify_self hslot _ _⟩

/-! ## 3. How long a task can go on -/

/-- What a task can still wake up for: the bytes that have come, the payloads in its queue, and the
heartbeats that are due. -/
def due (now : Nat) (socket : Socket) (node : Node) (v : Serving) : Nat :=
  socket.reader.pending.length + (node.post.box v.session.slot).queue.length +
    (now + pingInterval - v.nextTick) / pingInterval

/-- A number that falls with every step. A wakeup uses up something that was due and starts one
write at most, whose end is one more step. -/
def left (now : Nat) (socket : Socket) (node : Node) (v : Serving) : Nat :=
  match v.write with
  | none => 2 * v.due now socket node + 2
  | some .close => 1
  | some (.payload _ _) | some .ping => 2 * v.due now socket node + 3

theorem left_le_budget : v.left now socket node ≤ v.budget now socket node := by
  have hbudget : v.budget now socket node = 2 * v.due now socket node + 4 := rfl
  rw [hbudget]
  unfold left
  split <;> omega

theorem left_pos : 0 < v.left now socket node := by
  unfold left
  split <;> omega

theorem left_of_none (h : v.write = none) :
    v.left now socket node = 2 * v.due now socket node + 2 := by
  unfold left
  rw [h]

end Serving

namespace Task

variable {now : Nat} {socket : Socket} {node : Node} {task : Task} {turn : Turn}

/-- A bound on the steps of any task. -/
def left (now : Nat) (socket : Socket) (node : Node) : Task → Nat
  | .refusing => 1
  | .serving v => v.left now socket node
  | .finished => 0

/-- What a step leaves is told by the task, its socket and the queue of its session. -/
def leftAfter (now : Nat) (turn : Turn) : Nat := turn.task.left now turn.socket turn.state

theorem left_le_budget : task.left now socket node ≤ task.budget now socket node := by
  cases task with
  | refusing => exact Nat.le_refl 1
  | serving v => exact Serving.left_le_budget
  | finished => exact Nat.le_refl 0

end Task

namespace Serving

variable {now : Nat} {socket : Socket} {node : Node} {v : Serving} {turn : Turn}

/-- Every step uses up something. -/
theorem Taken.left_lt {choice : Option Wakeup} (h : Taken now socket node v choice turn) :
    Task.leftAfter now turn < v.left now socket node := by
  cases h with
  | ended => exact left_pos
  | part hwrite hnext =>
    -- the bytes of the frame have been read
    have hpending := Reader.pending_next hnext
    show v.left now _ node < _
    rw [left_of_none hwrite, left_of_none hwrite]
    unfold due
    dsimp only
    omega
  | @heard message reader hwrite hnext hopen =>
    have hpending := Reader.pending_next hnext
    have hwrite' : ({ v with lastSeen := now } : Serving).write = none := hwrite
    show left now _ node { v with lastSeen := now } < _
    rw [left_of_none hwrite, left_of_none hwrite']
    unfold due
    rw [reader_reply]
    dsimp only
    omega
  | @payload handle rest hwrite hqueue =>
    have hslot : v.session.slot < node.post.boxes.size := Post.lt_size_of_queue (by simp [hqueue])
    rw [left_of_none hwrite]
    show 2 * due now _ _ _ + 3 < _
    unfold due
    dsimp only
    -- one payload less is queued, which pays for the write and its end
    rw [Post.box_modify_self hslot, hqueue, List.length_cons]
    show 2 * (socket.reader.pending.length + rest.length + _) + 3 < _
    omega
  | ping hwrite hdue hheard =>
    rw [left_of_none hwrite]
    show 2 * due now _ _ _ + 3 < _
    unfold due
    dsimp only
    -- the heartbeat that was due is not due any more
    have hticks : (now + pingInterval - (v.nextTick + pingInterval)) / pingInterval + 1 =
        (now + pingInterval - v.nextTick) / pingInterval := by
      unfold pingInterval
      omega
    show 2 * (socket.reader.pending.length + _ + _) + 3 < _
    omega
  | silence hwrite | closing hwrite =>
    rw [left_of_none hwrite]
    show 1 < _
    omega
  | @written w pool hwrite hclose hflushed hpool =>
    -- the end of a write is the one step that its start was counted for
    show left now socket _ { v with write := none } < _
    rw [left_of_none rfl]
    unfold left
    rw [hwrite]
    cases w with
    | payload | ping => exact Nat.lt_succ_self (2 * due now socket node v + 2)
    | close => exact absurd rfl hclose

end Serving

end Switchboard.Gateway
