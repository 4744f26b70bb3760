import Switchboard.Proofs.Gateway.Turn

/-!
# Waiting — where the steps of a task lead

A task may take any step that it can take, and what that does to its node is one of a few things. A
task that has to wait can take none; one that takes the first of its steps each time comes to where
it has to wait within its budget. A task that waits for nothing but payloads never ends by writing
them.
-/

namespace Switchboard.Gateway

open Session WebSocket

/-! ## 1. The steps that a task can take -/

namespace Serving

variable {now : Nat} {socket : Socket} {node : Node} {v : Serving} {turn : Turn}

theorem not_isReady_of_idle (hwrite : v.write = none) (hidle : v.step? now socket node = none)
    (w : Wakeup) : v.isReady now socket node w = false := by
  unfold step? at hidle
  rw [hwrite] at hidle
  have hnone := List.find?_eq_none.1 (Option.map_eq_none_iff.1 hidle) w
  have hmem : w ∈ order := by cases w <;> decide
  exact Bool.eq_false_iff.2 (hnone hmem)

/-- When it has to wait, no wakeup is ready, and the write under way is not over. -/
theorem turn?_of_idle (hidle : v.step? now socket node = none) (choice : Option Wakeup) :
    v.turn? now socket node choice = none := by
  cases choice with
  | none =>
    cases hwrite : v.write with
    | none =>
      unfold turn?
      rw [hwrite]
      rfl
    | some w =>
      unfold step? at hidle
      rw [hwrite] at hidle
      unfold turn?
      rw [hwrite]
      exact hidle
  | some w =>
    refine if_neg fun hready => ?_
    rw [not_isReady_of_idle hready.1 hidle w] at hready
    exact Bool.false_ne_true hready.2

end Serving

namespace Task

variable {now : Nat} {socket : Socket} {node : Node} {task : Task} {turn : Turn}
  {choice : Option Wakeup} {s : SessionRef}

/-- A step that a task can take. All that a refused connection can do is to let go. -/
def turn? (now : Nat) (socket : Socket) (node : Node) (choice : Option Wakeup) :
    Task → Option Turn
  | .refusing => Task.step? now socket node .refusing
  | .serving v => v.turn? now socket node choice
  | .finished => none

/-- The only step of a refused connection lets go of it. -/
theorem step?_refusing {socket : Socket} {node : Node}
    (hstep : Task.step? now socket node .refusing = some turn) :
    turn.task = .finished ∧ turn.state = node ∧ turn.socket.gone = socket.gone := by
  have hstep' : (if socket.gone || socket.isFlushed then
      some { socket := socket.close, task := Task.finished, state := node } else none) =
        some turn := hstep
  split at hstep'
  · obtain rfl := Option.some.inj hstep'
    exact ⟨rfl, rfl, rfl⟩
  · cases hstep'

theorem exists_turn? (h : task.step? now socket node = some turn) :
    ∃ choice, task.turn? now socket node choice = some turn := by
  cases task with
  | refusing => exact ⟨none, h⟩
  | serving v => exact Serving.exists_turn? h
  | finished => cases h

theorem turn?_of_idle (hidle : task.step? now socket node = none) (choice : Option Wakeup) :
    task.turn? now socket node choice = none := by
  cases task with
  | refusing => exact hidle
  | serving v => exact Serving.turn?_of_idle hidle choice
  | finished => rfl

theorem outcome_turn? (htask : task.session? = some s) (hindex : node.indexWriter = true)
    (hgroups : node.groupWriter = true) (hturn : task.turn? now socket node choice = some turn) :
    Outcome s node turn := by
  cases task with
  | refusing => cases htask
  | finished => cases htask
  | serving v =>
    obtain rfl : v.session = s := Option.some.inj htask
    exact (Serving.taken_turn? hturn).outcome hindex hgroups

/-- A task that serves nobody does nothing to the node. -/
theorem turn?_of_session?_none (htask : task.session? = none)
    (hturn : task.turn? now socket node choice = some turn) :
    turn.task.session? = none ∧ turn.state = node := by
  cases task with
  | serving v => cases htask
  | finished => cases hturn
  | refusing =>
    have hstep : Task.step? now socket node .refusing = some turn := hturn
    obtain ⟨hover, hnode, -⟩ := step?_refusing hstep
    exact ⟨congrArg session? hover, hnode⟩

theorem gone_turn? (hturn : task.turn? now socket node choice = some turn) :
    turn.socket.gone = socket.gone := by
  cases task with
  | refusing =>
    have hstep : Task.step? now socket node .refusing = some turn := hturn
    exact (step?_refusing hstep).2.2
  | serving v => exact (Serving.taken_turn? hturn).gone
  | finished => cases hturn

/-- Every step uses up something. -/
theorem left_turn? (hturn : task.turn? now socket node choice = some turn) :
    leftAfter now turn < task.left now socket node := by
  cases task with
  | refusing =>
    have hstep : Task.step? now socket node .refusing = some turn := hturn
    unfold leftAfter
    rw [(step?_refusing hstep).1]
    exact Nat.zero_lt_one
  | serving v => exact (Serving.taken_turn? hturn).left_lt
  | finished => cases hturn

end Task

/-! ## 2. Up to where a task has to wait -/

section Settling

variable {now : Nat} {turn : Turn}

theorem settle_of_idle (hidle : turn.task.step? now turn.socket turn.state = none) (fuel : Nat) :
    turn.settle now fuel = turn := by
  have hidle' : ConnectionTask.step? now turn.socket turn.state turn.task = none := hidle
  cases fuel with
  | zero => rfl
  | succ fuel =>
    unfold WebSocket.Turn.settle
    rw [hidle']

theorem settle_of_step {next : Turn}
    (hstep : turn.task.step? now turn.socket turn.state = some next) (fuel : Nat) :
    turn.settle now (fuel + 1) =
      WebSocket.Turn.settle now fuel { next with log := turn.log ++ next.log } := by
  have hstep' : ConnectionTask.step? now turn.socket turn.state turn.task = some next := hstep
  rw [WebSocket.Turn.settle, hstep']

/-- With enough fuel a task comes to where it has to wait. -/
theorem idle_settle {fuel : Nat} (hfuel : Task.leftAfter now turn ≤ fuel) :
    (turn.settle now fuel).task.step? now (turn.settle now fuel).socket
      (turn.settle now fuel).state = none := by
  -- on the fuel, which is never less than the steps that are left
  induction fuel generalizing turn with
  | zero =>
    cases hstep : turn.task.step? now turn.socket turn.state with
    | none => exact hstep
    | some next =>
      obtain ⟨choice, hturn⟩ := Task.exists_turn? hstep
      have hless := Nat.lt_of_lt_of_le (Task.left_turn? hturn) hfuel
      exact absurd hless (Nat.not_lt_zero _)
  | succ fuel ih =>
    cases hstep : turn.task.step? now turn.socket turn.state with
    | none =>
      rw [settle_of_idle hstep]
      exact hstep
    | some next =>
      obtain ⟨choice, hturn⟩ := Task.exists_turn? hstep
      have hless : Task.leftAfter now next < fuel + 1 :=
        Nat.lt_of_lt_of_le (Task.left_turn? hturn) hfuel
      rw [settle_of_step hstep]
      exact ih (Nat.le_of_lt_succ hless)

theorem idle_run (turn : Turn) :
    (turn.run now).task.step? now (turn.run now).socket (turn.run now).state = none :=
  idle_settle Task.left_le_budget

end Settling

/-! ## 3. Tasks that wait -/

namespace Serving

variable {now : Nat} {socket : Socket} {node node' : Node} {v : Serving} {turn : Turn}
  {choice : Option Wakeup}

/-- A write is stuck, and its time is not over. -/
def Blocked (now : Nat) (socket : Socket) (v : Serving) : Prop :=
  ∃ w, v.write = some w ∧ socket.isFlushed = false ∧ ∀ h deadline, w = .payload h deadline →
    now < deadline

/-- Nothing but payloads can wake the task up, or have. -/
structure Quiet (now : Nat) (socket : Socket) (node : Node) (v : Serving) : Prop where
  cancelled : (node.post.box v.session.slot).cancelled = false
  starved : socket.reader.next = .starved
  early : now < v.nextTick
  write : v.write = none ∨ ∃ h deadline, v.write = some (.payload h deadline) ∧ now < deadline

/-- A task that cannot end without something else than payloads. -/
def Calm (now : Nat) (socket : Socket) (node : Node) (v : Serving) : Prop :=
  socket.gone = false ∧ (v.Blocked now socket ∨ v.Quiet now socket node)

/-- A task that waits is calm. -/
theorem calm_of_idle (hidle : v.step? now socket node = none) : v.Calm now socket node := by
  cases hwrite : v.write with
  | none =>
    -- nothing is ready: neither the end of the session, nor a frame, nor a heartbeat
    have hready := not_isReady_of_idle hwrite hidle
    have hclosed := hready .closed
    have hframe := hready .frame
    have htick := hready .tick
    unfold isReady at hclosed hframe htick
    dsimp only at hclosed hframe htick
    rw [Bool.or_eq_false_iff] at hframe
    refine ⟨hframe.1, .inr ⟨hclosed, ?_, ?_, .inl hwrite⟩⟩
    · exact Decidable.not_not.1 (of_decide_eq_false hframe.2)
    · exact Nat.lt_of_not_le (of_decide_eq_false htick)
  | some w =>
    -- the write is stuck, and if it has a deadline, that is still to come
    unfold step? at hidle
    rw [hwrite] at hidle
    dsimp only at hidle
    unfold pursue? at hidle
    split at hidle
    · cases hidle
    · next hgone =>
      split at hidle
      · cases hidle
      · next hflushed =>
        refine ⟨Bool.eq_false_iff.2 hgone, .inl ⟨w, hwrite, Bool.eq_false_iff.2 hflushed, ?_⟩⟩
        intro h deadline hw
        rw [hw] at hidle
        dsimp only at hidle
        split at hidle
        · cases hidle
        · next hearly => exact Nat.lt_of_not_le hearly

/-- Calm is lost only by closing the session. -/
theorem Calm.of_cancelled (h : v.Calm now socket node)
    (hbox : (node'.post.box v.session.slot).cancelled =
      (node.post.box v.session.slot).cancelled) : v.Calm now socket node' := by
  refine ⟨h.1, h.2.imp_right fun hquiet => ?_⟩
  exact ⟨hbox.trans hquiet.cancelled, hquiet.starved, hquiet.early, hquiet.write⟩

/-- Nothing that ends a task can happen to one that is calm. -/
theorem Calm.not_ending (h : v.Calm now socket node) : ¬ Ending now socket v := by
  obtain ⟨hthere, ⟨w, hwrite, hflushed, hearly⟩ | hquiet⟩ := h
  · -- a stuck write stays stuck
    rintro (hgone | hnone | ⟨-, hdone⟩ | ⟨hlate, -, hover⟩)
    · exact absurd hgone (Bool.eq_false_iff.1 hthere)
    · exact absurd (hwrite.symm.trans hnone) (Option.some_ne_none w)
    · exact absurd hdone (Bool.eq_false_iff.1 hflushed)
    · exact absurd hover (Nat.not_le_of_lt (hearly _ _ (Option.some.inj (hwrite.symm.trans hlate))))
  · -- a quiet task has nothing to read, and writes a payload at most
    rintro (hgone | ⟨-, hnext, -⟩ | ⟨hclose, -⟩ | ⟨hlate, -, hover⟩)
    · exact absurd hgone (Bool.eq_false_iff.1 hthere)
    · exact hnext hquiet.starved
    · rcases hquiet.write with hnone | ⟨handle, deadline, hsome, -⟩
      · exact absurd (hclose.symm.trans hnone) (Option.some_ne_none _)
      · exact absurd (hclose.symm.trans hsome) (by simp)
    · rcases hquiet.write with hnone | ⟨handle, deadline, hsome, hearly⟩
      · exact absurd (hlate.symm.trans hnone) (Option.some_ne_none _)
      · obtain ⟨rfl, rfl⟩ := Write.payload.inj (Option.some.inj (hlate.symm.trans hsome))
        exact absurd hover (Nat.not_le_of_lt hearly)

/-- A calm task that begins something is quiet. -/
theorem Calm.quiet (h : v.Calm now socket node) (hwrite : v.write = none) :
    v.Quiet now socket node := by
  refine h.2.resolve_left ?_
  rintro ⟨w, hsome, -⟩
  rw [hwrite] at hsome
  cases hsome

/-- Whatever step a calm task takes, it goes on, and stays calm. -/
theorem Calm.taken (h : v.Calm now socket node) (htaken : Taken now socket node v choice turn) :
    ∃ v' : Serving, turn.task = .serving v' ∧ v'.session = v.session ∧
      v'.Calm now turn.socket turn.state := by
  cases htaken with
  | ended log hending => exact absurd hending h.not_ending
  | part hwrite hnext => simp [(h.quiet hwrite).starved] at hnext
  | heard hwrite hnext => simp [(h.quiet hwrite).starved] at hnext
  | ping hwrite hdue => exact absurd hdue (Nat.not_le_of_lt (h.quiet hwrite).early)
  | silence hwrite hdue => exact absurd hdue (Nat.not_le_of_lt (h.quiet hwrite).early)
  | closing hwrite hcancelled => simp [(h.quiet hwrite).cancelled] at hcancelled
  | @payload handle rest hwrite hqueue =>
    -- the write has its deadline before it
    have hquiet := h.quiet hwrite
    have hslot : v.session.slot < node.post.boxes.size := Post.lt_size_of_queue (by simp [hqueue])
    refine ⟨_, rfl, rfl, h.1, .inr ⟨?_, hquiet.starved, hquiet.early, .inr ⟨handle, _, rfl, ?_⟩⟩⟩
    · show (Post.box (Post.mk _ _) _).cancelled = false
      rw [Post.box_modify_self hslot]
      exact hquiet.cancelled
    · exact Nat.lt_add_of_pos_right (by decide)
  | @written w pool hwrite hclose hflushed hpool =>
    obtain ⟨hthere, ⟨w', -, hstuck, -⟩ | hquiet⟩ := h
    · exact absurd hflushed (Bool.eq_false_iff.1 hstuck)
    · exact ⟨_, rfl, rfl, hthere,
        .inr ⟨hquiet.cancelled, hquiet.starved, hquiet.early, .inl rfl⟩⟩

/-- A task that is still there has its client. -/
theorem not_gone_of_idle (hidle : v.step? now socket node = none) : socket.gone = false :=
  (calm_of_idle hidle).1

/-- Whether a task has to wait is seen from the mailbox of its session. -/
theorem idle_of_box (hidle : v.step? now socket node = none)
    (hbox : node'.post.box v.session.slot = node.post.box v.session.slot) :
    v.step? now socket node' = none := by
  cases hwrite : v.write with
  | none =>
    have hready := not_isReady_of_idle hwrite hidle
    unfold step?
    rw [hwrite]
    refine Option.map_eq_none_iff.2 (List.find?_eq_none.2 fun w _ => ?_)
    -- of the node a wakeup only sees the mailbox
    have hsame : v.isReady now socket node' w = v.isReady now socket node w := by
      unfold isReady
      rw [hbox]
    rw [hsame]
    exact Bool.eq_false_iff.1 (hready w)
  | some w =>
    -- a write under way sees nothing of the node
    unfold step? pursue? at hidle ⊢
    rw [hwrite] at hidle ⊢
    dsimp only at hidle ⊢
    split at hidle
    · cases hidle
    · next hgone =>
      rw [if_neg hgone]
      split at hidle
      · cases hidle
      · next hflushed =>
        rw [if_neg hflushed]
        cases w with
        | payload handle deadline =>
          dsimp only at hidle ⊢
          split at hidle
          · cases hidle
          · next hearly => rw [if_neg hearly]
        | ping => rfl
        | close => rfl

end Serving

theorem Task.idle_of_box {now : Nat} {socket : Socket} {node node' : Node} {task : Task}
    (hidle : task.step? now socket node = none)
    (hbox : ∀ s, task.session? = some s → node'.post.box s.slot = node.post.box s.slot) :
    task.step? now socket node' = none := by
  cases task with
  | refusing =>
    have hidle' : (if socket.gone || socket.isFlushed then
        some ({ socket := socket.close, task := .finished, state := node } : Turn) else none) =
          none := hidle
    split at hidle'
    · cases hidle'
    · next hwait => exact if_neg hwait
  | serving v => exact Serving.idle_of_box hidle (hbox v.session rfl)
  | finished => rfl

end Switchboard.Gateway
