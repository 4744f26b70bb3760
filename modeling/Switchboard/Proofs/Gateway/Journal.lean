import Mathlib.Logic.Function.Basic
import Switchboard.Proofs.Gateway.Operations
import Switchboard.Proofs.Gateway.Taken

/-!
# Journal — a gateway step by step, and what it has done for each session

An endpoint lets all tasks settle after each operation. Here they do not: an act is one step of one
task, a client that does something, an envelope that arrives, or time that passes, in any order.
The journal keeps, for every session, what has come from its client, what was queued for it and what
was written to it, each with the time or with the number of the envelope that it came from.
-/

namespace Switchboard.Gateway

open Session WebSocket

/-! ## 1. Acts -/

/-- What a client can do. -/
inductive Gesture where
  | send (bytes : Bytes)
  | stall
  | resume
  | drop
  deriving DecidableEq, Repr

/-- A client and the task behind it after a gesture. -/
def Gesture.apply (c : Client Task) : Gesture → Client Task
  | .send bytes => { c with socket := c.socket.receive bytes }
  | .stall => c.stall
  | .resume => c.resume
  | .drop => { c with socket := c.socket.drop }

inductive Act where
  /-- A client is admitted, and its session enters the registries. -/
  | join (name : String) (id : UInt64) (uid : Int64) (token : String) (gids : List Int64)
  /-- The task of a client takes a step: one of its wakeups, or it goes on with its write. -/
  | step (name : String) (choice : Option Wakeup)
  | touch (name : String) (gesture : Gesture)
  /-- A packet or a command comes over a link. -/
  | accept (envelope : Wire.Envelope)
  /-- Time passes, but not beyond the moment at which some task acts by itself. -/
  | pass (span : Nat)
  deriving DecidableEq, Repr

/-- What has been done for a session. Copies that were queued come with the number of their
envelope, messages that were written with the time at which the write began. -/
structure Diary where
  opened : Nat := 0
  arrivals : List Nat := []
  queued : List (Nat × Bytes) := []
  sent : List (Nat × Message) := []
  deriving DecidableEq, Repr

namespace Diary

def arrive (d : Diary) (now : Nat) : Diary := { d with arrivals := d.arrivals ++ [now] }

def enqueue (d : Diary) (number : Nat) (payloads : List Bytes) : Diary :=
  { d with queued := d.queued ++ payloads.map fun bytes => (number, bytes) }

def write (d : Diary) (now : Nat) (messages : List Message) : Diary :=
  { d with sent := d.sent ++ messages.map fun m => (now, m) }

@[simp] theorem write_nil (d : Diary) (now : Nat) : d.write now [] = d := by simp [write]

@[simp] theorem enqueue_nil (d : Diary) (number : Nat) : d.enqueue number [] = d := by
  simp [enqueue]

end Diary

/-- Only what a client sends is noted. -/
def Gesture.note (now : Nat) (d : Diary) : Gesture → Diary
  | .send _ => d.arrive now
  | .stall | .resume | .drop => d

@[simp] theorem Gesture.sent_note (gesture : Gesture) (now : Nat) (d : Diary) :
    (gesture.note now d).sent = d.sent := by
  cases gesture <;> rfl

@[simp] theorem Gesture.queued_note (gesture : Gesture) (now : Nat) (d : Diary) :
    (gesture.note now d).queued = d.queued := by
  cases gesture <;> rfl

/-- A gateway with the sessions that it has ever had, the envelopes that it has accepted, and a
diary for each slot. -/
structure Journal where
  endpoint : Endpoint Node Task
  sessions : List SessionRef := []
  heard : List Wire.Envelope := []
  diary : Nat → Diary := fun _ => {}

/-- The client of a name and what its task is at, if it serves a session. -/
def served? (e : Endpoint Node Task) (name : String) : Option (Client Task × Serving) :=
  match e.clients.get? name with
  | none => none
  | some c =>
    match c.task with
    | .serving v => some (c, v)
    | .refusing | .finished => none

namespace Journal

def now (j : Journal) : Nat := j.endpoint.now

def node (j : Journal) : Node := j.endpoint.state

def box (j : Journal) (s : SessionRef) : Mailbox := j.node.post.box s.slot

/-- A task that begins now. The first heartbeat is due at once. -/
def beginning (j : Journal) (s : SessionRef) : Serving where
  session := s
  lastSeen := j.now
  nextTick := j.now

def visitor (j : Journal) (s : SessionRef) : Client Task where
  socket := { pipe := { capacity := j.endpoint.pipeSize } }
  task := .serving (j.beginning s)
  unseen := [.response 101 []]

/-- A new session, registered and in its groups, and the task that serves it. -/
def join (j : Journal) (name : String) (id : UInt64) (uid : Int64) (token : String)
    (gids : List Int64) : Journal :=
  let (s, opened) := j.node.openSession id uid token false
  let (node, log) := (Script.enter s gids).run opened
  { endpoint := { j.endpoint with
      state := node
      clients := j.endpoint.clients.insert name (j.visitor s)
      log := j.endpoint.log ++ log }
    sessions := j.sessions ++ [s]
    heard := j.heard
    diary := Function.update j.diary s.slot { opened := j.now } }

/-- The task of a client has taken a step. -/
def take (j : Journal) (name : String) (c : Client Task) (v : Serving) (turn : Turn) : Journal :=
  let written := Pipe.sentSince c.socket.pipe turn.socket.pipe
  { j with
    endpoint := { j.endpoint with
      state := turn.state
      clients := j.endpoint.clients.insert name { c with socket := turn.socket, task := turn.task }
      log := j.endpoint.log ++ turn.log }
    diary := Function.update j.diary v.session.slot
      ((j.diary v.session.slot).write j.now written) }

def touch (j : Journal) (name : String) (v : Serving) (gesture : Gesture) : Journal :=
  { j with
    endpoint := { j.endpoint with
      clients := j.endpoint.clients.modify name fun c => gesture.apply c }
    diary := Function.update j.diary v.session.slot
      (gesture.note j.now (j.diary v.session.slot)) }

/-- The node has accepted an envelope. What has come to a queue is what is behind its old end. -/
def hand (j : Journal) (envelope : Wire.Envelope) (node : Node) (log : List LogLine) : Journal :=
  { j with
    endpoint := { j.endpoint with state := node, log := j.endpoint.log ++ log }
    heard := j.heard ++ [envelope]
    diary := fun slot =>
      let new := (node.post.box slot).queue.drop (j.node.post.box slot).queue.length
      (j.diary slot).enqueue j.heard.length (new.map node.post.pool.bytes) }

def accept (j : Journal) (envelope : Wire.Envelope) : Journal :=
  j.hand envelope (j.node.accept envelope).1 (j.node.accept envelope).2

/-- The clock after a time, which some task may cut short. -/
def clock (j : Journal) (span : Nat) : Nat :=
  match j.endpoint.deadline? with
  | some d => max j.now (min (j.now + span) d)
  | none => j.now + span

def pass (j : Journal) (span : Nat) : Journal :=
  { j with endpoint := { j.endpoint with now := j.clock span } }

/-- A name or an id that is taken, a step that the task cannot take, and bytes from a client that
has gone change nothing. -/
def act (j : Journal) : Act → Journal
  | .join name id uid token gids =>
    if (served? j.endpoint name).isNone ∧ ∀ s ∈ j.sessions, s.id ≠ id then
      j.join name id uid token gids
    else j
  | .step name choice =>
    match served? j.endpoint name with
    | none => j
    | some (c, v) =>
      match v.turn? j.now c.socket j.node choice with
      | none => j
      | some turn => j.take name c v turn
  | .touch name gesture =>
    match served? j.endpoint name with
    | none => j
    | some (c, v) => if c.socket.gone then j else j.touch name v gesture
  | .accept envelope => j.accept envelope
  | .pass span => j.pass span

/-- A gateway that starts without clients. The pipe to a client holds the answer to its upgrade,
since nobody joins without, and has this much room beyond. -/
def start (room : Nat) : Journal :=
  { endpoint := { state := {}, pipeSize := Http.acceptSize [] + room } }

def after (j : Journal) (acts : List Act) : Journal := acts.foldl act j

theorem after_append (j : Journal) (acts more : List Act) :
    j.after (acts ++ more) = (j.after acts).after more :=
  List.foldl_append

theorem after_concat (j : Journal) (acts : List Act) (a : Act) :
    j.after (acts ++ [a]) = (j.after acts).act a :=
  j.after_append acts [a]

end Journal

/-! ## 2. Whom a client's task serves -/

section Served

variable {e : Endpoint Node Task} {name : String} {c : Client Task} {v : Serving} {s : SessionRef}

theorem served?_eq_some_iff :
    served? e name = some (c, v) ↔ e.clients.get? name = some c ∧ c.task = .serving v := by
  unfold served?
  cases hget : e.clients.get? name with
  | none => simp
  | some c' =>
    dsimp only
    constructor
    · intro h
      split at h
      · next v' htask =>
        obtain ⟨rfl, rfl⟩ := Prod.mk.inj (Option.some.inj h)
        exact ⟨rfl, htask⟩
      · cases h
      · cases h
    · rintro ⟨hc, htask⟩
      obtain rfl := Option.some.inj hc
      rw [htask]

theorem handsOf_of_served (h : served? e name = some (c, v)) :
    handsOf e name = some v.session := by
  obtain ⟨hget, htask⟩ := served?_eq_some_iff.1 h
  rw [handsOf_of_some hget, htask]
  rfl

theorem served_of_handsOf (h : handsOf e name = some s) :
    ∃ c v, served? e name = some (c, v) ∧ v.session = s := by
  obtain ⟨c, hget, hs⟩ := Option.bind_eq_some_iff.1 h
  cases htask : c.task with
  | serving v =>
    rw [htask] at hs
    exact ⟨c, v, served?_eq_some_iff.2 ⟨hget, htask⟩, Option.some.inj hs⟩
  | refusing => simp [htask, Task.session?] at hs
  | finished => simp [htask, Task.session?] at hs

theorem handsOf_eq_none_iff : handsOf e name = none ↔ served? e name = none := by
  constructor
  · intro h
    cases hserved : served? e name with
    | none => rfl
    | some served => simp [handsOf_of_served hserved] at h
  · intro h
    cases hs : handsOf e name with
    | none => rfl
    | some s =>
      obtain ⟨c, v, hserved, -⟩ := served_of_handsOf hs
      simp [h] at hserved

end Served

/-- What an act comes to. -/
inductive Acted (j : Journal) : Act → Journal → Prop where
  | join {name : String} {id : UInt64} {uid : Int64} {token : String} {gids : List Int64}
      (hfree : served? j.endpoint name = none) (hid : ∀ s ∈ j.sessions, s.id ≠ id) :
      Acted j (.join name id uid token gids) (j.join name id uid token gids)
  | step {name : String} {choice : Option Wakeup} {c : Client Task} {v : Serving} {turn : Turn}
      (hserved : served? j.endpoint name = some (c, v))
      (htaken : v.Taken j.now c.socket j.node choice turn) :
      Acted j (.step name choice) (j.take name c v turn)
  | touch {name : String} {gesture : Gesture} {c : Client Task} {v : Serving}
      (hserved : served? j.endpoint name = some (c, v)) (hthere : c.socket.gone = false) :
      Acted j (.touch name gesture) (j.touch name v gesture)
  | accept {envelope : Wire.Envelope} : Acted j (.accept envelope) (j.accept envelope)
  | pass {span : Nat} : Acted j (.pass span) (j.pass span)
  | idle {a : Act} : Acted j a j

theorem Journal.acted (j : Journal) (a : Act) : Acted j a (j.act a) := by
  cases a with
  | join name id uid token gids =>
    unfold act
    dsimp only
    split
    · next hnew => exact .join (Option.isNone_iff_eq_none.1 hnew.1) hnew.2
    · exact .idle
  | step name choice =>
    unfold act
    dsimp only
    split
    · exact .idle
    · next c v hserved =>
      split
      · exact .idle
      · next turn hturn => exact .step hserved (Serving.taken_turn? hturn)
  | touch name gesture =>
    unfold act
    dsimp only
    split
    · exact .idle
    · next c v hserved =>
      split
      · exact .idle
      · next hthere => exact .touch hserved (Bool.eq_false_iff.2 hthere)
  | accept envelope => exact .accept
  | pass span => exact .pass

/-! ## 3. Commands and packets -/

namespace Node

variable {node : Node} {hands : Hands} {sessions kicked : List SessionRef} {s : SessionRef}

/-- A command is carried out by a script, or changes nothing. -/
theorem obey_cases (node : Node) (command : Wire.Command) :
    (∃ request, Request.ofCommand? command = some (.ok request) ∧
      node.obey command = request.script.run node) ∨
    ((∀ request, Request.ofCommand? command ≠ some (.ok request)) ∧
      (node.obey command).1 = node) := by
  unfold obey
  split
  · next hnone => exact .inr ⟨by simp [hnone], rfl⟩
  · next fault herror => exact .inr ⟨by simp [herror], rfl⟩
  · next request hok => exact .inl ⟨request, hok, rfl⟩

/-- A command queues nothing. -/
theorem queue_obey (node : Node) (command : Wire.Command) (slot : Nat) :
    ((node.obey command).1.post.box slot).queue = (node.post.box slot).queue := by
  rcases node.obey_cases command with ⟨request, -, hrun⟩ | ⟨-, hsame⟩
  · rw [hrun, Script.queue_run]
  · rw [hsame]

theorem Keeps.accept (h : node.Keeps hands sessions kicked) (envelope : Wire.Envelope) :
    ∃ kicked', (node.accept envelope).1.Keeps hands sessions kicked' := by
  cases envelope with
  | packet packet => exact ⟨kicked, h.deliver packet⟩
  | command command =>
    rcases node.obey_cases command with ⟨request, -, hrun⟩ | ⟨-, hsame⟩
    · refine ⟨kicked ++ request.detached sessions, ?_⟩
      rw [Node.accept, hrun]
      exact request.keeps_script h
    · refine ⟨kicked, ?_⟩
      rw [Node.accept, hsame]
      exact h

/-- No command but a kick of its user touches the mailbox of a session. -/
theorem Keeps.box_obey (h : node.Keeps hands sessions kicked) {command : Wire.Command}
    (hs : s ∈ sessions) (hkick : Request.ofCommand? command ≠ some (.ok (.kick s.uid))) :
    (node.obey command).1.post.box s.slot = node.post.box s.slot := by
  rcases node.obey_cases command with ⟨request, hrequest, hrun⟩ | ⟨-, hsame⟩
  · rw [hrun]
    cases request with
    | subscribe uid gids => rw [Request.script, Script.run_subscribeUser h.orderly.groupWriter]
    | unsubscribe uid gids => rw [Request.script, Script.run_unsubscribeUser h.orderly.groupWriter]
    | kick uid =>
      have huid : s.uid ≠ uid := by
        rintro rfl
        exact hkick hrequest
      exact (Request.kick uid).box_script h hs huid
  · rw [hsame]

end Node

/-! ## 4. The sessions of a gateway -/

namespace Journal

variable {j : Journal} {name : String} {c : Client Task} {v : Serving} {turn : Turn}
  {choice : Option Wakeup}

/-- The registries and the tasks fit the sessions that the gateway has had. -/
def Sound (j : Journal) : Prop :=
  ∃ kicked, j.node.Keeps (handsOf j.endpoint) j.sessions kicked

theorem sound_start (room : Nat) : (start room).Sound := ⟨[], Node.keeps_empty⟩

theorem handsOf_take (j : Journal) (name n : String) (c : Client Task) (v : Serving) (turn : Turn) :
    handsOf (j.take name c v turn).endpoint n =
      if n = name then turn.task.session? else handsOf j.endpoint n :=
  handsOf_place turn.state _

theorem Sound.outcome (h : j.Sound) (htaken : v.Taken j.now c.socket j.node choice turn) :
    Outcome v.session j.node turn := by
  obtain ⟨kicked, hkeeps⟩ := h
  exact htaken.outcome hkeeps.orderly.indexWriter hkeeps.orderly.groupWriter

theorem Sound.take (h : j.Sound) (hserved : served? j.endpoint name = some (c, v))
    (htaken : v.Taken j.now c.socket j.node choice turn) : (j.take name c v turn).Sound := by
  have houtcome := h.outcome htaken
  obtain ⟨kicked, hkeeps⟩ := h
  obtain ⟨hc, htask⟩ := served?_eq_some_iff.1 hserved
  have hs : c.task.session? = some v.session := congrArg Task.session? htask
  exact ⟨kicked, (advances_reached hkeeps hc hs houtcome htaken.gone).keeps⟩

theorem handsOf_touch (j : Journal) (name : String) (v : Serving) (gesture : Gesture) :
    handsOf (j.touch name v gesture).endpoint = handsOf j.endpoint := by
  refine handsOf_alter fun c => ?_
  cases gesture <;> rfl

/-- The new session has the next slot. -/
def newcomer (j : Journal) (id : UInt64) (uid : Int64) (token : String) : SessionRef :=
  (j.node.openSession id uid token false).1

theorem Sound.join (h : j.Sound) (hfree : served? j.endpoint name = none) {id : UInt64}
    (hid : ∀ s ∈ j.sessions, s.id ≠ id) (uid : Int64) (token : String) (gids : List Int64) :
    (j.join name id uid token gids).Sound := by
  obtain ⟨kicked, hkeeps⟩ := h
  refine ⟨kicked, hkeeps.enter rfl hid gids (handsOf_eq_none_iff.2 hfree) ?_ fun n hn => ?_⟩
  · exact (handsOf_place _ _).trans (if_pos rfl)
  · exact (handsOf_place _ _).trans (if_neg hn)

theorem Sound.act (h : j.Sound) (a : Act) : (j.act a).Sound := by
  have hacted := j.acted a
  generalize j.act a = j' at hacted ⊢
  cases hacted with
  | join hfree hid => exact h.join hfree hid _ _ _
  | step hserved htaken => exact h.take hserved htaken
  | touch hserved hthere =>
    obtain ⟨kicked, hkeeps⟩ := h
    refine ⟨kicked, ?_⟩
    rw [handsOf_touch]
    exact hkeeps
  | accept =>
    obtain ⟨kicked, hkeeps⟩ := h
    exact hkeeps.accept _
  | pass => exact h
  | idle => exact h

theorem Sound.after (h : j.Sound) (acts : List Act) : (j.after acts).Sound := by
  induction acts using List.reverseRecOn with
  | nil => exact h
  | append_singleton acts a ih =>
    rw [after_concat]
    exact ih.act a

end Journal

end Switchboard.Gateway
