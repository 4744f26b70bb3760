import Mathlib.Logic.Function.Basic
import Switchboard.Proofs.Gateway.Closing
import Switchboard.Proofs.Gateway.Journal

/-!
# Traffic — a gateway on which everything goes on at once

In a journal the arrival of a session, its end, and whatever an envelope asks for are single acts.
Here they are not: a connection comes and goes by a script, a packet is queued target by target, and
all others may act between any two of these actions. When nobody does, the outcome is that of the
single act.
-/

namespace Switchboard.Gateway

open Session WebSocket

/-! ## 1. Jobs -/

namespace Crowd

def spawn (c : Crowd) (script : Script) : Crowd := { c with jobs := c.jobs ++ [.ready script] }

/-- The script of a job has come to its end. -/
def hasDone (c : Crowd) (i : Nat) : Bool :=
  match c.jobs[i]? with
  | some (.ready .done) => true
  | _ => false

theorem hasDone_of_jobs {c : Crowd} {i : Nat} (h : c.jobs[i]? = some (.ready .done)) :
    c.hasDone i = true := by
  unfold hasDone
  rw [h]

end Crowd

/-! ## 2. Connections -/

/-- What a connection is at: on its way in or out there is a script for it among the jobs. -/
inductive Stage where
  | entering (s : SessionRef) (job : Nat)
  | serving (v : Serving)
  | leaving (job : Nat)
  | gone
  deriving DecidableEq, Repr

structure Connection where
  socket : Socket
  stage : Stage
  diary : Diary
  deriving DecidableEq, Repr

/-- A slot that nobody has been given. -/
def Connection.none : Connection := ⟨{ pipe := { capacity := 0 } }, .gone, {}⟩

def Gesture.onSocket (socket : Socket) : Gesture → Socket
  | .send bytes => socket.receive bytes
  | .stall => { socket with pipe := socket.pipe.stall }
  | .resume => { socket with pipe := socket.pipe.resume }
  | .drop => socket.drop

/-- No gesture takes anything out of the pipe. -/
theorem Gesture.sent_onSocket (gesture : Gesture) (socket : Socket) :
    (gesture.onSocket socket).pipe.sent = socket.pipe.sent := by
  cases gesture with
  | send | stall | drop => rfl
  | resume => exact Pipe.sent_flush _

/-- What is in the hands of a task that leaves its loop is given back. -/
def Serving.letGo (v : Serving) (pool : Pool) : Pool :=
  match v.write with
  | some (.payload h _) => pool.release h
  | _ => pool

/-! ## 3. Events -/

/-- What the link has the gateway do. The copies of a packet have its number. -/
inductive Duty where
  | free
  | queueing (number : Nat) (h : Handle) (targets : List SessionRef)
  | obeying (job : Nat)
  deriving DecidableEq, Repr

/-- A gateway with a connection for each slot and the envelopes that it has heard. -/
structure Traffic where
  crowd : Crowd := { node := {}, jobs := [] }
  /-- Bytes that the pipe to a client holds beyond the answer to its upgrade. -/
  room : Nat
  now : Nat := 0
  connections : Nat → Connection := fun _ => .none
  heard : List Wire.Envelope := []
  duty : Duty := .free

namespace Traffic

inductive Event where
  /-- A client is admitted, and the script that registers its session begins. -/
  | connect (id : UInt64) (uid : Int64) (token : String) (gids : List Int64)
  /-- The session is registered, and its task enters its loop. -/
  | enter (slot : Nat)
  | step (slot : Nat) (choice : Option Wakeup)
  | touch (slot : Nat) (gesture : Gesture)
  /-- The session is out of the registries, and its task returns. -/
  | leave (slot : Nat)
  | move (m : Move)
  /-- The next target of a packet has its turn. -/
  | copy
  /-- There is nothing left to do for an envelope. -/
  | conclude
  | pass (span : Nat)
  deriving DecidableEq, Repr

def node (t : Traffic) : Node := t.crowd.node

def withNode (t : Traffic) (node : Node) : Traffic := { t with crowd := { t.crowd with node } }

def withPost (t : Traffic) (post : Post) : Traffic := t.withNode { t.node with post }

def setConnection (t : Traffic) (slot : Nat) (c : Connection) : Traffic :=
  { t with connections := Function.update t.connections slot c }

def connect (t : Traffic) (id : UInt64) (uid : Int64) (token : String) (gids : List Int64) :
    Traffic :=
  let (s, opened) := t.node.openSession id uid token false
  { t with crowd := { t.crowd with node := opened }.spawn (.enter s gids) }.setConnection s.slot
    { socket := { pipe := { capacity := Http.acceptSize [] + t.room } }
      stage := .entering s t.crowd.jobs.length
      diary := { opened := t.now } }

/-- A task enters its loop. The first heartbeat is due at once. -/
def welcome (t : Traffic) (slot : Nat) (s : SessionRef) : Traffic :=
  t.setConnection slot { t.connections slot with stage := .serving ⟨s, t.now, t.now, none⟩ }

def enter (t : Traffic) (slot : Nat) : Traffic :=
  match (t.connections slot).stage with
  | .entering s job => if t.crowd.hasDone job then t.welcome slot s else t
  | _ => t

/-- A task goes on with its loop. -/
def goOn (t : Traffic) (slot : Nat) (turn : Turn) (v : Serving) : Traffic :=
  let c := t.connections slot
  (t.withNode turn.state).setConnection slot
    { socket := turn.socket
      stage := .serving v
      diary := c.diary.write t.now (Pipe.sentSince c.socket.pipe turn.socket.pipe) }

/-- A task leaves its loop, and the script that takes its session out begins. -/
def depart (t : Traffic) (slot : Nat) (v : Serving) : Traffic :=
  let node : Node := { t.node with post := { t.node.post with pool := v.letGo t.node.post.pool } }
  { t with crowd := { t.crowd with node }.spawn (.leave v.session) }.setConnection slot
    { t.connections slot with stage := .leaving t.crowd.jobs.length }

def step (t : Traffic) (slot : Nat) (choice : Option Wakeup) : Traffic :=
  match (t.connections slot).stage with
  | .serving v =>
    match v.turn? t.now (t.connections slot).socket t.node choice with
    | none => t
    | some turn =>
      match turn.task with
      | .serving v' => t.goOn slot turn v'
      | .refusing | .finished => t.depart slot v
  | _ => t

def gesture (t : Traffic) (slot : Nat) (gesture : Gesture) : Traffic :=
  let c := t.connections slot
  t.setConnection slot
    { c with socket := gesture.onSocket c.socket, diary := gesture.note t.now c.diary }

def touch (t : Traffic) (slot : Nat) (gesture : Gesture) : Traffic :=
  let c := t.connections slot
  if c.stage = .gone ∨ c.socket.gone then t else t.gesture slot gesture

/-- A task returns, and its queue goes with it. -/
def retire (t : Traffic) (slot : Nat) : Traffic :=
  let c := t.connections slot
  (t.withPost (t.node.post.dropReceiver slot)).setConnection slot
    { c with socket := c.socket.close, stage := .gone }

def leave (t : Traffic) (slot : Nat) : Traffic :=
  match (t.connections slot).stage with
  | .leaving job => if t.crowd.hasDone job then t.retire slot else t
  | _ => t

def move (t : Traffic) (m : Move) : Traffic :=
  match t.crowd.move? m with
  | none => t
  | some crowd => { t with crowd }

/-- The gateway hears an envelope. No payload is made for nobody. -/
def hear (t : Traffic) (envelope : Wire.Envelope) : Traffic :=
  let t' := { t with heard := t.heard ++ [envelope] }
  match envelope with
  | .packet packet =>
    match t.node.targets packet with
    | [] => t'
    | targets =>
      let (h, pool) := t.node.post.pool.create packet.payload
      { t'.withPost { t.node.post with pool } with duty := .queueing t.heard.length h targets }
  | .command command =>
    match Request.ofCommand? command with
    | some (.ok request) =>
      { t' with crowd := t.crowd.spawn request.script, duty := .obeying t.crowd.jobs.length }
    | _ => t'

/-- A target of a packet has its turn; what it takes is noted. -/
def copyTo (t : Traffic) (number : Nat) (h : Handle) (s : SessionRef)
    (targets : List SessionRef) : Traffic :=
  let d := Delivery.step h { post := t.node.post } s
  let c := t.connections s.slot
  let copies := List.replicate d.count (t.node.post.pool.bytes h)
  { (t.withPost d.post).setConnection s.slot { c with diary := c.diary.enqueue number copies } with
    duty := .queueing number h targets }

def copy (t : Traffic) : Traffic :=
  match t.duty with
  | .queueing number h (s :: targets) => t.copyTo number h s targets
  | _ => t

def conclude (t : Traffic) : Traffic :=
  match t.duty with
  | .queueing _ h [] =>
    { t.withPost { t.node.post with pool := t.node.post.pool.release h } with duty := .free }
  | .obeying job => if t.crowd.hasDone job then { t with duty := .free } else t
  | _ => t

/-- An event that cannot come now changes nothing. -/
def apply (t : Traffic) : Event → Traffic
  | .connect id uid token gids => t.connect id uid token gids
  | .enter slot => t.enter slot
  | .step slot choice => t.step slot choice
  | .touch slot gesture => t.touch slot gesture
  | .leave slot => t.leave slot
  | .move m => t.move m
  | .copy => t.copy
  | .conclude => t.conclude
  | .pass span => { t with now := t.now + span }

def after (t : Traffic) (events : List Event) : Traffic := events.foldl apply t

theorem after_append (t : Traffic) (events more : List Event) :
    t.after (events ++ more) = (t.after events).after more :=
  List.foldl_append

@[simp] theorem connections_setConnection_self (t : Traffic) (slot : Nat) (c : Connection) :
    (t.setConnection slot c).connections slot = c :=
  Function.update_self _ _ _

theorem connections_setConnection_of_ne (t : Traffic) {slot slot' : Nat} (h : slot' ≠ slot)
    (c : Connection) : (t.setConnection slot c).connections slot' = t.connections slot' :=
  Function.update_of_ne h _ _

/-! ## 4. What an event comes to -/

inductive Happened (t : Traffic) : Event → Traffic → Prop where
  | connect (id : UInt64) (uid : Int64) (token : String) (gids : List Int64) :
      Happened t (.connect id uid token gids) (t.connect id uid token gids)
  | welcome {slot : Nat} {s : SessionRef} {job : Nat}
      (hstage : (t.connections slot).stage = .entering s job) :
      Happened t (.enter slot) (t.welcome slot s)
  | goOn {slot : Nat} {choice : Option Wakeup} {v v' : Serving} {turn : Turn}
      (hstage : (t.connections slot).stage = .serving v)
      (htaken : v.Taken t.now (t.connections slot).socket t.node choice turn)
      (htask : turn.task = .serving v') :
      Happened t (.step slot choice) (t.goOn slot turn v')
  | depart {slot : Nat} {choice : Option Wakeup} {v : Serving}
      (hstage : (t.connections slot).stage = .serving v) :
      Happened t (.step slot choice) (t.depart slot v)
  | gesture {slot : Nat} (hthere : (t.connections slot).stage ≠ .gone) (gesture : Gesture) :
      Happened t (.touch slot gesture) (t.gesture slot gesture)
  | retire {slot job : Nat} (hstage : (t.connections slot).stage = .leaving job) :
      Happened t (.leave slot) (t.retire slot)
  | move {m : Move} {crowd : Crowd} (hm : t.crowd.move? m = some crowd) :
      Happened t (.move m) { t with crowd }
  | copyTo {number : Nat} {h : Handle} {s : SessionRef} {targets : List SessionRef}
      (hduty : t.duty = .queueing number h (s :: targets)) :
      Happened t .copy (t.copyTo number h s targets)
  | giveBack {number : Nat} {h : Handle} (hduty : t.duty = .queueing number h []) :
      Happened t .conclude
        { t.withPost { t.node.post with pool := t.node.post.pool.release h } with duty := .free }
  | obeyed {job : Nat} (hduty : t.duty = .obeying job) :
      Happened t .conclude { t with duty := .free }
  | pass (span : Nat) : Happened t (.pass span) { t with now := t.now + span }
  | idle {e : Event} : Happened t e t

theorem happened (t : Traffic) (e : Event) : Happened t e (t.apply e) := by
  cases e with
  | connect id uid token gids => exact .connect id uid token gids
  | enter slot =>
    unfold apply enter
    dsimp only
    split
    · next s job hstage =>
      split
      · exact .welcome hstage
      · exact .idle
    · exact .idle
  | step slot choice =>
    unfold apply step
    dsimp only
    split
    · next v hstage =>
      split
      · exact .idle
      · next turn hturn =>
        split
        · next v' htask => exact .goOn hstage (Serving.taken_turn? hturn) htask
        · exact .depart hstage
        · exact .depart hstage
    · exact .idle
  | touch slot gesture =>
    unfold apply touch
    dsimp only
    split
    · exact .idle
    · next hthere => exact .gesture (not_or.1 hthere).1 gesture
  | leave slot =>
    unfold apply leave
    dsimp only
    split
    · next job hstage =>
      split
      · exact .retire hstage
      · exact .idle
    · exact .idle
  | move m =>
    unfold apply move
    dsimp only
    split
    · exact .idle
    · next crowd hm => exact .move hm
  | copy =>
    unfold apply copy
    dsimp only
    split
    · next hduty => exact .copyTo hduty
    · exact .idle
  | conclude =>
    unfold apply conclude
    dsimp only
    split
    · next hduty => exact .giveBack hduty
    · next job hduty =>
      split
      · exact .obeyed hduty
      · exact .idle
    · exact .idle
  | pass span => exact .pass span

end Traffic

/-! ## 5. Without interruption -/

/-- Some moves lead from one crowd to the other. -/
def Crowd.Leads (c c' : Crowd) : Prop := ∃ schedule, c.follow? schedule = some c'

theorem Crowd.Leads.cons {c c' c'' : Crowd} {m : Move} (hm : c.move? m = some c')
    (h : c'.Leads c'') : c.Leads c'' := by
  obtain ⟨schedule, hrun⟩ := h
  exact ⟨m :: schedule, by rw [follow?_cons, hm, Option.bind_some, hrun]⟩

/-- A script that nobody interrupts is carried out as in one go. -/
theorem Script.leads_run (script : Script) (node : Node) {jobs : List Job} (log : List LogLine)
    {i : Nat} (hi : i < jobs.length) :
    Crowd.Leads ⟨node, jobs.set i (.ready script), [], [], log⟩
      ⟨(script.run node).1, jobs.set i (.ready .done), [], [], log ++ (script.run node).2⟩ := by
  -- what comes after the first action is a script of its own, in the same place
  induction script generalizing node log with
  | done => exact ⟨[], by simp [Crowd.follow?, run]⟩
  | find uid next ih =>
    refine .cons (m := .job i) ?_ (ih (node.index.ofUser uid) node log)
    simp [Crowd.move?, Crowd.act, Crowd.setJob, hi]
  | groupsOf s next ih =>
    refine .cons (m := .job i) ?_ (ih (node.groups.groupsOf s) node log)
    simp [Crowd.move?, Crowd.act, Crowd.setJob, hi]
  | close s next ih =>
    refine .cons (m := .job i) ?_ (ih { node with post := node.post.close s } log)
    simp [Crowd.move?, Crowd.act, Crowd.setJob, hi]
  | mutate op next ih =>
    have hrest := ih (node.mutate op).1 (node.mutate op).2.1 (log ++ (node.mutate op).2.2)
    rw [List.append_assoc] at hrest
    by_cases hwriter : node.indexWriter = true
    · have hhand : Crowd.move? ⟨node, jobs.set i (.ready (mutate op next)), [], [], log⟩ (.job i) =
          some ⟨node, jobs.set i (.awaitingIndex next), [(i, op)], [], log⟩ := by
        simp [Crowd.move?, Crowd.act, Crowd.setJob, hi, hwriter]
      refine .cons hhand (.cons (m := .indexWriter) ?_ hrest)
      simp [Crowd.move?, Crowd.writeIndex, Crowd.setJob, hi]
    · refine .cons (m := .job i) ?_ hrest
      simp [Crowd.move?, Crowd.act, Crowd.setJob, hi, hwriter]
  | regroup op next ih =>
    have hrest := ih (node.regroup op).1 (log ++ (node.regroup op).2)
    rw [List.append_assoc] at hrest
    by_cases hwriter : node.groupWriter = true
    · have hhand : Crowd.move? ⟨node, jobs.set i (.ready (regroup op next)), [], [], log⟩ (.job i) =
          some ⟨node, jobs.set i (.awaitingGroups next), [], [(i, op)], log⟩ := by
        simp [Crowd.move?, Crowd.act, Crowd.setJob, hi, hwriter]
      refine .cons hhand (.cons (m := .groupWriter) ?_ hrest)
      simp [Crowd.move?, Crowd.writeGroups, Crowd.setJob, hi]
    · refine .cons (m := .job i) ?_ hrest
      simp [Crowd.move?, Crowd.act, Crowd.setJob, hi, hwriter]

theorem Crowd.IsDrained.leads_spawn {c : Crowd} (h : c.IsDrained) (script : Script) :
    (c.spawn script).Leads ⟨(script.run c.node).1, c.jobs ++ [.ready .done], [], [],
      c.log ++ (script.run c.node).2⟩ := by
  obtain ⟨node, jobs, indexQueue, groupQueue, log⟩ := c
  obtain ⟨rfl, rfl⟩ : indexQueue = [] ∧ groupQueue = [] := h
  have hlast : jobs.length < (jobs ++ [Job.ready .done]).length := by simp
  simpa [Crowd.spawn] using script.leads_run node log hlast

theorem Delivery.post_step (h : Handle) (d : Delivery) (s : SessionRef) :
    (step h d s).post = (step h { post := d.post } s).post := by
  unfold step
  dsimp only
  split
  · rfl
  · split <;> rfl

theorem Delivery.post_foldl (h : Handle) (targets : List SessionRef) (d : Delivery) :
    (targets.foldl (step h) d).post = (targets.foldl (step h) { post := d.post }).post := by
  induction targets generalizing d with
  | nil => rfl
  | cons s targets ih => rw [List.foldl_cons, List.foldl_cons, ih, post_step, ← ih]

namespace Traffic

variable {t : Traffic}

theorem after_moves {schedule : List Move} {c : Crowd} (h : t.crowd.follow? schedule = some c) :
    t.after (schedule.map .move) = { t with crowd := c } := by
  induction schedule generalizing t with
  | nil =>
    obtain rfl := Option.some.inj h
    rfl
  | cons m schedule ih =>
    rw [Crowd.follow?_cons] at h
    obtain ⟨next, hm, hrest⟩ := Option.bind_eq_some_iff.1 h
    have hmove : t.apply (.move m) = { t with crowd := next } := by
      rw [apply, move, hm]
    exact (congrArg (·.after (schedule.map .move)) hmove).trans (ih hrest)

theorem after_copies {number : Nat} {h : Handle} {targets : List SessionRef}
    (hduty : t.duty = .queueing number h targets) :
    (t.after (List.replicate targets.length .copy)).node =
        { t.node with post := (targets.foldl (Delivery.step h) { post := t.node.post }).post } ∧
      (t.after (List.replicate targets.length .copy)).duty = .queueing number h [] := by
  induction targets generalizing t with
  | nil => exact ⟨rfl, hduty⟩
  | cons s targets ih =>
    have hcopy : (t.apply .copy).duty = .queueing number h targets ∧
        (t.apply .copy).node =
          { t.node with post := (Delivery.step h { post := t.node.post } s).post } := by
      rw [apply, copy, hduty]
      exact ⟨rfl, rfl⟩
    obtain ⟨hnode, hduty'⟩ := ih hcopy.1
    refine ⟨hnode.trans ?_, hduty'⟩
    rw [hcopy.2, List.foldl_cons, Delivery.post_foldl h targets (Delivery.step h _ s)]

theorem hear_of_nobody {packet : Wire.Packet} (h : t.node.targets packet = []) :
    t.hear (.packet packet) = { t with heard := t.heard ++ [.packet packet] } := by
  rw [hear, h]

theorem hear_of_targets {packet : Wire.Packet} (h : t.node.targets packet ≠ []) :
    t.hear (.packet packet) =
      { t.withPost { t.node.post with pool := (t.node.post.pool.create packet.payload).2 } with
        heard := t.heard ++ [.packet packet]
        duty := .queueing t.heard.length (nextHandle t.node.post) (t.node.targets packet) } := by
  unfold hear
  dsimp only
  split
  · next hnone => exact absurd hnone h
  · rfl

theorem hear_of_request {command : Wire.Command} {request : Request}
    (h : Request.ofCommand? command = some (.ok request)) :
    t.hear (.command command) =
      { t with
        crowd := t.crowd.spawn request.script
        heard := t.heard ++ [.command command]
        duty := .obeying t.crowd.jobs.length } := by
  rw [hear, h]

theorem hear_of_faulty {command : Wire.Command}
    (h : ∀ request, Request.ofCommand? command ≠ some (.ok request)) :
    t.hear (.command command) = { t with heard := t.heard ++ [.command command] } := by
  unfold hear
  dsimp only
  split
  · next request hrequest => exact absurd hrequest (h request)
  · rfl

/-- An envelope with which nothing interferes does what it does in one go. -/
theorem hear_alone (hfree : t.duty = .free) (hdrained : t.crowd.IsDrained)
    (envelope : Wire.Envelope) :
    ∃ events, ((t.hear envelope).after events).node = (t.node.accept envelope).1 ∧
      ((t.hear envelope).after events).duty = .free := by
  cases envelope with
  | packet packet =>
    by_cases hnobody : t.node.targets packet = []
    · rw [hear_of_nobody hnobody, Node.accept, Node.deliver, hnobody]
      exact ⟨[], rfl, hfree⟩
    -- one event for each target, and one that gives the payload back
    · have hheard := hear_of_targets hnobody
      obtain ⟨hnode, hduty⟩ := after_copies (t := t.hear (.packet packet)) (by rw [hheard])
      refine ⟨List.replicate (t.node.targets packet).length .copy ++ [.conclude], ?_, ?_⟩
      · rw [after_append, after, List.foldl_cons, apply, conclude, hduty]
        show ({ Traffic.node _ with post := _ } : Node) = _
        rw [hnode, hheard, Node.accept, Node.deliver_of_targets hnobody]
        rfl
      · rw [after_append, after, List.foldl_cons, apply, conclude, hduty]
        rfl
  | command command =>
    rcases t.node.obey_cases command with ⟨request, hrequest, hrun⟩ | ⟨hfaulty, hsame⟩
    · obtain ⟨schedule, hschedule⟩ := hdrained.leads_spawn request.script
      have hdone : Crowd.hasDone ⟨(request.script.run t.crowd.node).1,
          t.crowd.jobs ++ [.ready .done], [], [],
          t.crowd.log ++ (request.script.run t.crowd.node).2⟩ t.crowd.jobs.length = true :=
        Crowd.hasDone_of_jobs (by simp)
      refine ⟨schedule.map .move ++ [.conclude], ?_⟩
      rw [hear_of_request hrequest, after_append, after_moves hschedule, after, List.foldl_cons,
        List.foldl_nil, apply, conclude]
      dsimp only
      rw [if_pos hdone, Node.accept, hrun]
      exact ⟨rfl, rfl⟩
    · rw [hear_of_faulty hfaulty, Node.accept, hsame]
      exact ⟨[], rfl, hfree⟩

/-- So does the admission of a client, whose session is registered and served. -/
theorem connect_alone (hdrained : t.crowd.IsDrained) (id : UInt64) (uid : Int64) (token : String)
    (gids : List Int64) :
    ∃ events, ((t.connect id uid token gids).after events).node =
        ((Script.enter (t.node.openSession id uid token false).1 gids).run
          (t.node.openSession id uid token false).2).1 ∧
      (((t.connect id uid token gids).after events).connections t.node.post.boxes.size).stage =
        .serving ⟨(t.node.openSession id uid token false).1, t.now, t.now, none⟩ := by
  have hopened : Crowd.IsDrained
      { t.crowd with node := (t.node.openSession id uid token false).2 } := hdrained
  obtain ⟨schedule, hschedule⟩ :=
    hopened.leads_spawn (.enter (t.node.openSession id uid token false).1 gids)
  have hconnection : (t.connect id uid token gids).connections t.node.post.boxes.size =
      { socket := { pipe := { capacity := Http.acceptSize [] + t.room } }
        stage := .entering (t.node.openSession id uid token false).1 t.crowd.jobs.length
        diary := { opened := t.now } } := connections_setConnection_self _ _ _
  refine ⟨schedule.map .move ++ [.enter t.node.post.boxes.size], ?_⟩
  rw [after_append, after_moves hschedule, after, List.foldl_cons, List.foldl_nil, apply, enter]
  dsimp only
  rw [hconnection]
  dsimp only
  rw [if_pos (Crowd.hasDone_of_jobs (by simp))]
  refine ⟨rfl, ?_⟩
  rw [welcome, connections_setConnection_self]
  rfl

/-- And so does the end of a task. -/
theorem step_alone (hdrained : t.crowd.IsDrained) {slot : Nat} {v : Serving}
    {choice : Option Wakeup} {turn : Turn} (hstage : (t.connections slot).stage = .serving v)
    (hslot : v.session.slot = slot)
    (hturn : v.turn? t.now (t.connections slot).socket t.node choice = some turn)
    (htask : turn.task = .finished) :
    ∃ events, ((t.step slot choice).after events).node = turn.state ∧
      (((t.step slot choice).after events).connections slot).stage = .gone := by
  obtain ⟨-, log, rfl⟩ := (Serving.taken_turn? hturn).finish htask
  have hstep : t.step slot choice = t.depart slot v := by
    rw [step, hstage]
    dsimp only
    rw [hturn]
    rfl
  have hletGo : Crowd.IsDrained { t.crowd with node := { t.node with
      post := { t.node.post with pool := v.letGo t.node.post.pool } } } := hdrained
  obtain ⟨schedule, hschedule⟩ := hletGo.leads_spawn (.leave v.session)
  have hconnection : (t.depart slot v).connections slot =
      { t.connections slot with stage := .leaving t.crowd.jobs.length } :=
    connections_setConnection_self _ _ _
  refine ⟨schedule.map .move ++ [.leave slot], ?_⟩
  rw [hstep, after_append, after_moves hschedule, after, List.foldl_cons, List.foldl_nil, apply,
    leave]
  dsimp only
  rw [hconnection]
  dsimp only
  rw [if_pos (Crowd.hasDone_of_jobs (by simp))]
  refine ⟨?_, by rw [retire, connections_setConnection_self]⟩
  rw [← hslot]
  rfl

end Traffic

end Switchboard.Gateway
