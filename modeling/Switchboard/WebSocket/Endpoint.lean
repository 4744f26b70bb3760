import Switchboard.Http.Message
import Switchboard.Log
import Switchboard.Table
import Switchboard.WebSocket.Socket

/-!
A server's endpoint with all its clients on one clock. Behind each connection runs a task, and the
tasks share a state. Each operation is followed by as many steps of the tasks as there are to take,
so between two operations every task waits. Times are in milliseconds.
-/

namespace Switchboard.WebSocket

/-- A task, its socket and the shared state between two steps. -/
structure Turn (σ τ : Type) where
  socket : Socket
  task : τ
  state : σ
  log : List LogLine := []

class ConnectionTask (σ τ : Type) where
  /-- The next step of a task, unless it has to wait. -/
  step? : (now : Nat) → Socket → σ → τ → Option (Turn σ τ)
  /-- The next moment at which a waiting task would act by itself. -/
  deadline? : τ → Option Nat
  /-- A bound on the steps until the task has to wait. -/
  budget : (now : Nat) → Socket → σ → τ → Nat

namespace Client

variable {τ : Type}

/-- A client that is answered with more than its pipe holds. It waits for the whole of the response,
which never arrives, and nothing comes of its connection. -/
def stranded (pipeSize : Nat) (task : τ) : Client τ where
  socket := { pipe := { capacity := pipeSize } }
  task

/-- A client whose connection stays plain HTTP: it is answered and closed, and has no more to do
than the task says. -/
def answered (pipeSize : Nat) (response : Http.Response) (task : τ) : Client τ where
  socket := Socket.close { pipe := { capacity := pipeSize } }
  task
  -- there is nothing to see after the response
  done := true
  unseen := [.response response.status response.body]

/-- A client whose connection is upgraded: it reads the response out of the pipe, is sent the
greetings, and then the task runs. -/
def upgraded (pipeSize : Nat) (greetings : List Message) (task : τ) : Client τ where
  socket := greetings.foldl Socket.write { pipe := { capacity := pipeSize } }
  task
  unseen := [.response 101 []]

end Client

structure Endpoint (σ τ : Type) where
  state : σ
  /-- Bytes that the pipe to a client holds. -/
  pipeSize : Nat
  now : Nat := 0
  clients : Table String (Client τ) := .empty
  log : List LogLine := []

variable {σ τ : Type} [ConnectionTask σ τ]

/-- Steps until the task has to wait, but no more than `fuel`. -/
def Turn.settle (now : Nat) : (fuel : Nat) → Turn σ τ → Turn σ τ
  | 0, t => t
  | fuel + 1, t =>
    match ConnectionTask.step? now t.socket t.state t.task with
    | none => t
    | some next => Turn.settle now fuel { next with log := t.log ++ next.log }

/-- Steps until the task has to wait. -/
def Turn.run (now : Nat) (t : Turn σ τ) : Turn σ τ :=
  t.settle now (ConnectionTask.budget now t.socket t.state t.task)

namespace Endpoint

/-- Lets the task of one client take its steps. -/
def settleClient (e : Endpoint σ τ) (name : String) : Endpoint σ τ :=
  match e.clients.get? name with
  | none => e
  | some client =>
    let turn := Turn.run e.now { socket := client.socket, task := client.task, state := e.state }
    { e with
      state := turn.state
      clients := e.clients.insert name { client with socket := turn.socket, task := turn.task }
      log := e.log ++ turn.log }

def settle (e : Endpoint σ τ) : Endpoint σ τ := e.clients.keys.foldl settleClient e

theorem now_settleClient (e : Endpoint σ τ) (name : String) :
    (e.settleClient name).now = e.now := by
  simp only [settleClient]
  split <;> rfl

theorem now_settle (e : Endpoint σ τ) : e.settle.now = e.now := by
  suffices h : ∀ (names : List String) (e : Endpoint σ τ),
      (names.foldl settleClient e).now = e.now from h _ e
  intro names
  induction names with
  | nil => intro e; rfl
  | cons name names ih => intro e; rw [List.foldl_cons, ih, now_settleClient]

/-- The next moment at which some task would act by itself. -/
def deadline? (e : Endpoint σ τ) : Option Nat :=
  (e.clients.values.filterMap fun c => ConnectionTask.deadline? σ c.task).min?

/-- Moves the clock to `target`, and stops at every deadline on the way. -/
def advanceTo (target : Nat) (e : Endpoint σ τ) : Endpoint σ τ :=
  match e.deadline? with
  | some d =>
    -- tasks act at each deadline on its own, since that may set others
    if e.now < d ∧ d ≤ target then advanceTo target { e with now := d }.settle
    else { e with now := max e.now target }.settle
  | none => { e with now := max e.now target }
termination_by target - e.now
decreasing_by
  rw [now_settle]
  simp only
  omega

def advance (e : Endpoint σ τ) (span : Nat) : Endpoint σ τ := e.advanceTo (e.now + span)

/-- Does something to the shared state and lets the tasks take their steps. -/
def act {α : Type} (e : Endpoint σ τ) (f : σ → α × σ × List LogLine) : α × Endpoint σ τ :=
  let (x, state, log) := f e.state
  (x, { e with state, log := e.log ++ log }.settle)

/-- Changes a client. -/
def alter (e : Endpoint σ τ) (name : String) (f : Client τ → Client τ) : Endpoint σ τ :=
  { e with clients := e.clients.modify name f }

/-- A client comes under a name. -/
def place (e : Endpoint σ τ) (name : String) (client : Client τ) : Endpoint σ τ :=
  { e with clients := e.clients.insert name client }

def drop (e : Endpoint σ τ) (name : String) : Endpoint σ τ := (e.alter name Client.drop).settle

def stall (e : Endpoint σ τ) (name : String) : Endpoint σ τ := (e.alter name Client.stall).settle

def resume (e : Endpoint σ τ) (name : String) : Endpoint σ τ := (e.alter name Client.resume).settle

/-- Bytes come from a client; `false` when they cannot reach anyone. -/
def receive (e : Endpoint σ τ) (name : String) (bytes : Bytes) : Bool × Endpoint σ τ :=
  if (e.clients.get? name).any Client.isLive then (true, (e.alter name (Client.hear bytes)).settle)
  else (false, e)

def look (e : Endpoint σ τ) (name : String) : List ClientEvent × Endpoint σ τ :=
  match e.clients.get? name with
  | none => ([], e)
  | some c =>
    let (events, c) := c.look
    (events, { e with clients := e.clients.insert name c })

end Endpoint

end Switchboard.WebSocket
