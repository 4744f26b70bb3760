import Switchboard.Proofs.Logic.Bystanders
import Switchboard.Proofs.WebSocket.Seeking

/-!
# Visit — a stream that a gateway opens, from its first byte to its end

A visit is linked when its first text names a gateway, and has come in the time that there is for
it. From then on it stands until the gateway goes, closes or violates the protocol, or its link is
cancelled from outside. All of that is told by what has come and when, whatever the task of the
visit is at.
-/

namespace Switchboard.Logic

open WebSocket
open Reader (Abreast)

/-! ## 1. The first text -/

def isText : Message → Bool
  | .text _ => true
  | .binary _ | .ping _ | .pong _ | .close _ => false

/-- No message is sought, so reading on comes to the end of the stream or to nothing. -/
def noMessage (_ : Message) : Bool := false

/-- How a gateway names itself in its first text, and what is to be read after it. -/
def hello? (r : Reader) : Option (Wire.Hello × Reader) :=
  match r.seek isText with
  | .found (.text text) rest => (Wire.Hello.ofText text).toOption.map fun hello => (hello, rest)
  | _ => none

variable {r r' rest : Reader} {hello : Wire.Hello}

theorem hello?_of_found {text : String} (h : r.seek isText = .found (.text text) rest) :
    hello? r = (Wire.Hello.ofText text).toOption.map fun hello => (hello, rest) := by
  rw [hello?, h]

theorem hello?_of_starved (h : r.seek isText = .starved) : hello? r = none := by
  rw [hello?, h]

theorem hello?_of_ended (h : r.seek isText = .ended) : hello? r = none := by
  rw [hello?, h]

theorem hello?_congr (h : Abreast isText r r') : hello? r = hello? r' := by
  rw [hello?, h.seek_eq, hello?]

theorem hello?_eq_some_iff : hello? r = some (hello, rest) ↔
    ∃ text, r.seek isText = .found (.text text) rest ∧ Wire.Hello.ofText text = .ok hello := by
  cases hseek : r.seek isText with
  | starved =>
    rw [hello?_of_starved hseek]
    exact ⟨nofun, fun ⟨_, hfound, _⟩ => nomatch hfound⟩
  | ended =>
    rw [hello?_of_ended hseek]
    exact ⟨nofun, fun ⟨_, hfound, _⟩ => nomatch hfound⟩
  | found m rest' =>
    cases m with
    | text text =>
      rw [hello?_of_found hseek]
      cases hread : Wire.Hello.ofText text with
      | error fault =>
        refine ⟨nofun, fun ⟨text', hfound, hok⟩ => ?_⟩
        cases hfound
        cases hread.symm.trans hok
      | ok hello' =>
        constructor
        · intro h
          cases h
          exact ⟨text, rfl, hread⟩
        · rintro ⟨text', hfound, hok⟩
          cases hfound
          cases hread.symm.trans hok
          rfl
    | binary | ping | pong | close =>
      rw [hello?, hseek]
      exact ⟨nofun, fun ⟨_, hfound, _⟩ => nomatch hfound⟩

/-- Whatever comes after the first text, the gateway goes by the names in it. -/
theorem hello?_feed (h : hello? r = some (hello, rest)) (more : Bytes) :
    hello? (r.feed more) = some (hello, rest.feed more) := by
  obtain ⟨text, hseek, hread⟩ := hello?_eq_some_iff.1 h
  refine hello?_eq_some_iff.2 ⟨text, ?_, hread⟩
  rw [Reader.seek_feed (by rw [hseek]; exact nofun), hseek]
  rfl

theorem pending_hello? (h : hello? r = some (hello, rest)) :
    rest.pending.length < r.pending.length := by
  obtain ⟨text, hseek, -⟩ := hello?_eq_some_iff.1 h
  exact Reader.pending_seek hseek

/-! ## 2. Steps of a task -/

namespace Stream

variable {now deadline capacity : Nat} {socket : Socket} {hub : Hub} {id : UInt64}
  {write : Option LinkWrite} {choice : Option Wakeup} {turn : Turn}

/-- A step that the task can take next. One of the wakeups that are ready wakes a linked task. -/
def move? (now : Nat) (socket : Socket) (hub : Hub) : Stream → Option Wakeup → Option Turn
  | .greeting deadline capacity, none => stepGreeting? now deadline capacity socket hub
  | task, choice => turn? socket hub task choice

theorem reader_reply (socket : Socket) (m : Message) : (socket.reply m).reader = socket.reader := by
  cases m <;> rfl

/-- What a step comes to while the gateway has not named itself, whatever the queue of its link
would hold: the task reads on, turns the gateway away, or takes its first text. -/
inductive Listens (deadline capacity : Nat) (socket : Socket) (hub : Hub) : Turn → Prop where
  | waits {next : Socket} (hreader : Abreast isText socket.reader next.reader)
      (hless : next.reader.pending.length < socket.reader.pending.length) :
      Listens deadline capacity socket hub
        { socket := next, task := .greeting deadline capacity, state := hub }
  | turnedAway {next : Socket} (log : List LogLine) (hnone : hello? socket.reader = none) :
      Listens deadline capacity socket hub (giveUp next hub log)
  | takes {text : String} {reader : Reader}
      (hnext : socket.reader.next = .frame (some (.text text)) reader) :
      Listens deadline capacity socket hub (greet capacity { socket with reader } hub text)

theorem listens_stepGreeting? (h : stepGreeting? now deadline capacity socket hub = some turn) :
    Listens deadline capacity socket hub turn := by
  unfold stepGreeting? at h
  split at h
  · next hnext =>
    have hnone := hello?_of_starved (Reader.seek_of_starved hnext)
    split at h
    · obtain rfl := Option.some.inj h
      exact .turnedAway _ hnone
    split at h
    · obtain rfl := Option.some.inj h
      exact .turnedAway _ hnone
    · cases h
  · next hnext =>
    obtain rfl := Option.some.inj h
    exact .turnedAway _ (hello?_of_ended (Reader.seek_of_fault hnext))
  · next hnext =>
    obtain rfl := Option.some.inj h
    exact .turnedAway _ (hello?_of_ended (Reader.seek_of_close hnext))
  · next reader hnext =>
    obtain rfl := Option.some.inj h
    exact .waits (Reader.abreast_of_part hnext) (Reader.pending_next hnext)
  · next text reader hnext =>
    obtain rfl := Option.some.inj h
    exact .takes hnext
  · next message reader hclose htext hnext =>
    obtain rfl := Option.some.inj h
    have hother : isText message = false := by
      cases message with
      | text text => exact absurd rfl (htext text)
      | binary | ping | pong | close => rfl
    refine .waits ?_ ?_ <;> rw [reader_reply]
    · exact Reader.abreast_of_message hnext (fun reason => hclose reason) hother
    · exact Reader.pending_next hnext

/-- What it comes to where the queue can be made. -/
inductive Greets (deadline capacity : Nat) (socket : Socket) (hub : Hub) : Turn → Prop where
  | waits {next : Socket} (hreader : Abreast isText socket.reader next.reader)
      (hless : next.reader.pending.length < socket.reader.pending.length) :
      Greets deadline capacity socket hub
        { socket := next, task := .greeting deadline capacity, state := hub }
  | turnedAway {next : Socket} (log : List LogLine) (hnone : hello? socket.reader = none) :
      Greets deadline capacity socket hub (giveUp next hub log)
  | named {hello : Wire.Hello} {reader : Reader}
      (hhello : hello? socket.reader = some (hello, reader)) :
      Greets deadline capacity socket hub
        { socket := { socket with reader }
          task := .linked (hub.register hello.name hello.hostname capacity).1 none
          state := (hub.register hello.name hello.hostname capacity).2 }

theorem greets_greet (hcapacity : checkCapacity capacity = .ok ()) {reader : Reader} {text : String}
    (hnext : socket.reader.next = .frame (some (.text text)) reader) :
    Greets deadline capacity socket hub (greet capacity { socket with reader } hub text) := by
  have hfound : socket.reader.seek isText = .found (.text text) reader := by
    rw [Reader.seek_of_message hnext nofun]
    rfl
  have hhello := hello?_of_found hfound
  unfold greet
  rw [hcapacity]
  cases hok : Wire.Hello.ofText text with
  | error fault =>
    rw [hok] at hhello
    exact .turnedAway _ hhello
  | ok hello =>
    rw [hok] at hhello
    exact .named hhello

theorem greets_stepGreeting? (hcapacity : checkCapacity capacity = .ok ())
    (h : stepGreeting? now deadline capacity socket hub = some turn) :
    Greets deadline capacity socket hub turn := by
  cases listens_stepGreeting? h with
  | waits hreader hless => exact .waits hreader hless
  | turnedAway log hnone => exact .turnedAway log hnone
  | takes hnext => exact greets_greet hcapacity hnext

/-- What a step comes to once there is a link. Only a link that is cancelled is closed. -/
inductive Skips (socket : Socket) (hub : Hub) (id : UInt64) : Turn → Prop where
  | goesOn {turn : Turn} {write : Option LinkWrite} (htask : turn.task = .linked id write)
      (hclose : write = some .close → (hub.link id).cancelled = true)
      (hreader : Abreast noMessage socket.reader turn.socket.reader)
      (hstate : turn.state = hub ∨ turn.state = (hub.receive id).2) : Skips socket hub id turn
  | ended (log : List LogLine) (hend : socket.gone = true ∨ (hub.link id).cancelled = true ∨
        socket.reader.seek noMessage = .ended) :
      Skips socket hub id (finish socket hub id log)

theorem skips_wake {w : Wakeup} (hleft : id ∉ hub.registered → (hub.link id).cancelled = true)
    (hready : isReady socket hub id w = true) : Skips socket hub id (wake socket hub id w) := by
  cases w with
  | cancelled => exact .goesOn rfl (fun _ => hready) (Abreast.refl _ _) (.inl rfl)
  | queued =>
    unfold wake
    cases hqueue : (hub.link id).queue with
    | nil =>
      have hout : id ∉ hub.registered := by simpa [isReady, hqueue] using hready
      rw [Hub.receive_of_nil hqueue]
      exact .ended [] (.inr (.inl (hleft hout)))
    | cons frame rest =>
      rw [Hub.receive_of_cons hqueue]
      exact .goesOn rfl nofun (Abreast.refl _ _) (.inr (by rw [Hub.receive_of_cons hqueue]))
  | frame =>
    unfold wake
    dsimp only
    split
    · next hnext =>
      have hgone : socket.gone = true := by simpa [isReady, hnext] using hready
      exact .ended [] (.inl hgone)
    · next hnext => exact .ended [] (.inr (.inr (Reader.seek_of_fault hnext)))
    · next hnext => exact .ended [] (.inr (.inr (Reader.seek_of_close hnext)))
    · next reader hnext => exact .goesOn rfl nofun (Reader.abreast_of_part hnext) (.inl rfl)
    · next message reader hclose hnext =>
      refine .goesOn rfl nofun ?_ (.inl rfl)
      rw [reader_reply]
      exact Reader.abreast_of_message hnext (fun reason => hclose reason) rfl

theorem skips_written {w : LinkWrite} (hclose : w = .close → (hub.link id).cancelled = true) :
    Skips socket hub id (written socket hub id w) := by
  cases w with
  | frame =>
    unfold written
    dsimp only
    split
    · next hgone => exact .ended _ (.inl hgone)
    · exact .goesOn rfl nofun (Abreast.refl _ _) (.inl rfl)
  | close => exact .ended [] (.inr (.inl (hclose rfl)))

theorem skips_turn? (hleft : id ∉ hub.registered → (hub.link id).cancelled = true)
    (hclose : write = some .close → (hub.link id).cancelled = true)
    (h : turn? socket hub (.linked id write) choice = some turn) : Skips socket hub id turn := by
  cases write with
  | none =>
    cases choice with
    | none => cases h
    | some w =>
      obtain ⟨hready, hwake⟩ := Option.ite_none_right_eq_some.1 h
      obtain rfl := Option.some.inj hwake
      exact skips_wake hleft hready
  | some w =>
    cases choice with
    | some _ => cases h
    | none =>
      obtain ⟨-, hwritten⟩ := Option.ite_none_right_eq_some.1 h
      obtain rfl := Option.some.inj hwritten
      exact skips_written fun hw => hclose (congrArg some hw)

def isWriting : Stream → Bool
  | .linked _ write => write.isSome
  | .greeting .. | .finished => false

/-- A task that greets and has to wait has nothing to read. -/
theorem starved_of_step?_none (h : step? now socket hub (.greeting deadline capacity) = none) :
    socket.reader.next = .starved := by
  cases hnext : socket.reader.next with
  | starved => rfl
  | fault => rw [step?, stepGreeting?, hnext] at h; cases h
  | frame message reader =>
    rw [step?, stepGreeting?, hnext] at h
    rcases message with _ | m
    · cases h
    · cases m <;> cases h

/-- A linked task that has to wait is not cancelled, has nothing to read, and its gateway is
there. -/
theorem waits_of_step?_none (h : step? now socket hub (.linked id none) = none) :
    (hub.link id).cancelled = false ∧ socket.gone = false ∧ socket.reader.next = .starved := by
  have hready : ∀ w ∈ order, ¬ isReady socket hub id w = true := by
    simpa [step?, List.find?_eq_none] using h
  have hcancelled := hready .cancelled (by decide)
  have hframe := hready .frame (by decide)
  simp only [isReady, Bool.or_eq_true, decide_eq_true_eq, not_or, Bool.not_eq_true, not_not,
    ne_eq] at hcancelled hframe
  exact ⟨hcancelled, hframe.1, hframe.2⟩

end Stream

/-! ## 3. A visit -/

/-- A stream that a gateway has opened. What has come on it is told apart by whether it came in the
time that there is for the first text. -/
structure Visit where
  opened : Nat
  socket : Socket
  task : Stream
  early : Bytes := []
  late : Bytes := []
  /-- The link that was registered for it. -/
  id : Option UInt64 := none
  /-- Somebody else has cancelled its link. -/
  cancelled : Bool := false

/-- What a gateway can do to its stream. -/
inductive Deed where
  | sends (bytes : Bytes)
  | goes
  | stalls
  | resumes
  | looks
  deriving DecidableEq, Repr

namespace Visit

/-- A gateway has ten seconds to name itself. -/
def due (v : Visit) : Nat := v.opened + 10000

/-- Bytes come, unless one of the ends is gone. When the time is up, they still come in time until
the task has acted on that. -/
def receive (now : Nat) (bytes : Bytes) (v : Visit) : Visit :=
  if v.socket.gone ∨ v.socket.closed then v
  else if now ≤ v.due then
    { v with socket := v.socket.receive bytes, early := v.early ++ bytes }
  else { v with socket := v.socket.receive bytes, late := v.late ++ bytes }

def touch (now : Nat) (v : Visit) : Deed → Visit
  | .sends bytes => v.receive now bytes
  | .goes => { v with socket := v.socket.drop }
  | .stalls => { v with socket := { v.socket with pipe := v.socket.pipe.stall } }
  | .resumes => { v with socket := { v.socket with pipe := v.socket.pipe.resume } }
  | .looks => { v with socket := { v.socket with pipe := v.socket.pipe.take.2 } }

/-- Its task takes a step. -/
def took (turn : Turn) (v : Visit) : Visit :=
  { v with
    socket := turn.socket
    task := turn.task
    id := match turn.task with
      | .linked id _ => some id
      | .greeting .. | .finished => v.id }

/-- Links are cancelled from outside, its own perhaps among them. -/
def strike (struck : UInt64 → Bool) (v : Visit) : Visit :=
  { v with cancelled := v.cancelled || v.id.any struck }

/-- How the gateway names itself, if it does in time, and what is to be read after it. -/
def hello? (v : Visit) : Option (Wire.Hello × Reader) :=
  Logic.hello? { role := .server, pending := v.early }

/-- The entry for its link in the list of links: the names of the first text, until the gateway has
gone, has closed, has violated the protocol, or is cancelled. -/
def standing? (v : Visit) : Option (Option UInt64 × String × String) :=
  v.hello?.bind fun (hello, rest) =>
    if v.socket.gone ∨ v.cancelled ∨ (rest.feed v.late).seek noMessage = .ended then none
    else some (v.id, hello.name, hello.hostname)

/-- Where a visit can be. -/
inductive Fits (capacity : Nat) (hub : Hub) (now : Nat) (v : Visit) : Prop where
  | greeting (htask : v.task = .greeting v.due capacity) (hid : v.id = none)
      (hcancelled : v.cancelled = false) (hlate : v.late = []) (hnow : now ≤ v.due)
      (hreader : Abreast isText { role := .server, pending := v.early } v.socket.reader)
  | linked {id : UInt64} {write : Option LinkWrite} {hello : Wire.Hello} {rest : Reader}
      (htask : v.task = .linked id write) (hid : v.id = some id)
      (hclose : write = some .close → v.cancelled = true)
      (hhello : v.hello? = some (hello, rest))
      (hlate : now ≤ v.due → v.late = [])
      (hreader : Abreast noMessage (rest.feed v.late) v.socket.reader)
      (hserves : hub.Serves id hello.name hello.hostname v.cancelled)
  | turnedAway (htask : v.task = .finished) (hclosed : v.socket.closed = true) (hid : v.id = none)
      (hhello : v.hello? = none)
  | ended {id : UInt64} (htask : v.task = .finished) (hclosed : v.socket.closed = true)
      (hid : v.id = some id) (hstanding : v.standing? = none) (hknown : id ≤ hub.lastId)
      (hout : id ∉ hub.registered)

variable {capacity now : Nat} {hub : Hub} {v : Visit} {rest : Reader} {hello : Wire.Hello}

theorem strike_of_any_eq_false {struck : UInt64 → Bool} (h : v.id.any struck = false) :
    v.strike struck = v := by
  rw [strike, h, Bool.or_false]

theorem strike_nobody (v : Visit) : v.strike Hub.nobody = v :=
  strike_of_any_eq_false (by cases v.id <;> rfl)

theorem Fits.le_lastId (h : v.Fits capacity hub now) {id : UInt64} (hid : v.id = some id) :
    id ≤ hub.lastId := by
  cases h with
  | greeting _ hnone | turnedAway _ _ hnone => rw [hnone] at hid; cases hid
  | linked _ hown _ _ _ _ hserves => exact Option.some.inj (hown.symm.trans hid) ▸ hserves.known
  | ended _ _ hown _ hknown => exact Option.some.inj (hown.symm.trans hid) ▸ hknown

/-- The link of a stream whose task has ended is out of the hub. -/
theorem Fits.not_registered (h : v.Fits capacity hub now) (htask : v.task = .finished) {id : UInt64}
    (hid : v.id = some id) : id ∉ hub.registered := by
  cases h with
  | greeting htask' | linked htask' => rw [htask'] at htask; cases htask
  | turnedAway _ _ hnone => rw [hnone] at hid; cases hid
  | ended _ _ hown _ _ hout => exact Option.some.inj (hown.symm.trans hid) ▸ hout

/-- Why there is no entry for a visit. -/
theorem standing?_eq_none_iff : v.standing? = none ↔
    ∀ hello rest, v.hello? = some (hello, rest) → v.socket.gone = true ∨ v.cancelled = true ∨
      (rest.feed v.late).seek noMessage = .ended := by
  rw [standing?]
  cases hhello : v.hello? with
  | none => exact iff_of_true rfl nofun
  | some p =>
    obtain ⟨hello, rest⟩ := p
    rw [Option.bind_some]
    constructor
    · intro h hello' rest' heq
      obtain ⟨rfl, rfl⟩ := Prod.mk.inj (Option.some.inj heq)
      by_contra hstands
      dsimp only at h
      rw [if_neg hstands] at h
      cases h
    · intro h
      exact if_pos (h hello rest rfl)

/-! ## 4. What is done to a visit -/

/-- Something is done to the hub, but not to the link of the visit, unless that is cancelled. -/
theorem Fits.spared {own : Option UInt64} {struck : UInt64 → Bool} {after : Hub}
    (h : v.Fits capacity hub now) (hspares : Hub.Spares own struck hub after)
    (hown : v.id ≠ none → v.id ≠ own) : (v.strike struck).Fits capacity after now := by
  cases h with
  | greeting htask hid hcancelled hlate hnow hreader =>
    refine .greeting htask hid ?_ hlate hnow hreader
    rw [strike, hid, hcancelled]
    rfl
  | @linked id write hello rest htask hid hclose hhello hlate hreader hserves =>
    have hother : some id ≠ own := hid ▸ hown (by rw [hid]; exact nofun)
    refine .linked htask hid (fun h => ?_) hhello hlate hreader ?_
    · show (v.cancelled || _) = true
      rw [hclose h, Bool.true_or]
    have hcancelled : (v.strike struck).cancelled = (v.cancelled || struck id) := by
      rw [strike, hid]
      rfl
    rw [hcancelled]
    exact hspares.serves hserves hother
  | turnedAway htask hclosed hid hhello => exact .turnedAway htask hclosed hid hhello
  | ended htask hclosed hid hstanding hknown hout =>
    refine .ended htask hclosed hid ?_ (UInt64.le_trans hknown hspares.lastId)
      (hspares.not_registered hknown hout)
    rw [standing?_eq_none_iff] at hstanding ⊢
    intro hello rest hhello
    refine (hstanding hello rest hhello).imp_right (Or.imp_left fun hcancelled => ?_)
    show (v.cancelled || _) = true
    rw [hcancelled, Bool.true_or]

/-- Time passes up to the deadline, or after it. -/
theorem Fits.later (h : v.Fits capacity hub now) {later : Nat} (hnow : now ≤ later)
    (hdue : ∀ deadline ∈ v.task.deadline?, later ≤ deadline) : v.Fits capacity hub later := by
  cases h with
  | greeting htask hid hcancelled hlate _ hreader =>
    exact .greeting htask hid hcancelled hlate (hdue _ (by rw [htask]; rfl)) hreader
  | linked htask hid hclose hhello hlate hreader hserves =>
    exact .linked htask hid hclose hhello (fun htime => hlate (Nat.le_trans hnow htime)) hreader
      hserves
  | turnedAway htask hclosed hid hhello => exact .turnedAway htask hclosed hid hhello
  | ended htask hclosed hid hstanding hknown hout =>
    exact .ended htask hclosed hid hstanding hknown hout

/-- A gateway that goes or looks does not change what has come. -/
theorem Fits.moved (h : v.Fits capacity hub now) {socket : Socket}
    (hreader : socket.reader = v.socket.reader) (hclosed : socket.closed = v.socket.closed)
    (hgone : v.socket.gone = true → socket.gone = true) :
    { v with socket := socket }.Fits capacity hub now := by
  cases h with
  | greeting htask hid hcancelled hlate hnow habreast =>
    exact .greeting htask hid hcancelled hlate hnow (hreader ▸ habreast)
  | linked htask hid hclose hhello hlate habreast hserves =>
    exact .linked htask hid hclose hhello hlate (hreader ▸ habreast) hserves
  | turnedAway htask hclosed' hid hhello =>
    exact .turnedAway htask (hclosed.trans hclosed') hid hhello
  | ended htask hclosed' hid hstanding hknown hout =>
    refine .ended htask (hclosed.trans hclosed') hid ?_ hknown hout
    rw [standing?_eq_none_iff] at hstanding ⊢
    exact fun hello rest hhello => (hstanding hello rest hhello).imp_left hgone

theorem Fits.receive (h : v.Fits capacity hub now) (bytes : Bytes) :
    (v.receive now bytes).Fits capacity hub now := by
  unfold Visit.receive
  split
  · exact h
  next hopen =>
  cases h with
  | greeting htask hid hcancelled hlate hnow hreader =>
    rw [if_pos hnow]
    exact .greeting htask hid hcancelled hlate hnow (hreader.feed bytes)
  | linked htask hid hclose hhello hlate hreader hserves =>
    split
    · next htime =>
      have hnone := hlate htime
      refine .linked htask hid hclose (hello?_feed hhello bytes) hlate ?_ hserves
      rw [hnone, Reader.feed_nil] at hreader
      show Abreast noMessage (Reader.feed _ v.late) _
      rw [hnone, Reader.feed_nil]
      exact hreader.feed bytes
    · next htime =>
      refine .linked htask hid hclose hhello (fun h => absurd h htime) ?_ hserves
      show Abreast noMessage (Reader.feed _ (v.late ++ bytes)) _
      rw [← Reader.feed_feed]
      exact hreader.feed bytes
  | turnedAway _ hclosed => exact absurd (.inr hclosed) hopen
  | ended _ hclosed => exact absurd (.inr hclosed) hopen

theorem Fits.touch (h : v.Fits capacity hub now) (deed : Deed) :
    (v.touch now deed).Fits capacity hub now := by
  cases deed with
  | sends bytes => exact h.receive bytes
  | goes => exact h.moved rfl rfl fun _ => rfl
  | stalls | resumes | looks => exact h.moved rfl rfl fun hgone => hgone

theorem touch_keeps (now : Nat) (v : Visit) (deed : Deed) :
    (v.touch now deed).id = v.id ∧ (v.touch now deed).task = v.task := by
  cases deed with
  | sends bytes =>
    show (v.receive now bytes).id = v.id ∧ (v.receive now bytes).task = v.task
    unfold Visit.receive
    split
    · exact ⟨rfl, rfl⟩
    · split <;> exact ⟨rfl, rfl⟩
  | goes | stalls | resumes | looks => exact ⟨rfl, rfl⟩

/-- Whatever the gateway does, all that was to be read stays where it is. -/
theorem reader_touch (now : Nat) (v : Visit) (deed : Deed) :
    ∃ bytes, (v.touch now deed).socket.reader = v.socket.reader.feed bytes := by
  cases deed with
  | sends bytes =>
    show ∃ bytes', (v.receive now bytes).socket.reader = _
    unfold Visit.receive
    split
    · exact ⟨[], (Reader.feed_nil _).symm⟩
    · split <;> exact ⟨bytes, rfl⟩
  | goes | stalls | resumes | looks => exact ⟨[], (Reader.feed_nil _).symm⟩

/-- A gateway that has named itself keeps its names. -/
theorem hello?_touch (h : v.hello? = some (hello, rest)) (now : Nat) (deed : Deed) :
    ∃ rest', (v.touch now deed).hello? = some (hello, rest') := by
  cases deed with
  | sends bytes =>
    show ∃ rest', (v.receive now bytes).hello? = _
    unfold Visit.receive
    split
    · exact ⟨rest, h⟩
    split
    · exact ⟨rest.feed bytes, hello?_feed h bytes⟩
    · exact ⟨rest, h⟩
  | goes | stalls | resumes | looks => exact ⟨rest, h⟩

/-! ## 5. Steps of its task -/

/-- What a step does to the hub: no link comes in, or the one of the visit does. -/
inductive Advances (capacity : Nat) (hub : Hub) (v : Visit) (turn : Turn) : Prop where
  | ages (hid : (v.took turn).id = v.id) (haged : Hub.Aged hub turn.state)
  | registers {hello : Wire.Hello} (hid : v.id = none)
      (hnew : (v.took turn).id = some (hub.register hello.name hello.hostname capacity).1)
      (hstate : turn.state = (hub.register hello.name hello.hostname capacity).2)

variable {choice : Option Wakeup} {turn : Turn}

/-- The visit after a step of its task, and everything else. -/
structure Stepped (capacity : Nat) (hub : Hub) (now : Nat) (v : Visit) (turn : Turn) : Prop where
  fits : (v.took turn).Fits capacity turn.state now
  spares : Hub.Spares v.id Hub.nobody hub turn.state
  advances : Advances capacity hub v turn
  /-- A stream that does not name itself in time does nothing to the hub. -/
  unnamed : v.hello? = none → turn.state = hub

theorem stepped_greeting (hroom : hub.lastId < hub.lastId + 1) (hid : v.id = none)
    (hcancelled : v.cancelled = false) (hlate : v.late = []) (hnow : now ≤ v.due)
    (hreader : Abreast isText { role := .server, pending := v.early } v.socket.reader)
    (h : Stream.Greets v.due capacity v.socket hub turn) :
    Stepped capacity hub now v turn := by
  have hsame : v.hello? = Logic.hello? v.socket.reader := hello?_congr hreader
  cases h with
  | waits hnext _ => exact {
      fits := .greeting rfl hid hcancelled hlate hnow (hreader.trans hnext)
      spares := Hub.spares_refl hub _
      advances := .ages rfl (.refl hub)
      unnamed := fun _ => rfl }
  | turnedAway log hnone => exact {
      fits := .turnedAway rfl rfl hid (hsame.trans hnone)
      spares := Hub.spares_refl hub _
      advances := .ages rfl (.refl hub)
      unnamed := fun _ => rfl }
  | @named hello reader hhello =>
    have hown := hsame.trans hhello
    exact {
      fits := by
        refine .linked rfl rfl nofun hown (fun _ => hlate) ?_ ?_
        · show Abreast noMessage (reader.feed v.late) reader
          rw [hlate, Reader.feed_nil]
          exact .refl _ _
        · show Hub.Serves _ _ _ _ v.cancelled
          rw [hcancelled]
          exact Hub.serves_register hub _ _ _
      spares := Hub.spares_register hroom _ _ _ _
      advances := .registers hid rfl rfl
      unnamed := fun hnone => by rw [hown] at hnone; cases hnone }

theorem stepped_linked {id : UInt64} (hid : v.id = some id)
    (hhello : v.hello? = some (hello, rest)) (hlate : now ≤ v.due → v.late = [])
    (hreader : Abreast noMessage (rest.feed v.late) v.socket.reader)
    (hserves : hub.Serves id hello.name hello.hostname v.cancelled)
    (h : Stream.Skips v.socket hub id turn) : Stepped capacity hub now v turn := by
  have hunnamed : v.hello? = none → turn.state = hub := fun hnone => by
    rw [hhello] at hnone
    cases hnone
  cases h with
  | goesOn htask hclose hnext hstate =>
    have hsame : (v.took turn).id = v.id := by rw [took, htask, hid]
    have hothers : ∀ own, Hub.Spares own Hub.nobody hub turn.state := fun own => by
      rcases hstate with hstate | hstate <;> rw [hstate]
      · exact Hub.spares_refl hub own
      · exact Hub.spares_receive hub own id
    have hstays := (hothers none).serves hserves nofun
    rw [Hub.nobody, Bool.or_false] at hstays
    exact {
      fits := .linked htask (hsame.trans hid) (fun h => hserves.cancelled.symm.trans (hclose h))
        hhello hlate (hreader.trans hnext) hstays
      spares := hothers _
      advances := .ages hsame (by
        rcases hstate with hstate | hstate <;> rw [hstate]
        · exact .refl hub
        · exact Hub.aged_receive hub id)
      unnamed := hunnamed }
  | ended log hend =>
    have hknown : id ≤ (Stream.finish v.socket hub id log).state.lastId :=
      (Hub.aged_finish v.socket hub id log).lastId ▸ hserves.known
    have hout : id ∉ (Stream.finish v.socket hub id log).state.registered := by
      rw [Hub.registered_finish]
      simp
    rw [hserves.cancelled, ← hreader.seek_eq] at hend
    exact {
      fits := .ended rfl rfl hid
        (standing?_eq_none_iff.2 fun hello' rest' heq => by
          obtain ⟨rfl, rfl⟩ := Prod.mk.inj (Option.some.inj (hhello.symm.trans heq))
          exact hend)
        hknown hout
      spares := hid ▸ Hub.spares_finish v.socket hub id log
      advances := .ages rfl (Hub.aged_finish v.socket hub id log)
      unnamed := hunnamed }

theorem Fits.stepped (h : v.Fits capacity hub now) (hcapacity : checkCapacity capacity = .ok ())
    (hcoherent : hub.Coherent) (hroom : v.id = none → hub.lastId < hub.lastId + 1)
    (hstep : v.task.move? now v.socket hub choice = some turn) :
    Stepped capacity hub now v turn := by
  cases h with
  | greeting htask hid hcancelled hlate hnow hreader =>
    rw [htask] at hstep
    cases choice with
    | none =>
      exact stepped_greeting (hroom hid) hid hcancelled hlate hnow hreader
        (Stream.greets_stepGreeting? hcapacity hstep)
    | some w => cases hstep
  | @linked id write hello rest htask hid hclose hhello hlate hreader hserves =>
    rw [htask] at hstep
    exact stepped_linked hid hhello hlate hreader hserves
      (Stream.skips_turn? (hcoherent.left id) (fun h => hserves.cancelled.trans (hclose h)) hstep)
  | turnedAway htask | ended htask =>
    rw [htask] at hstep
    cases hstep

/-! ## 6. At rest, and later on -/

/-- A visit whose task waits: it stands and its link is served, or it does not stand and the task of
its link has ended. -/
inductive Rests (hub : Hub) (v : Visit) : Prop where
  | stands {id : UInt64} {name hostname : String} (hid : v.id = some id)
      (hstanding : v.standing? = some (some id, name, hostname))
      (hserves : hub.Serves id name hostname false)
  | absent (hstanding : v.standing? = none) (hended : v.id ≠ none → v.task = .finished)

theorem Rests.id_eq (h : v.Rests hub) {x : Option UInt64 × String × String}
    (hx : v.standing? = some x) : ∃ id, v.id = some id ∧ x.1 = some id := by
  cases h with
  | @stands id name hostname hid hstanding =>
    obtain rfl := Option.some.inj (hstanding.symm.trans hx)
    exact ⟨id, hid, rfl⟩
  | absent hnone => rw [hnone] at hx; cases hx

theorem Fits.rests (h : v.Fits capacity hub now)
    (hidle : Stream.step? now v.socket hub v.task = none) (hflushed : v.task.isWriting = false) :
    v.Rests hub := by
  cases h with
  | greeting htask hid hcancelled hlate hnow hreader =>
    rw [htask] at hidle
    have hstarved : v.socket.reader.seek isText = .starved :=
      Reader.seek_of_starved (Stream.starved_of_step?_none hidle)
    have hnone : v.hello? = none := (hello?_congr hreader).trans (hello?_of_starved hstarved)
    exact .absent (by rw [standing?, hnone]; rfl) fun hlinked => absurd hid hlinked
  | @linked id write hello rest htask hid _ hhello hlate hreader hserves =>
    obtain rfl : write = none := by
      rw [htask] at hflushed
      exact Option.isSome_eq_false_iff.1 hflushed |> Option.isNone_iff_eq_none.1
    rw [htask] at hidle
    obtain ⟨hcancelled, hgone, hnext⟩ := Stream.waits_of_step?_none hidle
    have hown : v.cancelled = false := hserves.cancelled.symm.trans hcancelled
    have hseek : (rest.feed v.late).seek noMessage = .starved :=
      hreader.seek_eq.trans (Reader.seek_of_starved hnext)
    have hstands : ¬ (v.socket.gone = true ∨ v.cancelled = true ∨
        (rest.feed v.late).seek noMessage = .ended) := by
      rw [hgone, hown, hseek]
      simp
    refine .stands hid ?_ (hown ▸ hserves)
    rw [standing?, hhello, ← hid]
    exact if_neg hstands
  | turnedAway htask _ _ hhello => exact .absent (by rw [standing?, hhello]; rfl) fun _ => htask
  | ended htask _ _ hstanding => exact .absent hstanding fun _ => htask

/-- What does not change about a visit any more: that its gateway has named itself, and that its
task has ended. -/
structure Later (v v' : Visit) : Prop where
  named : v.hello? ≠ none → v'.hello? ≠ none
  ended : v.task = .finished → v'.task = .finished ∧ v'.id = v.id

theorem Later.refl (v : Visit) : v.Later v := ⟨fun h => h, fun h => ⟨h, rfl⟩⟩

theorem Later.trans {v' v'' : Visit} (h : v.Later v') (h' : v'.Later v'') : v.Later v'' where
  named hnamed := h'.named (h.named hnamed)
  ended hended :=
    ⟨(h'.ended (h.ended hended).1).1, (h'.ended (h.ended hended).1).2.trans (h.ended hended).2⟩

theorem later_touch (now : Nat) (v : Visit) (deed : Deed) : v.Later (v.touch now deed) where
  named hnamed := by
    obtain ⟨⟨hello, rest⟩, hhello⟩ := Option.ne_none_iff_exists'.1 hnamed
    obtain ⟨rest', htouched⟩ := hello?_touch hhello now deed
    rw [htouched]
    exact nofun
  ended hended := ⟨(touch_keeps now v deed).2.trans hended, (touch_keeps now v deed).1⟩

theorem later_took (hstep : v.task.move? now v.socket hub choice = some turn) :
    v.Later (v.took turn) where
  named hnamed := hnamed
  ended hended := by
    rw [hended] at hstep
    cases hstep

theorem later_strike (struck : UInt64 → Bool) (v : Visit) : v.Later (v.strike struck) :=
  ⟨fun h => h, fun h => ⟨h, rfl⟩⟩

end Visit

end Switchboard.Logic
