import Mathlib.Data.List.Chain
import Switchboard.Link.Worker
import Switchboard.Proofs.Link.Retry

/-!
# Life — a worker on a clock, from its start to its end

A worker that has failed waits as long as its retry state says, to the millisecond, and dials again;
only a stop can come in between, and ends everything. Which states it publishes in which order, and
what its retry state has been told, can be read off the signals that it has taken.
-/

namespace Switchboard.Link

open WebSocket

/-! ## 1. What a signal does to a worker -/

/-- The states that a worker may publish after one another. -/
inductive State.Leads : State → State → Prop
  | start : Leads .disconnected .connecting
  | link : Leads .connecting .linked
  | refused : Leads .connecting .backoff
  | broken : Leads .linked .backoff
  | again : Leads .backoff .connecting
  | stop {s : State} (h : s ≠ .disconnected) : Leads s .disconnected

/-- The signals that take a worker from one phase to the next, or leave it on a stream that goes
on. -/
inductive Phase.Advances : Phase → Signal → Phase → Prop
  | dial : Advances .idle .start .dialling
  | connect : Advances .dialling .connected .greeting
  | link : Advances .greeting .greeted .streaming
  | stream {item : Item} (h : item.end? = none) : Advances .streaming (.item item) .streaming

/-- The signals by which a phase fails. -/
inductive Phase.Fails : Phase → Signal → Fault → Prop
  | dialling (fault : TransportFault) : Fails .dialling (.unreachable fault) (.connect fault)
  | greeting (reason : String) : Fails .greeting (.unheard reason) (.handshake reason)
  | streaming {item : Item} {fault : Fault} (h : item.end? = some fault) :
      Fails .streaming (.item item) fault

/-- The failure that a signal tells of. -/
def Signal.fault? : Signal → Option Fault
  | .unreachable fault => some (.connect fault)
  | .unheard reason => some (.handshake reason)
  | .item next => next.end?
  | .start | .connected | .greeted | .elapsed | .stop => none

/-- What the retry state is told by a signal: a failure, or a frame that decodes. -/
def Signal.report? (s : Signal) : Option Retry.Report :=
  match s with
  | .item (.message (.text text)) =>
    if (Wire.Envelope.ofText text).isOk then some .message else none
  | _ => s.fault?.map fun fault => .failure fault.status

theorem Signal.fault?_of_report?_none {s : Signal} (h : s.report? = none) : s.fault? = none := by
  unfold report? at h
  split at h
  · rfl
  · exact Option.map_eq_none_iff.1 h

section Phase

variable {now next : Phase} {s : Signal} {fault : Fault}

theorem Phase.Advances.ne_stop (h : now.Advances s next) : s ≠ .stop := by
  rintro rfl
  cases h

theorem Phase.Fails.ne_stop (h : now.Fails s fault) : s ≠ .stop := by
  rintro rfl
  cases h

theorem Phase.Fails.fault?_eq (h : now.Fails s fault) : s.fault? = some fault := by
  cases h with
  | dialling | greeting => rfl
  | streaming h => exact h

end Phase

namespace Worker

variable {w : Worker} {node : Gateway.Node} {s : Signal} {clock : Nat} {p : Progress}

/-- Everything that a signal can do to a worker. -/
inductive Moves (clock : Nat) (w : Worker) : Signal → Worker → Prop
  | start (h : w.phase = .idle) : Moves clock w .start { w with phase := .dialling }
  | again {wake : Nat} (h : w.phase = .waiting wake) (hdue : wake ≤ clock) :
      Moves clock w .elapsed { w with phase := .dialling }
  | stop (hstarted : w.phase ≠ .idle) (hrunning : w.phase ≠ .stopped) :
      Moves clock w .stop { w with phase := .stopped }
  | connected (h : w.phase = .dialling) : Moves clock w .connected { w with phase := .greeting }
  | greeted (h : w.phase = .greeting) : Moves clock w .greeted { w with phase := .streaming }
  | failed {s : Signal} {fault : Fault} (h : w.state = .connecting ∨ w.state = .linked)
      (hfault : s.fault? = some fault) :
      Moves clock w s
        { phase := .waiting (clock + (w.retry.afterFailure fault.status).1.wait)
          retry := (w.retry.afterFailure fault.status).2 }
  | heard {text : String} {envelope : Wire.Envelope} (h : w.phase = .streaming)
      (hok : Wire.Envelope.ofText text = .ok envelope) :
      Moves clock w (.item (.message (.text text))) { w with retry := w.retry.afterMessage }
  | ignored {item : Item} (h : w.phase = .streaming)
      (hnone : (Signal.item item).report? = none) : Moves clock w (.item item) w

theorem moves_take (h : w.phase = .streaming) (item : Item) :
    Moves clock w (.item item) (w.take clock node item).worker := by
  unfold take
  split
  · next fault hend => exact .failed (.inr (by rw [state, h]; rfl)) hend
  · next hend =>
    split
    · next text =>
      unfold hear
      split
      · next fault hdecode =>
        exact .ignored h (by simp [Signal.report?, hdecode, Except.isOk, Except.toBool])
      · next envelope hdecode => exact .heard h hdecode
    · next hother =>
      refine .ignored h ?_
      unfold Signal.report?
      split
      · next text heq => exact absurd (Signal.item.inj heq) (hother text)
      · rw [Signal.fault?, hend]
        rfl

theorem moves_step? (h : w.step? clock node s = some p) : Moves clock w s p.worker := by
  unfold step? at h
  split at h
  · next hphase =>
    obtain rfl : _ = p := Option.some.inj h
    exact .start hphase
  · cases h
  · cases h
  · next hidle hstopped =>
    obtain rfl : _ = p := Option.some.inj h
    exact .stop hidle hstopped
  · next hphase =>
    obtain rfl : _ = p := Option.some.inj h
    exact .connected hphase
  · next hphase =>
    obtain rfl : _ = p := Option.some.inj h
    exact .failed (.inl (by rw [state, hphase]; rfl)) rfl
  · next hphase =>
    obtain rfl : _ = p := Option.some.inj h
    exact .greeted hphase
  · next hphase =>
    obtain rfl : _ = p := Option.some.inj h
    exact .failed (.inl (by rw [state, hphase]; rfl)) rfl
  · next hphase =>
    obtain rfl : _ = p := Option.some.inj h
    exact moves_take hphase _
  · next wake hphase =>
    split at h
    · next hdue =>
      obtain rfl : _ = p := Option.some.inj h
      exact .again hphase hdue
    · cases h
  · cases h

/-- An item that does not end the stream leaves the phase as it is. -/
theorem phase_take {item : Item} (h : item.end? = none) :
    (w.take clock node item).worker.phase = w.phase := by
  unfold take
  rw [h]
  dsimp only
  split
  · unfold hear
    split <;> rfl
  · rfl

/-- What a phase waits for is taken. -/
theorem step?_of_advances {phase : Phase} (clock : Nat) (node : Gateway.Node)
    (h : w.phase.Advances s phase) :
    ∃ p, w.step? clock node s = some p ∧ p.worker.phase = phase := by
  generalize hnow : w.phase = now at h
  unfold step?
  rw [hnow]
  cases h with
  | dial | connect | link => exact ⟨_, rfl, rfl⟩
  | stream hend => exact ⟨_, rfl, (phase_take hend).trans hnow⟩

/-- The worker after a failure; the wait is counted from it. -/
def failing (w : Worker) (fault : Fault) : Worker where
  phase := .waiting (w.retry.afterFailure fault.status).1.wait
  retry := (w.retry.afterFailure fault.status).2

theorem worker_fail (w : Worker) (node : Gateway.Node) (fault : Fault) :
    (w.fail 0 node fault).worker = w.failing fault := by
  simp only [fail, failing, Nat.zero_add]

/-- No failure of a phase is lost. -/
theorem step?_of_fails {fault : Fault} (clock : Nat) (node : Gateway.Node)
    (h : w.phase.Fails s fault) : w.step? clock node s = some (w.fail clock node fault) := by
  generalize hnow : w.phase = now at h
  unfold step?
  rw [hnow]
  cases h with
  | dialling | greeting => rfl
  | streaming hend => exact congrArg some (by simp only [take, hend])

/-- What a move does to the published state. -/
theorem Moves.leads {w' : Worker} (h : Moves clock w s w') :
    w.state = w'.state ∨ w.state.Leads w'.state := by
  cases h with
  | start h => exact .inr (by rw [state, h]; exact .start)
  | again h => exact .inr (by rw [state, h]; exact .again)
  | stop hstarted hrunning =>
    refine .inr (.stop fun hstate => ?_)
    unfold state at hstate
    cases hphase : w.phase with
    | idle => exact hstarted hphase
    | stopped => exact hrunning hphase
    | dialling | greeting | streaming | waiting => rw [hphase] at hstate; cases hstate
  | connected h => exact .inl (by rw [state, h]; rfl)
  | greeted h => exact .inr (by rw [state, h]; exact .link)
  | failed h =>
    rcases h with h | h
    · exact .inr (h ▸ .refused)
    · exact .inr (h ▸ .broken)
  | heard h => exact .inl rfl
  | ignored h => exact .inl rfl

theorem Moves.stopped {w' : Worker} (h : Moves clock w .stop w') : w'.phase = .stopped := by
  cases h with
  | stop => rfl
  | failed _ hfault => cases hfault

theorem Moves.not_stopped {w' : Worker} (h : Moves clock w s w') : w.phase ≠ .stopped := by
  intro hphase
  cases h with
  | start h | again h | connected h | greeted h | heard h | ignored h =>
    rw [hphase] at h
    cases h
  | stop _ hrunning => exact hrunning hphase
  | failed h => rcases h with h | h <;> rw [state, hphase] at h <;> cases h

theorem Moves.not_idle {w' : Worker} (h : Moves clock w s w') : w'.phase ≠ .idle := by
  cases h with
  | start | again | stop | connected | greeted | failed => exact nofun
  | heard h | ignored h => exact fun hphase => by rw [h] at hphase; cases hphase

/-- A worker that waits dials when the wait is over, unless it is stopped. -/
theorem Moves.of_waiting {w' : Worker} {wake : Nat} (h : Moves clock w s w')
    (hphase : w.phase = .waiting wake) :
    w'.phase = .dialling ∧ wake ≤ clock ∨ w'.phase = .stopped := by
  cases h with
  | start h | connected h | greeted h | heard h | ignored h =>
    rw [hphase] at h
    cases h
  | again h hdue =>
    rw [hphase] at h
    cases h
    exact .inl ⟨rfl, hdue⟩
  | stop => exact .inr rfl
  | failed h => rcases h with h | h <;> rw [state, hphase] at h <;> cases h

/-- A failure makes a worker wait, and nothing else does. -/
theorem Moves.waits {w' : Worker} {fault : Fault} (h : Moves clock w s w')
    (hfault : s.fault? = some fault) :
    (w.state = .connecting ∨ w.state = .linked) ∧
      w' = { phase := .waiting (clock + (w.retry.afterFailure fault.status).1.wait)
             retry := (w.retry.afterFailure fault.status).2 } := by
  cases h with
  | start | again | stop | connected | greeted | heard => cases hfault
  | failed h hfault' =>
    obtain rfl := Option.some.inj (hfault.symm.trans hfault')
    exact ⟨h, rfl⟩
  | ignored h hnone => rw [Signal.fault?_of_report?_none hnone] at hfault; cases hfault

theorem Moves.backoff_iff {w' : Worker} (h : Moves clock w s w') :
    w'.state = .backoff ↔ ∃ fault, s.fault? = some fault := by
  constructor
  · intro hstate
    cases h with
    | start | again | stop | connected | greeted => cases hstate
    | failed _ hfault => exact ⟨_, hfault⟩
    | heard h | ignored h =>
      have hlinked : w.state = .linked := by rw [state, h]; rfl
      exact absurd (hlinked.symm.trans hstate) (by decide)
  · rintro ⟨fault, hfault⟩
    rw [(h.waits hfault).2]
    rfl

theorem Moves.disconnected_iff {w' : Worker} (h : Moves clock w s w') :
    w'.state = .disconnected ↔ s = .stop := by
  constructor
  · intro hstate
    cases h with
    | start | again | connected | greeted | failed => cases hstate
    | stop => rfl
    | heard h | ignored h =>
      have hlinked : w.state = .linked := by rw [state, h]; rfl
      exact absurd (hlinked.symm.trans hstate) (by decide)
  · rintro rfl
    rw [state, h.stopped]
    rfl

theorem Moves.dial {w' : Worker} (h : Moves clock w s w') (hphase : w'.phase = .dialling) :
    w.phase = .idle ∨ w.state = .backoff := by
  cases h with
  | start h => exact .inl h
  | again h => exact .inr (by rw [state, h]; rfl)
  | stop | connected | greeted | failed => cases hphase
  | heard h | ignored h => exact absurd (h.symm.trans hphase) (by decide)

/-- What a move tells the retry state. -/
theorem Moves.retry_eq {w' : Worker} (h : Moves clock w s w') :
    w'.retry = s.report?.elim w.retry w.retry.tell := by
  cases h with
  | start | again | stop | connected | greeted => rfl
  | @failed _ fault h hfault =>
    have hreport : s.report? = some (.failure fault.status) := by
      unfold Signal.report?
      split
      · next text => cases hfault
      · rw [hfault]
        rfl
    rw [hreport]
    rfl
  | @heard text envelope h hok =>
    have hreport : Signal.report? (.item (.message (.text text))) = some .message := by
      simp [Signal.report?, hok, Except.isOk, Except.toBool]
    rw [hreport]
    rfl
  | ignored h hnone =>
    rw [hnone]
    rfl

/-- The same worker by a clock that is `k` seconds ahead. -/
def later (k : Nat) (w : Worker) : Worker :=
  { w with
    phase :=
      match w.phase with
      | .waiting wake => .waiting (wake + k)
      | phase => phase }

theorem fail_later (k : Nat) (w : Worker) (fault : Fault) :
    w.fail (clock + k) node fault =
      { w.fail clock node fault with worker := (w.fail clock node fault).worker.later k } := by
  simp only [fail, later]
  rw [Nat.add_right_comm]

/-- A worker does not mind when its clock was started. -/
theorem step?_later (clock k : Nat) (w : Worker) (node : Gateway.Node) (s : Signal) :
    (w.later k).step? (clock + k) node s =
      (w.step? clock node s).map fun p => { p with worker := p.worker.later k } := by
  obtain ⟨phase, retry⟩ := w
  cases phase with
  | waiting wake =>
    cases s with
    | elapsed =>
      simp only [step?, later, Nat.add_le_add_iff_right]
      split <;> rfl
    | _ => rfl
  | streaming =>
    cases s with
    | item item =>
      simp only [step?, later, take]
      split
      · rw [fail_later]
        rfl
      · split
        · simp only [hear]
          split <;> rfl
        · rfl
    | _ => rfl
  | dialling =>
    cases s with
    | unreachable fault =>
      simp only [step?, later]
      rw [fail_later]
      rfl
    | _ => rfl
  | greeting =>
    cases s with
    | unheard reason =>
      simp only [step?, later]
      rw [fail_later]
      rfl
    | _ => rfl
  | idle | stopped => cases s <;> rfl

end Worker

/-! ## 2. A worker on a clock -/

/-- A signal that a worker has taken, with the time in milliseconds. -/
structure Entry where
  time : Nat
  signal : Signal
  before : Worker
  after : Worker
  deriving DecidableEq, Repr, Inhabited

/-- A worker, what it has done so far, and the gateway that it serves among others. -/
structure Life where
  node : Gateway.Node
  worker : Worker := {}
  now : Nat := 0
  failed : Nat := 0
  /-- When a stop was asked for first. -/
  asked : Option Nat := none
  history : List Entry := []

inductive Occasion where
  | signal (s : Signal)
  | pass (span : Nat)
  | askStop
  | others (node : Gateway.Node)

namespace Life

/-- A waiting worker counts the seconds since it failed. -/
def clock (l : Life) : Nat :=
  match l.worker.phase with
  | .waiting _ => (l.now - l.failed) / 1000
  | _ => 0

/-- When a wait is over. -/
def due? (l : Life) : Option Nat :=
  match l.worker.phase with
  | .waiting wake => some (l.failed + 1000 * wake)
  | _ => none

/-- A signal comes. One that cannot come changes nothing, and a stop comes only when asked for. -/
def hear (l : Life) (s : Signal) : Life :=
  if s = .stop ∧ l.asked = none then l
  else
    match l.worker.step? l.clock l.node s with
    | none => l
    | some p =>
      { l with
        node := p.node
        worker := p.worker
        failed := if s.fault?.isSome then l.now else l.failed
        history := l.history ++ [⟨l.now, s, l.worker, p.worker⟩] }

/-- Time passes, but not beyond the end of a wait: the worker acts first. -/
def pass (l : Life) (span : Nat) : Life :=
  { l with now := l.due?.elim (l.now + span) (min (l.now + span)) }

def meet (l : Life) : Occasion → Life
  | .signal s => l.hear s
  | .pass span => l.pass span
  | .askStop => { l with asked := l.asked.or (some l.now) }
  | .others node => { l with node }

def after (l : Life) (occasions : List Occasion) : Life := occasions.foldl meet l

/-- The states that the worker has published, repeated where a signal has changed none. -/
def published (l : Life) : List State :=
  .disconnected :: l.history.map fun e => e.after.state

/-- What the retry state was told by some signals. -/
def reports (entries : List Entry) : List Retry.Report :=
  entries.filterMap fun e => e.signal.report?

/-! ## 3. What holds of every history -/

/-- The worker as the entries leave it. -/
def left (entries : List Entry) : Worker := (entries.getLast?.map Entry.after).getD {}

/-- A failure at `time` is followed by a wait of `wait` seconds. The next entry is a dial at the end
of the wait, to the millisecond, or a stop until then, or there is none yet. -/
def Waits (time wait now : Nat) : List Entry → Prop
  | [] => now ≤ time + 1000 * wait
  | e :: _ =>
    e.after.phase = .dialling ∧ e.time = time + 1000 * wait ∨
      e.after.phase = .stopped ∧ e.time ≤ time + 1000 * wait

/-- What the history of a worker is like, move by move. -/
structure Sound (l : Life) : Prop where
  worker_eq : l.worker = left l.history
  before_eq : ∀ {before e rest}, l.history = before ++ e :: rest → e.before = left before
  moved : ∀ e ∈ l.history, ∃ clock, e.before.Moves clock e.signal e.after
  published : l.published.IsChain fun a b => a = b ∨ a.Leads b
  stop_last : ∀ {before e rest}, l.history = before ++ e :: rest → e.signal = .stop →
    rest = [] ∧ ∃ time ∈ l.asked, time ≤ e.time
  waits : ∀ {before e rest fault}, l.history = before ++ e :: rest →
    e.signal.fault? = some fault →
      Waits e.time (e.before.retry.afterFailure fault.status).1.wait l.now rest

/-- How the clock of a worker stands. -/
structure Timed (l : Life) : Prop where
  asked_le : ∀ time ∈ l.asked, time ≤ l.now
  failed_le : l.failed ≤ l.now
  now_le : ∀ {wake}, l.worker.phase = .waiting wake → l.now ≤ l.failed + 1000 * wake
  failed_eq : ∀ {before e fault}, l.history = before ++ [e] → e.signal.fault? = some fault →
    l.worker.phase = .waiting (e.before.retry.afterFailure fault.status).1.wait ∧ e.time = l.failed

variable {l : Life} {s : Signal} {p : Progress}

theorem concat_eq_append_cons {α : Type} {xs before rest : List α} {x y : α}
    (h : xs ++ [x] = before ++ y :: rest) :
    (rest = [] ∧ before = xs ∧ y = x) ∨
      ∃ rest', rest = rest' ++ [x] ∧ xs = before ++ y :: rest' := by
  rcases List.eq_nil_or_concat' rest with rfl | ⟨rest', z, rfl⟩
  · obtain ⟨hxs, hx⟩ := List.append_inj' h rfl
    exact .inl ⟨rfl, hxs.symm, (List.cons.inj hx).1.symm⟩
  · rw [← List.cons_append, ← List.append_assoc] at h
    obtain ⟨hxs, hx⟩ := List.append_inj' h rfl
    exact .inr ⟨rest', by rw [(List.cons.inj hx).1], hxs⟩

theorem left_concat (entries : List Entry) (e : Entry) : left (entries ++ [e]) = e.after := by
  rw [left, List.getLast?_concat]
  rfl

/-- The life after a signal that the worker takes. -/
def taken (l : Life) (s : Signal) (p : Progress) : Life :=
  { l with
    node := p.node
    worker := p.worker
    failed := if s.fault?.isSome then l.now else l.failed
    history := l.history ++ [⟨l.now, s, l.worker, p.worker⟩] }

theorem hear_cases (l : Life) (s : Signal) :
    l.hear s = l ∨ ∃ p, l.worker.step? l.clock l.node s = some p ∧
      (s = .stop → l.asked ≠ none) ∧ l.hear s = l.taken s p := by
  unfold hear
  split
  · exact .inl rfl
  · next hstop =>
    split
    · exact .inl rfl
    · next p hp => exact .inr ⟨p, hp, fun h hnone => hstop ⟨h, hnone⟩, rfl⟩

/-- Entries are split by the last one, or before it. -/
theorem history_taken {before rest : List Entry} {e : Entry}
    (h : (l.taken s p).history = before ++ e :: rest) :
    (rest = [] ∧ before = l.history ∧ e = ⟨l.now, s, l.worker, p.worker⟩) ∨
      ∃ rest', rest = rest' ++ [⟨l.now, s, l.worker, p.worker⟩] ∧
        l.history = before ++ e :: rest' :=
  concat_eq_append_cons h

theorem Sound.getLast?_published (h : l.Sound) : l.published.getLast? = some l.worker.state := by
  rw [h.worker_eq, Life.published, left]
  cases hlast : l.history.getLast? with
  | none =>
    rw [List.getLast?_eq_none_iff.1 hlast]
    rfl
  | some e =>
    rw [List.getLast?_cons, List.getLast?_map, hlast]
    rfl

/-- After a stop the worker takes no signal. -/
theorem Sound.not_stop_of_taken (h : l.Sound) (hp : l.worker.step? l.clock l.node s = some p)
    {before : List Entry} {e : Entry} (heq : l.history = before ++ [e]) : e.signal ≠ .stop := by
  intro hstop
  obtain ⟨clock, hmove⟩ := h.moved e (by simp [heq])
  have hworker : l.worker = e.after := by rw [h.worker_eq, heq, left_concat]
  rw [hstop] at hmove
  have hphase : l.worker.phase = .stopped := hworker ▸ hmove.stopped
  exact (Worker.moves_step? hp).not_stopped hphase

theorem Sound.taken (h : l.Sound) (ht : l.Timed) (hp : l.worker.step? l.clock l.node s = some p)
    (hasked : s = .stop → l.asked ≠ none) : (l.taken s p).Sound where
  worker_eq := by
    show p.worker = left (l.history ++ [_])
    rw [left_concat]
  before_eq heq := by
    rcases history_taken heq with ⟨-, rfl, rfl⟩ | ⟨rest', -, heq⟩
    · exact h.worker_eq
    · exact h.before_eq heq
  moved e he := by
    rcases List.mem_append.1 he with he | he
    · exact h.moved e he
    · obtain rfl := List.mem_singleton.1 he
      exact ⟨l.clock, Worker.moves_step? hp⟩
  published := by
    have hconcat : (l.taken s p).published = l.published ++ [p.worker.state] := by
      simp [Life.published, Life.taken]
    rw [hconcat, List.isChain_append]
    refine ⟨h.published, List.isChain_singleton _, fun a ha b hb => ?_⟩
    rw [h.getLast?_published] at ha
    obtain rfl := Option.some.inj ha
    obtain rfl := Option.some.inj hb
    exact (Worker.moves_step? hp).leads
  stop_last heq hstop := by
    rcases history_taken heq with ⟨rfl, -, rfl⟩ | ⟨rest', rfl, hold⟩
    · obtain ⟨time, htime⟩ := Option.ne_none_iff_exists'.1 (hasked hstop)
      exact ⟨rfl, time, htime, ht.asked_le time htime⟩
    · obtain ⟨rfl, -⟩ := h.stop_last hold hstop
      exact absurd hstop (h.not_stop_of_taken hp hold)
  waits {before e rest fault} heq hfault := by
    rcases history_taken heq with ⟨rfl, -, rfl⟩ | ⟨rest', rfl, hold⟩
    · exact Nat.le_add_right _ _
    · have hwaits := h.waits hold hfault
      cases rest' with
      | cons u rest' => exact hwaits
      | nil =>
        -- the worker has waited since, and the clock has not gone past the end of the wait
        obtain ⟨hphase, htime⟩ := ht.failed_eq hold hfault
        have hnow := ht.now_le hphase
        have hfailed := ht.failed_le
        rcases (Worker.moves_step? hp).of_waiting hphase with ⟨hdial, hdue⟩ | hstop
        · have hclock : l.clock = (l.now - l.failed) / 1000 := by rw [clock, hphase]
          refine .inl ⟨hdial, ?_⟩
          show l.now = _
          omega
        · refine .inr ⟨hstop, ?_⟩
          show l.now ≤ _
          omega

theorem Timed.taken (h : l.Timed) (hp : l.worker.step? l.clock l.node s = some p) :
    (l.taken s p).Timed where
  asked_le := h.asked_le
  failed_le := by
    show (if s.fault?.isSome then l.now else l.failed) ≤ l.now
    split
    · exact Nat.le_refl _
    · exact h.failed_le
  now_le {wake} hphase := by
    have hstate : p.worker.state = .backoff := congrArg Phase.state hphase
    obtain ⟨fault, hfault⟩ := (Worker.moves_step? hp).backoff_iff.1 hstate
    show l.now ≤ (if s.fault?.isSome then l.now else l.failed) + _
    rw [hfault, Option.isSome_some, if_pos rfl]
    exact Nat.le_add_right _ _
  failed_eq {before e fault} heq hfault := by
    rcases history_taken heq with ⟨-, -, rfl⟩ | ⟨rest', hnil, -⟩
    · obtain ⟨hstate, hworker⟩ := (Worker.moves_step? hp).waits hfault
      have hclock : l.clock = 0 := by
        unfold clock
        split
        · next hphase =>
          rw [Worker.state, hphase] at hstate
          rcases hstate with hstate | hstate <;> cases hstate
        · rfl
      rw [hclock, Nat.zero_add] at hworker
      refine ⟨congrArg Worker.phase hworker, ?_⟩
      show l.now = if s.fault?.isSome then l.now else l.failed
      rw [hfault, Option.isSome_some, if_pos rfl]
    · simp at hnil

/-! ## 4. Other occasions -/

theorem due?_eq_some {wake : Nat} (h : l.worker.phase = .waiting wake) :
    l.due? = some (l.failed + 1000 * wake) := by
  rw [due?, h]

theorem now_le_pass (l : Life) (h : l.Timed) (span : Nat) : l.now ≤ (l.pass span).now := by
  show l.now ≤ l.due?.elim _ _
  cases hphase : l.worker.phase with
  | waiting wake =>
    rw [due?_eq_some hphase]
    exact Nat.le_min.2 ⟨Nat.le_add_right _ _, h.now_le hphase⟩
  | _ => rw [due?, hphase]; exact Nat.le_add_right _ _

theorem pass_le {wake : Nat} (h : l.worker.phase = .waiting wake) (span : Nat) :
    (l.pass span).now ≤ l.failed + 1000 * wake := by
  show l.due?.elim _ _ ≤ _
  rw [due?_eq_some h]
  exact Nat.min_le_right _ _

theorem Timed.pass (h : l.Timed) (span : Nat) : (l.pass span).Timed where
  asked_le time htime := Nat.le_trans (h.asked_le time htime) (now_le_pass l h span)
  failed_le := Nat.le_trans h.failed_le (now_le_pass l h span)
  now_le hphase := pass_le (l := l) hphase span
  failed_eq := h.failed_eq

theorem Sound.pass (h : l.Sound) (ht : l.Timed) (span : Nat) : (l.pass span).Sound where
  worker_eq := h.worker_eq
  before_eq := h.before_eq
  moved := h.moved
  published := h.published
  stop_last := h.stop_last
  waits {before e rest fault} heq hfault := by
    cases rest with
    | cons u rest => exact h.waits heq hfault
    | nil =>
      -- nothing has come since, so the worker still waits
      obtain ⟨hphase, htime⟩ := ht.failed_eq heq hfault
      rw [htime]
      exact pass_le hphase span

theorem Sound.askStop (h : l.Sound) : (l.meet .askStop).Sound where
  worker_eq := h.worker_eq
  before_eq := h.before_eq
  moved := h.moved
  published := h.published
  stop_last heq hstop := by
    obtain ⟨hlast, time, htime, hle⟩ := h.stop_last heq hstop
    refine ⟨hlast, time, ?_, hle⟩
    show l.asked.or _ = some time
    rw [show l.asked = some time from htime]
    rfl
  waits := h.waits

theorem Timed.askStop (h : l.Timed) : (l.meet .askStop).Timed where
  asked_le time htime := by
    have hasked : l.asked.or (some l.now) = some time := htime
    rcases Option.or_eq_some_iff.1 hasked with hasked | ⟨-, hnow⟩
    · exact h.asked_le time hasked
    · exact Nat.le_of_eq (Option.some.inj hnow).symm
  failed_le := h.failed_le
  now_le := h.now_le
  failed_eq := h.failed_eq

theorem sound_meet (h : l.Sound ∧ l.Timed) (o : Occasion) :
    (l.meet o).Sound ∧ (l.meet o).Timed := by
  cases o with
  | signal s =>
    show (l.hear s).Sound ∧ (l.hear s).Timed
    rcases hear_cases l s with hsame | ⟨p, hp, hasked, htaken⟩
    · rwa [hsame]
    · rw [htaken]
      exact ⟨h.1.taken h.2 hp hasked, h.2.taken hp⟩
  | pass span => exact ⟨h.1.pass h.2 span, h.2.pass span⟩
  | askStop => exact ⟨h.1.askStop, h.2.askStop⟩
  | others node =>
    obtain ⟨hsound, htimed⟩ := h
    exact ⟨⟨hsound.worker_eq, hsound.before_eq, hsound.moved, hsound.published,
      hsound.stop_last, hsound.waits⟩,
      ⟨htimed.asked_le, htimed.failed_le, htimed.now_le, htimed.failed_eq⟩⟩

theorem ne_append_cons {before rest : List Entry} {e : Entry} :
    ¬ ([] : List Entry) = before ++ e :: rest := by
  simp

theorem sound_start (node : Gateway.Node) : ({ node } : Life).Sound where
  worker_eq := rfl
  before_eq h := absurd h ne_append_cons
  moved _ he := absurd he List.not_mem_nil
  published := List.isChain_singleton _
  stop_last h := absurd h ne_append_cons
  waits h := absurd h ne_append_cons

theorem timed_start (node : Gateway.Node) : ({ node } : Life).Timed where
  asked_le time htime := by cases htime
  failed_le := Nat.le_refl _
  now_le h := by cases h
  failed_eq h := absurd h ne_append_cons

theorem sound_after (h : l.Sound ∧ l.Timed) (occasions : List Occasion) :
    (l.after occasions).Sound ∧ (l.after occasions).Timed := by
  induction occasions generalizing l with
  | nil => exact h
  | cons o occasions ih => exact ih (sound_meet h o)

/-! ## 5. What a history tells -/

namespace Sound

theorem reports_concat (entries : List Entry) (e : Entry) :
    reports (entries ++ [e]) = reports entries ++ e.signal.report?.toList := by
  rw [reports, List.filterMap_append]
  cases h : e.signal.report? <;> simp [h, reports]

/-- An entry changes the retry state by what its signal reports. -/
theorem after_retry (h : l.Sound) {e : Entry} (he : e ∈ l.history) :
    e.after.retry = e.signal.report?.elim e.before.retry e.before.retry.tell := by
  obtain ⟨clock, hmove⟩ := h.moved e he
  exact hmove.retry_eq

theorem left_retry (h : l.Sound) {before rest : List Entry} (heq : l.history = before ++ rest) :
    (left before).retry = Retry.after (reports before) := by
  induction before using List.reverseRecOn generalizing rest with
  | nil => rfl
  | append_singleton before e ih =>
    rw [List.append_assoc] at heq
    have hbefore := h.before_eq heq
    rw [left_concat, h.after_retry (by simp [heq]), hbefore, ih heq, reports_concat]
    cases e.signal.report? with
    | none => simp
    | some report => exact (Retry.after_concat _ report).symm

theorem before_retry (h : l.Sound) {before rest : List Entry} {e : Entry}
    (heq : l.history = before ++ e :: rest) : e.before.retry = Retry.after (reports before) := by
  rw [h.before_eq heq]
  exact h.left_retry heq

theorem dial (h : l.Sound) {before rest : List Entry} {e : Entry}
    (heq : l.history = before ++ e :: rest) (hphase : e.after.phase = .dialling) :
    before = [] ∨ ∃ u fault, before.getLast? = some u ∧ u.signal.fault? = some fault := by
  obtain ⟨clock, hmove⟩ := h.moved e (by simp [heq])
  have hbefore := h.before_eq heq
  cases hlast : before.getLast? with
  | none => exact .inl (List.getLast?_eq_none_iff.1 hlast)
  | some u =>
    have hu : u ∈ l.history := heq ▸ List.mem_append_left _ (List.mem_of_getLast? hlast)
    obtain ⟨clock', hmove'⟩ := h.moved u hu
    have hafter : e.before = u.after := by
      rw [hbefore, left, hlast]
      rfl
    rcases hmove.dial hphase with hidle | hstate
    · exact absurd (hafter ▸ hidle) hmove'.not_idle
    · rw [hafter] at hstate
      obtain ⟨fault, hfault⟩ := hmove'.backoff_iff.1 hstate
      exact .inr ⟨u, fault, rfl, hfault⟩

/-- Only a stop stops a worker. -/
theorem asked_of_stopped (h : l.Sound) (hphase : l.worker.phase = .stopped) : l.asked ≠ none := by
  rw [h.worker_eq, left] at hphase
  cases hlast : l.history.getLast? with
  | none =>
    rw [hlast] at hphase
    cases hphase
  | some e =>
    rw [hlast] at hphase
    obtain ⟨before, heq⟩ := List.getLast?_eq_some_iff.1 hlast
    obtain ⟨clock, hmove⟩ := h.moved e (by simp [heq])
    have hstate : e.after.state = .disconnected := congrArg Phase.state hphase
    obtain ⟨-, time, htime, -⟩ := h.stop_last heq (hmove.disconnected_iff.1 hstate)
    exact Option.ne_none_iff_exists'.2 ⟨time, htime⟩

end Sound

theorem hear_of_stopped (h : l.worker.phase = .stopped) (s : Signal) : l.hear s = l := by
  rcases hear_cases l s with hsame | ⟨p, hp, -⟩
  · exact hsame
  · exact absurd h (Worker.moves_step? hp).not_stopped

theorem after_of_stopped (h : l.worker.phase = .stopped) (occasions : List Occasion) :
    (l.after occasions).worker = l.worker ∧ (l.after occasions).history = l.history := by
  induction occasions generalizing l with
  | nil => exact ⟨rfl, rfl⟩
  | cons o occasions ih =>
    have hmeet : (l.meet o).worker = l.worker ∧ (l.meet o).history = l.history := by
      cases o with
      | signal s =>
        show (l.hear s).worker = _ ∧ (l.hear s).history = _
        rw [hear_of_stopped h]
        exact ⟨rfl, rfl⟩
      | pass | askStop | others => exact ⟨rfl, rfl⟩
    obtain ⟨hworker, hhistory⟩ := ih (l := l.meet o) (hmeet.1 ▸ h)
    exact ⟨hworker.trans hmeet.1, hhistory.trans hmeet.2⟩

/-- A worker that runs stops at once when it is asked to and comes to it. -/
theorem stopped_hear (hasked : l.asked ≠ none) (hidle : l.worker.phase ≠ .idle)
    (hrunning : l.worker.phase ≠ .stopped) : (l.hear .stop).worker.phase = .stopped := by
  rw [hear, if_neg fun h => hasked h.2]
  unfold Worker.step?
  cases hphase : l.worker.phase with
  | idle => exact absurd hphase hidle
  | stopped => exact absurd hphase hrunning
  | _ => rfl

theorem hear_of_step? (h : l.worker.step? l.clock l.node s = some p) (hstop : s ≠ .stop) :
    l.hear s = l.taken s p := by
  rw [hear, if_neg fun hs => hstop hs.1, h]
  rfl

theorem hear_of_advances {phase : Phase} (h : l.worker.phase.Advances s phase) :
    (l.hear s).worker.phase = phase ∧
      (l.hear s).history = l.history ++ [⟨l.now, s, l.worker, (l.hear s).worker⟩] := by
  obtain ⟨p, hp, hphase⟩ := Worker.step?_of_advances l.clock l.node h
  rw [hear_of_step? hp h.ne_stop]
  exact ⟨hphase, rfl⟩

/-- A failure is taken at once, and the wait begins with it. -/
theorem hear_of_fails {fault : Fault} (h : l.worker.phase.Fails s fault) :
    (l.hear s).now = l.now ∧ (l.hear s).failed = l.now ∧
      (l.hear s).worker = l.worker.failing fault ∧
      (l.hear s).history = l.history ++ [⟨l.now, s, l.worker, l.worker.failing fault⟩] := by
  have hclock : l.clock = 0 := by
    unfold clock
    cases hphase : l.worker.phase with
    | waiting wake =>
      rw [hphase] at h
      cases h
    | _ => rfl
  have hp := Worker.step?_of_fails l.clock l.node h
  rw [hear_of_step? hp h.ne_stop, taken, h.fault?_eq, hclock, Worker.worker_fail]
  exact ⟨rfl, rfl, rfl, rfl⟩

theorem due_of_fails {fault : Fault} (h : l.worker.phase.Fails s fault) :
    (l.hear s).worker = l.worker.failing fault ∧
      (l.hear s).due? = some (l.now + 1000 * (l.worker.retry.afterFailure fault.status).1.wait) ∧
      (l.hear s).history = l.history ++ [⟨l.now, s, l.worker, l.worker.failing fault⟩] := by
  obtain ⟨-, hfailed, hworker, hhistory⟩ := hear_of_fails h
  exact ⟨hworker, hfailed ▸ due?_eq_some (congrArg Worker.phase hworker), hhistory⟩

theorem pass_of_waiting {wake span : Nat} (h : l.worker.phase = .waiting wake)
    (hspan : l.failed + 1000 * wake ≤ l.now + span) :
    (l.pass span).now = l.failed + 1000 * wake := by
  show l.due?.elim _ _ = _
  rw [due?_eq_some h]
  exact Nat.min_eq_right hspan

theorem hear_elapsed {wake : Nat} (h : l.worker.phase = .waiting wake)
    (hnow : l.now = l.failed + 1000 * wake) :
    (l.hear .elapsed).worker = { l.worker with phase := .dialling } ∧
      (l.hear .elapsed).history =
        l.history ++ [⟨l.now, .elapsed, l.worker, { l.worker with phase := .dialling }⟩] := by
  have hclock : wake ≤ l.clock := by
    rw [clock, h]
    show wake ≤ (l.now - l.failed) / 1000
    omega
  have hstep : l.worker.step? l.clock l.node .elapsed = some (l.worker.dial l.node) := by
    unfold Worker.step?
    simp only [h, if_pos hclock]
  rw [hear_of_step? hstep nofun]
  exact ⟨rfl, rfl⟩

theorem dialling_hear (h : l.due? = some l.now) : (l.hear .elapsed).worker.phase = .dialling := by
  cases hphase : l.worker.phase with
  | waiting wake =>
    rw [due?_eq_some hphase] at h
    exact congrArg Worker.phase (hear_elapsed hphase (Option.some.inj h).symm).1
  | _ => rw [due?, hphase] at h; cases h

/-- After a failure and its whole wait the worker dials, and nothing has come in between. -/
theorem redialled {fault : Fault} {wait span : Nat} (h : l.worker.phase.Fails s fault)
    (hwait : (l.worker.retry.afterFailure fault.status).1.wait = wait)
    (hspan : 1000 * wait ≤ span) :
    let failing := l.worker.failing fault
    let redialled := (l.hear s).after [.pass span, .signal .elapsed]
    redialled.worker = { failing with phase := .dialling } ∧
      redialled.history = l.history ++
        [⟨l.now, s, l.worker, failing⟩,
          ⟨l.now + 1000 * wait, .elapsed, failing, { failing with phase := .dialling }⟩] := by
  intro failing redialled
  obtain ⟨hnow, hfailed, hworker, hhistory⟩ := hear_of_fails h
  have hphase : (l.hear s).worker.phase = .waiting wait := by
    rw [hworker]
    exact congrArg Phase.waiting hwait
  have hpass : ((l.hear s).pass span).now = (l.hear s).failed + 1000 * wait :=
    pass_of_waiting hphase (by omega)
  obtain ⟨hdial, hentry⟩ := hear_elapsed (l := (l.hear s).pass span) hphase hpass
  have hkept : ((l.hear s).pass span).worker = failing := hworker
  have hentries : ((l.hear s).pass span).history = (l.hear s).history := rfl
  rw [hkept] at hdial hentry
  rw [hpass, hfailed, hentries, hhistory, List.append_assoc] at hentry
  exact ⟨hdial, hentry⟩

/-- What a worker does in its life. -/
structure Regular (l : Life) : Prop where
  /-- The published state goes its way from Disconnected to what it is now. -/
  published : l.published.IsChain fun a b => a = b ∨ a.Leads b
  current : l.published.getLast? = some l.worker.state
  /-- Only a stop leads back to Disconnected. It was asked for, and nothing comes after it. -/
  disconnected_iff : ∀ e ∈ l.history, e.after.state = .disconnected ↔ e.signal = .stop
  stop_last : ∀ {before e rest}, l.history = before ++ e :: rest → e.signal = .stop →
    rest = [] ∧ ∃ time ∈ l.asked, time ≤ e.time
  never_ends : l.asked = none → l.worker.phase ≠ .stopped
  can_stop : l.asked ≠ none → l.worker.phase ≠ .idle → l.worker.phase ≠ .stopped →
    (l.hear .stop).worker.phase = .stopped
  final : l.worker.phase = .stopped → (∀ s, l.hear s = l) ∧
    ∀ more, (l.after more).worker = l.worker ∧ (l.after more).history = l.history
  /-- Every failure leads to Backoff and nothing else does, for the wait of the retry state. -/
  backoff_iff : ∀ e ∈ l.history, e.after.state = .backoff ↔ ∃ fault, e.signal.fault? = some fault
  waits : ∀ {before e rest fault}, l.history = before ++ e :: rest →
    e.signal.fault? = some fault →
      Waits e.time (e.before.retry.afterFailure fault.status).1.wait l.now rest
  /-- A dial is the first entry or follows a failure, and is not put off beyond the wait. -/
  dial : ∀ {before e rest}, l.history = before ++ e :: rest → e.after.phase = .dialling →
    before = [] ∨ ∃ u fault, before.getLast? = some u ∧ u.signal.fault? = some fault
  redials : l.due? = some l.now → (l.hear .elapsed).worker.phase = .dialling
  /-- Nothing that a phase waits for is lost, neither what goes well nor a failure. -/
  advances : ∀ {s phase}, l.worker.phase.Advances s phase →
    (l.hear s).worker.phase = phase ∧
      (l.hear s).history = l.history ++ [⟨l.now, s, l.worker, (l.hear s).worker⟩]
  fails : ∀ {s fault}, l.worker.phase.Fails s fault →
    (l.hear s).worker = l.worker.failing fault ∧
      (l.hear s).due? = some (l.now + 1000 * (l.worker.retry.afterFailure fault.status).1.wait) ∧
      (l.hear s).history = l.history ++ [⟨l.now, s, l.worker, l.worker.failing fault⟩]
  /-- A failure and, as long as the wait after it is, the next dial: nothing is in between. -/
  redialled : ∀ {s fault wait span}, l.worker.phase.Fails s fault →
    (l.worker.retry.afterFailure fault.status).1.wait = wait → 1000 * wait ≤ span →
    let failing := l.worker.failing fault
    let redialled := (l.hear s).after [.pass span, .signal .elapsed]
    redialled.worker = { failing with phase := .dialling } ∧
      redialled.history = l.history ++
        [⟨l.now, s, l.worker, failing⟩,
          ⟨l.now + 1000 * wait, .elapsed, failing, { failing with phase := .dialling }⟩]
  /-- The retry state is told of failures and of frames that decode, and of nothing else. -/
  retry : ∀ {before e rest}, l.history = before ++ e :: rest →
    e.before.retry = Retry.after (reports before)
  kept : ∀ e ∈ l.history, e.signal.report? = none → e.after.retry = e.before.retry

/-- Whatever a worker meets with in its life, and whenever it is stopped, it is regular. -/
theorem regular_after (node : Gateway.Node) (occasions : List Occasion) :
    (({ node } : Life).after occasions).Regular := by
  obtain ⟨h, -⟩ := sound_after ⟨sound_start node, timed_start node⟩ occasions
  exact {
    published := h.published
    current := h.getLast?_published
    disconnected_iff := fun e he => (h.moved e he).elim fun _ hmove => hmove.disconnected_iff
    stop_last := h.stop_last
    never_ends := fun hasked hphase => h.asked_of_stopped hphase hasked
    can_stop := stopped_hear
    final := fun hphase => ⟨hear_of_stopped hphase, after_of_stopped hphase⟩
    backoff_iff := fun e he => (h.moved e he).elim fun _ hmove => hmove.backoff_iff
    waits := h.waits
    dial := h.dial
    redials := dialling_hear
    advances := hear_of_advances
    fails := fun hfails => due_of_fails hfails
    redialled := redialled
    retry := h.before_retry
    kept := fun e he hnone => by rw [h.after_retry he, hnone, Option.elim_none] }

/-- A target that refuses at first, and a link that then breaks and is opened again. -/
def relinked : List Occasion :=
  [.signal .start, .signal (.unreachable .io), .signal .elapsed, .signal .connected,
    .signal .greeted, .signal (.item .ended), .pass 60000, .signal .elapsed, .signal .connected,
    .signal .greeted]

/-- No frame has come since the start, so the next failure is the third in a row: it makes the
worker wait for twenty seconds. -/
theorem regular_after_relinked :
    let l := ({ node := {} } : Life).after relinked
    l.Regular ∧
    l.published = [.disconnected, .connecting, .backoff, .connecting, .connecting, .linked,
      .backoff, .connecting, .connecting, .linked] ∧
    l.history.map Entry.time = [0, 0, 0, 0, 0, 0, 10000, 10000, 10000] ∧
    l.worker.phase = .streaming ∧ Item.end? .ended = some .closed ∧
    ((l.hear (.item .ended)).after [.pass 60000, .signal .elapsed]).history.map Entry.time =
      l.history.map Entry.time ++ [10000, 30000] := by
  intro l
  have hregular : l.Regular := regular_after {} relinked
  have hfails : l.worker.phase.Fails (.item .ended) .closed := .streaming rfl
  have hwait : (l.worker.retry.afterFailure Fault.closed.status).1.wait = 20 := by decide +kernel
  have hspan : 1000 * 20 ≤ 60000 := by decide
  obtain ⟨-, hhistory⟩ := hregular.redialled hfails hwait hspan
  have hnow : l.now = 10000 := by decide +kernel
  refine ⟨hregular, by decide +kernel, by decide +kernel, rfl, rfl, ?_⟩
  rw [hhistory, List.map_append, hnow]
  rfl

end Life

end Switchboard.Link
