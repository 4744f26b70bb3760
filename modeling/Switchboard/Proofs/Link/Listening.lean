import Switchboard.Link.Worker

/-!
# Listening — what a linked worker makes of its stream

A worker takes the items of its stream one at a time until one of them ends it. Only the texts that
decode do anything before that: each ends the outage, and goes to the gateway as it comes. So the
gateway is what the envelopes of the stream have made of it, one after another.
-/

namespace Switchboard.Link

open WebSocket Wire

/-! ## 1. Items -/

/-- The items that end a stream, and the failure that each is reported as. -/
inductive Item.Ends : Item → Fault → Prop
  | closed (reason) : Ends (.message (.close reason)) .closed
  | ended : Ends .ended .closed
  | broken (fault : TransportFault) : Ends (.broken fault) (.transport fault)

/-- What a frame brings to the gateway: the envelope of a text that decodes. -/
def Item.envelope? : Item → Option Envelope
  | .message (.text text) => (Envelope.ofText text).toOption
  | _ => none

/-- The envelopes that a stream brings, in its order. -/
def envelopes (stream : List (Nat × Item)) : List Envelope :=
  stream.filterMap fun e => e.2.envelope?

variable {item : Item} {fault : Fault}

theorem Item.end?_eq_some_iff : item.end? = some fault ↔ item.Ends fault := by
  constructor
  · intro h
    unfold end? at h
    split at h <;> cases h <;> constructor
  · intro h
    cases h <;> rfl

theorem Item.end?_eq_none_iff : item.end? = none ↔ ∀ fault, ¬ item.Ends fault := by
  simp only [Option.eq_none_iff_forall_ne_some, ne_eq, end?_eq_some_iff]

/-- The retry state of a worker that has decoded these envelopes. -/
def Retry.afterAll (retry : Retry) (heard : List Envelope) : Retry :=
  if heard = [] then retry else ⟨0, some .ok⟩

/-- The gateway when these envelopes have come to it, one after another. -/
def acceptAll (node : Gateway.Node) (heard : List Envelope) : Gateway.Node :=
  heard.foldl (fun node envelope => (node.accept envelope).1) node

theorem Retry.afterAll_cons (retry : Retry) (envelope : Envelope) (heard : List Envelope) :
    retry.afterMessage.afterAll heard = retry.afterAll (envelope :: heard) := by
  simp [afterAll, afterMessage]

/-- The items before the first that ends the stream, that item, and the rest. -/
theorem exists_end (stream : List (Nat × Item)) :
    (∀ e ∈ stream, e.2.end? = none) ∨
      ∃ before now item fault rest, stream = before ++ (now, item) :: rest ∧
        (∀ e ∈ before, e.2.end? = none) ∧ item.end? = some fault := by
  induction stream with
  | nil => exact .inl (by simp)
  | cons e stream ih =>
    cases hend : e.2.end? with
    | some fault => exact .inr ⟨[], e.1, e.2, fault, stream, rfl, by simp, hend⟩
    | none =>
      rcases ih with hgoes | ⟨before, now, item, fault, rest, rfl, hgoes, hends⟩
      · exact .inl (List.forall_mem_cons.2 ⟨hend, hgoes⟩)
      · exact .inr ⟨e :: before, now, item, fault, rest, rfl, List.forall_mem_cons.2 ⟨hend, hgoes⟩,
          hends⟩

/-! ## 2. One item -/

namespace Worker

variable (w : Worker) (now : Nat) (node : Gateway.Node)

theorem take_of_end (hend : item.end? = some fault) :
    w.take now node item = w.fail now node fault := by
  simp [take, hend]

/-- A frame that brings nothing is passed over. -/
theorem take_of_nothing (hgoes : item.end? = none) (hnothing : item.envelope? = none) :
    (w.take now node item).worker = w ∧ (w.take now node item).node = node := by
  cases item with
  | message m =>
    cases m with
    | text text =>
      cases hdecode : Envelope.ofText text with
      | error fault => simp [take, Item.end?, hear, hdecode]
      | ok envelope => simp [Item.envelope?, hdecode, Except.toOption] at hnothing
    | close reason => cases hgoes
    | _ => exact ⟨rfl, rfl⟩
  | ended | broken => cases hgoes

theorem take_of_envelope {envelope : Envelope} (hbrings : item.envelope? = some envelope) :
    (w.take now node item).worker = { w with retry := w.retry.afterMessage } ∧
      (w.take now node item).node = (node.accept envelope).1 := by
  cases item with
  | message m =>
    cases m with
    | text text =>
      cases hdecode : Envelope.ofText text with
      | error fault => simp [Item.envelope?, hdecode, Except.toOption] at hbrings
      | ok x =>
        obtain rfl : x = envelope := by
          simpa [Item.envelope?, hdecode, Except.toOption] using hbrings
        simp [take, Item.end?, hear, hdecode]
    | _ => cases hbrings
  | ended | broken => cases hbrings

end Worker

/-! ## 3. A worker on its stream -/

namespace Progress

/-- One more item, at its time. An item that cannot come changes nothing. -/
def hear (p : Progress) (e : Nat × Item) : Progress :=
  match p.worker.step? e.1 p.node (.item e.2) with
  | none => p
  | some next => { next with notes := p.notes ++ next.notes }

def listen (p : Progress) (stream : List (Nat × Item)) : Progress := stream.foldl hear p

variable {p : Progress} {e : Nat × Item}

theorem hear_of_streaming (h : p.worker.phase = .streaming) (e : Nat × Item) :
    p.hear e =
      { p.worker.take e.1 p.node e.2 with
        notes := p.notes ++ (p.worker.take e.1 p.node e.2).notes } := by
  obtain ⟨⟨phase, retry⟩, node, notes⟩ := p
  obtain rfl : phase = .streaming := h
  rfl

/-- Once the stream has ended, the worker hears nothing more of it. -/
theorem listen_of_waiting {wake : Nat} (h : p.worker.phase = .waiting wake)
    (stream : List (Nat × Item)) : p.listen stream = p := by
  induction stream with
  | nil => rfl
  | cons e stream ih =>
    have hdeaf : p.hear e = p := by
      obtain ⟨⟨phase, retry⟩, node, notes⟩ := p
      obtain rfl : phase = .waiting wake := h
      rfl
    show (p.hear e).listen stream = p
    rw [hdeaf, ih]

theorem listen_append (p : Progress) (before after : List (Nat × Item)) :
    p.listen (before ++ after) = (p.listen before).listen after :=
  List.foldl_append

/-- What becomes of a worker and its gateway does not depend on what was noted before. -/
theorem listen_congr {q : Progress} (hworker : p.worker = q.worker) (hnode : p.node = q.node)
    (stream : List (Nat × Item)) :
    (p.listen stream).worker = (q.listen stream).worker ∧
      (p.listen stream).node = (q.listen stream).node := by
  induction stream generalizing p q with
  | nil => exact ⟨hworker, hnode⟩
  | cons e stream ih =>
    have hstep : (p.hear e).worker = (q.hear e).worker ∧ (p.hear e).node = (q.hear e).node := by
      unfold hear
      rw [hworker, hnode]
      split <;> simp [hworker, hnode]
    exact ih hstep.1 hstep.2

/-- A frame that brings nothing might as well not have come, whatever the worker is at. -/
theorem listen_cons_of_nothing
    (h : p.worker.phase = .streaming ∨ ∃ wake, p.worker.phase = .waiting wake)
    (hgoes : e.2.end? = none) (hnothing : e.2.envelope? = none) (stream : List (Nat × Item)) :
    (p.listen (e :: stream)).worker = (p.listen stream).worker ∧
      (p.listen (e :: stream)).node = (p.listen stream).node := by
  rcases h with hstreaming | ⟨wake, hwaiting⟩
  · have hsame := p.worker.take_of_nothing e.1 p.node hgoes hnothing
    refine listen_congr ?_ ?_ stream
    · rw [hear_of_streaming hstreaming]
      exact hsame.1
    · rw [hear_of_streaming hstreaming]
      exact hsame.2
  · simp [listen_of_waiting hwaiting]

/-! ## 4. The whole stream -/

/-- Items that do not end the stream: its envelopes go to the gateway in their order. -/
theorem listen_of_streaming (h : p.worker.phase = .streaming) {stream : List (Nat × Item)}
    (hgoes : ∀ e ∈ stream, e.2.end? = none) :
    (p.listen stream).worker = ⟨.streaming, p.worker.retry.afterAll (envelopes stream)⟩ ∧
      (p.listen stream).node = acceptAll p.node (envelopes stream) := by
  -- on the stream: the first item leaves the worker streaming, with the gateway it has made
  induction stream generalizing p with
  | nil => exact ⟨congrArg (Worker.mk · p.worker.retry) h, rfl⟩
  | cons e stream ih =>
    have hhead : e.2.end? = none := hgoes e List.mem_cons_self
    have hrest : ∀ e' ∈ stream, e'.2.end? = none := fun e' he' =>
      hgoes e' (List.mem_cons_of_mem _ he')
    cases hbrings : e.2.envelope? with
    | none =>
      have hsame : envelopes (e :: stream) = envelopes stream := by simp [envelopes, hbrings]
      have hskip := listen_cons_of_nothing (.inl h) hhead hbrings stream
      rw [hskip.1, hskip.2, hsame]
      exact ih h hrest
    | some envelope =>
      have hmore : envelopes (e :: stream) = envelope :: envelopes stream := by
        simp [envelopes, hbrings]
      have hhear := p.worker.take_of_envelope e.1 p.node hbrings
      have hworker : (p.hear e).worker = ⟨.streaming, p.worker.retry.afterMessage⟩ := by
        rw [hear_of_streaming h, ← h]
        exact hhear.1
      have hnode : (p.hear e).node = (p.node.accept envelope).1 := by
        rw [hear_of_streaming h]
        exact hhear.2
      have hnext := ih (p := p.hear e) (by rw [hworker]) hrest
      rw [hworker, hnode, Retry.afterAll_cons, ← hmore] at hnext
      exact ⟨hnext.1, by rw [hmore]; exact hnext.2⟩

/-- The item that ends a stream is what the worker fails with, and the last that it hears. -/
theorem listen_of_end (h : p.worker.phase = .streaming) {now : Nat} (hend : item.end? = some fault)
    (rest : List (Nat × Item)) :
    p.listen ((now, item) :: rest) =
      { p.worker.fail now p.node fault with
        notes := p.notes ++ [.failed fault (p.worker.retry.afterFailure fault.status).1] } := by
  have hfails : p.hear (now, item) =
      { p.worker.fail now p.node fault with
        notes := p.notes ++ [.failed fault (p.worker.retry.afterFailure fault.status).1] } := by
    rw [hear_of_streaming h, Worker.take_of_end _ _ _ hend]
    rfl
  show (p.hear (now, item)).listen rest = _
  rw [hfails]
  exact listen_of_waiting rfl rest

/-- A linked worker streams until its stream ends, and waits from then on. -/
theorem streaming_or_waiting (h : p.worker.phase = .streaming) (stream : List (Nat × Item)) :
    (p.listen stream).worker.phase = .streaming ∨
      ∃ wake, (p.listen stream).worker.phase = .waiting wake := by
  rcases exists_end stream with hgoes | ⟨before, now, item, fault, rest, rfl, hgoes, hend⟩
  · left
    rw [(listen_of_streaming h hgoes).1]
  · right
    have hmid : (p.listen before).worker.phase = .streaming := by
      rw [(listen_of_streaming h hgoes).1]
    rw [listen_append, listen_of_end hmid hend]
    exact ⟨_, rfl⟩

end Progress

/-- What comes of a stream is read off the envelopes before the first item that ends it: the gateway
has accepted them in their order and nothing else, and the outage of before is over if there is one.
The item that ends the stream is reported, closed or broken as it is, and nothing after it matters;
nor does any other frame without an envelope, wherever in the stream it comes. -/
theorem heard_envelope_by_envelope (retry : Retry) (node : Gateway.Node) :
    let start : Progress := ⟨⟨.streaming, retry⟩, node, []⟩
    (∀ stream : List (Nat × Item), ∃ heard,
      (∀ e ∈ heard, ∀ fault, ¬ e.2.Ends fault) ∧
      (start.listen stream).node = acceptAll node (envelopes heard) ∧
      (start.listen heard).worker = ⟨.streaming, retry.afterAll (envelopes heard)⟩ ∧
      (stream = heard ∨
        ∃ now item fault rest, stream = heard ++ (now, item) :: rest ∧ item.Ends fault ∧
          (start.listen stream).worker =
            { phase := .waiting
                (now + ((retry.afterAll (envelopes heard)).afterFailure fault.status).1.wait)
              retry := ((retry.afterAll (envelopes heard)).afterFailure fault.status).2 } ∧
          (start.listen stream).notes = (start.listen heard).notes ++
            [.failed fault ((retry.afterAll (envelopes heard)).afterFailure fault.status).1] ∧
          ∀ more, start.listen (heard ++ (now, item) :: more) = start.listen stream)) ∧
    ∀ before e after, e.2.envelope? = none → (∀ fault, ¬ e.2.Ends fault) →
      (start.listen (before ++ e :: after)).worker = (start.listen (before ++ after)).worker ∧
      (start.listen (before ++ e :: after)).node = (start.listen (before ++ after)).node := by
  intro start
  have hstart : start.worker.phase = .streaming := rfl
  refine ⟨fun stream => ?heard, fun before e after hnothing hgoes => ?skipped⟩
  case heard =>
    rcases exists_end stream with hgoes | ⟨heard, now, item, fault, rest, rfl, hgoes, hend⟩
    · obtain ⟨hworker, hnode⟩ := Progress.listen_of_streaming hstart hgoes
      exact ⟨stream, fun e he => Item.end?_eq_none_iff.1 (hgoes e he), hnode, hworker, .inl rfl⟩
    · obtain ⟨hworker, hnode⟩ := Progress.listen_of_streaming hstart hgoes
      have hends : ∀ more, start.listen (heard ++ (now, item) :: more) =
          { (start.listen heard).worker.fail now (start.listen heard).node fault with
            notes := (start.listen heard).notes ++ [.failed fault
              ((start.listen heard).worker.retry.afterFailure fault.status).1] } := fun more => by
        rw [Progress.listen_append, Progress.listen_of_end (by rw [hworker]) hend]
      refine ⟨heard, fun e he => Item.end?_eq_none_iff.1 (hgoes e he), ?node, hworker, .inr
        ⟨now, item, fault, rest, rfl, Item.end?_eq_some_iff.1 hend, ?waits, ?reported, ?deaf⟩⟩
      case node =>
        rw [hends]
        exact hnode
      case waits =>
        rw [hends, hworker]
        rfl
      case reported => rw [hends, hworker]
      case deaf => exact fun more => (hends more).trans (hends rest).symm
  case skipped =>
    have hend : e.2.end? = none := Item.end?_eq_none_iff.2 hgoes
    rw [Progress.listen_append, Progress.listen_append]
    have hplace := Progress.streaming_or_waiting hstart before
    exact Progress.listen_cons_of_nothing hplace hend hnothing after

/-- Where a stream is divided by an item that ends it, the front is told by the items alone. -/
theorem eq_takeWhile_of_ends {stream heard rest : List (Nat × Item)} {now : Nat}
    (hstream : stream = heard ++ (now, item) :: rest)
    (hgoes : ∀ e ∈ heard, ∀ fault, ¬ e.2.Ends fault) (hends : item.Ends fault) :
    heard = stream.takeWhile fun e => e.2.end? = none := by
  have hfront : ∀ e ∈ heard, decide (e.2.end? = none) = true := fun e he =>
    decide_eq_true (Item.end?_eq_none_iff.2 (hgoes e he))
  rw [hstream, List.takeWhile_append_of_pos hfront, List.takeWhile_cons_of_neg, List.append_nil]
  simp [Item.end?_eq_some_iff.2 hends]

/-- A gateway with one session, which is in no group. -/
def quietGateway : Gateway.Node :=
  let (session, node) := ({} : Gateway.Node).openSession 7 1 "red" false
  ((Gateway.Script.enter session []).run node).1

/-- A command and a packet with noise in between, a close frame, and a packet that comes too
late. -/
def mixedStream : List (Nat × Item) := [
  (0, .message (.text
    "\x7b\"command\":\x7b\"kind\":\"sub_group\",\"args\":\x7b\"uid\":\"1\",\"gids\":\"10\"\x7d\x7d\x7d")),
  (1, .message (.text "\x7b\"command\":\x7b\x7d")),
  (2, .message (.ping [])),
  (3, .message (.text
    "\x7b\"packet_mixin\":\x7b\"kind\":\"GROUP\",\"target_ids\":[10],\"payload\":\"aGk=\"\x7d\x7d")),
  (5, .message (.close none)),
  (6, .message (.text
    "\x7b\"packet_mixin\":\x7b\"kind\":\"ALL\",\"payload\":\"aGk=\"\x7d\x7d"))]

/-- The session joins its group and gets the packet before the close frame, not the one after it.
The failures of before are forgotten, so the close frame counts as the first. -/
theorem heard_envelope_by_envelope_mixedStream :
    let start : Progress := ⟨⟨.streaming, ⟨3, some .internal⟩⟩, quietGateway, []⟩
    let stop := start.listen mixedStream
    stop.node = acceptAll quietGateway (envelopes (mixedStream.take 4)) ∧
    quietGateway.groups.members 10 = [] ∧ (quietGateway.post.box 0).queue = [] ∧
    stop.node.groups.members 10 = [⟨0, 7, 1, "red"⟩] ∧
    (stop.node.post.box 0).queue.map stop.node.post.pool.bytes = [[0x68, 0x69]] ∧
    stop.worker = ⟨.waiting 5, ⟨1, some .unavailable⟩⟩ ∧
    (start.listen (mixedStream.eraseIdx 1)).node = stop.node := by
  intro start stop
  obtain ⟨hheard, hskipped⟩ := heard_envelope_by_envelope ⟨3, some .internal⟩ quietGateway
  obtain ⟨heard, hgoes, hnode, -, hwhole | ⟨now, item, fault, rest, hstream, hends, hworker, -⟩⟩ :=
    hheard mixedStream
  · have hclose : (5, .message (.close none)) ∈ heard := hwhole ▸ by simp [mixedStream]
    exact absurd (.closed none) (hgoes _ hclose .closed)
  have hfront : heard = mixedStream.take 4 := eq_takeWhile_of_ends hstream hgoes hends
  have hrest : mixedStream.drop 4 = (now, item) :: rest := by
    have hsplit : mixedStream = mixedStream.take 4 ++ mixedStream.drop 4 := rfl
    rw [hfront] at hstream
    exact List.append_cancel_left (hsplit.symm.trans hstream)
  obtain ⟨rfl, rfl⟩ := Prod.mk.inj (List.cons.inj hrest).1
  cases hends
  rw [hfront] at hnode hworker
  have hmembers : (acceptAll quietGateway (envelopes (mixedStream.take 4))).groups.members 10 =
      [⟨0, 7, 1, "red"⟩] := by decide +kernel
  have hqueue : ((acceptAll quietGateway (envelopes (mixedStream.take 4))).post.box 0).queue.map
      (acceptAll quietGateway (envelopes (mixedStream.take 4))).post.pool.bytes =
      [[0x68, 0x69]] := by decide +kernel
  have hretry : Retry.afterAll ⟨3, some .internal⟩ (envelopes (mixedStream.take 4)) =
      ⟨0, some .ok⟩ := by decide +kernel
  rw [hretry] at hworker
  rw [show stop.node = _ from hnode, show stop.worker = _ from hworker]
  refine ⟨rfl, by decide, by decide, hmembers, hqueue, rfl, ?_⟩
  rw [← hnode]
  exact (hskipped (mixedStream.take 1) (1, .message (.text "\x7b\"command\":\x7b\x7d"))
      (mixedStream.drop 2) (by decide +kernel) nofun).2.symm

end Switchboard.Link
