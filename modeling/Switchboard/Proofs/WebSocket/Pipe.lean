import Switchboard.WebSocket.Socket

/-!
# Pipe — messages pass through the pipe to a client in the order in which they are written

What was written stays in the pipe as a list, of which more and more passes to the client. A client
that reads has everything at once; one that does not read cannot get rid of what is stuck.
-/

namespace Switchboard.WebSocket

namespace Pipe

/-- The messages in the pipe and in front of it, in the order in which they were written. -/
def sent (p : Pipe) : List Message := p.arrived ++ p.waiting.map Prod.fst

/-- The messages that were written between two moments. -/
def sentSince (before after : Pipe) : List Message := after.sent.drop before.sent.length

theorem fill_sent (room moved : Nat) (arrived : List Message) (waiting : List (Message × Nat)) :
    (fill room moved arrived waiting).2.1 ++ (fill room moved arrived waiting).2.2.map Prod.fst =
      arrived.reverse ++ waiting.map Prod.fst := by
  induction waiting generalizing room moved arrived with
  | nil => rfl
  | cons first rest ih =>
    obtain ⟨m, left⟩ := first
    unfold fill
    split
    · simp [ih]
    · simp

theorem sent_flush (p : Pipe) : p.flush.sent = p.sent := by
  unfold flush
  split
  · simp [sent]
  · have hfill := fill_sent (p.capacity - p.used) 0 [] p.waiting
    simp only [List.reverse_nil, List.nil_append] at hfill
    simp [sent, hfill]

theorem sent_write (p : Pipe) (m : Message) : (p.write m).sent = p.sent ++ [m] := by
  unfold write
  rw [sent_flush]
  simp [sent]

/-- What a client finds in the pipe is the first that was sent. -/
theorem take_sent (p : Pipe) : p.take.1 ++ p.take.2.sent = p.sent := by
  unfold take
  split <;> rfl

theorem reading_flush (p : Pipe) : p.flush.reading = p.reading := by
  unfold flush
  split <;> rfl

theorem reading_write (p : Pipe) (m : Message) : (p.write m).reading = p.reading := by
  unfold write
  rw [reading_flush]

@[simp] theorem sentSince_self (p : Pipe) : sentSince p p = [] := by
  simp [sentSince]

@[simp] theorem sentSince_write (p : Pipe) (m : Message) : sentSince p (p.write m) = [m] := by
  simp [sentSince, sent_write]

@[simp] theorem sentSince_shut (p : Pipe) : sentSince p p.shut = [] := by
  simp [sentSince, sent, shut]

/-- A client that reads has all that is written to it. -/
theorem isFlushed_write {p : Pipe} (h : p.reading = true) (m : Message) :
    (p.write m).isFlushed = true := by
  simp [write, flush, isFlushed, h]

end Pipe

end Switchboard.WebSocket
