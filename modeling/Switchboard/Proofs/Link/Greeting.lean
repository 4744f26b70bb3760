import Switchboard.Link.Client
import Switchboard.Logic.Stream
import Switchboard.Proofs.Logic.Hub
import Switchboard.Proofs.Wire.Leniency

/-!
# Greeting — all that goes over a link is read as it was written

Frames go down a link and the name of a gateway goes up. Either is read back as the value that was
written, so writing what was read changes nothing more, and a gateway is registered under the very
names that its client goes by.
-/

namespace Switchboard

open Wire

/-! ## 1. The names of a gateway -/

namespace Wire.Hello

theorem ofText_encode (h : Hello) : Hello.ofText h.encode = .ok h := by
  rw [Hello.ofText, encode, Json.read_text, decodeDocument, decode_outline]
  rfl

end Wire.Hello

/-! ## 2. The registration -/

namespace Logic

open WebSocket (Socket Reader)

variable {capacity : Nat}

/-- A gateway that names itself has its link, whatever it goes by. -/
theorem Stream.greet_encode (hcapacity : checkCapacity capacity = .ok ()) (socket : Socket)
    (hub : Hub) (hello : Hello) :
    greet capacity socket hub hello.encode =
      { socket
        task := .linked (hub.register hello.name hello.hostname capacity).1 none
        state := (hub.register hello.name hello.hostname capacity).2 } := by
  rw [greet, hello.ofText_encode, hcapacity]

/-- It may come at any time while the greeting is due, the deadline passed or not. -/
theorem Stream.stepGreeting?_encode (hcapacity : checkCapacity capacity = .ok ())
    {socket : Socket} {reader : Reader} {hello : Hello}
    (hnext : socket.reader.next = .frame (some (.text hello.encode)) reader)
    (now deadline : Nat) (hub : Hub) :
    stepGreeting? now deadline capacity socket hub =
      some
        { socket := { socket with reader }
          task := .linked (hub.register hello.name hello.hostname capacity).1 none
          state := (hub.register hello.name hello.hostname capacity).2 } := by
  rw [stepGreeting?, hnext]
  exact congrArg some (greet_encode hcapacity _ hub hello)

end Logic

/-! ## 3. Both ways of a link -/

namespace Link

open WebSocket (Socket Reader)

/-- Envelopes and the names of gateways are read as they were written, so what has been read and
written again is read as the same value and written as the same text. What a client says first gets
it a link, and the link has the names of the client. -/
theorem written_read :
    (∀ e : Envelope, Envelope.ofText e.encode = .ok e) ∧
    (∀ h : Hello, Hello.ofText h.encode = .ok h) ∧
    (∀ text e, Envelope.ofText text = .ok e →
      Envelope.ofText e.encode = .ok e ∧
        (Envelope.ofText e.encode).map Envelope.encode = .ok e.encode) ∧
    (∀ text h, Hello.ofText text = .ok h →
      Hello.ofText h.encode = .ok h ∧ (Hello.ofText h.encode).map Hello.encode = .ok h.encode) ∧
    ∀ (client : Client) (now deadline capacity : Nat) (socket : Socket) (reader : Reader)
      (hub : Logic.Hub), Logic.checkCapacity capacity = .ok () →
      socket.reader.next = .frame (some (.text client.hello.encode)) reader →
      ∃ turn id, Logic.Stream.stepGreeting? now deadline capacity socket hub = some turn ∧
        turn.task = .linked id none ∧
        turn.state.registered = hub.registered ++ [id] ∧
        turn.state.link id =
          { name := client.name, hostname := client.hostname, capacity := capacity } ∧
        ∀ id', id' ≠ id → turn.state.link id' = hub.link id' := by
  refine ⟨Envelope.ofText_encode, Hello.ofText_encode, ?frames, ?names, ?registered⟩
  case frames =>
    intro _ e _
    rw [Envelope.ofText_encode]
    exact ⟨rfl, rfl⟩
  case names =>
    intro _ h _
    rw [Hello.ofText_encode]
    exact ⟨rfl, rfl⟩
  case registered =>
    intro client now deadline capacity socket reader hub hcapacity hnext
    refine ⟨_, hub.lastId + 1, Logic.Stream.stepGreeting?_encode hcapacity hnext now deadline hub,
      rfl, rfl, ?link, fun id' hne => ?others⟩
    case link => exact (hub.link_register _ _ _ _).trans (if_pos rfl)
    case others => exact (hub.link_register _ _ _ _).trans (if_neg hne)

/-- A gateway that says hello on a connection that nothing else has come over. -/
def greetingSocket (client : Client) : Socket where
  reader := { role := .server
              pending := (WebSocket.Message.text client.hello.encode).frame.encode true }
  pipe := { capacity := 4096 }

/-- The frame of a command with blanks and an unknown member, the others not as they are written. -/
def rearrangedFrame : String :=
  "\x7b\"command\": \x7b\"args\": \x7b\"b\":\"\\u0001\", \"a\":\"\\ud83d\\ude00\"\x7d, " ++
    "\"kind\":\"\", \"x\":[1]\x7d\x7d"

/-- The frame is read, and from then on it stays as it is written; the names of the gateway have
quotes and a line feed. -/
theorem written_read_rearranged :
    Envelope.ofText rearrangedFrame = .ok (.command ⟨"", .ofList [("a", "😀"), ("b", "\x01")]⟩) ∧
    (Envelope.ofText (Envelope.encode (.command ⟨"", .ofList [("a", "😀"), ("b", "\x01")]⟩))).map
        Envelope.encode =
      .ok (Envelope.encode (.command ⟨"", .ofList [("a", "😀"), ("b", "\x01")]⟩)) ∧
    ∃ turn id, Logic.Stream.stepGreeting? 0 10000 8
        (greetingSocket (.ofTargets "gw \"1\"" "h\n" [])) {} = some turn ∧
      turn.task = .linked id none ∧
      turn.state.link id = { name := "gw \"1\"", hostname := "h\n", capacity := 8 } := by
  obtain ⟨-, -, hframes, -, hregistered⟩ := written_read
  have hread : Envelope.ofText rearrangedFrame =
      .ok (.command ⟨"", .ofList [("a", "😀"), ("b", "\x01")]⟩) := by
    decide +kernel
  have hnext : (greetingSocket (.ofTargets "gw \"1\"" "h\n" [])).reader.next =
      .frame (some (.text (Client.ofTargets "gw \"1\"" "h\n" []).hello.encode))
        { role := .server } := by
    decide +kernel
  obtain ⟨turn, id, hstep, htask, -, hlink, -⟩ := hregistered (.ofTargets "gw \"1\"" "h\n" [])
    0 10000 8 _ _ {} rfl hnext
  exact ⟨hread, (hframes _ _ hread).2, turn, id, hstep, htask, hlink⟩

end Link

end Switchboard
