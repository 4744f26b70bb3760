import Switchboard.Logic.Routing
import Switchboard.Proofs.Base64
import Switchboard.Proofs.Config
import Switchboard.Proofs.Logic.Fanout
import Switchboard.Proofs.Text.Blank

/-!
# Ingress — a request is sent as a whole or not at all

A request is read, checked and only then handed to the hub. So one with a fault leaves the hub as it
is, and any other sends one frame, with all that the request says and nothing else.
-/

namespace Switchboard.Logic

open Wire

/-! ## 1. What a request says -/

/-- The request claims to be JSON, is short enough, and its body is read as `x`. -/
structure Reads {α : Type} (ofBytes : Bytes → Except Fault α) (request : Http.Request)
    (x : α) : Prop where
  json : Http.MediaType.isJson request.headers = true
  length : request.body.length ≤ bodyLimit
  read : ofBytes request.body = .ok x

/-- The packet has the kind and the targets of the push, and for its payload the bytes of the text
or those that the text encodes. Several texts of Base64 one after another, each with its padding,
are Base64 too: they encode the bytes of all of them. -/
structure Conveys (push : Push) (packet : Packet) : Prop where
  kind : packet.kind = push.kind
  targets : packet.targets = push.targets
  text : push.base64 = false → packet.payload = Text.Utf8.encode push.payload
  base64 : push.base64 = true → ∃ chunks : List Bytes,
    push.payload = .ofList (chunks.flatMap Base64.encode) ∧ packet.payload = chunks.flatten

/-- What can be wrong with a push. -/
inductive FaultyPush (request : Http.Request) : Prop
  | undecodable (h : ∀ push, ¬ Reads Push.ofBytes request push)
  | untargeted {push : Push} (h : Reads Push.ofBytes request push) (hkind : push.kind ≠ .all)
      (htargets : push.targets = [])
  /-- The payload is not even several texts of Base64 in a row, each with its padding, which the
  decoder takes for Base64. -/
  | notBase64 {push : Push} (h : Reads Push.ofBytes request push) (hbase64 : push.base64 = true)
      (hpayload : ∀ chunks : List Bytes, push.payload ≠ .ofList (chunks.flatMap Base64.encode))

/-- What can be wrong with a command. -/
inductive FaultyCommand (request : Http.Request) : Prop
  | undecodable (h : ∀ command, ¬ Reads Command.ofBytes request command)
  | blank {command : Command} (h : Reads Command.ofBytes request command)
      (hkind : Text.trim command.kind = "")

/-- The request is answered with an error, and the hub is as it was. -/
def Refused (hub : Hub) (outcome : Outcome) : Prop :=
  ∃ response : Http.Response, response.status = 400 ∧ outcome = .answered { response, hub }

/-- One frame is pushed, and the answer says how many links took it. -/
def Sent (hub : Hub) (envelope : Envelope) (outcome : Outcome) : Prop :=
  ∃ (reached : Nat) (after : Hub) (log : List LogLine) (response : Http.Response),
    hub.push envelope = (reached, after, log) ∧
    outcome = .answered { response, hub := after, log } ∧
    response.status = 200 ∧
    response.body = Text.Utf8.encode (Json.Value.text (.object [("links", .integer reached)])) ∧
    (hub.Coherent → Hub.Pushed envelope.encode hub reached after)

/-! ## 2. Reading -/

section Reading

variable {α β : Type} {ofBytes : Bytes → Except Fault α} {request : Http.Request} {x y : α}

theorem Reads.unique (h : Reads ofBytes request x) (h' : Reads ofBytes request y) : x = y :=
  Except.ok.inj (h.read.symm.trans h'.read)

theorem jsonBody_eq_ok_iff {body : Bytes} :
    jsonBody request = .ok body ↔ Http.MediaType.isJson request.headers = true ∧
      request.body.length ≤ bodyLimit ∧ request.body = body := by
  rw [jsonBody]
  split
  · next hjson => exact ⟨nofun, fun h => by simp [h.1] at hjson⟩
  split
  · next hlength => exact ⟨nofun, fun h => absurd h.2.1 (Nat.not_le.2 hlength)⟩
  · next hjson hlength =>
    have hjson' : Http.MediaType.isJson request.headers = true := by simpa using hjson
    exact ⟨fun h => ⟨hjson', Nat.not_lt.1 hlength, Except.ok.inj h⟩, fun h => congrArg _ h.2.2⟩

/-- A request passes when it is read and what it says passes the check. -/
theorem read_eq_ok_iff {check : α → Except Refusal β} {z : β} :
    (do
      let body ← jsonBody request
      let x ← (ofBytes body).mapError Refusal.ofFault
      check x) = .ok z ↔ ∃ x, Reads ofBytes request x ∧ check x = .ok z := by
  simp only [Except.bind_eq_ok_iff, jsonBody_eq_ok_iff, Except.mapError_eq_ok_iff]
  constructor
  · rintro ⟨_, ⟨hjson, hlength, rfl⟩, x, hread, hcheck⟩
    exact ⟨x, ⟨hjson, hlength, hread⟩, hcheck⟩
  · rintro ⟨x, ⟨hjson, hlength, hread⟩, hcheck⟩
    exact ⟨_, ⟨hjson, hlength, rfl⟩, x, hread, hcheck⟩

theorem Reads.readPacket_eq {push : Push} (h : Reads Push.ofBytes request push) :
    readPacket request = packetOfPush push := by
  rw [readPacket, jsonBody_eq_ok_iff.2 ⟨h.json, h.length, rfl⟩]
  show (Push.ofBytes request.body).mapError Refusal.ofFault >>= _ = _
  rw [h.read]
  rfl

end Reading

/-! ## 3. Checks -/

theorem packetOfPush_text_eq_ok_iff {push : Push} (packet : Packet)
    (htargeted : ¬ (push.kind ≠ .all ∧ push.targets = [])) (htext : push.base64 = false) :
    packetOfPush push = .ok packet ↔ Conveys push packet := by
  rw [packetOfPush, if_neg htargeted, htext, if_neg Bool.false_ne_true]
  constructor
  · rintro ⟨⟩
    exact ⟨rfl, rfl, fun _ => rfl, fun hbase64 => nomatch htext.symm.trans hbase64⟩
  · intro hconveys
    rw [← hconveys.kind, ← hconveys.targets, ← hconveys.text htext]

theorem packetOfPush_base64_eq_ok_iff {push : Push} (packet : Packet)
    (htargeted : ¬ (push.kind ≠ .all ∧ push.targets = [])) (hbase64 : push.base64 = true) :
    packetOfPush push = .ok packet ↔ Conveys push packet := by
  rw [packetOfPush, if_neg htargeted, if_pos hbase64]
  have hdecoded := Base64.decode_text_eq_ok_iff push.payload
  constructor
  · split
    · next payload hpayload =>
      rintro ⟨⟩
      exact ⟨rfl, rfl, fun htext => (nomatch htext.symm.trans hbase64),
        fun _ => (hdecoded payload).1 hpayload⟩
    · nofun
  · intro hconveys
    rw [(hdecoded packet.payload).2 (hconveys.base64 hbase64), ← hconveys.kind,
      ← hconveys.targets]

theorem packetOfPush_eq_ok_iff (push : Push) (packet : Packet) :
    packetOfPush push = .ok packet ↔
      (push.kind = .all ∨ push.targets ≠ []) ∧ Conveys push packet := by
  by_cases huntargeted : push.kind ≠ .all ∧ push.targets = []
  · rw [packetOfPush, if_pos huntargeted]
    exact ⟨nofun, fun h => (h.1.elim huntargeted.1 (absurd huntargeted.2)).elim⟩
  · rw [and_iff_right (show push.kind = .all ∨ push.targets ≠ [] by tauto)]
    cases hmode : push.base64 with
    | false => exact packetOfPush_text_eq_ok_iff packet huntargeted hmode
    | true => exact packetOfPush_base64_eq_ok_iff packet huntargeted hmode

/-- A text and the same text in Base64 are the same packet. -/
theorem packetOfPush_encode (kind : Audience) (targets : List Int64) (text : String) :
    packetOfPush ⟨kind, targets, .ofList (Base64.encode (Text.Utf8.encode text)), true⟩ =
      packetOfPush ⟨kind, targets, text, false⟩ := by
  rw [packetOfPush, packetOfPush, Base64.decode_encode]
  rfl

theorem readPacket_eq_ok_iff {request : Http.Request} {packet : Packet} :
    readPacket request = .ok packet ↔
      ∃ push, Reads Push.ofBytes request push ∧ (push.kind = .all ∨ push.targets ≠ []) ∧
        Conveys push packet := by
  rw [readPacket, read_eq_ok_iff]
  simp only [packetOfPush_eq_ok_iff]

/-- A push is faulty exactly when it gives no packet. -/
theorem faultyPush_iff {request : Http.Request} :
    FaultyPush request ↔ ∀ packet, readPacket request ≠ .ok packet := by
  simp only [Ne, readPacket_eq_ok_iff]
  constructor
  · rintro hfaulty packet ⟨push, hread, htargeted, hconveys⟩
    cases hfaulty with
    | undecodable h => exact h push hread
    | untargeted h hkind htargets =>
      cases hread.unique h
      exact htargeted.elim hkind (absurd htargets)
    | notBase64 h hbase64 hpayload =>
      cases hread.unique h
      obtain ⟨chunks, htext, -⟩ := hconveys.base64 hbase64
      exact hpayload chunks htext
  · intro hnone
    by_contra hsound
    -- without any of the faults there would be a packet
    obtain ⟨push, hread⟩ : ∃ push, Reads Push.ofBytes request push := by
      by_contra hunread
      exact hsound (.undecodable (not_exists.1 hunread))
    have htargeted : push.kind = .all ∨ push.targets ≠ [] := by
      by_contra huntargeted
      obtain ⟨hkind, htargets⟩ := not_or.1 huntargeted
      exact hsound (.untargeted hread hkind (not_not.1 htargets))
    cases hbase64 : push.base64 with
    | false =>
      refine hnone ⟨push.kind, push.targets, Text.Utf8.encode push.payload⟩
        ⟨push, hread, htargeted, rfl, rfl, fun _ => rfl, fun h => ?_⟩
      rw [hbase64] at h
      cases h
    | true =>
      obtain ⟨chunks, htext⟩ : ∃ chunks : List Bytes,
          push.payload = .ofList (chunks.flatMap Base64.encode) := by
        by_contra hnot
        exact hsound (.notBase64 hread hbase64 (not_exists.1 hnot))
      refine hnone ⟨push.kind, push.targets, chunks.flatten⟩
        ⟨push, hread, htargeted, rfl, rfl, fun h => ?_, fun _ => ⟨chunks, htext, rfl⟩⟩
      rw [hbase64] at h
      cases h

theorem readCommand_eq_ok_iff {request : Http.Request} {command : Command} :
    readCommand request = .ok command ↔
      Reads Command.ofBytes request command ∧ Text.trim command.kind ≠ "" := by
  rw [readCommand, read_eq_ok_iff]
  simp only [checkCommand, Text.isBlankText_iff]
  constructor
  · rintro ⟨_, hread, hcheck⟩
    split at hcheck
    · cases hcheck
    · next hkind =>
      cases hcheck
      exact ⟨hread, hkind⟩
  · rintro ⟨hread, hkind⟩
    exact ⟨command, hread, if_neg hkind⟩

theorem faultyCommand_iff {request : Http.Request} :
    FaultyCommand request ↔ ∀ command, readCommand request ≠ .ok command := by
  simp only [Ne, readCommand_eq_ok_iff]
  constructor
  · rintro hfaulty command ⟨hread, hkind⟩
    cases hfaulty with
    | undecodable h => exact h command hread
    | blank h hblank =>
      cases hread.unique h
      exact hkind hblank
  · intro hnone
    by_cases hunread : ∀ command, ¬ Reads Command.ofBytes request command
    · exact .undecodable hunread
    · obtain ⟨command, hread⟩ := not_forall_not.1 hunread
      exact .blank hread (not_not.1 fun hkind => hnone command ⟨hread, hkind⟩)

/-! ## 4. Sending -/

section Sending

variable {hub : Hub} {request : Http.Request} {connected : Bool}

theorem serve_push (hmethod : request.method = "POST") (hpath : request.path = "/api/v1/push") :
    serve hub request connected =
      .answered { handlePush hub request with
        response := dress request (handlePush hub request).response } := by
  have hroute : route hub request connected = .answered (handlePush hub request) := by
    rw [route, hpath, hmethod]
    rfl
  rw [serve, hmethod, if_neg (by decide), hroute]

theorem serve_commands (hmethod : request.method = "POST")
    (hpath : request.path = "/api/v1/commands") :
    serve hub request connected =
      .answered { handleCommand hub request with
        response := dress request (handleCommand hub request).response } := by
  have hroute : route hub request connected = .answered (handleCommand hub request) := by
    rw [route, hpath, hmethod]
    rfl
  rw [serve, hmethod, if_neg (by decide), hroute]

theorem refused_submit (refusal : Refusal) :
    Refused hub (.answered { submit hub (.error refusal) with
      response := dress request (submit hub (.error refusal)).response }) :=
  ⟨_, rfl, rfl⟩

theorem sent_submit (hmethod : request.method = "POST") (envelope : Envelope) :
    Sent hub envelope (.answered { submit hub (.ok envelope) with
      response := dress request (submit hub (.ok envelope)).response }) := by
  refine ⟨_, _, _, _, rfl, rfl, rfl, ?_, fun hcoherent => hcoherent.pushed envelope⟩
  show (if request.method = "HEAD" then _ else _) = _
  rw [hmethod, if_neg (by decide)]
  rfl

end Sending

/-- A faulty request is refused with the hub as it was. Any other is answered with the number of
links that took the one frame pushed for it: a packet with the kind, the targets in their order and
the payload of the push, or the command itself. A text and the same text in Base64 are served
alike. -/
theorem ingress_all_or_nothing (hub : Hub) (request : Http.Request) (connected : Bool)
    (hmethod : request.method = "POST") :
    (request.path = "/api/v1/push" →
      (FaultyPush request ∧ Refused hub (serve hub request connected)) ∨
      (¬ FaultyPush request ∧ ∃ push packet, Reads Push.ofBytes request push ∧
        Conveys push packet ∧ Sent hub (.packet packet) (serve hub request connected))) ∧
    (request.path = "/api/v1/commands" →
      (FaultyCommand request ∧ Refused hub (serve hub request connected)) ∨
      (¬ FaultyCommand request ∧ ∃ command, Reads Command.ofBytes request command ∧
        Sent hub (.command command) (serve hub request connected))) ∧
    (∀ encoded : Http.Request, encoded.method = "POST" → request.path = "/api/v1/push" →
      encoded.path = "/api/v1/push" → ∀ kind targets text,
      Reads Push.ofBytes request ⟨kind, targets, text, false⟩ →
      Reads Push.ofBytes encoded
        ⟨kind, targets, .ofList (Base64.encode (Text.Utf8.encode text)), true⟩ →
      serve hub request connected = serve hub encoded connected) := by
  refine ⟨fun hpath => ?_, fun hpath => ?_, ?_⟩
  · rw [serve_push hmethod hpath, handlePush, faultyPush_iff]
    cases hread : readPacket request with
    | error refusal => exact .inl ⟨nofun, refused_submit _⟩
    | ok packet =>
      obtain ⟨push, hpush, -, hconveys⟩ := readPacket_eq_ok_iff.1 hread
      exact .inr ⟨fun hnone => hnone packet rfl, push, packet, hpush, hconveys,
        sent_submit hmethod _⟩
  · rw [serve_commands hmethod hpath, handleCommand, faultyCommand_iff]
    cases hread : readCommand request with
    | error refusal => exact .inl ⟨nofun, refused_submit _⟩
    | ok command =>
      exact .inr ⟨fun hnone => hnone command rfl, command, (readCommand_eq_ok_iff.1 hread).1,
        sent_submit hmethod _⟩
  · intro encoded hencoded hpath hpath' kind targets text htext hbase64
    rw [serve_push hmethod hpath, serve_push hencoded hpath', handlePush, handlePush,
      htext.readPacket_eq, hbase64.readPacket_eq, packetOfPush_encode, dress, dress, hmethod,
      hencoded]

/-- A hub with two links, the first of which is cancelled but still registered. -/
def halfGoneHub : Hub :=
  .after [.register "gw-1" "host-a" 8, .register "gw-2" "host-b" 8, .cancel 1]

def posted (target body : String) : Http.Request where
  method := "POST"
  target
  headers := [("content-type", "application/json".toList.map Char.toUInt8)]
  body := Text.Utf8.encode body

def untargeted : Http.Request :=
  posted "/api/v1/push" "\x7b\"kind\":\"USER\",\"payload\":\"hi\"\x7d"

def plainHi : Http.Request :=
  posted "/api/v1/push" "\x7b\"kind\":\"ALL\",\"payload\":\"hi\"\x7d"

def base64Hi : Http.Request :=
  posted "/api/v1/push" "\x7b\"base64\":true,\"kind\":\"ALL\",\"payload\":\"aGk=\"\x7d"

def blankCommand : Http.Request :=
  posted "/api/v1/commands" "\x7b\"kind\":\" \"\x7d"

/-- While one link is cancelled, a push without targets and a command without a kind are refused,
and a text is sent like its Base64. -/
theorem ingress_all_or_nothing_halfGoneHub :
    halfGoneHub.Coherent ∧
    Refused halfGoneHub (serve halfGoneHub untargeted false) ∧
    Refused halfGoneHub (serve halfGoneHub blankCommand false) ∧
    Sent halfGoneHub (.packet ⟨.all, [], [0x68, 0x69]⟩) (serve halfGoneHub plainHi false) ∧
    serve halfGoneHub plainHi false = serve halfGoneHub base64Hi false := by
  have hcoherent : halfGoneHub.Coherent := (Hub.numbered_of_lt (by decide)).coherent
  have huntargeted : Reads Push.ofBytes untargeted ⟨.user, [], "hi", false⟩ :=
    ⟨by decide +kernel, by decide +kernel, by decide +kernel⟩
  have hplain : Reads Push.ofBytes plainHi ⟨.all, [], "hi", false⟩ :=
    ⟨by decide +kernel, by decide +kernel, by decide +kernel⟩
  have hbase64 : Reads Push.ofBytes base64Hi
      ⟨.all, [], .ofList (Base64.encode (Text.Utf8.encode "hi")), true⟩ :=
    ⟨by decide +kernel, by decide +kernel, by decide +kernel⟩
  have hblank : Reads Command.ofBytes blankCommand ⟨" ", .empty⟩ :=
    ⟨by decide +kernel, by decide +kernel, by decide +kernel⟩
  have hpath : plainHi.path = "/api/v1/push" := by decide +kernel
  have hpath' : base64Hi.path = "/api/v1/push" := by decide +kernel
  obtain ⟨hpush, -, halike⟩ := ingress_all_or_nothing halfGoneHub plainHi false rfl
  refine ⟨hcoherent, ?_, ?_, ?_, halike base64Hi rfl hpath hpath' _ _ _ hplain hbase64⟩
  · obtain ⟨hpush', -⟩ := ingress_all_or_nothing halfGoneHub untargeted false rfl
    rcases hpush' (by decide +kernel) with ⟨-, hrefused⟩ | ⟨hsound, -⟩
    · exact hrefused
    · exact absurd (.untargeted huntargeted (by decide) rfl) hsound
  · obtain ⟨-, hcommand, -⟩ := ingress_all_or_nothing halfGoneHub blankCommand false rfl
    rcases hcommand (by decide +kernel) with ⟨-, hrefused⟩ | ⟨hsound, -⟩
    · exact hrefused
    · exact absurd (.blank hblank (by decide)) hsound
  · rcases hpush hpath with ⟨hfaulty, -⟩ | ⟨-, push, packet, hread, hconveys, hsent⟩
    · have hconveys : Conveys ⟨.all, [], "hi", false⟩ ⟨.all, [], Text.Utf8.encode "hi"⟩ :=
        ⟨rfl, rfl, fun _ => rfl, nofun⟩
      exact absurd (readPacket_eq_ok_iff.2 ⟨_, hplain, .inl rfl, hconveys⟩)
        (faultyPush_iff.1 hfaulty _)
    · cases hread.unique hplain
      obtain ⟨kind, targets, payload⟩ := packet
      obtain ⟨rfl, rfl, hpayload, -⟩ := hconveys
      cases hpayload rfl
      exact hsent

end Switchboard.Logic
