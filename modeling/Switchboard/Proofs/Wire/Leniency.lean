import Switchboard.Proofs.Wire.Envelope
import Switchboard.Wire.Hello
import Switchboard.Wire.Push

/-!
# Leniency — records are read whatever is around their fields

Members in any order, members that nobody knows, blanks wherever they may be, defaults left out: the
record is the same. What cannot be left out is a required field, and no field may come twice.
-/

namespace Switchboard.Wire

open Json (Outline Spells)

/-! ## 1. The names of a gateway -/

namespace Hello

def rendered (h : Hello) : List Rendered := [
  { name := "name", value := .string h.name },
  { name := "hostname", value := .string h.hostname }]

theorem toValue_eq (h : Hello) : h.toValue = .object (h.rendered.map Rendered.member) := rfl

theorem tracks_shape : shape.Tracks where
  nodup := by decide
  unset := by simp [shape]
  sets := by
    intro f hf v d d' hread g hg
    simp only [shape, List.mem_cons, List.not_mem_nil, or_false] at hf hg
    rcases hf with rfl | rfl <;>
    · obtain ⟨x, -, rfl⟩ := Except.map_eq_ok_iff.1 hread
      rcases hg with rfl | rfl <;> simp
  needs := by
    intro d x hbuild f hf hrequired
    obtain ⟨_ | name, _ | hostname⟩ := d
    · cases hbuild
    · cases hbuild
    · cases hbuild
    · simp only [shape, List.mem_cons, List.not_mem_nil, or_false] at hf
      rcases hf with rfl | rfl <;> rfl

def draftOf (h : Hello) (seen : List String) : Draft where
  name := met seen "name" h.name
  hostname := met seen "hostname" h.hostname

theorem renders_shape (h : Hello) : shape.Renders h h.rendered h.draftOf where
  names := rfl
  empty := rfl
  isSet := by simp [shape, draftOf]
  read := by
    have hname : ∀ seen, (decodeText (.string (some h.name))).map
        (fun s => { h.draftOf seen with name := some s }) = .ok (h.draftOf ("name" :: seen)) := by
      intro seen
      simp [decodeText, Except.map, draftOf]
    have hhostname : ∀ seen, (decodeText (.string (some h.hostname))).map
        (fun s => { h.draftOf seen with hostname := some s }) =
        .ok (h.draftOf ("hostname" :: seen)) := by
      intro seen
      simp [decodeText, Except.map, draftOf]
    exact List.forall_mem_cons.2 ⟨⟨_, .head _, rfl, hname⟩, List.forall_mem_singleton.2
      ⟨_, .tail _ (.head _), rfl, hhostname⟩⟩
  build := by
    intro seen hseen
    simp only [rendered, List.forall_mem_cons, Bool.false_eq_true, or_false] at hseen
    obtain ⟨hname, hhostname, -⟩ := hseen
    simp only [shape, draftOf, met_of_mem hname, met_of_mem hhostname]
    rfl

theorem decode_outline (h : Hello) : Hello.decode h.toValue.outline = .ok h := by
  rw [toValue_eq, Rendered.outline_object]
  exact h.renders_shape.decode_rendered tracks_shape

end Hello

/-! ## 2. Push requests -/

namespace Push

def rendered (p : Push) : List Rendered := [
  { name := "kind", value := .string p.kind.tag },
  { name := "target_ids", value := .array (p.targets.map fun i => .integer i.toInt)
    isDefault := p.targets.isEmpty },
  { name := "payload", value := .string p.payload },
  { name := "base64", value := .bool p.base64, isDefault := !p.base64 }]

theorem tracks_shape : shape.Tracks where
  nodup := by decide
  unset := by simp [shape]
  sets := by
    intro f hf v d d' hread g hg
    simp only [shape, List.mem_cons, List.not_mem_nil, or_false] at hf hg
    rcases hf with rfl | rfl | rfl | rfl <;>
    · obtain ⟨x, -, rfl⟩ := Except.map_eq_ok_iff.1 hread
      rcases hg with rfl | rfl | rfl | rfl <;> simp
  needs := by
    intro d x hbuild f hf hrequired
    obtain ⟨_ | kind, targets, _ | payload, base64⟩ := d
    · cases hbuild
    · cases hbuild
    · cases hbuild
    · simp only [shape, List.mem_cons, List.not_mem_nil, or_false] at hf
      rcases hf with rfl | rfl | rfl | rfl <;> simp_all

def draftOf (p : Push) (seen : List String) : Draft where
  kind := met seen "kind" p.kind
  targets := met seen "target_ids" p.targets
  payload := met seen "payload" p.payload
  base64 := met seen "base64" p.base64

theorem renders_shape (p : Push) : shape.Renders p p.rendered p.draftOf where
  names := rfl
  empty := rfl
  isSet := by simp [shape, draftOf]
  read := by
    have hkind : ∀ seen, (Audience.decode (.string (some p.kind.tag))).map
        (fun x => { p.draftOf seen with kind := some x }) = .ok (p.draftOf ("kind" :: seen)) := by
      intro seen
      rw [Audience.decode_tag]
      simp [Except.map, draftOf]
    have htargets : ∀ seen, (decodeList decodeInt64
        (Json.Value.array (p.targets.map fun i => .integer i.toInt)).outline).map
          (fun x => { p.draftOf seen with targets := some x }) =
        .ok (p.draftOf ("target_ids" :: seen)) := by
      intro seen
      rw [outline_targets, decodeList_map decodeInt64_ofInt]
      simp [Except.map, draftOf]
    have hpayload : ∀ seen, (decodeText (.string (some p.payload))).map
        (fun x => { p.draftOf seen with payload := some x }) =
        .ok (p.draftOf ("payload" :: seen)) := by
      intro seen
      simp [decodeText, Except.map, draftOf]
    have hbase64 : ∀ seen, (decodeBool (.bool p.base64)).map
        (fun x => { p.draftOf seen with base64 := some x }) =
        .ok (p.draftOf ("base64" :: seen)) := by
      intro seen
      simp [decodeBool, Except.map, draftOf]
    exact List.forall_mem_cons.2 ⟨⟨_, .head _, rfl, hkind⟩, List.forall_mem_cons.2
      ⟨⟨_, .tail _ (.head _), rfl, htargets⟩, List.forall_mem_cons.2
      ⟨⟨_, .tail _ (.tail _ (.head _)), rfl, hpayload⟩, List.forall_mem_singleton.2
      ⟨_, .tail _ (.tail _ (.tail _ (.head _))), rfl, hbase64⟩⟩⟩⟩
  build := by
    intro seen hseen
    simp only [rendered, List.forall_mem_cons, List.isEmpty_iff, Bool.false_eq_true,
      Bool.not_eq_true', or_false] at hseen
    obtain ⟨hkind, htargets, hpayload, hbase64, -⟩ := hseen
    simp only [shape, draftOf, met_of_mem hkind, met_of_mem hpayload, getD_met htargets,
      getD_met hbase64]
    rfl

end Push

/-! ## 3. Texts -/

/-- What a text decodes to, whether it comes as text or as bytes. -/
theorem decodeDocument_text {α : Type} (decode : Decoder α) {text : List Char} {o : Outline}
    (h : Spells text o) :
    decodeDocument decode (.read (Json.symbolsOfText (.ofList text))) = decode o := by
  rw [h.read_text, decodeDocument_clean]

theorem decodeDocument_bytes {α : Type} (decode : Decoder α) {text : List Char} {o : Outline}
    (h : Spells text o) :
    decodeDocument decode (.read (Json.symbolsOfBytes (Text.Utf8.encode (.ofList text)))) =
      decode o := by
  rw [h.read_bytes, decodeDocument_clean]

/-- The text of an envelope with this key, around the text of a record. -/
def enveloped (key : String) (record : List Char) : List Char :=
  '\x7b' :: (Json.writeString key ++ ':' :: record) ++ ['\x7d']

theorem spells_enveloped {key : String} {record : List Char} {o : Outline} (h : Spells record o) :
    Spells (enveloped key record) (.object [(some key, o)] true) := by
  have hobject := @Spells.object [⟨Json.writeString key, some key, record, o⟩] (by simp)
    (List.forall_mem_singleton.2 (Json.Value.keyText_writeString key))
    (List.forall_mem_singleton.2 h)
  rw [List.map_singleton, List.intercalate_singleton] at hobject
  exact hobject

namespace Envelope

variable {text : List Char} {o : Outline}

/-- A record in an envelope is read as it is on its own. -/
theorem ofText_packet (h : Spells text o) :
    Envelope.ofText (.ofList (enveloped "packet_mixin" text)) =
      within (.member "packet_mixin")
        ((Packet.ofBytes (Text.Utf8.encode (.ofList text))).map packet) := by
  rw [Envelope.ofText, decodeDocument_text _ (spells_enveloped h), Packet.ofBytes,
    decodeDocument_bytes _ h]
  show (within _ ((Packet.decode o).map packet) >>= fun x => Except.ok x) = _
  cases Packet.decode o <;> rfl

theorem ofText_command (h : Spells text o) :
    Envelope.ofText (.ofList (enveloped "command" text)) =
      within (.member "command")
        ((Command.ofBytes (Text.Utf8.encode (.ofList text))).map command) := by
  rw [Envelope.ofText, decodeDocument_text _ (spells_enveloped h), Command.ofBytes,
    decodeDocument_bytes _ h]
  show (within _ ((Command.decode o).map command) >>= fun x => Except.ok x) = _
  cases Command.decode o <;> rfl

end Envelope

/-- Every record is read from any arrangement of the fields that its encoder writes, and a packet or
a command in an envelope as on its own. -/
theorem records_lenient :
    (∀ p : Packet, p.toValue = .object (p.rendered.map Rendered.member)) ∧
    (∀ c : Command, c.toValue = .object (c.rendered.map Rendered.member)) ∧
    (∀ h : Hello, h.toValue = .object (h.rendered.map Rendered.member)) ∧
    Lenient (fun text => Packet.ofBytes (Text.Utf8.encode (.ofList text))) Packet.rendered
      ["kind", "target_ids", "payload"] ["kind", "payload"] ∧
    Lenient (fun text => Command.ofBytes (Text.Utf8.encode (.ofList text))) Command.rendered
      ["kind", "args"] ["kind"] ∧
    Lenient (fun text => Hello.ofBytes (Text.Utf8.encode (.ofList text))) Hello.rendered
      ["name", "hostname"] ["name", "hostname"] ∧
    Lenient (fun text => Hello.ofText (.ofList text)) Hello.rendered
      ["name", "hostname"] ["name", "hostname"] ∧
    Lenient (fun text => Push.ofBytes (Text.Utf8.encode (.ofList text))) Push.rendered
      ["kind", "target_ids", "payload", "base64"] ["kind", "payload"] ∧
    (∀ {text o}, Spells text o →
      Envelope.ofText (.ofList (enveloped "packet_mixin" text)) =
          within (.member "packet_mixin")
            ((Packet.ofBytes (Text.Utf8.encode (.ofList text))).map .packet) ∧
        Envelope.ofText (.ofList (enveloped "command" text)) =
          within (.member "command")
            ((Command.ofBytes (Text.Utf8.encode (.ofList text))).map .command)) := by
  have hpacket := Packet.tracks_shape.lenient Packet.renders_shape (decodeDocument_bytes _)
  have hcommand := Command.tracks_shape.lenient Command.renders_shape (decodeDocument_bytes _)
  have hbytes := Hello.tracks_shape.lenient Hello.renders_shape (decodeDocument_bytes _)
  have htext := Hello.tracks_shape.lenient Hello.renders_shape (decodeDocument_text _)
  have hpush := Push.tracks_shape.lenient Push.renders_shape (decodeDocument_bytes _)
  exact ⟨Packet.toValue_eq, Command.toValue_eq, Hello.toValue_eq, hpacket, hcommand, hbytes, htext,
    hpush, fun h => ⟨Envelope.ofText_packet h, Envelope.ofText_command h⟩⟩

section Scattered

open Json (KeyText Member literal_writeString)

/-- A push request with a member that nobody knows, blanks, and both defaults left out. -/
def scattered : List Member := [
  ⟨"\"note\" ".toList, some "note", " [ \x7b\"by\":null\x7d ]".toList,
    .array [.object [(some "by", .null)] true] true⟩,
  ⟨"\n\"payload\"".toList, some "payload", "\"hi\"".toList, .string (some "hi")⟩,
  ⟨" \"kind\"".toList, some "kind", "\"ALL\" ".toList, .string (some "ALL")⟩]

theorem keyText_scattered : ∀ m ∈ scattered, KeyText m.keyText m.key := by
  have hnote := @KeyText.mk [] _ [' '] _ .nil (literal_writeString "note") (.singleton rfl)
  have hpayload := @KeyText.mk ['\n'] _ [] _ (.singleton rfl) (literal_writeString "payload") .nil
  have hkind := @KeyText.mk [' '] _ [] _ (.singleton rfl) (literal_writeString "kind") .nil
  exact List.forall_mem_cons.2 ⟨hnote, List.forall_mem_cons.2 ⟨hpayload,
    List.forall_mem_singleton.2 hkind⟩⟩

theorem spells_scattered : ∀ m ∈ scattered, Spells m.valueText m.value := by
  have hitem : Spells " \x7b\"by\":null\x7d ".toList (.object [(some "by", .null)] true) :=
    .padded (.singleton rfl) (@spells_enveloped "by" _ _ .null) (.singleton rfl)
  have harray := @Spells.array [(" \x7b\"by\":null\x7d ".toList, _)] (by simp)
    (List.forall_mem_singleton.2 hitem)
  have hnote := @Spells.padded [' '] _ [] _ (.singleton rfl) harray .nil
  have hpayload := Spells.string (literal_writeString "hi")
  have hkind := @Spells.padded [] _ [' '] _ .nil (.string (literal_writeString "ALL"))
    (.singleton rfl)
  exact List.forall_mem_cons.2 ⟨hnote, List.forall_mem_cons.2 ⟨hpayload,
    List.forall_mem_singleton.2 hkind⟩⟩

theorem records_lenient_scattered :
    Push.ofBytes (Text.Utf8.encode (.ofList
        ("\x7b\"note\" : [ \x7b\"by\":null\x7d ],".toList ++
          "\n\"payload\":\"hi\", \"kind\":\"ALL\" \x7d".toList))) =
      .ok ⟨.all, [], "hi", false⟩ := by
  obtain ⟨-, -, -, -, -, -, -, hpush, -⟩ := records_lenient
  have htext := Spells.object (List.cons_ne_nil _ _) keyText_scattered spells_scattered
  have hshown : [⟨"kind", .string "ALL", false⟩, ⟨"payload", .string "hi", false⟩].Sublist
      (Push.rendered ⟨.all, [], "hi", false⟩) :=
    .cons_cons _ (.cons _ (.cons_cons _ (.cons _ .slnil)))
  have harranged := @Arranged.mk _ (scattered.map Member.entry) _
    [(some "note", .array [.object [(some "by", .null)] true] true)] (List.reverse_perm _).symm
    hshown (by simp [Push.rendered, Audience.tag])
    (List.forall_mem_singleton.2 ⟨"note", rfl, by decide⟩)
  exact hpush.object htext harranged

end Scattered

end Switchboard.Wire
