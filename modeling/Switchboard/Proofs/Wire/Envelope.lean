import Switchboard.Proofs.Base64
import Switchboard.Proofs.Json.Integer
import Switchboard.Proofs.Wire.Records
import Switchboard.Wire.Envelope

/-!
# Envelope — packets and commands come out of their frames as they went in

The fields of a written record are decoded one by one, in the order in which they are written, and
none of them loses anything: the audience by its name, every id, the bytes of the payload, and the
arguments of a command, which are written in the order in which they are kept.
-/

namespace Switchboard.Wire

open Json (Outline)

/-! ## 1. The arguments of a command -/

/-- A name beyond all others goes to the end. -/
theorem insertEntry_of_forall_lt {k : String} {es : List (String × String)}
    (h : ∀ e ∈ es, e.1 < k) (v : String) : insertEntry k v es = es ++ [(k, v)] := by
  induction es with
  | nil => rfl
  | cons e es ih =>
    obtain ⟨k', v'⟩ := e
    have hk : k' < k := h (k', v') List.mem_cons_self
    have hne : k ≠ k' := fun heq => String.lt_irrefl k (heq ▸ hk)
    rw [insertEntry, if_neg (String.lt_asymm hk), if_neg hne,
      ih fun e he => h e (List.mem_cons_of_mem _ he)]
    rfl

namespace Args

theorem entries_foldl_insert (args : Args) {es : List (String × String)}
    (h : Ascending (args.entries ++ es)) :
    (es.foldl (fun args (k, v) => args.insert k v) args).entries = args.entries ++ es := by
  -- entry by entry, each with a name beyond those already in
  induction es generalizing args with
  | nil => exact (List.append_nil _).symm
  | cons e es ih =>
    obtain ⟨k, v⟩ := e
    have hlast : (args.insert k v).entries = args.entries ++ [(k, v)] :=
      insertEntry_of_forall_lt
        (fun e he => (List.pairwise_append.1 h).2.2 e he (k, v) List.mem_cons_self) v
    have hmove : args.entries ++ (k, v) :: es = (args.insert k v).entries ++ es := by
      rw [hlast, List.append_assoc, List.singleton_append]
    rw [List.foldl_cons, ih (args.insert k v) (hmove ▸ h), hmove]

theorem ofList_entries (args : Args) : ofList args.entries = args := by
  have hentries : (ofList args.entries).entries = args.entries :=
    entries_foldl_insert empty args.ascending
  cases args
  exact (Args.mk.injEq ..).mpr hentries

end Args

/-! ## 2. The fields of packets and commands -/

theorem Audience.decode_tag (kind : Audience) :
    Audience.decode (.string (some kind.tag)) = .ok kind := by
  cases kind <;> rfl

/-- A list is decoded as what its items were written from. -/
theorem decodeItems_map {α : Type} {item : Decoder α} {write : α → Outline}
    (h : ∀ x, item (write x) = .ok x) (xs : List α) (i : Nat) :
    decodeItems item i (xs.map write) = .ok xs := by
  induction xs generalizing i with
  | nil => rfl
  | cons x xs ih =>
    rw [List.map_cons, decodeItems, h, ih]
    rfl

theorem decodeList_map {α : Type} {item : Decoder α} {write : α → Outline}
    (h : ∀ x, item (write x) = .ok x) (xs : List α) :
    decodeList item (.array (xs.map write) true) = .ok xs := by
  rw [decodeList, decodeItems_map h]
  rfl

theorem decodeMembers_map {α : Type} {value : Decoder α} {write : α → Outline}
    (h : ∀ x, value (write x) = .ok x) (entries : List (String × α)) :
    decodeMembers value (entries.map fun e => (some e.1, write e.2)) = .ok entries := by
  induction entries with
  | nil => rfl
  | cons e entries ih =>
    rw [List.map_cons, decodeMembers, h, ih]
    rfl

theorem decodeMap_map {α : Type} {value : Decoder α} {write : α → Outline}
    (h : ∀ x, value (write x) = .ok x) (entries : List (String × α)) :
    decodeMap value (.object (entries.map fun e => (some e.1, write e.2)) true) = .ok entries := by
  rw [decodeMap, decodeMembers_map h]
  rfl

theorem decodePayload_encode (bytes : Bytes) :
    decodePayload (.string (some (.ofList (Base64.encode bytes)))) = .ok bytes := by
  rw [decodePayload, decodeText]
  show Except.bind (.ok _) _ = _
  rw [Except.bind, Base64.decode_encode]
  rfl

/-! ## 3. Records and their frames -/

theorem outline_targets (targets : List Int64) :
    (Json.Value.array (targets.map fun i => .integer i.toInt)).outline =
      .array (targets.map fun i => .number (.ofInt i.toInt)) true := by
  rw [Json.Value.outline, Json.Value.outlineItems_eq_map, List.map_map]
  congr 1

theorem outline_args (args : Args) :
    (Json.Value.object (args.entries.map fun e => (e.1, .string e.2))).outline =
      .object (args.entries.map fun e => (some e.1, .string (some e.2))) true := by
  rw [Json.Value.outline, Json.Value.outlineMembers_eq_map, List.map_map]
  congr 1

namespace Packet

def rendered (p : Packet) : List Rendered := [
  { name := "kind", value := .string p.kind.tag },
  { name := "target_ids", value := .array (p.targets.map fun i => .integer i.toInt)
    isDefault := p.targets.isEmpty },
  { name := "payload", value := .string (.ofList (Base64.encode p.payload)) }]

/-- The encoder writes these fields, in this order. -/
theorem toValue_eq (p : Packet) : p.toValue = .object (p.rendered.map Rendered.member) := rfl

theorem tracks_shape : shape.Tracks where
  nodup := by decide
  unset := by simp [shape]
  sets := by
    intro f hf v d d' hread g hg
    simp only [shape, List.mem_cons, List.not_mem_nil, or_false] at hf hg
    rcases hf with rfl | rfl | rfl <;>
    · obtain ⟨x, -, rfl⟩ := Except.map_eq_ok_iff.1 hread
      rcases hg with rfl | rfl | rfl <;> simp
  needs := by
    intro d x hbuild f hf hrequired
    obtain ⟨_ | kind, targets, _ | payload⟩ := d
    · cases hbuild
    · cases hbuild
    · cases hbuild
    · simp only [shape, List.mem_cons, List.not_mem_nil, or_false] at hf
      rcases hf with rfl | rfl | rfl <;> simp_all

def draftOf (p : Packet) (seen : List String) : Draft where
  kind := met seen "kind" p.kind
  targets := met seen "target_ids" p.targets
  payload := met seen "payload" p.payload

theorem renders_shape (p : Packet) : shape.Renders p p.rendered p.draftOf where
  names := rfl
  empty := rfl
  isSet := by simp [shape, draftOf]
  read := by
    have hkind : ∀ seen, (Audience.decode (.string (some p.kind.tag))).map
        (fun x => { p.draftOf seen with kind := some x }) = .ok (p.draftOf ("kind" :: seen)) := by
      intro seen
      rw [Audience.decode_tag]
      simp [Except.map, draftOf]
    have htargets : ∀ seen, (decodeList decodeInt64
        (Json.Value.array (p.targets.map fun i => .integer i.toInt)).outline).map
          (fun x => { p.draftOf seen with targets := some x }) =
        .ok (p.draftOf ("target_ids" :: seen)) := by
      intro seen
      rw [outline_targets, decodeList_map decodeInt64_ofInt]
      simp [Except.map, draftOf]
    have hpayload : ∀ seen, (decodePayload
        (.string (some (.ofList (Base64.encode p.payload))))).map
          (fun x => { p.draftOf seen with payload := some x }) =
        .ok (p.draftOf ("payload" :: seen)) := by
      intro seen
      rw [decodePayload_encode]
      simp [Except.map, draftOf]
    exact List.forall_mem_cons.2 ⟨⟨_, .head _, rfl, hkind⟩, List.forall_mem_cons.2
      ⟨⟨_, .tail _ (.head _), rfl, htargets⟩, List.forall_mem_singleton.2
      ⟨_, .tail _ (.tail _ (.head _)), rfl, hpayload⟩⟩⟩
  build := by
    intro seen hseen
    simp only [rendered, List.forall_mem_cons, List.isEmpty_iff, Bool.false_eq_true,
      or_false] at hseen
    obtain ⟨hkind, htargets, hpayload, -⟩ := hseen
    simp only [shape, draftOf, met_of_mem hkind, met_of_mem hpayload, getD_met htargets]
    rfl

theorem decode_outline (p : Packet) : Packet.decode p.toValue.outline = .ok p := by
  rw [toValue_eq, Rendered.outline_object]
  exact p.renders_shape.decode_rendered tracks_shape

end Packet

namespace Command

def rendered (c : Command) : List Rendered := [
  { name := "kind", value := .string c.kind },
  { name := "args", value := .object (c.args.entries.map fun (k, v) => (k, .string v))
    isDefault := c.args.entries.isEmpty }]

theorem toValue_eq (c : Command) : c.toValue = .object (c.rendered.map Rendered.member) := rfl

theorem tracks_shape : shape.Tracks where
  nodup := by decide
  unset := by simp [shape]
  sets := by
    intro f hf v d d' hread g hg
    simp only [shape, List.mem_cons, List.not_mem_nil, or_false] at hf hg
    rcases hf with rfl | rfl <;>
    · obtain ⟨x, -, rfl⟩ := Except.map_eq_ok_iff.1 hread
      rcases hg with rfl | rfl <;> simp
  needs := by
    intro d x hbuild f hf hrequired
    obtain ⟨_ | kind, args⟩ := d
    · cases hbuild
    · simp only [shape, List.mem_cons, List.not_mem_nil, or_false] at hf
      rcases hf with rfl | rfl <;> simp_all

def draftOf (c : Command) (seen : List String) : Draft where
  kind := met seen "kind" c.kind
  args := met seen "args" c.args

theorem renders_shape (c : Command) : shape.Renders c c.rendered c.draftOf where
  names := rfl
  empty := rfl
  isSet := by simp [shape, draftOf]
  read := by
    have hkind : ∀ seen, (decodeText (.string (some c.kind))).map
        (fun s => { c.draftOf seen with kind := some s }) = .ok (c.draftOf ("kind" :: seen)) := by
      intro seen
      simp [decodeText, Except.map, draftOf]
    have hargs : ∀ seen, (decodeMap decodeText
        (Json.Value.object (c.args.entries.map fun e => (e.1, .string e.2))).outline).map
          (fun entries => { c.draftOf seen with args := some (.ofList entries) }) =
        .ok (c.draftOf ("args" :: seen)) := by
      intro seen
      rw [outline_args, @decodeMap_map _ decodeText (fun s => .string (some s)) fun _ => rfl]
      simp [Except.map, draftOf, Args.ofList_entries]
    exact List.forall_mem_cons.2 ⟨⟨_, .head _, rfl, hkind⟩, List.forall_mem_singleton.2
      ⟨_, .tail _ (.head _), rfl, hargs⟩⟩
  build := by
    intro seen hseen
    simp only [rendered, List.forall_mem_cons, List.isEmpty_iff, Bool.false_eq_true,
      or_false] at hseen
    obtain ⟨hkind, hargs, -⟩ := hseen
    have hempty : "args" ∈ seen ∨ c.args = .empty := hargs.imp_right fun hnil => by
      cases hc : c.args
      simp_all [Args.empty]
    simp only [shape, draftOf, met_of_mem hkind, getD_met hempty]
    rfl

theorem decode_outline (c : Command) : Command.decode c.toValue.outline = .ok c := by
  rw [toValue_eq, Rendered.outline_object]
  exact c.renders_shape.decode_rendered tracks_shape

end Command

namespace Envelope

theorem decode_outline (e : Envelope) : Envelope.decode e.toValue.outline = .ok e := by
  cases e with
  | packet p =>
    show (within (.member "packet_mixin") ((Packet.decode p.toValue.outline).map packet) >>= _) = _
    rw [Packet.decode_outline]
    rfl
  | command c =>
    show (within (.member "command") ((Command.decode c.toValue.outline).map command) >>= _) = _
    rw [Command.decode_outline]
    rfl

/-- A written frame is read back as what was written. -/
theorem ofText_encode (e : Envelope) : Envelope.ofText e.encode = .ok e := by
  rw [Envelope.ofText, encode, Json.read_text, decodeDocument, decode_outline]
  rfl

end Envelope

end Switchboard.Wire
