import Switchboard.WebSocket.Frame

/-!
Reading messages from the bytes of a connection, as far as they have come. Clients mask their frames
and servers do not; a violation of the protocol ends the reading.
-/

namespace Switchboard.WebSocket

inductive Role where
  | server
  | client
  deriving DecidableEq, Repr, Inhabited

inductive ReadFault where
  | protocol
  | capacity
  | utf8
  deriving DecidableEq, Repr, Inhabited

/-- The greatest length that a frame may declare. -/
def maxFrame : Nat := 16777216

/-- The greatest length that the fragments of a message may come to. -/
def maxMessage : Nat := 67108864

structure Header where
  final : Bool
  reserved : Bool
  opcode : Nat
  mask : Option Bytes
  length : Nat
  deriving DecidableEq, Repr, Inhabited

def bigEndian (bytes : Bytes) : Nat := bytes.foldl (fun n b => 256 * n + b.toNat) 0

/-- The first `n` bytes and the rest, if there are that many. -/
def split? (n : Nat) (bytes : Bytes) : Option (Bytes × Bytes) :=
  let front := bytes.take n
  if front.length = n then some (front, bytes.drop n) else none

/-- The header at the front, if all of it has come. -/
def Header.read? : Bytes → Option (Header × Bytes)
  | a :: b :: rest => do
    let a := a.toNat
    let b := b.toNat
    let short := b % 128
    -- 126 and 127 stand for a length that follows in two or eight bytes
    let (length, rest) ←
      if short < 126 then some (short, rest)
      else (split? (if short = 126 then 2 else 8) rest).map fun (l, rest) => (bigEndian l, rest)
    -- the high bit of the second byte announces a mask
    let (mask, rest) ←
      if b < 128 then some (none, rest)
      else (split? 4 rest).map fun (m, rest) => (some m, rest)
    return (⟨128 ≤ a, a / 16 % 8 ≠ 0, a % 16, mask, length⟩, rest)
  | _ => none

/-- Applies a mask over and over. -/
def unmask (mask : Bytes) (payload : Bytes) : Bytes :=
  payload.zipWith (· ^^^ ·) ((List.replicate (payload.length / 4 + 1) mask).flatten)

/-- A message of which only some fragments have come. -/
inductive Partial where
  | text (bytes : Bytes) (state : Text.Utf8.State)
  | binary (bytes : Bytes)
  deriving DecidableEq, Repr, Inhabited

def Partial.bytes : Partial → Bytes
  | .text bytes _ | .binary bytes => bytes

/-- The bytes that have come and are not read yet, and the fragments read. -/
structure Reader where
  role : Role
  pending : Bytes := []
  fragments : Option Partial := none
  deriving DecidableEq, Repr, Inhabited

/-- What the next look at the bytes gives. -/
inductive Reading where
  | starved
  | fault (f : ReadFault)
  | frame (message : Option Message) (next : Reader)
  deriving DecidableEq, Repr, Inhabited

namespace Reader

def feed (r : Reader) (bytes : Bytes) : Reader := { r with pending := r.pending ++ bytes }

/-- The frame has bits or a mask that its sender must not set. -/
def badForm (role : Role) (h : Header) : Bool :=
  match role with
  | .server => h.mask.isNone || h.reserved
  | .client => h.mask.isSome || h.reserved

/-- The reason of a close frame. -/
def closeReason (payload : Bytes) : Except ReadFault (Option (UInt16 × String)) :=
  match payload with
  | [] => .ok none
  | [_] => .error .protocol
  | a :: b :: reason =>
    match Text.Utf8.decode? reason with
    | some text => .ok (some (UInt16.ofNat (a.toNat * 256 + b.toNat), text))
    | none => .error .utf8

/-- The message of a control frame. -/
def control (h : Header) (payload : Bytes) : Except ReadFault Message :=
  if !h.final || 125 < payload.length then .error .protocol
  else if h.opcode = Opcode.close then (closeReason payload).map .close
  else if h.opcode = Opcode.ping then .ok (.ping payload)
  else .ok (.pong payload)

/-- More bytes of a text, which must stay the beginning of one. -/
def extendText (bytes : Bytes) (state : Text.Utf8.State) (more : Bytes) :
    Except ReadFault Partial :=
  match Text.Utf8.advance? state more with
  | some state => .ok (.text (bytes ++ more) state)
  | none => .error .utf8

/-- One more fragment of a message, which must not become too long. -/
def extend (fragments : Partial) (more : Bytes) : Except ReadFault Partial :=
  if maxMessage < fragments.bytes.length + more.length then .error .capacity
  else
    match fragments with
    | .text bytes state => extendText bytes state more
    | .binary bytes => .ok (.binary (bytes ++ more))

/-- The message that fragments make up. -/
def complete : Partial → Except ReadFault Message
  | .text bytes _ =>
    match Text.Utf8.decode? bytes with
    | some s => .ok (.text s)
    | none => .error .utf8
  | .binary bytes => .ok (.binary bytes)

/-- A data frame: the fragments after it, and the message if it is the last one. -/
def data (fragments : Option Partial) (h : Header) (payload : Bytes) :
    Except ReadFault (Option Message × Option Partial) := do
  let extended ←
    if h.opcode = Opcode.continuation then
      -- a continuation goes on with a message, every other data frame begins one
      match fragments with
      | none => throw .protocol
      | some fragments => extend fragments payload
    else if fragments.isSome then throw .protocol
    else if h.opcode = Opcode.text then extendText [] .boundary payload
    else pure (.binary payload)
  if h.final then
    let message ← complete extended
    return (some message, none)
  else return (none, some extended)

/-- Reads the next frame, if all of it has come. -/
def next (r : Reader) : Reading :=
  match Header.read? r.pending with
  | none => .starved
  | some (h, rest) =>
    if Opcode.isReserved h.opcode then .fault .protocol
    else if maxFrame < h.length then .fault .capacity
    else
      -- the header alone tells of a reserved code or an excessive length
      match split? h.length rest with
      | none => .starved
      | some (payload, rest) =>
        if badForm r.role h then .fault .protocol
        else
          let payload := match h.mask with
            | some mask => unmask mask payload
            | none => payload
          if Opcode.isControl h.opcode then
            match control h payload with
            | .error f => .fault f
            | .ok message => .frame (some message) { r with pending := rest }
          else
            match data r.fragments h payload with
            | .error f => .fault f
            | .ok (message, fragments) => .frame message { r with pending := rest, fragments }

end Reader

end Switchboard.WebSocket
