import Switchboard.Text.Utf8

/-!
WebSocket frames and messages. A frame has a header of two bytes, a longer length where the payload
needs one, and a mask of four bytes when a client sends it.
-/

namespace Switchboard.WebSocket

/-- What an endpoint sends or receives. -/
inductive Message where
  | text (s : String)
  | binary (bytes : Bytes)
  | ping (bytes : Bytes)
  | pong (bytes : Bytes)
  | close (reason : Option (UInt16 × String))
  deriving DecidableEq, Repr, Inhabited

structure Frame where
  final : Bool := true
  opcode : Nat
  payload : Bytes
  deriving DecidableEq, Repr, Inhabited

namespace Opcode

def continuation : Nat := 0

def text : Nat := 1

def binary : Nat := 2

def close : Nat := 8

def ping : Nat := 9

def pong : Nat := 10

def isControl (opcode : Nat) : Bool := 8 ≤ opcode

/-- Codes that no frame may have yet. -/
def isReserved (opcode : Nat) : Bool := (3 ≤ opcode && opcode ≤ 7) || 11 ≤ opcode

end Opcode

def closePayload : Option (UInt16 × Bytes) → Bytes
  | none => []
  | some (code, reason) =>
    UInt8.ofNat (code.toNat / 256) :: UInt8.ofNat (code.toNat % 256) :: reason

def Message.frame : Message → Frame
  | .text s => { opcode := Opcode.text, payload := Text.Utf8.encode s }
  | .binary bytes => { opcode := Opcode.binary, payload := bytes }
  | .ping bytes => { opcode := Opcode.ping, payload := bytes }
  | .pong bytes => { opcode := Opcode.pong, payload := bytes }
  | .close reason =>
    { opcode := Opcode.close
      payload := closePayload (reason.map fun (code, words) => (code, Text.Utf8.encode words)) }

/-- The message that carries a payload: a text if it is one. -/
def Message.ofPayload (payload : Bytes) : Message :=
  match Text.Utf8.decode? payload with
  | some s => .text s
  | none => .binary payload

/-- The `n` low bytes of a number, the highest first. -/
def lengthBytes : (n : Nat) → Nat → Bytes
  | 0, _ => []
  | n + 1, v => lengthBytes n (v / 256) ++ [UInt8.ofNat (v % 256)]

namespace Frame

/-- Bytes of the header of an unmasked frame. -/
def headerSize (f : Frame) : Nat :=
  if f.payload.length < 126 then 2 else if f.payload.length < 65536 then 4 else 10

def size (f : Frame) : Nat := f.headerSize + f.payload.length

/-- The bytes of the frame, with a mask of zeros if it is masked. -/
def encode (masked : Bool) (f : Frame) : Bytes :=
  let flag := if masked then 128 else 0
  let n := f.payload.length
  let first := UInt8.ofNat ((if f.final then 128 else 0) + f.opcode)
  let length :=
    -- the shortest form that holds the length
    if n < 126 then [UInt8.ofNat (flag + n)]
    else if n < 65536 then UInt8.ofNat (flag + 126) :: lengthBytes 2 n
    else UInt8.ofNat (flag + 127) :: lengthBytes 8 n
  first :: length ++ (if masked then [0, 0, 0, 0] else []) ++ f.payload

end Frame

/-- The frames of a text in fragments; without any there is one empty frame. -/
def fragmentFrames (parts : List Bytes) : List Frame :=
  let rec go (first : Bool) : List Bytes → List Frame
    | [] => []
    | [last] => [⟨true, if first then Opcode.text else Opcode.continuation, last⟩]
    | part :: rest =>
      ⟨false, if first then Opcode.text else Opcode.continuation, part⟩ :: go false rest
  match parts with
  | [] => [⟨true, Opcode.text, []⟩]
  | parts => go true parts

end Switchboard.WebSocket
