import Switchboard.Text.Utf8

/-!
The head of a response, read from as many bytes as have come: a status line and header lines up to
an empty one. Lines end with a line feed, with or without a carriage return.
-/

namespace Switchboard.Http

/-- Why no head can be read: more bytes are needed, or none can help. -/
inductive HeadFault where
  | incomplete
  | malformed
  deriving DecidableEq, Repr, Inhabited

/-- The numbers of a status line; the version is 1.`minor`. -/
structure StatusLine where
  minor : Nat
  code : Nat
  deriving DecidableEq, Repr, Inhabited

namespace Head

/-- Header lines that a head may have. -/
def maxHeaders : Nat := 124

def isDigit (b : UInt8) : Bool := 0x30 ≤ b && b ≤ 0x39

def isNameByte (b : UInt8) : Bool :=
  isDigit b || (0x41 ≤ b && b ≤ 0x5a) || (0x61 ≤ b && b ≤ 0x7a) ||
    (Text.Utf8.encode "!#$%&'*+-.^_`|~").contains b

def isLineByte (b : UInt8) : Bool := b = 0x09 || (0x20 ≤ b && b ≠ 0x7f)

def expectByte (ok : UInt8 → Bool) : Bytes → Except HeadFault (UInt8 × Bytes)
  | [] => .error .incomplete
  | b :: rest => if ok b then .ok (b, rest) else .error .malformed

def expectAll (expected : Bytes) (bytes : Bytes) : Except HeadFault Bytes :=
  expected.foldlM (fun bytes e => (expectByte (· = e) bytes).map Prod.snd) bytes

def lineEnd : Bytes → Except HeadFault Bytes
  | 0x0a :: rest => .ok rest
  | bytes => expectAll [0x0d, 0x0a] bytes

def skipEmptyLines : Bytes → Except HeadFault Bytes
  | 0x0d :: 0x0a :: rest => skipEmptyLines rest
  | 0x0a :: rest => skipEmptyLines rest
  -- a line feed may still come
  | [0x0d] => .error .incomplete
  | 0x0d :: _ => .error .malformed
  | bytes => .ok bytes

def digitValue (b : UInt8) : Nat := b.toNat - 0x30

def readCode (bytes : Bytes) : Except HeadFault (Nat × Bytes) := do
  let (a, bytes) ← expectByte isDigit bytes
  let (b, bytes) ← expectByte isDigit bytes
  let (c, bytes) ← expectByte isDigit bytes
  return (100 * digitValue a + 10 * digitValue b + digitValue c, bytes)

/-- What follows the code: nothing, or a space and a reason. -/
def skipReason : Bytes → Except HeadFault Bytes
  | 0x20 :: rest => lineEnd (rest.dropWhile isLineByte)
  | bytes => lineEnd bytes

def readStatusLine (bytes : Bytes) : Except HeadFault (StatusLine × Bytes) := do
  let bytes ← skipEmptyLines bytes
  let bytes ← expectAll (Text.Utf8.encode "HTTP/1.") bytes
  let (minor, bytes) ← expectByte (fun b => b = 0x30 || b = 0x31) bytes
  let bytes ← expectAll [0x20] bytes
  let (code, bytes) ← readCode bytes
  let bytes ← skipReason bytes
  return (⟨digitValue minor, code⟩, bytes)

/-- A name, a colon and a value on one line. -/
def readHeaderLine (bytes : Bytes) : Except HeadFault Bytes := do
  let (_, bytes) ← expectByte isNameByte bytes
  let bytes ← expectAll [0x3a] (bytes.dropWhile isNameByte)
  lineEnd (bytes.dropWhile isLineByte)

/-- Header lines up to the empty line, but no more than `room`. -/
def readHeaderLines (room : Nat) (bytes : Bytes) : Except HeadFault Bytes :=
  match bytes with
  | 0x0d :: _ | 0x0a :: _ => lineEnd bytes
  | _ =>
    match room with
    | 0 => .error .malformed
    | room + 1 => do readHeaderLines room (← readHeaderLine bytes)

/-- Reads a head; what follows it is of no interest. -/
def read (bytes : Bytes) : Except HeadFault StatusLine := do
  let (status, bytes) ← readStatusLine bytes
  let _ ← readHeaderLines maxHeaders bytes
  return status

end Head

end Switchboard.Http
