import Switchboard.Text.Utf8

/-!
Base64 with the standard alphabet. Three bytes are written as four symbols and a shorter rest is
filled up with padding. Reading is strict: whole blocks of four, padding only where a block needs
it, and no bit left over. A padded block may stand anywhere, not only at the end.
-/

namespace Switchboard.Base64

/-- Why a text is no Base64, with the offset in bytes where it shows. -/
inductive Fault where
  | length (offset : Nat)
  | padding (offset : Nat)
  | symbol (offset : Nat)
  | trailing (offset : Nat)
  deriving DecidableEq, Repr, Inhabited

def Fault.message : Fault → String
  | .length i => s!"invalid length at {i}"
  | .padding i => s!"invalid padding length at {i}"
  | .symbol i => s!"invalid symbol at {i}"
  | .trailing i => s!"non-zero trailing bits at {i}"

def symbol (n : Nat) : Char :=
  if n < 26 then Char.ofNat ('A'.toNat + n)
  else if n < 52 then Char.ofNat ('a'.toNat + (n - 26))
  else if n < 62 then Char.ofNat ('0'.toNat + (n - 52))
  else if n = 62 then '+'
  else '/'

def value? (b : UInt8) : Option Nat :=
  let n := b.toNat
  if 'A'.toNat ≤ n && n ≤ 'Z'.toNat then some (n - 'A'.toNat)
  else if 'a'.toNat ≤ n && n ≤ 'z'.toNat then some (n - 'a'.toNat + 26)
  else if '0'.toNat ≤ n && n ≤ '9'.toNat then some (n - '0'.toNat + 52)
  else if n = '+'.toNat then some 62
  else if n = '/'.toNat then some 63
  else none

/-- The symbols of a byte string, onto `acc` in reverse. -/
def encodeOnto (acc : List Char) : Bytes → List Char
  | [] => acc
  | [a] =>
    let n := a.toNat * 16
    '=' :: '=' :: symbol (n % 64) :: symbol (n / 64) :: acc
  | [a, b] =>
    let n := (a.toNat * 256 + b.toNat) * 4
    '=' :: symbol (n % 64) :: symbol (n / 64 % 64) :: symbol (n / 4096) :: acc
  | a :: b :: c :: rest =>
    let n := (a.toNat * 256 + b.toNat) * 256 + c.toNat
    encodeOnto (symbol (n % 64) :: symbol (n / 64 % 64) :: symbol (n / 4096 % 64) ::
      symbol (n / 262144) :: acc) rest

def encode (bytes : Bytes) : List Char := (encodeOnto [] bytes).reverse

def padding : UInt8 := '='.toUInt8

/-- The six-bit values of symbols, the first of which stands at `pos`. -/
def values (pos : Nat) : Bytes → Except Fault (List Nat)
  | [] => .ok []
  | b :: bs =>
    match value? b with
    | none => .error (.symbol pos)
    | some v => (values (pos + 1) bs).map (v :: ·)

/-- The bytes of one block at `pos`. -/
def decodeBlock (pos : Nat) (block : Bytes) : Except Fault Bytes := do
  let plain := (block.reverse.dropWhile (· = padding)).reverse
  if plain.length < 2 then throw (.padding (pos + plain.length))
  match ← values pos plain with
  | [a, b] =>
    -- bits that no byte takes must be zero, or two texts would spell the same bytes
    if b % 16 ≠ 0 then throw (.trailing (pos + 1))
    return [UInt8.ofNat (a * 4 + b / 16)]
  | [a, b, c] =>
    if c % 4 ≠ 0 then throw (.trailing (pos + 2))
    return [UInt8.ofNat (a * 4 + b / 16), UInt8.ofNat (b % 16 * 16 + c / 4)]
  | [a, b, c, d] =>
    return [UInt8.ofNat (a * 4 + b / 16), UInt8.ofNat (b % 16 * 16 + c / 4),
      UInt8.ofNat (c % 4 * 64 + d)]
  | _ => throw (.padding (pos + plain.length))

/-- The bytes of whole blocks from `pos` on, onto `acc` in reverse. -/
def decodeBlocks (pos : Nat) (acc : Bytes) : Bytes → Except Fault Bytes
  | a :: b :: c :: d :: rest => do
    let bytes ← decodeBlock pos [a, b, c, d]
    decodeBlocks (pos + 4) (bytes.reverse ++ acc) rest
  | _ => .ok acc.reverse

def decode (symbols : Bytes) : Except Fault Bytes :=
  if symbols.length % 4 ≠ 0 then .error (.length (symbols.length / 4 * 4))
  else decodeBlocks 0 [] symbols

end Switchboard.Base64
