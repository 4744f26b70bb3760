import Switchboard.Decimal

/-!
JSON numbers as they are written, and the values they stand for. An integer in the range of 64 bits
is exact. Every other number is a float, of which only the first digits count that fit into 64 bits;
a float beyond the greatest one is out of range.
-/

namespace Switchboard.Json

/-- A number as written: sign, digits before the point, digits after it, and the exponent with its
own sign. -/
structure Number where
  negative : Bool := false
  whole : List Nat
  fraction : List Nat := []
  exponent : Option (Bool × List Nat) := none
  deriving DecidableEq, Repr, Inhabited

inductive Number.Value where
  | natural (n : UInt64)
  | negative (n : Int64)
  | float (x : Float)
  | outOfRange
  deriving Repr, Inhabited

namespace Number

def ofInt (i : Int) : Number where
  negative := i < 0
  whole := (Nat.toDigits 10 i.natAbs).map fun c => c.toNat - '0'.toNat

/-- The leading digits as far as they fit into 64 bits, and how many were left over. -/
def wholePart (acc : Nat) : List Nat → Nat × Nat
  | [] => (acc, 0)
  | d :: ds =>
    let next := 10 * acc + d
    if next < 0x10000000000000000 then wholePart next ds else (acc, ds.length + 1)

/-- The digits with those of the fraction, as far as they fit, and how many of these were taken. -/
def fractionPart (acc taken : Nat) : List Nat → Nat × Nat
  | [] => (acc, taken)
  | d :: ds =>
    let next := 10 * acc + d
    if next < 0x10000000000000000 then fractionPart next (taken + 1) ds else (acc, taken)

/-- Divides by ten `k` times, in steps that a float can hold. -/
def scaleDown (x : Float) (k : Nat) : Float :=
  if k ≤ 308 then x / Float.ofScientific 1 false k
  else if x == 0.0 then x
  else scaleDown (x / 1e308) (k - 308)
termination_by k

/-- A float of the given digits and power of ten, if it is finite. -/
def scale? (digits : Nat) (power : Int) : Option Float :=
  let x := (UInt64.ofNat digits).toFloat
  if power < 0 then some (scaleDown x power.natAbs)
  else if power ≤ 308 then
    let x := x * Float.ofScientific 1 false power.toNat
    if x.isInf then none else some x
  else if x == 0.0 then some x
  else none

/-- The greatest exponent that is read as it stands. -/
def exponentLimit : Int := 0x7fffffff

def exponentValue (ds : List Nat) : Int :=
  ds.foldl (fun acc (d : Nat) => if exponentLimit < acc then acc else 10 * acc + (d : Int)) 0

def floatValue (n : Number) : Value :=
  let (digits, dropped) := wholePart 0 n.whole
  let (digits, taken) := fractionPart digits 0 n.fraction
  let start : Int := (dropped : Int) - taken
  let signed (x : Float) : Value := .float (if n.negative then -x else x)
  let finish (power : Int) : Value :=
    match scale? digits power with
    | some x => signed x
    | none => .outOfRange
  match n.exponent with
  | none => finish start
  | some (down, ds) =>
    let e := exponentValue ds
    if exponentLimit < e then
      -- no digits make up for such an exponent, in either direction
      if digits ≠ 0 && !down then .outOfRange else signed 0.0
    else finish (if down then start - e else start + e)

def value (n : Number) : Value :=
  let (digits, dropped) := wholePart 0 n.whole
  if n.fraction.isEmpty && n.exponent.isNone && dropped = 0 then
    if !n.negative then .natural (UInt64.ofNat digits)
    -- minus zero is a float
    else if digits ≠ 0 ∧ digits ≤ 0x8000000000000000 then .negative (Int64.ofInt (-digits))
    else n.floatValue
  else n.floatValue

end Number

end Switchboard.Json
