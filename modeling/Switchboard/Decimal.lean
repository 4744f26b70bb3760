/-!
Decimal numerals of bounded integers. A numeral is one optional sign and then digits only; it is
read from the left, and the first character or the first overflow that spoils it is the fault.
-/

namespace Switchboard.Decimal

/-- Why a text is no numeral of the wanted range. -/
inductive Fault where
  | empty
  | invalidDigit
  | tooLarge
  | tooSmall
  deriving DecidableEq, Repr, Inhabited

def Fault.name : Fault → String
  | .empty => "Empty"
  | .invalidDigit => "InvalidDigit"
  | .tooLarge => "PosOverflow"
  | .tooSmall => "NegOverflow"

/-- The value of an ASCII digit. -/
def digit? (c : Char) : Option Nat :=
  if c.isDigit then some (c.toNat - '0'.toNat) else none

/-- Reads digits onto `acc`, with `bound` as the greatest magnitude. -/
def readMagnitude (bound : Nat) (excess : Fault) (acc : Nat) : List Char → Except Fault Nat
  | [] => .ok acc
  | c :: cs =>
    match digit? c with
    | none => .error .invalidDigit
    | some d =>
      let acc := 10 * acc + d
      -- an overflow is found before any later character that is no digit
      if bound < acc then .error excess else readMagnitude bound excess acc cs

/-- At least one digit. -/
def readDigits (bound : Nat) (excess : Fault) : List Char → Except Fault Nat
  | [] => .error .invalidDigit
  | cs => readMagnitude bound excess 0 cs

/-- A numeral of `0 … bound`; the sign can only be a plus. -/
def readNat (bound : Nat) : List Char → Except Fault Nat
  | [] => .error .empty
  | '+' :: cs => readDigits bound .tooLarge cs
  | cs => readDigits bound .tooLarge cs

/-- A numeral of `-(bound + 1) … bound`. -/
def readInt (bound : Nat) : List Char → Except Fault Int
  | [] => .error .empty
  | '+' :: cs => (readDigits bound .tooLarge cs).map Int.ofNat
  | '-' :: cs => (readDigits (bound + 1) .tooSmall cs).map fun n => -(n : Int)
  | cs => (readDigits bound .tooLarge cs).map Int.ofNat

def readInt64 (cs : List Char) : Except Fault Int64 :=
  (readInt 0x7fffffffffffffff cs).map Int64.ofInt

def readUInt64 (cs : List Char) : Except Fault UInt64 :=
  (readNat 0xffffffffffffffff cs).map UInt64.ofNat

def readUInt16 (cs : List Char) : Except Fault UInt16 :=
  (readNat 0xffff cs).map UInt16.ofNat

def printNat (n : Nat) : List Char := Nat.toDigits 10 n

/-- Digits of an integer, after a minus when it is negative. -/
def printInt (i : Int) : List Char :=
  if i < 0 then '-' :: printNat i.natAbs else printNat i.natAbs

def printInt64 (i : Int64) : List Char := printInt i.toInt

def printUInt64 (n : UInt64) : List Char := printNat n.toNat

end Switchboard.Decimal
