/-!
The shortest decimal that reads back as a given binary float. A finite float is a natural number
times a power of two; the reals that round to it form an interval, whose ends belong to it when the
number is even. Of the decimals in the interval, one with the fewest digits is chosen, and of those
the nearest.
-/

namespace Switchboard.Decimal

/-- The highest bit of a normal mantissa, which is not stored. -/
def hiddenBit : Nat := 0x10000000000000

def tenTo (e : Nat) : Nat := Nat.pow 10 e

/-- A positive float as `mantissa * 2 ^ exponent`. -/
structure Binary where
  mantissa : Nat
  exponent : Int
  deriving DecidableEq, Repr, Inhabited

/-- The decoded bits of a finite float, sign apart. -/
def Binary.ofBits (bits : Nat) : Binary :=
  let fraction := bits % hiddenBit
  let biased := bits / hiddenBit % 2048
  -- subnormal floats have no hidden bit
  if biased = 0 then ⟨fraction, -1074⟩ else ⟨hiddenBit + fraction, Int.ofNat biased - 1075⟩

/-- A positive decimal as `digits * 10 ^ exponent`. -/
structure Scientific where
  digits : Nat
  exponent : Int
  deriving DecidableEq, Repr, Inhabited

namespace Scientific

/-- Moves zeros at the end of the digits to the exponent. -/
def normalize (fuel : Nat) (d : Scientific) : Scientific :=
  match fuel with
  | 0 => d
  | fuel + 1 =>
    if d.digits ≠ 0 ∧ d.digits % 10 = 0 then normalize fuel ⟨d.digits / 10, d.exponent + 1⟩ else d

/-- Both sides of a comparison with `numerator / denominator`, without fractions. -/
def compareWith (d : Scientific) (numerator denominator : Nat) : Ordering :=
  if d.exponent < 0 then
    compare (d.digits * denominator) (numerator * tenTo d.exponent.natAbs)
  else compare (d.digits * tenTo d.exponent.toNat * denominator) numerator

/-- The texts of decimals: positional from `10 ^ -5` up to `10 ^ 16`, always with a point or an
exponent; an exponent has its sign and at least two digits. -/
def text (d : Scientific) : String :=
  let ds := Nat.toDigits 10 d.digits
  let point := (ds.length : Int) + d.exponent
  if 0 ≤ d.exponent ∧ point ≤ 16 then
    .ofList (ds ++ List.replicate d.exponent.toNat '0' ++ ['.', '0'])
  else if 0 < point ∧ point ≤ 16 then
    .ofList (ds.take point.toNat ++ '.' :: ds.drop point.toNat)
  else if -5 < point ∧ point ≤ 0 then
    .ofList (['0', '.'] ++ List.replicate point.natAbs '0' ++ ds)
  else
    let mantissa :=
      match ds with
      | [] => []
      | [c] => [c]
      | c :: cs => c :: '.' :: cs
    let power := point - 1
    let digits := Nat.toDigits 10 power.natAbs
    .ofList (mantissa ++ ['e', if power < 0 then '-' else '+'] ++
      (if digits.length < 2 then '0' :: digits else digits))

end Scientific

namespace Binary

/-- The value over a common denominator, after scaling by four. -/
def scaled (b : Binary) (quarters : Nat) : Nat × Nat :=
  if b.exponent < 2 then (quarters, 1 <<< (2 - b.exponent).toNat)
  else (quarters <<< (b.exponent - 2).toNat, 1)

/-- The decimal lies in the interval of reals that round to the float. -/
def accepts (b : Binary) (d : Scientific) : Bool :=
  -- below a power of two the next float is half as far away
  let below := if b.mantissa = hiddenBit ∧ b.exponent ≠ -1074 then 1 else 2
  let (low, lowDen) := b.scaled (4 * b.mantissa - below)
  let (high, highDen) := b.scaled (4 * b.mantissa + 2)
  let even := b.mantissa % 2 == 0
  match d.compareWith low lowDen, d.compareWith high highDen with
  | .gt, .lt => true
  | .eq, .lt | .gt, .eq => even
  | _, _ => false

/-- The power of ten of the first digit, searched downwards from `top`. -/
def firstPower (b : Binary) (fuel : Nat) (top : Int) : Int :=
  match fuel with
  | 0 => top
  | fuel + 1 =>
    let (n, d) := b.scaled (4 * b.mantissa)
    if Scientific.compareWith ⟨1, top⟩ n d = .gt then firstPower b fuel (top - 1) else top

/-- The neighbours of the float on the grid of `10 ^ power` that round to it, the nearer first. -/
def neighbours (b : Binary) (power : Int) : List Scientific :=
  let (n, d) := b.scaled (4 * b.mantissa)
  let (n, d) := if power < 0 then (n * tenTo power.natAbs, d) else (n, d * tenTo power.toNat)
  let low := n / d
  let both : List Scientific := [⟨low, power⟩, ⟨low + 1, power⟩]
  -- of two that are equally near the even one goes first
  let nearest := if 2 * (n % d) < d ∨ (2 * (n % d) = d ∧ low % 2 = 0) then both else both.reverse
  nearest.filter fun s => s.digits ≠ 0 && b.accepts s

/-- The first grid with a hit, from one digit on. -/
def search (b : Binary) (power : Int) (fuel : Nat) : Scientific :=
  match fuel with
  | 0 => ⟨b.mantissa, 0⟩
  | fuel + 1 =>
    match b.neighbours power with
    | s :: _ => s
    | [] => search b (power - 1) fuel

def shortest (b : Binary) : Scientific :=
  (b.search (b.firstPower 700 309) 18).normalize 20

end Binary

def floatText (f : Float) : String :=
  let bits := f.toBits.toNat
  let sign := if bits / 0x8000000000000000 = 1 then "-" else ""
  let b := Binary.ofBits bits
  if b.mantissa = 0 then sign ++ "0.0" else sign ++ b.shortest.text

end Switchboard.Decimal
