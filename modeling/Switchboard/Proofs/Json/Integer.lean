import Switchboard.Proofs.Decimal
import Switchboard.Proofs.Json.Scan
import Switchboard.Wire.Decoder

/-!
# Integer — what the number of an integer stands for

An integer of 64 bits is written with digits that never come to more than 64 bits on the way, so
none is left over and the number is exact.
-/

namespace Switchboard.Json.Number

/-- Digits that come to no more than 64 bits are all taken. -/
theorem wholePart_digitsOf (cs : List Char) (acc : Nat)
    (h : Nat.ofDigitChars 10 cs acc < 0x10000000000000000) :
    wholePart acc (digitsOf cs) = (Nat.ofDigitChars 10 cs acc, 0) := by
  induction cs generalizing acc with
  | nil => rfl
  | cons c cs ih =>
    rw [Nat.ofDigitChars_cons] at h ⊢
    -- the value only grows, so no prefix of the digits is too great either
    have hfits : 10 * acc + (c.toNat - '0'.toNat) < 0x10000000000000000 :=
      Nat.lt_of_le_of_lt (Decimal.le_ofDigitChars cs _) h
    rw [digitsOf, List.map_cons, ← digitsOf, wholePart, if_pos hfits]
    exact ih _ h

theorem wholePart_ofInt {i : Int} (h : i.natAbs < 0x10000000000000000) :
    wholePart 0 (ofInt i).whole = (i.natAbs, 0) := by
  have hdigits : Nat.ofDigitChars 10 (Nat.toDigits 10 i.natAbs) 0 = i.natAbs :=
    Nat.ofDigitChars_toDigits (by decide) (by decide)
  have hwhole := wholePart_digitsOf (Nat.toDigits 10 i.natAbs) 0 (by rwa [hdigits])
  rwa [hdigits] at hwhole

theorem value_ofInt_of_nonneg {i : Int} (h : 0 ≤ i) (hlt : i.natAbs < 0x10000000000000000) :
    (ofInt i).value = .natural (UInt64.ofNat i.natAbs) := by
  have hsign : (ofInt i).negative = false := decide_eq_false (by omega)
  rw [value, wholePart_ofInt hlt, hsign]
  rfl

theorem value_ofInt_of_neg {i : Int} (h : i < 0) (hle : i.natAbs ≤ 0x8000000000000000) :
    (ofInt i).value = .negative (Int64.ofInt i) := by
  have hsign : (ofInt i).negative = true := decide_eq_true h
  have habs : -(i.natAbs : Int) = i := by omega
  rw [value, wholePart_ofInt (by omega), hsign]
  show (if i.natAbs ≠ 0 ∧ i.natAbs ≤ 0x8000000000000000 then
      Value.negative (Int64.ofInt (-(i.natAbs : Int))) else _) = _
  rw [if_pos ⟨by omega, hle⟩, habs]

end Switchboard.Json.Number

namespace Switchboard.Wire

open Json (Number)

/-- Every integer of 64 bits comes through, the extreme ones included. -/
theorem decodeInt64_ofInt (i : Int64) : decodeInt64 (.number (.ofInt i.toInt)) = .ok i := by
  have hlow := i.le_toInt
  have hhigh := i.toInt_lt
  -- the two signs are read by different ways
  by_cases hneg : i.toInt < 0
  · rw [decodeInt64, Number.value_ofInt_of_neg hneg (by omega), Int64.ofInt_toInt]
  · have hnat : (UInt64.ofNat i.toInt.natAbs).toNat = i.toInt.natAbs :=
      UInt64.toNat_ofNat_of_lt' (by show _ < 2 ^ 64; omega)
    have habs : ((i.toInt.natAbs : Nat) : Int) = i.toInt := by omega
    rw [decodeInt64, Number.value_ofInt_of_nonneg (by omega) (by omega)]
    show (if (UInt64.ofNat i.toInt.natAbs).toNat < 0x8000000000000000 then _ else _) = _
    rw [hnat, if_pos (by omega), habs, Int64.ofInt_toInt]

end Switchboard.Wire
