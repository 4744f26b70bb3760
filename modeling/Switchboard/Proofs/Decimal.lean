import Mathlib.Order.Basic
import Switchboard.Decimal
import Switchboard.Proofs.Except

/-!
# Decimal — which texts are numerals

A numeral is one optional sign and then digits, at least one; it stands for the number that the
digits come to. Reading accepts exactly the numerals of its range, printed ones among them, and says
of any other text what spoils it first.
-/

namespace Switchboard.Decimal

/-! ## 1. Numerals -/

/-- The text of an integer, as anyone may write it: also with a plus, and with zeros in front. -/
inductive Numeral : List Char → Int → Prop
  | plain {ds : List Char} (hne : ds ≠ []) (hdigits : ∀ c ∈ ds, c.isDigit = true) :
      Numeral ds (Nat.ofDigitChars 10 ds 0)
  | plus {ds : List Char} (hne : ds ≠ []) (hdigits : ∀ c ∈ ds, c.isDigit = true) :
      Numeral ('+' :: ds) (Nat.ofDigitChars 10 ds 0)
  | minus {ds : List Char} (hne : ds ≠ []) (hdigits : ∀ c ∈ ds, c.isDigit = true) :
      Numeral ('-' :: ds) (-(Nat.ofDigitChars 10 ds 0 : Int))

/-- Reading on only makes a number greater. -/
theorem le_ofDigitChars (cs : List Char) (acc : Nat) : acc ≤ Nat.ofDigitChars 10 cs acc := by
  induction cs generalizing acc with
  | nil => exact Nat.le_refl _
  | cons c cs ih =>
    rw [Nat.ofDigitChars_cons]
    have hnext := ih (10 * acc + (c.toNat - '0'.toNat))
    omega

/-! ## 2. Digits -/

variable {bound : Nat} {excess : Fault} {cs : List Char} {n : Nat} {i : Int}

theorem readMagnitude_eq_ok_iff {acc : Nat} (hacc : acc ≤ bound) :
    readMagnitude bound excess acc cs = .ok n ↔
      (∀ c ∈ cs, c.isDigit = true) ∧ Nat.ofDigitChars 10 cs acc = n ∧ n ≤ bound := by
  induction cs generalizing acc with
  | nil =>
    constructor
    · intro h
      obtain rfl : acc = n := Except.ok.inj h
      exact ⟨fun _ hc => absurd hc List.not_mem_nil, rfl, hacc⟩
    · rintro ⟨-, rfl, -⟩
      rfl
  | cons c cs ih =>
    rw [Nat.ofDigitChars_cons, List.forall_mem_cons, readMagnitude, digit?]
    by_cases hdigit : c.isDigit = true
    · rw [if_pos hdigit]
      show (if bound < 10 * acc + (c.toNat - '0'.toNat) then _ else _) = _ ↔ _
      by_cases hover : bound < 10 * acc + (c.toNat - '0'.toNat)
      · -- once it is too great it stays too great
        rw [if_pos hover]
        have hle := le_ofDigitChars cs (10 * acc + (c.toNat - '0'.toNat))
        exact ⟨nofun, fun ⟨_, hn, hbound⟩ => by omega⟩
      · rw [if_neg hover, ih (Nat.le_of_not_lt hover)]
        simp only [hdigit, true_and]
    · rw [if_neg hdigit]
      exact ⟨nofun, fun ⟨hall, _⟩ => absurd hall.1 hdigit⟩

theorem readDigits_eq_ok_iff :
    readDigits bound excess cs = .ok n ↔
      cs ≠ [] ∧ (∀ c ∈ cs, c.isDigit = true) ∧ Nat.ofDigitChars 10 cs 0 = n ∧ n ≤ bound := by
  cases cs with
  | nil => exact ⟨nofun, fun h => absurd rfl h.1⟩
  | cons c cs =>
    rw [readDigits, readMagnitude_eq_ok_iff (Nat.zero_le _)]
    · exact ⟨fun h => ⟨List.cons_ne_nil _ _, h⟩, And.right⟩
    · exact List.cons_ne_nil _ _

/-! ## 3. Signed integers -/

theorem readInt_minus (bound : Nat) (cs : List Char) :
    readInt bound ('-' :: cs) =
      (readDigits (bound + 1) .tooSmall cs).map fun n : Nat => -(n : Int) := by
  rw [readInt]
  cases readDigits (bound + 1) .tooSmall cs <;> rfl

/-- Without a sign, digits are all there can be. -/
theorem readInt_of_no_sign (hplus : ∀ ds, cs ≠ '+' :: ds) (hminus : ∀ ds, cs ≠ '-' :: ds) :
    readInt bound cs = .ok i ↔ ∃ n, readDigits bound .tooLarge cs = .ok n ∧ (n : Int) = i := by
  unfold readInt
  split
  · exact ⟨nofun, nofun⟩
  · next ds => exact absurd rfl (hplus ds)
  · next ds => exact absurd rfl (hminus ds)
  · exact Except.map_eq_ok_iff

/-- What is read is a numeral of the range, and every numeral of the range is read. -/
theorem readInt_eq_ok_iff :
    readInt bound cs = .ok i ↔ Numeral cs i ∧ -((bound : Int) + 1) ≤ i ∧ i ≤ bound := by
  constructor
  · intro h
    by_cases hplus : ∃ ds, cs = '+' :: ds
    · obtain ⟨ds, rfl⟩ := hplus
      obtain ⟨n, hn, rfl⟩ := Except.map_eq_ok_iff.1 h
      obtain ⟨hne, hdigits, rfl, hle⟩ := readDigits_eq_ok_iff.1 hn
      have hlow : -((bound : Int) + 1) ≤ (Nat.ofDigitChars 10 ds 0 : Nat) := by omega
      exact ⟨.plus hne hdigits, hlow, Int.ofNat_le.2 hle⟩
    by_cases hminus : ∃ ds, cs = '-' :: ds
    · obtain ⟨ds, rfl⟩ := hminus
      rw [readInt_minus] at h
      obtain ⟨n, hn, rfl⟩ := Except.map_eq_ok_iff.1 h
      obtain ⟨hne, hdigits, rfl, hle⟩ := readDigits_eq_ok_iff.1 hn
      exact ⟨.minus hne hdigits, by omega, by omega⟩
    · obtain ⟨n, hn, rfl⟩ := (readInt_of_no_sign (not_exists.1 hplus) (not_exists.1 hminus)).1 h
      obtain ⟨hne, hdigits, rfl, hle⟩ := readDigits_eq_ok_iff.1 hn
      exact ⟨.plain hne hdigits, by omega, Int.ofNat_le.2 hle⟩
  · rintro ⟨hnumeral, hlow, hhigh⟩
    cases hnumeral with
    | plain hne hdigits =>
      refine (readInt_of_no_sign ?_ ?_).2
        ⟨_, readDigits_eq_ok_iff.2 ⟨hne, hdigits, rfl, by omega⟩, rfl⟩
      · rintro ds rfl
        exact absurd (hdigits '+' List.mem_cons_self) (by decide)
      · rintro ds rfl
        exact absurd (hdigits '-' List.mem_cons_self) (by decide)
    | plus hne hdigits =>
      exact Except.map_eq_ok_iff.2 ⟨_, readDigits_eq_ok_iff.2 ⟨hne, hdigits, rfl, by omega⟩, rfl⟩
    | minus hne hdigits =>
      rw [readInt_minus]
      exact Except.map_eq_ok_iff.2 ⟨_, readDigits_eq_ok_iff.2 ⟨hne, hdigits, rfl, by omega⟩, rfl⟩

/-- The numerals of integers of 64 bits. -/
theorem readInt64_eq_ok_iff {x : Int64} : readInt64 cs = .ok x ↔ Numeral cs x.toInt := by
  have hlow := x.le_toInt
  have hhigh := x.toInt_lt
  rw [readInt64, Except.map_eq_ok_iff]
  constructor
  · rintro ⟨i, hi, rfl⟩
    obtain ⟨hnumeral, hlow, hhigh⟩ := readInt_eq_ok_iff.1 hi
    rwa [Int64.toInt_ofInt_of_le (by omega) (by omega)]
  · intro h
    exact ⟨x.toInt, readInt_eq_ok_iff.2 ⟨h, by omega, by omega⟩, Int64.ofInt_toInt x⟩

/-! ## 4. Texts that are no numerals -/

/-- What spoils digits of which the magnitude may come to the bound and no more: a character that
is no digit, or the first digits that come to too much. -/
inductive SpoiledDigits (bound : Nat) (excess : Fault) : List Char → Fault → Prop
  | missing : SpoiledDigits bound excess [] .invalidDigit
  | character {ds : List Char} {c : Char} (rest : List Char) (hdigits : ∀ d ∈ ds, d.isDigit = true)
      (hwithin : Nat.ofDigitChars 10 ds 0 ≤ bound) (hc : c.isDigit = false) :
      SpoiledDigits bound excess (ds ++ c :: rest) .invalidDigit
  | excess {ds : List Char} (rest : List Char) (hdigits : ∀ d ∈ ds, d.isDigit = true)
      (hover : bound < Nat.ofDigitChars 10 ds 0) : SpoiledDigits bound excess (ds ++ rest) excess

/-- What spoils a numeral of `-(bound + 1) … bound`. -/
inductive Spoiled (bound : Nat) : List Char → Fault → Prop
  | empty : Spoiled bound [] .empty
  | plain {c : Char} {cs : List Char} {fault : Fault} (hplus : c ≠ '+') (hminus : c ≠ '-')
      (h : SpoiledDigits bound .tooLarge (c :: cs) fault) : Spoiled bound (c :: cs) fault
  | plus {cs : List Char} {fault : Fault} (h : SpoiledDigits bound .tooLarge cs fault) :
      Spoiled bound ('+' :: cs) fault
  | minus {cs : List Char} {fault : Fault} (h : SpoiledDigits (bound + 1) .tooSmall cs fault) :
      Spoiled bound ('-' :: cs) fault

variable {bound : Nat} {excess fault : Fault} {cs : List Char}

theorem readMagnitude_cons {c : Char} (hc : c.isDigit = true) (acc : Nat) :
    readMagnitude bound excess acc (c :: cs) =
      if bound < 10 * acc + (c.toNat - '0'.toNat) then .error excess
      else readMagnitude bound excess (10 * acc + (c.toNat - '0'.toNat)) cs := by
  rw [readMagnitude, digit?, if_pos hc]

/-- Digits within the bound are read, and the rest after them. -/
theorem readMagnitude_append {ds : List Char} (hdigits : ∀ d ∈ ds, d.isDigit = true) {acc : Nat}
    (hwithin : Nat.ofDigitChars 10 ds acc ≤ bound) (rest : List Char) :
    readMagnitude bound excess acc (ds ++ rest) =
      readMagnitude bound excess (Nat.ofDigitChars 10 ds acc) rest := by
  induction ds generalizing acc with
  | nil => rfl
  | cons d ds ih =>
    obtain ⟨hd, hds⟩ := List.forall_mem_cons.1 hdigits
    rw [Nat.ofDigitChars_cons] at hwithin ⊢
    have hle := le_ofDigitChars ds (10 * acc + (d.toNat - '0'.toNat))
    rw [List.cons_append, readMagnitude_cons hd, if_neg (by omega), ih hds hwithin]

/-- And digits that come to too much stop the reading, whatever the rest is. -/
theorem readMagnitude_of_over {ds : List Char} (hdigits : ∀ d ∈ ds, d.isDigit = true) {acc : Nat}
    (hacc : acc ≤ bound) (hover : bound < Nat.ofDigitChars 10 ds acc) (rest : List Char) :
    readMagnitude bound excess acc (ds ++ rest) = .error excess := by
  induction ds generalizing acc with
  | nil => exact absurd hover (Nat.not_lt.2 hacc)
  | cons d ds ih =>
    obtain ⟨hd, hds⟩ := List.forall_mem_cons.1 hdigits
    rw [Nat.ofDigitChars_cons] at hover
    rw [List.cons_append, readMagnitude_cons hd]
    by_cases hlarge : bound < 10 * acc + (d.toNat - '0'.toNat)
    · rw [if_pos hlarge]
    · rw [if_neg hlarge, ih hds (Nat.le_of_not_lt hlarge) hover]

/-- Where reading fails there is a prefix of digits: it comes to too much, or a character that is no
digit follows it. -/
theorem exists_of_readMagnitude {acc : Nat} (hacc : acc ≤ bound)
    (h : readMagnitude bound excess acc cs = .error fault) :
    ∃ ds rest, cs = ds ++ rest ∧ (∀ d ∈ ds, d.isDigit = true) ∧
      (bound < Nat.ofDigitChars 10 ds acc ∧ fault = excess ∨
        Nat.ofDigitChars 10 ds acc ≤ bound ∧ fault = .invalidDigit ∧
          ∃ c rest', rest = c :: rest' ∧ c.isDigit = false) := by
  induction cs generalizing acc with
  | nil => cases h
  | cons c cs ih =>
    by_cases hc : c.isDigit = true
    · rw [readMagnitude_cons hc] at h
      split at h
      · next hover =>
        cases h
        exact ⟨[c], cs, rfl, by simpa using hc, .inl ⟨hover, rfl⟩⟩
      · next hwithin =>
        obtain ⟨ds, rest, rfl, hdigits, hend⟩ := ih (Nat.le_of_not_lt hwithin) h
        refine ⟨c :: ds, rest, rfl, List.forall_mem_cons.2 ⟨hc, hdigits⟩, ?_⟩
        rwa [Nat.ofDigitChars_cons]
    · rw [readMagnitude, digit?, if_neg hc] at h
      cases h
      exact ⟨[], c :: cs, rfl, nofun, .inr ⟨hacc, rfl, c, cs, rfl, Bool.eq_false_iff.2 hc⟩⟩

theorem readDigits_eq_error_iff :
    readDigits bound excess cs = .error fault ↔ SpoiledDigits bound excess cs fault := by
  have hread : cs ≠ [] → readDigits bound excess cs = readMagnitude bound excess 0 cs :=
    fun hne => readDigits.eq_2 bound excess cs hne
  constructor
  · intro h
    cases cs with
    | nil =>
      cases h
      exact .missing
    | cons c cs =>
      rw [hread (List.cons_ne_nil _ _)] at h
      obtain ⟨ds, rest, heq, hdigits, ⟨hover, rfl⟩ | ⟨hwithin, rfl, c', rest', rfl, hc⟩⟩ :=
        exists_of_readMagnitude (Nat.zero_le _) h
      · exact heq ▸ .excess rest hdigits hover
      · exact heq ▸ .character rest' hdigits hwithin hc
  · intro h
    cases h with
    | missing => rfl
    | character rest hdigits hwithin hc =>
      rw [hread (by simp), readMagnitude_append hdigits hwithin, readMagnitude, digit?,
        if_neg (Bool.eq_false_iff.1 hc)]
    | excess rest hdigits hover =>
      rw [hread, readMagnitude_of_over hdigits (Nat.zero_le _) hover]
      intro hnil
      rw [(List.append_eq_nil_iff.1 hnil).1] at hover
      exact absurd hover (Nat.not_lt_zero _)

theorem readInt_plus (bound : Nat) (cs : List Char) :
    readInt bound ('+' :: cs) = (readDigits bound .tooLarge cs).map Int.ofNat := rfl

theorem readInt_cons {c : Char} (hplus : c ≠ '+') (hminus : c ≠ '-') (cs : List Char) :
    readInt bound (c :: cs) = (readDigits bound .tooLarge (c :: cs)).map Int.ofNat := by
  unfold readInt
  split <;> simp_all

/-- What is spoiled is not read, and the fault is what spoils it. -/
theorem readInt_eq_error_iff : readInt bound cs = .error fault ↔ Spoiled bound cs fault := by
  cases cs with
  | nil =>
    constructor
    · intro h
      cases h
      exact .empty
    · intro h
      cases h
      rfl
  | cons c cs =>
    by_cases hplus : c = '+'
    · subst hplus
      rw [readInt_plus, Except.map_eq_error_iff, readDigits_eq_error_iff]
      constructor
      · exact .plus
      · intro h
        cases h with
        | plain hplus => exact absurd rfl hplus
        | plus h => exact h
    by_cases hminus : c = '-'
    · subst hminus
      rw [readInt_minus, Except.map_eq_error_iff, readDigits_eq_error_iff]
      constructor
      · exact .minus
      · intro h
        cases h with
        | plain _ hminus => exact absurd rfl hminus
        | minus h => exact h
    · rw [readInt_cons hplus hminus, Except.map_eq_error_iff, readDigits_eq_error_iff]
      constructor
      · exact .plain hplus hminus
      · intro h
        cases h with
        | plain _ _ h => exact h
        | plus => exact absurd rfl hplus
        | minus => exact absurd rfl hminus

theorem readInt64_eq_error_iff :
    readInt64 cs = .error fault ↔ Spoiled 0x7fffffffffffffff cs fault := by
  rw [readInt64, Except.map_eq_error_iff, readInt_eq_error_iff]

/-! ## 5. Printed numerals -/

theorem numeral_printNat (n : Nat) :
    printNat n ≠ [] ∧ (∀ c ∈ printNat n, c.isDigit = true) ∧
      Nat.ofDigitChars 10 (printNat n) 0 = n :=
  ⟨Nat.toDigits_ne_nil, fun _ hc => Nat.isDigit_of_mem_toDigits (by decide) (by decide) hc,
    Nat.ofDigitChars_toDigits (by decide) (by decide)⟩

theorem numeral_printInt (i : Int) : Numeral (printInt i) i := by
  obtain ⟨hne, hdigits, hvalue⟩ := numeral_printNat i.natAbs
  rw [printInt]
  split
  · next hneg =>
    have hminus := Numeral.minus hne hdigits
    rwa [hvalue, ← Int.eq_neg_natAbs_of_nonpos (Int.le_of_lt hneg)] at hminus
  · next hpos =>
    have hplain := Numeral.plain hne hdigits
    rwa [hvalue, Int.natAbs_of_nonneg (Int.not_lt.1 hpos)] at hplain

theorem Numeral.mark {cs : List Char} {i : Int} (h : Numeral cs i) :
    ∀ c ∈ cs, c.isDigit = true ∨ c = '+' ∨ c = '-' := by
  intro c hc
  cases h with
  | plain _ hdigits => exact .inl (hdigits c hc)
  | plus _ hdigits =>
    rcases List.mem_cons.1 hc with rfl | hc
    · exact .inr (.inl rfl)
    · exact .inl (hdigits c hc)
  | minus _ hdigits =>
    rcases List.mem_cons.1 hc with rfl | hc
    · exact .inr (.inr rfl)
    · exact .inl (hdigits c hc)

theorem Numeral.ne_nil {cs : List Char} {i : Int} (h : Numeral cs i) : cs ≠ [] := by
  cases h with
  | plain hne => exact hne
  | plus | minus => exact List.cons_ne_nil _ _

/-! ## 6. Unsigned integers -/

theorem Numeral.nonpos {ds : List Char} {i : Int} (h : Numeral ('-' :: ds) i) : i ≤ 0 := by
  cases h with
  | plain _ hdigits => exact absurd (hdigits '-' List.mem_cons_self) (by decide)
  | minus => omega

theorem readNat_minus (bound : Nat) (ds : List Char) :
    readNat bound ('-' :: ds) = .error .invalidDigit := rfl

theorem readNat_cons {c : Char} (hplus : c ≠ '+') (cs : List Char) :
    readNat bound (c :: cs) = readDigits bound .tooLarge (c :: cs) := by
  unfold readNat
  split <;> simp_all

/-- Without a minus, it makes no difference whether there could have been one. -/
theorem readInt_eq_map_readNat (hminus : ∀ ds, cs ≠ '-' :: ds) :
    readInt bound cs = (readNat bound cs).map Int.ofNat := by
  cases cs with
  | nil => rfl
  | cons c ds =>
    by_cases hplus : c = '+'
    · rw [hplus]
      rfl
    · have hne : c ≠ '-' := fun hc => hminus ds (hc ▸ rfl)
      rw [readInt_cons hplus hne, readNat_cons hplus]

/-- Every numeral of the range is read but those with a minus, zero with a minus among them. -/
theorem readNat_eq_ok_iff :
    readNat bound cs = .ok n ↔ (∀ ds, cs ≠ '-' :: ds) ∧ Numeral cs n ∧ n ≤ bound := by
  by_cases hminus : ∃ ds, cs = '-' :: ds
  · obtain ⟨ds, rfl⟩ := hminus
    rw [readNat_minus]
    exact ⟨nofun, fun h => absurd rfl (h.1 ds)⟩
  · have hread : readNat bound cs = .ok n ↔ readInt bound cs = .ok (n : Int) := by
      rw [readInt_eq_map_readNat (not_exists.1 hminus), Except.map_eq_ok_iff]
      exact ⟨fun h => ⟨n, h, rfl⟩, fun ⟨_, ha, hn⟩ => Int.ofNat.inj hn ▸ ha⟩
    rw [hread, readInt_eq_ok_iff]
    constructor
    · rintro ⟨hnumeral, -, hle⟩
      exact ⟨not_exists.1 hminus, hnumeral, Int.ofNat_le.1 hle⟩
    · rintro ⟨-, hnumeral, hle⟩
      exact ⟨hnumeral, by omega, Int.ofNat_le.2 hle⟩

theorem readUInt64_eq_ok_iff {x : UInt64} :
    readUInt64 cs = .ok x ↔ (∀ ds, cs ≠ '-' :: ds) ∧ Numeral cs x.toNat := by
  have hbound := x.toNat_lt
  rw [readUInt64, Except.map_eq_ok_iff]
  constructor
  · rintro ⟨n, hn, rfl⟩
    obtain ⟨hminus, hnumeral, hle⟩ := readNat_eq_ok_iff.1 hn
    rw [UInt64.toNat_ofNat_of_lt' (by show n < 2 ^ 64; omega)]
    exact ⟨hminus, hnumeral⟩
  · rintro ⟨hminus, hnumeral⟩
    exact ⟨x.toNat, readNat_eq_ok_iff.2 ⟨hminus, hnumeral, by omega⟩, UInt64.ofNat_toNat⟩

end Switchboard.Decimal
