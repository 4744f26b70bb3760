import Mathlib.Data.List.DropRight
import Switchboard.Base64
import Switchboard.Proofs.Text.Utf8

/-!
# Base64 — what was encoded is decoded, and nothing else

Both directions go by blocks: three bytes against four symbols, and at the end one or two bytes
against a padded block. As a padded block may stand anywhere, a text is read exactly when it is made
of encoded texts, one after another.
-/

namespace Switchboard.Base64

/-! ## 1. Symbols -/

def symbolByte (n : Nat) : UInt8 := (symbol n).toUInt8

theorem value?_symbolByte : ∀ n < 64, value? (symbolByte n) = some n := by decide

theorem symbolByte_ne_padding : ∀ n < 64, symbolByte n ≠ padding := by decide

theorem toNat_symbol_lt : ∀ n < 64, (symbol n).toNat < 128 := by decide

theorem values_cons {n : Nat} (h : n < 64) (pos : Nat) (rest : Bytes) :
    values pos (symbolByte n :: rest) = (values (pos + 1) rest).map (n :: ·) := by
  rw [values, value?_symbolByte n h]

/-! ## 2. Blocks -/

theorem decodeBlock_four {a b c d : Nat} (ha : a < 64) (hb : b < 64) (hc : c < 64) (hd : d < 64)
    (pos : Nat) :
    decodeBlock pos [symbolByte a, symbolByte b, symbolByte c, symbolByte d] =
      .ok [UInt8.ofNat (a * 4 + b / 16), UInt8.ofNat (b % 16 * 16 + c / 4),
        UInt8.ofNat (c % 4 * 64 + d)] := by
  have hvalues : values pos [symbolByte a, symbolByte b, symbolByte c, symbolByte d] =
      .ok [a, b, c, d] := by
    rw [values_cons ha, values_cons hb, values_cons hc, values_cons hd]
    rfl
  have hplain : ([symbolByte a, symbolByte b, symbolByte c, symbolByte d].reverse.dropWhile
      (· = padding)).reverse = [symbolByte a, symbolByte b, symbolByte c, symbolByte d] := by
    simp [symbolByte_ne_padding d hd]
  unfold decodeBlock
  simp only [hplain, hvalues]
  rfl

theorem decodeBlock_three {a b c : Nat} (ha : a < 64) (hb : b < 64) (hc : c < 64)
    (hrest : c % 4 = 0) (pos : Nat) :
    decodeBlock pos [symbolByte a, symbolByte b, symbolByte c, padding] =
      .ok [UInt8.ofNat (a * 4 + b / 16), UInt8.ofNat (b % 16 * 16 + c / 4)] := by
  have hvalues : values pos [symbolByte a, symbolByte b, symbolByte c] = .ok [a, b, c] := by
    rw [values_cons ha, values_cons hb, values_cons hc]
    rfl
  have hplain : ([symbolByte a, symbolByte b, symbolByte c, padding].reverse.dropWhile
      (· = padding)).reverse = [symbolByte a, symbolByte b, symbolByte c] := by
    simp [symbolByte_ne_padding c hc]
  unfold decodeBlock
  simp only [hplain, hvalues]
  -- the bits that carry nothing must be zero
  show (if c % 4 ≠ 0 then _ else _) = _
  rw [if_neg (not_not_intro hrest)]
  rfl

theorem decodeBlock_two {a b : Nat} (ha : a < 64) (hb : b < 64) (hrest : b % 16 = 0)
    (pos : Nat) :
    decodeBlock pos [symbolByte a, symbolByte b, padding, padding] =
      .ok [UInt8.ofNat (a * 4 + b / 16)] := by
  have hvalues : values pos [symbolByte a, symbolByte b] = .ok [a, b] := by
    rw [values_cons ha, values_cons hb]
    rfl
  have hplain : ([symbolByte a, symbolByte b, padding, padding].reverse.dropWhile
      (· = padding)).reverse = [symbolByte a, symbolByte b] := by
    simp [symbolByte_ne_padding b hb]
  unfold decodeBlock
  simp only [hplain, hvalues]
  show (if b % 16 ≠ 0 then _ else _) = _
  rw [if_neg (not_not_intro hrest)]
  rfl

/-! ## 3. Whole texts -/

theorem encodeOnto_eq (acc : List Char) : ∀ bytes : Bytes,
    encodeOnto acc bytes = encodeOnto [] bytes ++ acc
  | [] => rfl
  | [_] => rfl
  | [_, _] => rfl
  | a :: b :: c :: rest => by
    rw [encodeOnto, encodeOnto, encodeOnto_eq (_ :: _ :: _ :: _ :: acc) rest,
      encodeOnto_eq [_, _, _, _] rest, List.append_assoc]
    rfl

theorem encode_three (a b c : UInt8) (rest : Bytes) :
    encode (a :: b :: c :: rest) =
      symbol (((a.toNat * 256 + b.toNat) * 256 + c.toNat) / 262144) ::
      symbol (((a.toNat * 256 + b.toNat) * 256 + c.toNat) / 4096 % 64) ::
      symbol (((a.toNat * 256 + b.toNat) * 256 + c.toNat) / 64 % 64) ::
      symbol (((a.toNat * 256 + b.toNat) * 256 + c.toNat) % 64) :: encode rest := by
  rw [encode, encodeOnto, encodeOnto_eq, List.reverse_append, ← encode]
  rfl

/-- The bytes of an encoded text. -/
def written (bytes : Bytes) : Bytes := (encode bytes).map Char.toUInt8

theorem written_three (a b c : UInt8) (rest : Bytes) :
    written (a :: b :: c :: rest) =
      symbolByte (((a.toNat * 256 + b.toNat) * 256 + c.toNat) / 262144) ::
      symbolByte (((a.toNat * 256 + b.toNat) * 256 + c.toNat) / 4096 % 64) ::
      symbolByte (((a.toNat * 256 + b.toNat) * 256 + c.toNat) / 64 % 64) ::
      symbolByte (((a.toNat * 256 + b.toNat) * 256 + c.toNat) % 64) :: written rest := by
  rw [written, encode_three]
  rfl

theorem length_written : ∀ bytes : Bytes, (written bytes).length % 4 = 0
  | [] => rfl
  | [a] => by
    have hlength : (written [a]).length = 4 := rfl
    rw [hlength]
  | [a, b] => by
    have hlength : (written [a, b]).length = 4 := rfl
    rw [hlength]
  | a :: b :: c :: rest => by
    have hrest := length_written rest
    rw [written_three]
    show ((written rest).length + 4) % 4 = 0
    omega

theorem ofNat_eq {n : Nat} {b : UInt8} (h : n = b.toNat) : UInt8.ofNat n = b := by
  rw [h, UInt8.ofNat_toNat]

-- by recursion along the blocks, with the bytes decoded so far in reverse
theorem decodeBlocks_written (more : Bytes) : ∀ (bytes : Bytes) (pos : Nat) (acc : Bytes),
    decodeBlocks pos acc (written bytes ++ more) =
      decodeBlocks (pos + (written bytes).length) (bytes.reverse ++ acc) more
  | [], _, _ => rfl
  -- a rest of one byte: two symbols, whose last four bits carry nothing
  | [a], pos, acc => by
    have ha := a.toNat_lt
    show decodeBlocks pos acc (symbolByte (a.toNat * 16 / 64) :: symbolByte (a.toNat * 16 % 64) ::
      padding :: padding :: more) = _
    rw [decodeBlocks, decodeBlock_two (by omega) (by omega) (by omega),
      ofNat_eq (show _ = a.toNat by omega)]
    rfl
  -- a rest of two bytes: three symbols, whose last two bits carry nothing
  | [a, b], pos, acc => by
    have ha := a.toNat_lt
    have hb := b.toNat_lt
    show decodeBlocks pos acc (symbolByte ((a.toNat * 256 + b.toNat) * 4 / 4096) ::
      symbolByte ((a.toNat * 256 + b.toNat) * 4 / 64 % 64) ::
      symbolByte ((a.toNat * 256 + b.toNat) * 4 % 64) :: padding :: more) = _
    rw [decodeBlocks, decodeBlock_three (by omega) (by omega) (by omega) (by omega),
      ofNat_eq (show _ = a.toNat by omega), ofNat_eq (show _ = b.toNat by omega)]
    rfl
  -- a whole block, and then the blocks after it
  | a :: b :: c :: rest, pos, acc => by
    have ha := a.toNat_lt
    have hb := b.toNat_lt
    have hc := c.toNat_lt
    rw [written_three, List.cons_append, List.cons_append, List.cons_append, List.cons_append,
      decodeBlocks, decodeBlock_four (by omega) (by omega) (by omega) (by omega),
      ofNat_eq (show _ = a.toNat by omega), ofNat_eq (show _ = b.toNat by omega),
      ofNat_eq (show _ = c.toNat by omega)]
    show decodeBlocks (pos + 4) (c :: b :: a :: acc) (written rest ++ more) = _
    have hpos : pos + 4 + (written rest).length = pos + ((written rest).length + 4) := by omega
    rw [decodeBlocks_written more rest, hpos, List.reverse_cons, List.reverse_cons,
      List.reverse_cons, List.append_assoc, List.append_assoc, List.append_assoc]
    rfl

/-! ## 4. What is read -/

/-- A byte with a value is the symbol of that value. -/
theorem eq_symbolByte {b : UInt8} {v : Nat} (h : value? b = some v) :
    v < 64 ∧ b = symbolByte v := by
  have hall : ∀ n < 256, ∀ v ∈ value? (UInt8.ofNat n),
      v < 64 ∧ UInt8.ofNat n = symbolByte v := by decide +kernel
  have hb := hall b.toNat b.toNat_lt v
  rw [UInt8.ofNat_toNat] at hb
  exact hb h

theorem eq_map_of_values {bytes : Bytes} : ∀ {pos : Nat} {vs : List Nat},
    values pos bytes = .ok vs → bytes = vs.map symbolByte ∧ ∀ v ∈ vs, v < 64 := by
  induction bytes with
  | nil =>
    rintro pos _ ⟨⟩
    exact ⟨rfl, fun v hv => absurd hv List.not_mem_nil⟩
  | cons b bytes ih =>
    intro pos vs h
    rw [values] at h
    cases hb : value? b with
    | none =>
      rw [hb] at h
      cases h
    | some v =>
      cases hrest : values (pos + 1) bytes with
      | error fault =>
        rw [hb, hrest] at h
        cases h
      | ok rest =>
        rw [hb, hrest] at h
        cases h
        obtain ⟨hv, rfl⟩ := eq_symbolByte hb
        obtain ⟨rfl, hall⟩ := ih hrest
        exact ⟨rfl, List.forall_mem_cons.2 ⟨hv, hall⟩⟩

/-- A block without its padding, and how much padding it has. -/
theorem exists_padding (block : Bytes) :
    ∃ k, block = (block.reverse.dropWhile (· = padding)).reverse ++ List.replicate k padding := by
  refine ⟨(block.rtakeWhile (· = padding)).length, ?_⟩
  have hpadding : block.rtakeWhile (· = padding) =
      List.replicate (block.rtakeWhile (· = padding)).length padding :=
    List.eq_replicate_of_mem fun b hb => by simpa using List.mem_rtakeWhile_imp hb
  rw [← hpadding]
  exact List.rdropWhile_append_rtakeWhile.symm

theorem toNat_ofNat {n : Nat} (h : n < 256) : (UInt8.ofNat n).toNat = n := Nat.mod_eq_of_lt h

section Blocks

variable {a b c d : Nat}

theorem written_of_two (ha : a < 64) (hb : b < 64) (hrest : b % 16 = 0) :
    written [UInt8.ofNat (a * 4 + b / 16)] =
      [symbolByte a, symbolByte b, padding, padding] := by
  have hx := toNat_ofNat (show a * 4 + b / 16 < 256 by omega)
  have hhigh : (a * 4 + b / 16) * 16 / 64 = a := by omega
  have hlow : (a * 4 + b / 16) * 16 % 64 = b := by omega
  show [symbolByte (_ * 16 / 64), symbolByte (_ * 16 % 64), padding, padding] = _
  rw [hx, hhigh, hlow]

theorem written_of_three (ha : a < 64) (hb : b < 64) (hc : c < 64) (hrest : c % 4 = 0) :
    written [UInt8.ofNat (a * 4 + b / 16), UInt8.ofNat (b % 16 * 16 + c / 4)] =
      [symbolByte a, symbolByte b, symbolByte c, padding] := by
  have hx := toNat_ofNat (show a * 4 + b / 16 < 256 by omega)
  have hy := toNat_ofNat (show b % 16 * 16 + c / 4 < 256 by omega)
  have hsum : ((a * 4 + b / 16) * 256 + (b % 16 * 16 + c / 4)) * 4 =
      a * 4096 + b * 64 + c := by omega
  have hhigh : (a * 4096 + b * 64 + c) / 4096 = a := by omega
  have hmiddle : (a * 4096 + b * 64 + c) / 64 % 64 = b := by omega
  have hlow : (a * 4096 + b * 64 + c) % 64 = c := by omega
  show [symbolByte ((_ * 256 + _) * 4 / 4096), symbolByte ((_ * 256 + _) * 4 / 64 % 64),
    symbolByte ((_ * 256 + _) * 4 % 64), padding] = _
  rw [hx, hy, hsum, hhigh, hmiddle, hlow]

theorem written_of_four (ha : a < 64) (hb : b < 64) (hc : c < 64) (hd : d < 64) :
    written [UInt8.ofNat (a * 4 + b / 16), UInt8.ofNat (b % 16 * 16 + c / 4),
        UInt8.ofNat (c % 4 * 64 + d)] =
      [symbolByte a, symbolByte b, symbolByte c, symbolByte d] := by
  have hx := toNat_ofNat (show a * 4 + b / 16 < 256 by omega)
  have hy := toNat_ofNat (show b % 16 * 16 + c / 4 < 256 by omega)
  have hz := toNat_ofNat (show c % 4 * 64 + d < 256 by omega)
  have hsum : ((a * 4 + b / 16) * 256 + (b % 16 * 16 + c / 4)) * 256 + (c % 4 * 64 + d) =
      a * 262144 + b * 4096 + c * 64 + d := by omega
  have hfirst : (a * 262144 + b * 4096 + c * 64 + d) / 262144 = a := by omega
  have hsecond : (a * 262144 + b * 4096 + c * 64 + d) / 4096 % 64 = b := by omega
  have hthird : (a * 262144 + b * 4096 + c * 64 + d) / 64 % 64 = c := by omega
  have hfourth : (a * 262144 + b * 4096 + c * 64 + d) % 64 = d := by omega
  rw [written_three, hx, hy, hz, hsum, hfirst, hsecond, hthird, hfourth]
  rfl

end Blocks

/-- A block is read only when it is what its bytes are written as. -/
theorem eq_written_of_decodeBlock {pos : Nat} {block bytes : Bytes} (hlength : block.length = 4)
    (h : decodeBlock pos block = .ok bytes) : block = written bytes := by
  obtain ⟨k, hblock⟩ := exists_padding block
  unfold decodeBlock at h
  generalize (block.reverse.dropWhile (· = padding)).reverse = plain at h hblock
  by_cases hshort : plain.length < 2
  · simp only [hshort, if_true] at h
    cases h
  simp only [hshort, if_false] at h
  cases hvalues : values pos plain with
  | error fault =>
    rw [hvalues] at h
    cases h
  | ok vs =>
    rw [hvalues] at h
    obtain ⟨rfl, hall⟩ := eq_map_of_values hvalues
    rw [hblock, List.length_append, List.length_map, List.length_replicate] at hlength
    rw [List.length_map] at hshort
    -- by how many symbols carry bits
    match vs with
    | [] | [_] => exact absurd (Nat.lt_add_one_iff.2 (by simp)) hshort
    | _ :: _ :: _ :: _ :: _ :: _ =>
      simp only [List.length_cons] at hlength
      omega
    | [a, b] =>
      simp only [List.mem_cons, List.not_mem_nil, or_false, forall_eq_or_imp, forall_eq] at hall
      obtain rfl : k = 2 := Nat.add_left_cancel hlength
      change (if b % 16 ≠ 0 then _ else _) = _ at h
      split at h
      · cases h
      · next hrest =>
        cases h
        rw [written_of_two hall.1 hall.2 (not_not.1 hrest), hblock]
        rfl
    | [a, b, c] =>
      simp only [List.mem_cons, List.not_mem_nil, or_false, forall_eq_or_imp, forall_eq] at hall
      obtain rfl : k = 1 := Nat.add_left_cancel hlength
      change (if c % 4 ≠ 0 then _ else _) = _ at h
      split at h
      · cases h
      · next hrest =>
        cases h
        rw [written_of_three hall.1 hall.2.1 hall.2.2 (not_not.1 hrest), hblock]
        rfl
    | [a, b, c, d] =>
      simp only [List.mem_cons, List.not_mem_nil, or_false, forall_eq_or_imp, forall_eq] at hall
      obtain rfl : k = 0 := Nat.add_left_cancel hlength
      cases h
      rw [written_of_four hall.1 hall.2.1 hall.2.2.1 hall.2.2.2, hblock]
      rfl

theorem decodeBlocks_sound : ∀ {symbols : Bytes} {pos : Nat} {acc bytes : Bytes},
    symbols.length % 4 = 0 → decodeBlocks pos acc symbols = .ok bytes →
      ∃ chunks : List Bytes, symbols = chunks.flatMap written ∧
        bytes = acc.reverse ++ chunks.flatten
  | [], pos, acc, bytes, _, h => by
    cases h
    exact ⟨[], rfl, (List.append_nil _).symm⟩
  | a :: b :: c :: d :: rest, pos, acc, bytes, hlength, h => by
    rw [decodeBlocks] at h
    cases hblock : decodeBlock pos [a, b, c, d] with
    | error fault =>
      rw [hblock] at h
      cases h
    | ok first =>
      rw [hblock] at h
      have hrest : rest.length % 4 = 0 := by
        simp only [List.length_cons] at hlength
        omega
      obtain ⟨chunks, rfl, rfl⟩ := decodeBlocks_sound hrest h
      refine ⟨first :: chunks, ?_, ?_⟩
      · rw [List.flatMap_cons, ← eq_written_of_decodeBlock rfl hblock]
        rfl
      · simp

theorem decodeBlocks_flatMap (chunks : List Bytes) (pos : Nat) (acc : Bytes) :
    decodeBlocks pos acc (chunks.flatMap written) = .ok (acc.reverse ++ chunks.flatten) := by
  induction chunks generalizing pos acc with
  | nil =>
    rw [List.flatMap_nil, List.flatten_nil, List.append_nil]
    rfl
  | cons first chunks ih =>
    rw [List.flatMap_cons, decodeBlocks_written, ih, List.flatten_cons, List.reverse_append,
      List.reverse_reverse, List.append_assoc]

theorem length_flatMap_written (chunks : List Bytes) :
    (chunks.flatMap written).length % 4 = 0 := by
  induction chunks with
  | nil => rfl
  | cons first chunks ih =>
    have hfirst := length_written first
    rw [List.flatMap_cons, List.length_append]
    omega

/-- What is read is what was written, piece by piece. -/
theorem decode_eq_ok_iff (symbols bytes : Bytes) :
    decode symbols = .ok bytes ↔
      ∃ chunks : List Bytes, symbols = chunks.flatMap written ∧ bytes = chunks.flatten := by
  constructor
  · intro h
    rw [decode] at h
    split at h
    · cases h
    · next hlength =>
      exact decodeBlocks_sound (not_not.1 hlength) h
  · rintro ⟨chunks, rfl, rfl⟩
    rw [decode, if_neg (not_not_intro (length_flatMap_written chunks)), decodeBlocks_flatMap]
    rfl

/-! ## 5. As a text -/

theorem toNat_lt_of_mem_encode : ∀ {bytes : Bytes} {c : Char}, c ∈ encode bytes → c.toNat < 128
  | [], c, h => absurd h List.not_mem_nil
  | [a], c, h => by
    have ha := a.toNat_lt
    have hmem : c ∈ [symbol (a.toNat * 16 / 64), symbol (a.toNat * 16 % 64), '=', '='] := h
    simp only [List.mem_cons, List.not_mem_nil, or_false] at hmem
    rcases hmem with rfl | rfl | rfl | rfl
    · exact toNat_symbol_lt _ (by omega)
    · exact toNat_symbol_lt _ (by omega)
    · decide
    · decide
  | [a, b], c, h => by
    have ha := a.toNat_lt
    have hb := b.toNat_lt
    have hmem : c ∈ [symbol ((a.toNat * 256 + b.toNat) * 4 / 4096),
      symbol ((a.toNat * 256 + b.toNat) * 4 / 64 % 64),
      symbol ((a.toNat * 256 + b.toNat) * 4 % 64), '='] := h
    simp only [List.mem_cons, List.not_mem_nil, or_false] at hmem
    rcases hmem with rfl | rfl | rfl | rfl
    · exact toNat_symbol_lt _ (by omega)
    · exact toNat_symbol_lt _ (by omega)
    · exact toNat_symbol_lt _ (by omega)
    · decide
  | a :: b :: c :: rest, d, h => by
    have ha := a.toNat_lt
    have hb := b.toNat_lt
    have hc := c.toNat_lt
    rw [encode_three] at h
    simp only [List.mem_cons] at h
    rcases h with rfl | rfl | rfl | rfl | h
    · exact toNat_symbol_lt _ (by omega)
    · exact toNat_symbol_lt _ (by omega)
    · exact toNat_symbol_lt _ (by omega)
    · exact toNat_symbol_lt _ (by omega)
    · exact toNat_lt_of_mem_encode h

theorem encode_flatMap (chunks : List Bytes) :
    Text.Utf8.encode (.ofList (chunks.flatMap encode)) = chunks.flatMap written := by
  rw [Text.Utf8.encode_ofList_ascii fun c hc => ?_, List.map_flatMap]
  · rfl
  · obtain ⟨bytes, -, hmem⟩ := List.mem_flatMap.1 hc
    exact toNat_lt_of_mem_encode hmem

theorem decode_text_eq_ok_iff (s : String) (bytes : Bytes) :
    decode (Text.Utf8.encode s) = .ok bytes ↔
      ∃ chunks : List Bytes, s = .ofList (chunks.flatMap encode) ∧ bytes = chunks.flatten := by
  rw [decode_eq_ok_iff]
  refine exists_congr fun chunks => and_congr_left fun _ => ?_
  rw [← encode_flatMap]
  exact ⟨fun h => Text.Utf8.encode_injective h, fun h => h ▸ rfl⟩

theorem decode_encode (bytes : Bytes) :
    decode (Text.Utf8.encode (.ofList (encode bytes))) = .ok bytes :=
  (decode_text_eq_ok_iff _ _).2 ⟨[bytes], by simp, by simp⟩

end Switchboard.Base64
