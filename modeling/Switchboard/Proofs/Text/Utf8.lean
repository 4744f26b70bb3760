import Switchboard.Text.Utf8

/-!
# Utf8 — texts and their bytes

A text has one string of bytes, and these bytes, read one at a time, fall into the characters of
the text again.
-/

namespace Switchboard.Text.Utf8

/-! ## 1. The bytes of a text -/

/-- Bytes spell a text exactly when they are that text's bytes. -/
theorem decode?_eq_some_iff (bytes : Bytes) (s : String) :
    decode? bytes = some s ↔ encode s = bytes := by
  have hbytes : ∀ t : String, encode t = bytes ↔ t.toByteArray = ⟨bytes.toArray⟩ := by
    intro t
    rw [encode, String.toUTF8_eq_toByteArray]
    constructor
    · intro h
      rw [← h]
    · intro h
      rw [h]
  rw [hbytes, decode?, String.fromUTF8?]
  -- bytes that spell no text are those of none
  split
  · next hvalid =>
    rw [Option.some.injEq, ← String.toByteArray_inj]
    exact ⟨fun h => h.symm, fun h => h.symm⟩
  · next hinvalid =>
    constructor
    · intro h
      cases h
    · intro h
      exact absurd (h ▸ s.isValidUTF8) hinvalid

theorem encode_injective {s t : String} (h : encode s = encode t) : s = t := by
  have hs := (decode?_eq_some_iff (encode t) s).2 h
  have ht := (decode?_eq_some_iff (encode t) t).2 rfl
  exact Option.some.inj (hs.symm.trans ht)

theorem encode_ofList (cs : List Char) :
    encode (.ofList cs) = cs.flatMap String.utf8EncodeChar := by
  rw [encode, String.toUTF8_eq_toByteArray, String.toByteArray_ofList, List.utf8Encode]
  simp

/-- A text of ASCII characters has one byte for each. -/
theorem encode_ofList_ascii {cs : List Char} (h : ∀ c ∈ cs, c.toNat < 128) :
    encode (.ofList cs) = cs.map Char.toUInt8 := by
  rw [encode_ofList]
  -- on the characters, of which each is a byte
  induction cs with
  | nil => rfl
  | cons c cs ih =>
    have hc : c.val.toNat ≤ 0x7f := Nat.le_of_lt_succ (h c List.mem_cons_self)
    rw [List.flatMap_cons, ih fun d hd => h d (List.mem_cons_of_mem _ hd), String.utf8EncodeChar,
      if_pos hc]
    rfl

/-! ## 2. One byte -/

theorem lead_one : ∀ n < 0x80, lead (UInt8.ofNat n) = (.boundary, [.char (Char.ofNat n)]) := by
  decide

theorem lead_two : ∀ n < 0x20, 2 ≤ n →
    lead (UInt8.ofNat (n + 0xc0)) = (.inside 1 0x80 0xbf n [UInt8.ofNat (n + 0xc0)], []) := by
  decide

theorem lead_three : ∀ n < 0x10,
    lead (UInt8.ofNat (n + 0xe0)) =
      (.inside 2 (if n = 0 then 0xa0 else 0x80) (if n = 0xd then 0x9f else 0xbf) n
        [UInt8.ofNat (n + 0xe0)], []) := by
  decide

theorem lead_four : ∀ n < 5,
    lead (UInt8.ofNat (n + 0xf0)) =
      (.inside 3 (if n = 0 then 0x90 else 0x80) (if n = 4 then 0x8f else 0xbf) n
        [UInt8.ofNat (n + 0xf0)], []) := by
  decide

section Inside

variable {more : Nat} {low high : UInt8} {value n : Nat} {seen : Bytes}

/-- A byte within the bounds brings six bits more. -/
theorem feed_inside (hn : n < 0x40) (hlow : low.toNat ≤ n + 0x80) (hhigh : n + 0x80 ≤ high.toNat) :
    feed (.inside more low high value seen) (UInt8.ofNat (n + 0x80)) =
      if more ≤ 1 then (.boundary, [.char (Char.ofNat (value * 64 + n))])
      else
        (.inside (more - 1) 0x80 0xbf (value * 64 + n) (UInt8.ofNat (n + 0x80) :: seen), []) := by
  have hbyte : (UInt8.ofNat (n + 0x80)).toNat = n + 0x80 := Nat.mod_eq_of_lt (by omega)
  have hin : (low ≤ UInt8.ofNat (n + 0x80) && UInt8.ofNat (n + 0x80) ≤ high) = true := by
    simp only [Bool.and_eq_true, decide_eq_true_eq, UInt8.le_iff_toNat_le, hbyte]
    exact ⟨hlow, hhigh⟩
  rw [feed, if_pos hin, hbyte, Nat.add_sub_cancel]

theorem feed_next (hn : n < 0x40) :
    feed (.inside (more + 2) 0x80 0xbf value seen) (UInt8.ofNat (n + 0x80)) =
      (.inside (more + 1) 0x80 0xbf (value * 64 + n) (UInt8.ofNat (n + 0x80) :: seen), []) := by
  rw [feed_inside hn (by show 0x80 ≤ n + 0x80; omega) (by show n + 0x80 ≤ 0xbf; omega)]
  exact if_neg (by omega)

theorem feed_last (hn : n < 0x40) :
    feed (.inside 1 0x80 0xbf value seen) (UInt8.ofNat (n + 0x80)) =
      (.boundary, [.char (Char.ofNat (value * 64 + n))]) := by
  rw [feed_inside hn (by show 0x80 ≤ n + 0x80; omega) (by show n + 0x80 ≤ 0xbf; omega)]
  exact if_pos (Nat.le_refl 1)

end Inside

/-! ## 3. All bytes -/

/-- One more byte, with the pieces so far in reverse. -/
def take : State × List Piece → UInt8 → State × List Piece
  | (state, out), b => ((feed state b).1, (feed state b).2.reverse ++ out)

theorem pieces_eq (bytes : Bytes) :
    pieces bytes =
      ((close (bytes.foldl take (.boundary, [])).1).reverse ++
        (bytes.foldl take (.boundary, [])).2).reverse :=
  rfl

/-- The bytes of a character are read as that character, and nothing is left of them. -/
theorem foldl_take_encodeChar (c : Char) (out : List Piece) :
    (String.utf8EncodeChar c).foldl take (.boundary, out) = (.boundary, .char c :: out) := by
  have hvalid : c.val.toNat < 0xd800 ∨ 0xdfff < c.val.toNat ∧ c.val.toNat < 0x110000 := c.valid
  have hchar : Char.ofNat c.val.toNat = c := Char.ofNat_toNat c
  simp only [String.utf8EncodeChar]
  generalize c.val.toNat = v at hvalid hchar
  have hsum : v / 64 * 64 + v % 64 = v := by omega
  -- by the number of bytes
  split
  · simp only [List.foldl_cons, List.foldl_nil, take, feed]
    rw [lead_one v (by omega), hchar]
    rfl
  split
  · have hhead : v / 64 % 32 = v / 64 := by omega
    simp only [List.foldl_cons, List.foldl_nil, take, hhead]
    rw [feed, lead_two (v / 64) (by omega) (by omega), feed_last (by omega), hsum, hchar]
    rfl
  split
  · have hhead : v / 4096 % 16 = v / 4096 := by omega
    have hmiddle : v / 4096 * 64 + v / 64 % 64 = v / 64 := by omega
    simp only [List.foldl_cons, List.foldl_nil, take, hhead]
    rw [feed, lead_three (v / 4096) (by omega)]
    dsimp only
    -- the first two bytes leave out what fewer bytes spell, and the halves of pairs
    rw [feed_inside (by omega) ?low ?high, if_neg (by decide), hmiddle]
    case low =>
      split
      · show 0xa0 ≤ v / 64 % 64 + 0x80
        omega
      · show 0x80 ≤ v / 64 % 64 + 0x80
        omega
    case high =>
      split
      · show v / 64 % 64 + 0x80 ≤ 0x9f
        omega
      · show v / 64 % 64 + 0x80 ≤ 0xbf
        omega
    rw [feed_last (by omega), hsum, hchar]
    rfl
  · have hhead : v / 262144 % 8 = v / 262144 := by omega
    have hsecond : v / 262144 * 64 + v / 4096 % 64 = v / 4096 := by omega
    have hthird : v / 4096 * 64 + v / 64 % 64 = v / 64 := by omega
    simp only [List.foldl_cons, List.foldl_nil, take, hhead]
    rw [feed, lead_four (v / 262144) (by omega)]
    dsimp only
    -- here they leave out what lies beyond the last character
    rw [feed_inside (by omega) ?low ?high, if_neg (by decide), hsecond]
    case low =>
      split
      · show 0x90 ≤ v / 4096 % 64 + 0x80
        omega
      · show 0x80 ≤ v / 4096 % 64 + 0x80
        omega
    case high =>
      split
      · show v / 4096 % 64 + 0x80 ≤ 0x8f
        omega
      · show v / 4096 % 64 + 0x80 ≤ 0xbf
        omega
    dsimp only
    rw [feed_next (by omega), hthird]
    dsimp only
    rw [feed_last (by omega), hsum, hchar]
    rfl

theorem foldl_take_chars (cs : List Char) (out : List Piece) :
    (cs.flatMap String.utf8EncodeChar).foldl take (.boundary, out) =
      (.boundary, (cs.map Piece.char).reverse ++ out) := by
  induction cs generalizing out with
  | nil => rfl
  | cons c cs ih =>
    rw [List.flatMap_cons, List.foldl_append, foldl_take_encodeChar, ih, List.map_cons,
      List.reverse_cons, List.append_assoc]
    rfl

/-- The bytes of a text fall into its characters. -/
theorem pieces_encode (cs : List Char) : pieces (encode (.ofList cs)) = cs.map Piece.char := by
  rw [pieces_eq, encode_ofList, foldl_take_chars]
  simp [close]

end Switchboard.Text.Utf8
