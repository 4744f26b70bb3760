/-!
Reading UTF-8 one byte at a time. A byte string falls into pieces: characters, and stray stretches
that begin no character, each as long as it could still have become one. Every byte belongs to
exactly one piece.
-/

namespace Switchboard

/-- Byte strings, as payloads, frames and configuration values hold them. -/
abbrev Bytes := List UInt8

namespace Text.Utf8

/-- A piece of a byte string. -/
inductive Piece where
  | char (c : Char)
  | stray (bytes : Bytes)
  deriving DecidableEq, Repr, Inhabited

/-- Where a reader stands between two bytes: between characters, or inside one that lacks `more`
bytes, the next of them in `low … high`. `seen` holds its bytes so far, last first. -/
inductive State where
  | boundary
  | inside (more : Nat) (low high : UInt8) (value : Nat) (seen : Bytes)
  deriving DecidableEq, Repr, Inhabited

def lead (b : UInt8) : State × List Piece :=
  let n := b.toNat
  if b < 0x80 then (.boundary, [.char (Char.ofNat n)])
  else if b < 0xc2 then (.boundary, [.stray [b]])
  else if b < 0xe0 then (.inside 1 0x80 0xbf (n - 0xc0) [b], [])
  -- bounds leave out long forms of short characters, surrogates, and all beyond U+10FFFF
  else if b = 0xe0 then (.inside 2 0xa0 0xbf 0 [b], [])
  else if b = 0xed then (.inside 2 0x80 0x9f 0xd [b], [])
  else if b < 0xf0 then (.inside 2 0x80 0xbf (n - 0xe0) [b], [])
  else if b = 0xf0 then (.inside 3 0x90 0xbf 0 [b], [])
  else if b < 0xf4 then (.inside 3 0x80 0xbf (n - 0xf0) [b], [])
  else if b = 0xf4 then (.inside 3 0x80 0x8f 4 [b], [])
  else (.boundary, [.stray [b]])

/-- One more byte: the state after it and the pieces it completes. -/
def feed : State → UInt8 → State × List Piece
  | .boundary, b => lead b
  | .inside more low high value seen, b =>
    if low ≤ b && b ≤ high then
      let value := value * 64 + (b.toNat - 0x80)
      if more ≤ 1 then (.boundary, [.char (Char.ofNat value)])
      else (.inside (more - 1) 0x80 0xbf value (b :: seen), [])
    else
      -- the character breaks off, and this byte begins another or none
      let (state, out) := lead b
      (state, .stray seen.reverse :: out)

/-- The piece that the end of the input completes. -/
def close : State → List Piece
  | .boundary => []
  | .inside _ _ _ _ seen => [.stray seen.reverse]

def pieces (bytes : Bytes) : List Piece :=
  let (state, out) := bytes.foldl (fun (state, out) b =>
    let (state, ps) := feed state b
    (state, ps.reverse ++ out)) (State.boundary, [])
  ((close state).reverse ++ out).reverse

/-- Reads every stray stretch as U+FFFD. -/
def decodeLossy (bytes : Bytes) : String :=
  .ofList <| (pieces bytes).map fun
    | .char c => c
    | .stray _ => '\ufffd'

/-- The state after `bytes`, or nothing once a stray stretch shows. -/
def advance? (state : State) (bytes : Bytes) : Option State :=
  bytes.foldlM (fun state b =>
    match feed state b with
    | (next, ps) => if ps.any (· matches .stray _) then none else some next) state

def encode (s : String) : Bytes := s.toUTF8.data.toList

/-- The text that `bytes` spell, if they spell one. -/
def decode? (bytes : Bytes) : Option String :=
  String.fromUTF8? ⟨bytes.toArray⟩

end Text.Utf8

end Switchboard
