import Switchboard.Json.Outline
import Switchboard.Text.Utf8

/-!
The tokens of a JSON text, scanned one symbol at a time. A symbol is a character, or `none` for
bytes that spell none: those are faults everywhere but inside a string, which they leave without
content.
-/

namespace Switchboard.Json

/-- A character, or bytes that are none. -/
abbrev Symbol := Option Char

def symbolsOfBytes (bytes : Bytes) : List Symbol :=
  (Text.Utf8.pieces bytes).map fun
    | .char c => some c
    | .stray _ => none

def symbolsOfText (s : String) : List Symbol := s.toList.map some

inductive Token where
  | openObject
  | closeObject
  | openArray
  | closeArray
  | comma
  | colon
  | null
  | bool (b : Bool)
  | number (n : Number)
  | string (content : Option String)
  | fault
  deriving DecidableEq, Repr, Inhabited

/-- The part of a number that is being written. -/
inductive NumberPart where
  | sign
  | zero
  | whole
  | point
  | fraction
  | exponentMark
  | exponentSign
  | exponent
  deriving DecidableEq, Repr, Inhabited

/-- A number being written, its digits in reverse. -/
structure NumberDraft where
  part : NumberPart
  negative : Bool := false
  whole : List Nat := []
  fraction : List Nat := []
  down : Bool := false
  exponent : List Nat := []
  deriving DecidableEq, Repr, Inhabited

/-- Where a string stands: between characters, after a backslash, or among the four hexadecimal
digits of an escape. -/
inductive StringPart where
  | plain
  | escape
  | unit (left : Nat) (value : Nat)
  deriving DecidableEq, Repr, Inhabited

/-- A string being written, its characters in reverse. `high` is the first half of a surrogate pair
whose second half must follow at once; `readable` is lost for good when the content is none. -/
structure StringDraft where
  part : StringPart := .plain
  chars : List Char := []
  high : Option Nat := none
  readable : Bool := true
  deriving DecidableEq, Repr, Inhabited

/-- Where the scanner stands: between tokens or within one. -/
inductive Mode where
  | gap
  | word (left : List Char) (token : Token)
  | number (draft : NumberDraft)
  | string (draft : StringDraft)
  deriving DecidableEq, Repr, Inhabited

def isSpace (c : Char) : Bool := c = ' ' || c = '\n' || c = '\t' || c = '\r'

/-- The first symbol of a token, or a blank. -/
def Mode.start : Symbol → Mode × List Token
  | some '\x7b' => (.gap, [.openObject])
  | some '\x7d' => (.gap, [.closeObject])
  | some '[' => (.gap, [.openArray])
  | some ']' => (.gap, [.closeArray])
  | some ',' => (.gap, [.comma])
  | some ':' => (.gap, [.colon])
  | some '"' => (.string {}, [])
  | some 'n' => (.word ['u', 'l', 'l'] .null, [])
  | some 't' => (.word ['r', 'u', 'e'] (.bool true), [])
  | some 'f' => (.word ['a', 'l', 's', 'e'] (.bool false), [])
  | some '-' => (.number { part := .sign, negative := true }, [])
  | some '0' => (.number { part := .zero, whole := [0] }, [])
  | some c =>
    match Decimal.digit? c with
    | some d => (.number { part := .whole, whole := [d] }, [])
    | none => if isSpace c then (.gap, []) else (.gap, [.fault])
  | none => (.gap, [.fault])

namespace NumberDraft

/-- The draft after one more symbol that continues it. -/
def next? (d : NumberDraft) (c : Char) : Option NumberDraft :=
  match d.part, Decimal.digit? c with
  | .sign, some 0 => some { d with part := .zero, whole := [0] }
  | .sign, some n => some { d with part := .whole, whole := [n] }
  | .whole, some n => some { d with whole := n :: d.whole }
  | .point, some n | .fraction, some n =>
    some { d with part := .fraction, fraction := n :: d.fraction }
  | .exponentMark, some n | .exponentSign, some n | .exponent, some n =>
    some { d with part := .exponent, exponent := n :: d.exponent }
  | .zero, none | .whole, none =>
    if c = '.' then some { d with part := .point }
    else if c = 'e' || c = 'E' then some { d with part := .exponentMark }
    else none
  | .fraction, none =>
    if c = 'e' || c = 'E' then some { d with part := .exponentMark } else none
  | .exponentMark, none =>
    if c = '+' then some { d with part := .exponentSign }
    else if c = '-' then some { d with part := .exponentSign, down := true }
    else none
  | _, _ => none

/-- The number, if it may end here. -/
def finish? (d : NumberDraft) : Option Number :=
  let number (exponent : Option (Bool × List Nat)) : Number :=
    ⟨d.negative, d.whole.reverse, d.fraction.reverse, exponent⟩
  match d.part with
  | .zero | .whole | .fraction => some (number none)
  | .exponent => some (number (some (d.down, d.exponent.reverse)))
  | _ => none

/-- A digit right after a leading zero, which no number has. -/
def isSpoiltBy (d : NumberDraft) (c : Char) : Bool := d.part = .zero && (Decimal.digit? c).isSome

end NumberDraft

namespace StringDraft

/-- Half a pair without its other half leaves no content. -/
def settle (d : StringDraft) : StringDraft :=
  if d.high.isSome then { d with high := none, readable := false } else d

def push (d : StringDraft) (c : Char) : StringDraft :=
  { d.settle with part := .plain, chars := c :: d.settle.chars }

/-- One escaped unit of sixteen bits. -/
def pushUnit (d : StringDraft) (n : Nat) : StringDraft :=
  if 0xdc00 ≤ n && n ≤ 0xdfff then
    match d.high with
    | some h =>
      { d with
        part := .plain, high := none
        chars := Char.ofNat (0x10000 + (h - 0xd800) * 0x400 + (n - 0xdc00)) :: d.chars }
    -- the second half of a pair without the first
    | none => { d with part := .plain, readable := false }
  -- a first half waits for the unit right behind it; one that waited already has lost its own
  else if 0xd800 ≤ n && n ≤ 0xdbff then { d.settle with part := .plain, high := some n }
  else d.push (Char.ofNat n)

def escaped? : Char → Option Char
  | '"' => some '"'
  | '\\' => some '\\'
  | '/' => some '/'
  | 'b' => some '\x08'
  | 'f' => some '\x0c'
  | 'n' => some '\n'
  | 'r' => some '\r'
  | 't' => some '\t'
  | _ => none

def hexDigit? (c : Char) : Option Nat :=
  if c.isDigit then some (c.toNat - '0'.toNat)
  else if 'a' ≤ c && c ≤ 'f' then some (c.toNat - 'a'.toNat + 10)
  else if 'A' ≤ c && c ≤ 'F' then some (c.toNat - 'A'.toNat + 10)
  else none

/-- The content of a string that ends here. -/
def content (d : StringDraft) : Option String :=
  if d.settle.readable then some (.ofList d.chars.reverse) else none

end StringDraft

namespace Mode

def stepString (d : StringDraft) : Symbol → Mode × List Token
  | none =>
    match d.part with
    -- undecodable bytes are a fault only where an escape is due
    | .plain => (.string { d with readable := false }, [])
    | _ => (.gap, [.fault])
  | some c =>
    match d.part with
    | .plain =>
      if c = '"' then (.gap, [.string d.content])
      else if c = '\\' then (.string { d with part := .escape }, [])
      else if c.toNat < 0x20 then (.gap, [.fault])
      else (.string (d.push c), [])
    | .escape =>
      if c = 'u' then (.string { d with part := .unit 4 0 }, [])
      else
        match StringDraft.escaped? c with
        | some e => (.string (d.push e), [])
        | none => (.gap, [.fault])
    | .unit left value =>
      match StringDraft.hexDigit? c with
      | none => (.gap, [.fault])
      | some h =>
        if left ≤ 1 then (.string (d.pushUnit (value * 16 + h)), [])
        else (.string { d with part := .unit (left - 1) (value * 16 + h) }, [])

/-- One more symbol of a number. A symbol that does not continue it starts the next token. -/
def stepNumber (d : NumberDraft) (s : Symbol) : Mode × List Token :=
  match s.bind d.next? with
  | some d => (.number d, [])
  | none =>
    match d.finish? with
    | some n =>
      -- a digit right after a leading zero would read as a number of its own
      if s.any d.isSpoiltBy then (.gap, [.fault])
      else
        let (mode, tokens) := start s
        (mode, .number n :: tokens)
    | none => (.gap, [.fault])

/-- One more symbol: where the scanner stands then, and the tokens that it has completed. -/
def step : Mode → Symbol → Mode × List Token
  | .gap, s => start s
  | .word [] token, s =>
    let (mode, tokens) := start s
    (mode, token :: tokens)
  | .word [c] token, s => if s = some c then (.gap, [token]) else (.gap, [.fault])
  | .word (c :: cs) token, s => if s = some c then (.word cs token, []) else (.gap, [.fault])
  | .number d, s => stepNumber d s
  | .string d, s => stepString d s

/-- The tokens that the end of the text completes. -/
def finish : Mode → List Token
  | .gap => []
  | .number d =>
    match d.finish? with
    | some n => [.number n]
    | none => [.fault]
  | _ => [.fault]

end Mode

end Switchboard.Json
