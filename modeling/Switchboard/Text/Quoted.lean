import Switchboard.Text.Printable
import Switchboard.Text.Utf8

/-!
Texts shown in double quotes. Quotes and backslashes are escaped, the common controls have letters
of their own, other hidden characters are written by code point, and all else stands for itself.
-/

namespace Switchboard.Text

/-- The escape of a hidden character by its code point. -/
def codePointEscape (c : Char) : List Char :=
  ['\\', 'u', '\x7b'] ++ Nat.toDigits 16 c.toNat ++ ['\x7d']

def quotedChar (c : Char) : List Char :=
  if c = '\x00' then ['\\', '0']
  else if c = '\t' then ['\\', 't']
  else if c = '\r' then ['\\', 'r']
  else if c = '\n' then ['\\', 'n']
  else if c = '"' then ['\\', '"']
  else if c = '\\' then ['\\', '\\']
  else if isPrintable c then [c]
  else codePointEscape c

def quote (s : String) : String :=
  .ofList ('"' :: s.toList.flatMap quotedChar ++ ['"'])

/-- Two upper-case hexadecimal digits. -/
def hexByte (b : UInt8) : List Char :=
  let digit (n : Nat) : Char := (Nat.digitChar n).toUpper
  [digit (b.toNat / 16), digit (b.toNat % 16)]

/-- Bytes in double quotes, for a value that is no text: the readable stretches are quoted, single
quotes included, and each byte of the others is written by its two digits. -/
def quoteBytes (bytes : List UInt8) : String :=
  let piece : Utf8.Piece → List Char
    | .char c => if c = '\'' then ['\\', '\''] else quotedChar c
    | .stray bs => bs.flatMap fun b => ['\\', 'x'] ++ hexByte b
  .ofList ('"' :: (Utf8.pieces bytes).flatMap piece ++ ['"'])

end Switchboard.Text
