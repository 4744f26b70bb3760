import Switchboard.Decimal
import Switchboard.Text.Blank
import Switchboard.Text.Utf8

/-!
Addresses: a scheme and an authority, either of which may be missing, and a path with its query. The
fragment is cut off. Characters are checked part by part; those above U+007F may stand in paths and
queries only.
-/

namespace Switchboard.Http

structure Url where
  scheme : Option String
  authority : Option String
  /-- The path with the query, as written. -/
  pathAndQuery : String
  deriving DecidableEq, Repr, Inhabited

namespace Url

def maxLength : Nat := 65534

def isSchemeChar (c : Char) : Bool := c.isAlphanum || "+-.~".toList.contains c

def isAuthorityChar (c : Char) : Bool :=
  c.isAlphanum || "!$&'()*+,-.:;=@[]_~".toList.contains c

def isPathChar (c : Char) : Bool :=
  let n := c.toNat
  n = 0x21 || (0x24 ≤ n && n ≤ 0x3b) || n = 0x3d || (0x40 ≤ n && n ≤ 0x5f) ||
    (0x61 ≤ n && n ≤ 0x7a) || n = 0x7c || 0x7e ≤ n || c = '"' || c = '\x7b' || c = '\x7d'

def isQueryChar (c : Char) : Bool :=
  let n := c.toNat
  n = 0x21 || (0x24 ≤ n && n ≤ 0x3b) || n = 0x3d || 0x3f ≤ n

/-- The path and query up to the fragment, if their characters are in order. -/
def readPath? (cs : List Char) : Option (List Char) :=
  let front := cs.takeWhile (· ≠ '#')
  let path := front.takeWhile (· ≠ '?')
  let query := (front.dropWhile (· ≠ '?')).drop 1
  if path.all isPathChar && query.all isQueryChar then some front else none

/-- The scheme in front of `://`, with what follows it. -/
def splitScheme (cs : List Char) : Option (List Char) × List Char :=
  match cs.dropWhile isSchemeChar with
  | ':' :: '/' :: '/' :: rest => (some (cs.takeWhile isSchemeChar), rest)
  | _ => (none, cs)

/-- What a scan of an authority has met since the last at sign or closing bracket. -/
structure AuthorityScan where
  colons : Nat := 0
  opened : Bool := false
  closed : Bool := false
  percent : Bool := false
  endsWithAt : Bool := false

def AuthorityScan.step (s : AuthorityScan) (c : Char) : Option AuthorityScan :=
  let s := { s with endsWithAt := false }
  if c = '%' then some { s with percent := true }
  else if !isAuthorityChar c then none
  else if c = ':' then if 8 ≤ s.colons then none else some { s with colons := s.colons + 1 }
  else if c = '[' then if s.percent || s.opened then none else some { s with opened := true }
  -- colons and percent signs inside brackets belong to the address there
  else if c = ']' then
    if !s.opened || s.closed then none
    else some { s with closed := true, colons := 0, percent := false }
  else if c = '@' then some { s with colons := 0, percent := false, endsWithAt := true }
  else some s

/-- Brackets come in pairs, at most one colon stands outside of them, and something follows an at
sign. -/
def isAuthority (cs : List Char) : Bool :=
  match cs.foldlM AuthorityScan.step {} with
  | some s => s.opened = s.closed && s.colons ≤ 1 && !s.percent && !s.endsWithAt
  | none => false

def endsAuthority (c : Char) : Bool := c = '/' || c = '?' || c = '#'

def parse? (s : String) : Option Url :=
  let cs := s.toList
  if maxLength < s.utf8ByteSize then none
  else
    match cs with
    | [] => none
    | '/' :: _ => (readPath? cs).map fun path => ⟨none, none, .ofList path⟩
    | ['*'] => some ⟨none, none, "*"⟩
    | _ =>
      let (scheme, rest) := splitScheme cs
      let authority := rest.takeWhile (! endsAuthority ·)
      let path := rest.dropWhile (! endsAuthority ·)
      if !isAuthority authority || authority.isEmpty then none
      else
        match scheme with
        -- without a scheme there can only be an authority
        | none => if path.isEmpty then some ⟨none, some (.ofList authority), ""⟩ else none
        | some scheme =>
          if 64 < scheme.length then none
          else
            (readPath? path).map fun path =>
              ⟨some (Text.lowerAscii (.ofList scheme)), some (.ofList authority),
                if path.isEmpty then "/" else .ofList path⟩

def path (u : Url) : String := .ofList (u.pathAndQuery.toList.takeWhile (· ≠ '?'))

/-- The query, empty when there is none. -/
def query (u : Url) : Bytes :=
  Text.Utf8.encode (.ofList ((u.pathAndQuery.toList.dropWhile (· ≠ '?')).drop 1))

/-- The authority without its user. -/
def hostPort (authority : String) : List Char :=
  (authority.toList.reverse.takeWhile (· ≠ '@')).reverse

/-- The host of an authority, with its brackets if it has some. -/
def host (authority : String) : String :=
  let cs := hostPort authority
  match cs with
  | '[' :: _ => .ofList (cs.takeWhile (· ≠ ']') ++ [']'])
  | _ => .ofList (cs.takeWhile (· ≠ ':'))

/-- The port after the last colon of an authority, if it is one. -/
def port? (authority : String) : Option UInt16 :=
  let cs := authority.toList
  if cs.contains ':' then
    (Decimal.readUInt16 (cs.reverse.takeWhile (· ≠ ':')).reverse).toOption
  else none

end Url

end Switchboard.Http
