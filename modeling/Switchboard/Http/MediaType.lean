import Switchboard.Http.Header

/-!
Media types, as far as it takes to tell JSON: `type/subtype+suffix` and then parameters, which must
be well formed but do not matter.
-/

namespace Switchboard.Http.MediaType

def isToken (c : Char) : Bool := c.isAlphanum || "!#$%&'*+-.^_`|~".toList.contains c

def isQuotable (c : Char) : Bool := 31 < c.toNat && c.toNat ≠ 127

/-- Where a reader of parameters stands. -/
inductive Place where
  | lead
  | name
  | equals
  | value
  | quote
  | quoted
  | after
  deriving DecidableEq, Repr, Inhabited

/-- One more character of the parameters, if it may stand there. -/
def Place.step (place : Place) (c : Char) : Option Place :=
  match place with
  | .lead => if c = ' ' then some .lead else if isToken c then some .name else none
  | .name => if c = '=' then some .equals else if isToken c then some .name else none
  | .equals => if c = '"' then some .quote else if isToken c then some .value else none
  | .value => if c = ';' then some .lead else if isToken c then some .value else none
  | .quote => if isQuotable c then some .quoted else none
  | .quoted => if c = '"' then some .after else if isQuotable c then some .quoted else none
  | .after => if c = ';' then some .lead else if c = ' ' then some .after else none

def Place.mayEnd : Place → Bool
  | .lead | .equals | .value | .after => true
  | .name | .quote | .quoted => false

def wellFormedParameters (cs : List Char) : Bool :=
  match cs.foldlM Place.step .lead with
  | some place => place.mayEnd
  | none => false

/-- The type and subtype of a well-formed media type. -/
def essence? (cs : List Char) : Option (List Char × List Char) :=
  let kind := cs.takeWhile isToken
  match cs.dropWhile isToken with
  | '/' :: rest =>
    let subtype := rest.takeWhile isToken
    -- the subtype may be empty, but not with parameters behind it
    if kind.isEmpty then none
    else
      match rest.dropWhile isToken with
      | [] => some (kind, subtype)
      | ';' :: parameters =>
        if subtype.isEmpty || !wellFormedParameters parameters then none else some (kind, subtype)
      | _ => none
  | _ => none

/-- Splits a subtype at its last plus, unless that is its first character. -/
def splitSuffix (subtype : List Char) : List Char × Option (List Char) :=
  let tail := subtype.drop 1
  if tail.contains '+' then
    let suffix := (tail.reverse.takeWhile (· ≠ '+')).reverse
    (subtype.take (subtype.length - suffix.length - 1), some suffix)
  else (subtype, none)

/-- Holds of `application/json` and of application types with the suffix `json`. -/
def isJsonText (s : String) : Bool :=
  match essence? (Text.lowerAscii s).toList with
  | none => false
  | some (kind, subtype) =>
    let (base, suffix) := splitSuffix subtype
    kind = "application".toList && (base = "json".toList || suffix = some "json".toList)

def isJson (headers : Headers) : Bool :=
  match (headers.first? "content-type").bind visibleText? with
  | some s => isJsonText s
  | none => false

end Switchboard.Http.MediaType
