import Switchboard.Wire.Fault

/-!
Decoding outlines from left to right, so that the fault reported is the first one in the text. A
record is an object of its fields in any order, unknown ones skipped, or an array of them in the
order of declaration.
-/

namespace Switchboard.Wire

open Json (Outline)

abbrev Decoder (α : Type) := Outline → Except Fault α

/-- A fault without a place of its own. -/
def wrong (cause : Cause) : Fault := .wrong [] cause

/-- Reports faults of `r` as lying at `s`. -/
def within {α : Type} (s : Segment) (r : Except Fault α) : Except Fault α := r.mapError (·.inside s)

/-- A value of the wrong type. One that the text breaks off before its type is clear is malformed,
as is a number that no float can hold. -/
def mismatch (expected : String) : Outline → Fault
  | .broken | .string none => .malformed
  | .null => wrong (.wrongType .null expected)
  | .bool b => wrong (.wrongType (.bool b) expected)
  | .string (some s) => wrong (.wrongType (.string s) expected)
  | .array _ _ => wrong (.wrongType .sequence expected)
  | .object _ _ => wrong (.wrongType .map expected)
  | .number n =>
    match n.value with
    | .natural n => wrong (.wrongType (.integer n.toNat) expected)
    | .negative i => wrong (.wrongType (.integer i.toInt) expected)
    | .float x => wrong (.wrongType (.float (Decimal.floatText x)) expected)
    | .outOfRange => .malformed

def decodeText : Decoder String
  | .string (some s) => .ok s
  | v => .error (mismatch "a string" v)

def decodeBool : Decoder Bool
  | .bool b => .ok b
  | v => .error (mismatch "a boolean" v)

def decodeInt64 : Decoder Int64
  | .number n =>
    match n.value with
    | .natural u =>
      if u.toNat < 0x8000000000000000 then .ok (Int64.ofInt u.toNat)
      else .error (wrong (.wrongInteger u.toNat "i64"))
    | .negative i => .ok i
    | _ => .error (mismatch "i64" (.number n))
  | v => .error (mismatch "i64" v)

/-- The items from index `i` on. -/
def decodeItems {α : Type} (item : Decoder α) (i : Nat) : List Outline → Except Fault (List α)
  | [] => .ok []
  | v :: vs => do
    let x ← within (.item i) (item v)
    let xs ← decodeItems item (i + 1) vs
    return x :: xs

def decodeList {α : Type} (item : Decoder α) : Decoder (List α)
  | .array items closed => do
    -- a fault inside comes before the end that is missing
    let xs ← decodeItems item 0 items
    if closed then return xs else throw .malformed
  | v => .error (mismatch "a sequence" v)

/-- The members of a map whose values are read by `value`, in the order of the text. -/
def decodeMembers {α : Type} (value : Decoder α) :
    List (Option String × Outline) → Except Fault (List (String × α))
  | [] => .ok []
  | (none, _) :: _ => .error .malformed
  | (some k, v) :: ms => do
    let x ← within (.member k) (value v)
    let xs ← decodeMembers value ms
    return (k, x) :: xs

def decodeMap {α : Type} (value : Decoder α) : Decoder (List (String × α))
  | .object members closed => do
    let xs ← decodeMembers value members
    if closed then return xs else throw .malformed
  | v => .error (mismatch "a map" v)

/-- A name of a fixed set, written as a string or as the only key of an object with value null. -/
def decodeName {α : Type} (names : List (String × α)) : Decoder α
  | .string (some s) => find s
  | .object ((some k, v) :: rest) closed => do
    let x ← find k
    match v with
    | .null => if rest.isEmpty && closed then return x else throw .malformed
    | v => throw ((mismatch "unit" v).inside (.member k))
  | _ => .error .malformed
where
  find (s : String) : Except Fault α :=
    match names.lookup s with
    | some x => .ok x
    | none => .error (wrong (.unknownVariant s (names.map Prod.fst)))

/-- A field of a record that is gathered in a draft of type `δ`. -/
structure Field (δ : Type) where
  name : String
  required : Bool
  isSet : δ → Bool
  read : Outline → δ → Except Fault δ

/-- How a record of type `α` is decoded: its name in messages, its fields in the order of
declaration, and the record of a draft, which misses the first required field that is not set. -/
structure Shape (δ α : Type) where
  title : String
  fields : List (Field δ)
  draft : δ
  build : δ → Except Fault α

namespace Shape

variable {δ α : Type}

/-- The fields of an object. A repeated one is reported at its second key. -/
def readMembers (shape : Shape δ α) (draft : δ) :
    List (Option String × Outline) → Except Fault δ
  | [] => .ok draft
  | (none, _) :: _ => .error .malformed
  | (some k, v) :: ms =>
    match shape.fields.find? (·.name = k) with
    -- an unknown member may hold anything that is well formed
    | none => if v.isWhole then shape.readMembers draft ms else .error .malformed
    | some field => do
      if field.isSet draft then throw (wrong (.duplicate k))
      let draft ← within (.member k) (field.read v draft)
      shape.readMembers draft ms

/-- The fields of an array, from index `i` on. -/
def readItems (shape : Shape δ α) (closed : Bool) (i : Nat) (draft : δ) :
    List (Field δ) → List Outline → Except Fault δ
  | [], [] => if closed then .ok draft else .error .malformed
  | [], _ :: _ => .error .malformed
  | field :: fields, [] =>
    if !closed then .error .malformed
    else if field.required then
      .error (wrong (.tooShort i shape.title shape.fields.length))
    -- a field that may be missing keeps what the draft has for it
    else shape.readItems closed (i + 1) draft fields []
  | field :: fields, v :: vs => do
    let draft ← within (.item i) (field.read v draft)
    shape.readItems closed (i + 1) draft fields vs

def decode (shape : Shape δ α) : Decoder α
  | .object members closed => do
    let draft ← shape.readMembers shape.draft members
    if closed then shape.build draft else throw .malformed
  | .array items closed => do
    let draft ← shape.readItems closed 0 shape.draft shape.fields items
    shape.build draft
  | v => .error (mismatch shape.title v)

end Shape

/-- The value of a field that a draft must have. -/
def require {α : Type} (name : String) : Option α → Except Fault α
  | some x => .ok x
  | none => .error (wrong (.missing name))

/-- A text decodes if its value does and nothing follows it. -/
def decodeDocument {α : Type} (decode : Decoder α) (document : Json.Document) : Except Fault α := do
  let x ← decode document.outline
  if document.clean then return x else throw .malformed

end Switchboard.Wire
