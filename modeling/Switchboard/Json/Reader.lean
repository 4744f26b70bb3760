import Switchboard.Json.Token

/-!
Building the outline of a text from its tokens. Open containers wait on a stack; a fault stops the
building and leaves all of them unclosed.
-/

namespace Switchboard.Json

/-- An open container, its content in reverse. An object may have read a key whose value is due. -/
inductive Frame where
  | array (items : List Outline)
  | object (members : List (Option String × Outline)) (key : Option (Option String))
  deriving Inhabited

/-- What may come next inside a value. -/
inductive Expected where
  | value
  | itemOrEnd
  | key
  | keyOrEnd
  | colon
  | separator
  deriving DecidableEq, Repr, Inhabited

/-- How far a text has been read: within its value, past the value, or up to a fault. -/
inductive Progress where
  | within (stack : List Frame) (expected : Expected)
  | past (value : Outline)
  | stopped (value : Outline)
  deriving Inhabited

namespace Frame

/-- The container as it stands when the text breaks off, `inner` being its last part. -/
def abandon (inner : Option Outline) : Frame → Outline
  | .array items =>
    .array (match inner with
      | some v => (v :: items).reverse
      | none => items.reverse) false
  | .object members key =>
    -- a key without a value counts as a member with a broken one
    .object (match key with
      | some k => ((k, inner.getD .broken) :: members).reverse
      | none => members.reverse) false

def close : Frame → Outline
  | .array items => .array items.reverse true
  | .object members _ => .object members.reverse true

end Frame

namespace Progress

/-- The text breaks off inside these containers, the innermost first. -/
def abandon (stack : List Frame) : Progress :=
  .stopped ((stack.foldl (fun inner frame => some (frame.abandon inner)) none).getD .broken)

/-- Puts a finished value into the innermost container. -/
def place (v : Outline) : List Frame → Progress
  | [] => .past v
  | .array items :: stack => .within (.array (v :: items) :: stack) .separator
  | .object members (some k) :: stack =>
    .within (.object ((k, v) :: members) none :: stack) .separator
  | .object members none :: stack => .within (.object members none :: stack) .separator

def pushValue (stack : List Frame) : Token → Progress
  | .null => place .null stack
  | .bool b => place (.bool b) stack
  | .number n => place (.number n) stack
  | .string s => place (.string s) stack
  | .openArray => .within (.array [] :: stack) .itemOrEnd
  | .openObject => .within (.object [] none :: stack) .keyOrEnd
  | _ => abandon stack

def close : List Frame → Progress
  | [] => abandon []
  | frame :: stack => place frame.close stack

def push : Progress → Token → Progress
  -- a token after the value spoils the document, whatever it is
  | .stopped v, _ | .past v, _ => .stopped v
  | .within stack .value, token => pushValue stack token
  | .within stack .itemOrEnd, token =>
    if token = .closeArray then close stack else pushValue stack token
  | .within (.object members none :: stack) .key, .string s
  | .within (.object members none :: stack) .keyOrEnd, .string s =>
    .within (.object members (some s) :: stack) .colon
  | .within stack .keyOrEnd, .closeObject => close stack
  | .within stack .colon, .colon => .within stack .value
  | .within (.array items :: stack) .separator, .comma =>
    .within (.array items :: stack) .value
  | .within (.array items :: stack) .separator, .closeArray => close (.array items :: stack)
  | .within (.object members key :: stack) .separator, .comma =>
    .within (.object members key :: stack) .key
  | .within (.object members key :: stack) .separator, .closeObject =>
    close (.object members key :: stack)
  | .within stack _, _ => abandon stack

/-- The document, once the text has ended. -/
def finish : Progress → Document
  | .past v => ⟨v, true⟩
  | .stopped v => ⟨v, false⟩
  | .within stack _ =>
    match abandon stack with
    | .stopped v | .past v => ⟨v, false⟩
    | .within _ _ => ⟨.broken, false⟩

end Progress

structure Reader where
  mode : Mode := .gap
  progress : Progress := .within [] .value
  deriving Inhabited

namespace Reader

def step (r : Reader) (s : Symbol) : Reader :=
  let (mode, tokens) := r.mode.step s
  ⟨mode, tokens.foldl Progress.push r.progress⟩

def finish (r : Reader) : Document := (r.mode.finish.foldl Progress.push r.progress).finish

end Reader

def Document.read (symbols : List Symbol) : Document := (symbols.foldl Reader.step {}).finish

end Switchboard.Json
