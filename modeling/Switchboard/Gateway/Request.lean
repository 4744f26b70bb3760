import Switchboard.Gateway.Script
import Switchboard.Text.Blank
import Switchboard.Wire.Command

/-!
The commands that a gateway carries out. A command becomes a request only if all its arguments are
in order, so a faulty one changes nothing.
-/

namespace Switchboard.Gateway

open Wire (Command)

inductive Request where
  | subscribe (uid : Int64) (gids : List Int64)
  | unsubscribe (uid : Int64) (gids : List Int64)
  | kick (uid : Int64)
  deriving DecidableEq, Repr, Inhabited

namespace Request

/-- Why the arguments of a command are not in order. -/
inductive Fault where
  | missing (name : String)
  | invalid (name value : String)
  deriving DecidableEq, Repr, Inhabited

def Fault.message : Fault → String
  | .missing name => "missing argument " ++ Text.quote name
  | .invalid name value => "invalid argument " ++ Text.quote name ++ ": " ++ Text.quote value

def argument (command : Command) (name : String) : Except Fault String :=
  match command.args.get? name with
  | some value => .ok value
  | none => .error (.missing name)

/-- An id with blanks around it. The fault names the text with its blanks. -/
def readId (name : String) (value : List Char) : Except Fault Int64 :=
  match Decimal.readInt64 (Text.trimChars value) with
  | .ok id => .ok id
  | .error _ => .error (.invalid name (.ofList value))

/-- Ids separated by commas; blank parts do not count. -/
def readIds (name : String) (value : List Char) : Except Fault (List Int64) :=
  ((Text.fields ',' value).filter fun part => !part.all Text.isBlank).mapM (readId name)

def uidOf (command : Command) : Except Fault Int64 := do
  let value ← argument command "uid"
  readId "uid" value.toList

def gidsOf (command : Command) : Except Fault (List Int64) := do
  let value ← argument command "gids"
  readIds "gids" value.toList

def readers : List (String × (Command → Except Fault Request)) := [
  ("sub_group", fun c => do
    let uid ← uidOf c
    let gids ← gidsOf c
    return .subscribe uid gids),
  ("unsub_group", fun c => do
    let uid ← uidOf c
    let gids ← gidsOf c
    return .unsubscribe uid gids),
  ("kick_user", fun c => do
    let uid ← uidOf c
    return .kick uid)]

/-- The request of a command, or nothing when its kind is unknown. -/
def ofCommand? (command : Command) : Option (Except Fault Request) :=
  (readers.lookup command.kind).map fun read => read command

def script : Request → Script
  | .subscribe uid gids => .subscribeUser uid gids
  | .unsubscribe uid gids => .unsubscribeUser uid gids
  | .kick uid => .kick uid

end Request

end Switchboard.Gateway
