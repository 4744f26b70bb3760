import Switchboard.Decimal
import Switchboard.Text.Blank
import Switchboard.Text.Quoted

/-!
The configuration of a node, read from environment variables. A logic node needs none of them. A
gateway needs its link targets; its tables of access tokens and user groups may be absent, but an
entry that is present must be well formed.
-/

namespace Switchboard

/-- The values of environment variables by name. -/
abbrev Environment := String → Option Bytes

structure GatewayConfig where
  linkTargets : List String
  nameStem : String
  accessTokens : List (Int64 × String)
  userGroups : List (Int64 × List Int64)
  deriving DecidableEq, Repr, Inhabited

inductive Role where
  | logic
  | gateway (config : GatewayConfig)
  deriving DecidableEq, Repr, Inhabited

def Role.name : Role → String
  | .logic => "logic"
  | .gateway _ => "gateway"

structure Config where
  port : UInt16
  role : Role
  linkBuffer : UInt64
  deriving DecidableEq, Repr, Inhabited

namespace Config

/-- Why an environment configures no node. -/
inductive Fault where
  | targetsAbsent
  | targetsNotText (bytes : Bytes)
  | noTargets
  | tokenEntry
  | tokenUid (fault : Decimal.Fault)
  | groupEntry
  | groupUid (fault : Decimal.Fault)
  | groupGid (fault : Decimal.Fault)
  deriving DecidableEq, Repr, Inhabited

def numeralFault (fault : Decimal.Fault) : String :=
  "ParseIntError \x7b kind: " ++ fault.name ++ " \x7d"

def Fault.message : Fault → String
  | .targetsAbsent => "CHATLINK_LINK_TARGETS is required in gateway mode: NotPresent"
  | .targetsNotText bytes =>
    "CHATLINK_LINK_TARGETS is required in gateway mode: NotUnicode(" ++ Text.quoteBytes bytes ++ ")"
  | .noTargets => "CHATLINK_LINK_TARGETS must name at least one logic node"
  | .tokenEntry => "CHATLINK_ACCESS_TOKENS entries must be uid:token"
  | .tokenUid fault =>
    "CHATLINK_ACCESS_TOKENS uid must be a valid integer: " ++ numeralFault fault
  | .groupEntry => "CHATLINK_USER_GROUPS entries must be uid:gid|gid"
  | .groupUid fault =>
    "CHATLINK_USER_GROUPS uid must be a valid integer: " ++ numeralFault fault
  | .groupGid fault =>
    "CHATLINK_USER_GROUPS gid must be a valid integer: " ++ numeralFault fault

/-- The value of a variable, if it is present and a text. -/
def text? (env : Environment) (name : String) : Option String :=
  (env name).bind Text.Utf8.decode?

/-- The fields that are not blank. -/
def entries (sep : Char) (cs : List Char) : List (List Char) :=
  (Text.fields sep cs).filter fun e => !e.all Text.isBlank

/-- A target without blanks around it and without slashes at its end. -/
def linkTarget (cs : List Char) : List Char := Text.dropEndWhile (· = '/') (Text.trimChars cs)

/-- Base addresses separated by commas, each kept where it first occurs. -/
def readTargets (raw : String) : List String :=
  (Text.fields ',' raw.toList).foldl (fun targets part =>
    -- trimming comes first, so two ways to write a target count as one
    let target := String.ofList (linkTarget part)
    if target = "" ∨ target ∈ targets then targets else targets ++ [target]) []

/-- An entry `uid:token`. -/
def readTokenEntry (entry : List Char) : Except Fault (Int64 × String) :=
  match Text.splitFirst? ':' entry with
  | none => .error .tokenEntry
  | some (uid, token) =>
    match Decimal.readInt64 (Text.trimChars uid) with
    | .error fault => .error (.tokenUid fault)
    | .ok uid => .ok (uid, .ofList (Text.trimChars token))

def readTokens (raw : String) : Except Fault (List (Int64 × String)) :=
  (entries ',' raw.toList).mapM readTokenEntry

def readGid (gid : List Char) : Except Fault Int64 :=
  (Decimal.readInt64 (Text.trimChars gid)).mapError .groupGid

/-- An entry `uid:gid|gid`. -/
def readGroupEntry (entry : List Char) : Except Fault (Int64 × List Int64) :=
  match Text.splitFirst? ':' entry with
  | none => .error .groupEntry
  | some (uid, gids) =>
    match Decimal.readInt64 (Text.trimChars uid) with
    | .error fault => .error (.groupUid fault)
    | .ok uid => ((entries '|' gids).mapM readGid).map fun gids => (uid, gids)

def readGroups (raw : String) : Except Fault (List (Int64 × List Int64)) :=
  (entries ',' raw.toList).mapM readGroupEntry

/-- A table that is empty when its variable is absent. -/
def table {α : Type} (parse : String → Except Fault (List α)) : Option String →
    Except Fault (List α)
  | none => .ok []
  | some raw => parse raw

def gateway (env : Environment) : Except Fault GatewayConfig := do
  let linkTargets ← match env "CHATLINK_LINK_TARGETS" with
    | none => throw .targetsAbsent
    | some bytes =>
      match Text.Utf8.decode? bytes with
      | none => throw (.targetsNotText bytes)
      | some raw => pure (readTargets raw)
  if linkTargets.isEmpty then throw .noTargets
  let nameStem := match text? env "CHATLINK_NAME_PREFIX" with
    | some stem => if stem = "" then "chatlink-gw" else stem
    | none => "chatlink-gw"
  let accessTokens ← table readTokens (text? env "CHATLINK_ACCESS_TOKENS")
  let userGroups ← table readGroups (text? env "CHATLINK_USER_GROUPS")
  return { linkTargets, nameStem, accessTokens, userGroups }

def portOf (env : Environment) : UInt16 :=
  match (text? env "PORT").map fun s => Decimal.readUInt16 s.toList with
  | some (.ok p) => p
  | _ => 39099

def linkBufferOf (env : Environment) : UInt64 :=
  match (text? env "CHATLINK_LINK_BUFFER").map fun s => Decimal.readUInt64 s.toList with
  -- a queue without room would take nothing
  | some (.ok n) => if n = 0 then 1024 else n
  | _ => 1024

/-- The mode is a gateway's in any case of its letters, and a logic node's otherwise. -/
def ofEnvironment (env : Environment) : Except Fault Config := do
  let role ← if (text? env "CHATLINK_MODE").map Text.lowerAscii = some "gateway" then
      (gateway env).map Role.gateway
    else pure .logic
  return { port := portOf env, role, linkBuffer := linkBufferOf env }

end Config

end Switchboard
