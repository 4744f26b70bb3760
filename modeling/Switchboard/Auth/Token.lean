import Switchboard.Http.Header
import Switchboard.Http.Query

/-!
The access token of a connection. A bearer token in the authorization header comes first; when that
header is present the query is not looked at, whatever the header holds.
-/

namespace Switchboard.Auth

/-- Why a connection is not admitted. -/
inductive Fault where
  | missing
  | notBearer
  | invalid
  deriving DecidableEq, Repr, Inhabited

def Fault.message : Fault → String
  | .missing => "missing access token"
  | .notBearer => "authorization header must use the Bearer scheme"
  | .invalid => "invalid access token"

/-- The token in the value of an authorization header. -/
def bearerToken (value : Bytes) : Except Fault String :=
  match Http.visibleText? value with
  | none => .error .notBearer
  | some text =>
    match Text.stripLead? "Bearer ".toList text.toList with
    | none => .error .notBearer
    | some rest =>
      -- a scheme without a token counts as no token at all
      match Text.trimChars rest with
      | [] => .error .missing
      | token => .ok (.ofList token)

/-- The token of a request, by its headers or else by its query. -/
def presentedToken (headers : Http.Headers) (query : Http.Query) : Except Fault String :=
  match headers.first? "authorization" with
  | some value => bearerToken value
  | none =>
    match query.last? "access_token" with
    | some token => if token = "" then .error .missing else .ok token
    | none => .error .missing

end Switchboard.Auth
