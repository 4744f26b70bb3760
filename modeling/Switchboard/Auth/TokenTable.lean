import Switchboard.Auth.Token
import Switchboard.Sha256
import Switchboard.Table

/-!
The table of access tokens. It keeps the digest of each token and not the token itself.
-/

namespace Switchboard.Auth

def tokenDigest (token : String) : String := Sha256.hex (Sha256.digest (Text.Utf8.encode token))

/-- User ids under the digests of their tokens. -/
structure TokenTable where
  users : Table String Int64

namespace TokenTable

def empty : TokenTable := ⟨.empty⟩

instance : Inhabited TokenTable := ⟨empty⟩

/-- A token already in the table goes to the new user. -/
def insert (t : TokenTable) (uid : Int64) (token : String) : TokenTable :=
  ⟨t.users.insert (tokenDigest token) uid⟩

def ofPairs (pairs : List (Int64 × String)) : TokenTable :=
  pairs.foldl (fun t (uid, token) => t.insert uid token) empty

def identify (t : TokenTable) (token : String) : Except Fault Int64 :=
  match t.users.get? (tokenDigest token) with
  | some uid => .ok uid
  | none => .error .invalid

def size (t : TokenTable) : Nat := t.users.size

end TokenTable

end Switchboard.Auth
