import Switchboard.Http.Header
import Switchboard.Http.Url

/-!
Requests and responses.
-/

namespace Switchboard.Http

structure Request where
  method : String
  target : String
  headers : Headers
  body : Bytes
  deriving Repr, Inhabited

namespace Request

def isValueByte (b : UInt8) : Bool := b = 0x09 || (0x20 ≤ b && b ≠ 0x7f)

/-- The address of the request, if it and the headers are in order. -/
def url? (r : Request) : Option Url :=
  if r.headers.all fun h => h.2.all isValueByte then Url.parse? r.target else none

/-- The path of the address; a target that is none has no path. -/
def path (r : Request) : String := ((Url.parse? r.target).map Url.path).getD ""

end Request

/-- The words for a status, of those that are answered. -/
def reason : Nat → String
  | 101 => "Switching Protocols"
  | 200 => "OK"
  | 400 => "Bad Request"
  | 404 => "Not Found"
  | 405 => "Method Not Allowed"
  | 426 => "Upgrade Required"
  | _ => ""

/-- The bytes of a header field whose value has that many. -/
def fieldSize (name : String) (value : Nat) : Nat :=
  name.utf8ByteSize + value + ": \r\n".utf8ByteSize

/-- The bytes of a response up to its body, by the names of its header fields and the sizes of their
values. To these comes the date, which has one form. -/
def headSize (status : Nat) (fields : List (String × Nat)) : Nat :=
  let start := s!"HTTP/1.1 {status} {reason status}\r\n".utf8ByteSize
  let date := fieldSize "date" "Thu, 01 Jan 1970 00:00:00 GMT".utf8ByteSize
  fields.foldl (fun size f => size + fieldSize f.1 f.2) (start + date) + "\r\n".utf8ByteSize

structure Response where
  status : Nat
  headers : List (String × String) := []
  body : Bytes := []
  deriving Repr, Inhabited

namespace Response

def plain (status : Nat) (text : String) : Response where
  status
  headers := [("content-type", "text/plain; charset=utf-8")]
  body := Text.Utf8.encode text

def json (status : Nat) (text : String) : Response where
  status
  headers := [("content-type", "application/json")]
  body := Text.Utf8.encode text

def empty (status : Nat) : Response := { status }

def wrongMethod (allowed : String) : Response where
  status := 405
  headers := [("allow", allowed)]

/-- The bytes of the response. -/
def size (r : Response) : Nat :=
  let length := (toString r.body.length).utf8ByteSize
  headSize r.status (("content-length", length) :: r.headers.map fun h => (h.1, h.2.utf8ByteSize)) +
    r.body.length

end Response

end Switchboard.Http
