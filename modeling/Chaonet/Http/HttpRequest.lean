import Chaonet.Buffer.Model
import Mathlib.Data.List.DropRight
import Mathlib.Logic.Function.Basic

/-!
# HTTP requests

`HttpRequest` embeds the class of the same name with what the parser sets.  A pair of pointers
into the buffer is the bytes between them, and `headers_` is the partial function that the map
represents.
-/

namespace Chaonet

open Foundation

/-- `std::isspace` in the C locale. -/
def isspace (c : UInt8) : Bool := c = 32 || (9 ≤ c && c ≤ 13)

/-- `HttpRequest::Method`. -/
inductive Method
  | kInvalid
  | kGet
  | kPost
  | kHead
  | kPut
  | kDelete
deriving DecidableEq, Repr

/-- `HttpRequest::Version`. -/
inductive Version
  | kUnknown
  | kHttp10
  | kHttp11
deriving DecidableEq, Repr

structure HttpRequest where
  method : Method
  version : Version
  path : Bytes
  query : Bytes
  receiveTime : Int
  headers : Bytes → Option Bytes

namespace HttpRequest

inductive Assertion
  /-- `assert(method_ == Method::kInvalid)` of `setMethod`. -/
  | setMethodInvalid
deriving DecidableEq, Repr

/-- `HttpRequest()`; a `Timestamp` begins at the epoch. -/
def fresh : HttpRequest :=
  { method := .kInvalid
    version := .kUnknown
    path := []
    query := []
    receiveTime := 0
    headers := fun _ => none }

def setVersion (r : HttpRequest) (v : Version) : HttpRequest := { r with version := v }

/-- The method that a word names. -/
def methodOf (m : Bytes) : Method :=
  if m = ascii "GET" then .kGet
  else if m = ascii "POST" then .kPost
  else if m = ascii "HEAD" then .kHead
  else if m = ascii "PUT" then .kPut
  else if m = ascii "DELETE" then .kDelete
  else .kInvalid

/-- `setMethod(start, end)`: whether the word is a method, which is set in any case. -/
def setMethod (r : HttpRequest) (m : Bytes) : Traced Assertion (Bool × HttpRequest) := do
  Traced.check .setMethodInvalid (r.method = .kInvalid)
  pure (methodOf m ≠ .kInvalid, { r with method := methodOf m })

def setPath (r : HttpRequest) (path : Bytes) : HttpRequest := { r with path := path }

def setQuery (r : HttpRequest) (query : Bytes) : HttpRequest := { r with query := query }

def setReceiveTime (r : HttpRequest) (t : Int) : HttpRequest := { r with receiveTime := t }

/-- `addHeader(start, colon, end)` for the bytes of `[start, end)` and the place of the colon in
them. -/
def addHeader (r : HttpRequest) (line : Bytes) (colon : Nat) : HttpRequest :=
  let field := line.take colon
  let value := ((line.drop (colon + 1)).dropWhile isspace).rdropWhile isspace
  { r with headers := Function.update r.headers field (some value) }

end HttpRequest
end Chaonet
