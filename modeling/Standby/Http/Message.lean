import Standby.Http.Headers
import Standby.Http.Target
import Standby.Json.Printer
/-!
# Requests and replies

A request comes with the path and the query of its target, and with a body of bytes. A reply either has no
body or one that is held in full.
-/

namespace Standby

/-- A request. Header names are in lower case. -/
structure Request where
  method : String
  path : String
  query : Option String
  headers : Headers
  body : List UInt8
  deriving DecidableEq, Repr

namespace Request

/-- The request with the given parts, if they can be those of one. -/
def ofParts? (method uri : String) (headers : List (String × String)) (body : List UInt8) :
    Option Request := do
  let target ← Target.ofText? uri
  if method.isEmpty || !method.toList.all isTokenChar then none
  else if headers.all fun (name, value) => Headers.isName name && Headers.isValue value then
    some ⟨method, target.path, target.query, headers.map fun (name, value) => (Text.lower name, value), body⟩
  else none

end Request

inductive ReplyBody where
  | empty
  | buffered (text : String)
  deriving DecidableEq, Repr

namespace ReplyBody

def text : ReplyBody → String
  | empty => ""
  | buffered text => text

/-- How many bytes a body has. -/
def size (b : ReplyBody) : Nat := Text.Utf8.size b.text

def isEmpty (b : ReplyBody) : Bool := b.size = 0

end ReplyBody

/-- A reply. -/
structure Reply where
  status : Nat
  headers : Headers := []
  body : ReplyBody := .empty
  deriving DecidableEq, Repr

/-- A reply whose body is a JSON value that is still to be written. -/
structure Response where
  status : Nat
  body : Option Json
  headers : Headers := []

/-- Writes the body of a response as the given media type. -/
def Response.toReply (r : Response) (mediaType : String) : Reply :=
  match r.body with
  | none => { status := r.status, headers := r.headers }
  | some body =>
    { status := r.status
      headers := r.headers.setIfValid "content-type" mediaType
      body := .buffered body.text }

end Standby
