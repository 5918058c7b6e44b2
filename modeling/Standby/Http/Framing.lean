import Standby.Http.Message
/-!
# Framing

Over a connection the headers of a message say where its body ends. "content-length" declares how many bytes it
has, and "transfer-encoding" lists codings, of which "chunked" is the last so that the end can be seen. `sent` is
what becomes of a request when it is sent, `received?` what the other end makes of it, and `answered` what becomes
of the reply.
-/

namespace Standby.Framing

/-- The header that declares the length of a body. -/
def lengthHeader : String := "content-length"

/-- The header that lists the codings of a body. -/
def codingHeader : String := "transfer-encoding"

/-- A number of bytes: digits only, and no more than 64 bits hold. -/
def length? (s : String) : Option Nat := (Text.natural? s.toList).filter (· < 18446744073709551616)

/-- The length that all values name, if there is one. -/
def agreed? (values : List String) : Option Nat := do
  let lengths ← values.mapM length?
  lengths.head?.filter fun n => lengths.all (· == n)

/-- The length that a sender finds declared. A value may list it several times. -/
def declared? (h : Headers) : Option Nat :=
  agreed? ((h.values lengthHeader).flatMap fun value => (Text.pieces ',' value).map Headers.trimValue)

/-- Whether the last coding that a value lists is "chunked". -/
def isChunked (value : String) : Bool :=
  Headers.isText value
    && (Text.pieces ',' value).getLast?.any fun coding => Text.sameIgnoringCase (Headers.trimValue coding) "chunked"

/-- The headers with "chunked" as the last coding, if any codings are listed. -/
def closeCodings (h : Headers) : Headers :=
  h.mapLast codingHeader fun value => if isChunked value then value else value ++ ", chunked"

/-- A request as it is sent. Without a body there are no codings, and with codings no length is declared. Otherwise the
body ends at its declared length, and a length that cannot be read gives way to the true one. -/
def sent (req : Request) : Request :=
  let h := req.headers
  if req.body.isEmpty then { req with headers := h.without codingHeader }
  else if (h.values codingHeader).isEmpty then
    match declared? h with
    | some n => { req with body := req.body.take n }
    | none => { req with headers := h.set lengthHeader (toString req.body.length) }
  else { req with headers := (closeCodings h).without lengthHeader }

/-- A request as it is received, unless its headers leave open where its body ends: the last coding is not
"chunked", or the declared lengths differ or are no numbers. -/
def received? (req : Request) : Option Request :=
  let h := req.headers.received
  let lengths := h.values lengthHeader
  if (h.values codingHeader).getLast?.all isChunked && (lengths.isEmpty || (agreed? lengths).isSome) then
    some { req with headers := h }
  else none

/-- Whether the reply to a method can have a body. -/
def allowsBody (method : String) (status : Nat) : Bool :=
  method != "HEAD" && 200 ≤ status && status != 204 && status != 304
    && !(method == "CONNECT" && status < 300)

/-- A reply as it is sent. Where there cannot be a body no codings are listed and no trailer is announced. -/
def answered (method : String) (r : Reply) : Reply :=
  { r with
    headers :=
      if allowsBody method r.status then closeCodings r.headers
      else (r.headers.without codingHeader).without "trailer" }

end Standby.Framing
