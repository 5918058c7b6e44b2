import Standby.Http.Framing
import Standby.Service.Api
/-!
# The gateway

The gateway answers probes of its health itself and passes every other request on. What comes back gets the id
of the request and the name of the server. The answer to a HEAD request has no body, and a client that wants
its connection closed is told that it is. Headers come and go over the connection, where the ends of their
values are trimmed, and a request whose body has no clear end is refused.
-/

namespace Standby.Gateway

def requestIdHeader : String := "x-openstack-request-id"

/-- Whether a request asks for the health of the server. -/
def isProbe (req : Request) : Bool := req.method == "GET" && (req.path == "/health" || req.path == "/_health")

def health (version : String) : Reply :=
  { status := 200
    headers := [("content-type", "application/json")]
    body := .buffered (Json.obj [("status", .str "running"), ("version", .str version)]).text }

/-- Adds the headers that every reply has. An id that is there already stays. -/
def complete (requestId : String) (r : Reply) : Reply :=
  let headers :=
    if (r.headers.values requestIdHeader).isEmpty then r.headers.append requestIdHeader requestId else r.headers
  { r with headers := headers.set "server" "Failsafe" }

/-- Leaves out the body if the request asks for the head of the reply only. -/
def trimBody (req : Request) (r : Reply) : Reply := if req.method = "HEAD" then { r with body := .empty } else r

/-- Whether a value of the header "connection" lists a word. -/
def lists (word value : String) : Bool :=
  Headers.isText value && (Text.pieces ',' value).any fun w => Text.sameIgnoringCase (Text.trim w) word

/-- Whether the connection stays open after a request. It does unless it is to be closed, or the request is a probe
whose body, which nobody reads, would have to be read to find its end. -/
def staysOpen (req : Request) : Bool :=
  let keeps := (req.headers.values "connection").foldl
    (fun stays value => if stays then !lists "close" value else lists "keep-alive" value) true
  keeps && !(isProbe req && !(req.headers.values Framing.codingHeader).isEmpty)

/-- Serves a request that has come over a connection. -/
def serveReceived (version requestId : String) (d : Dispatcher World Segment) (req : Request) (w : World) :
    Reply × World :=
  if isProbe req then (health version, w)
  else
    let answer := d.serve req w
    (trimBody req (complete requestId answer.reply), answer.world)

/-- The answer to a request whose body has no clear end. -/
def refusal : Reply := { status := 400, headers := [("connection", "close")] }

def serve (version requestId : String) (d : Dispatcher World Segment) (req : Request) (w : World) :
    Reply × World :=
  match Framing.received? (Framing.sent req) with
  | none => (refusal, w)
  | some req =>
    let (reply, w) := serveReceived version requestId d req w
    let headers := if staysOpen req then reply.headers else reply.headers.set "connection" "close"
    let reply := Framing.answered req.method { reply with headers }
    ({ reply with headers := reply.headers.received }, w)

end Standby.Gateway
