import Standby.Error
import Standby.Http.Message
import Standby.Http.Negotiation
/-!
# Faults

A fault is what a client gets to see of an error: a JSON object whose only key is a name that goes with the
status and whose value holds the status, the message and, where the client has sent too much, when to try
again. The message is in the client's language if the catalog has it in that language.
-/

namespace Standby

/-- What messages are in other languages. -/
structure Catalog where
  /-- A message in a language, if the catalog has it. -/
  inLanguage? : (message language : String) → Option String

/-- The catalog with the given entries: a language, a message, and what it is in that language. The last of several
entries counts. -/
def Catalog.ofEntries (entries : List (String × String × String)) : Catalog where
  inLanguage? message language := (entries.reverse.find? fun (l, m, _) => l == language && m == message).map (·.2.2)

/-- Entries can stand for the catalog of them. -/
instance : Coe (List (String × String × String)) Catalog := ⟨Catalog.ofEntries⟩

/-- A failure as a client sees it. -/
structure Fault where
  status : Nat
  message : String
  retryAfter : Option String
  deriving DecidableEq, Repr

namespace Fault

/-- The name of the faults with a status. -/
def name (status : Nat) : String :=
  match status with
  | 400 => "badRequest"
  | 401 => "unauthorized"
  | 403 => "forbidden"
  | 404 => "itemNotFound"
  | 405 => "badMethod"
  | 406 => "notAcceptable"
  | 409 => "conflictingRequest"
  | 413 => "overLimit"
  | 415 => "badMediaType"
  | 429 => "overLimit"
  | 501 => "notImplemented"
  | 503 => "serviceUnavailable"
  | _ => "failsafeFault"

def ofError (e : ApiError) (language : Option String) (catalog : Option Catalog) : Fault :=
  let localized :=
    match language, catalog with
    | some l, some c => c.inLanguage? e.clientMessage l
    | _, _ => none
  { status := e.status
    message := localized.getD e.clientMessage
    retryAfter := if e.status = 413 || e.status = 429 then e.retryAfter else none }

def toJson (f : Fault) : Json :=
  let details := [("code", Json.ofNat f.status), ("message", .str f.message)]
  let retry := f.retryAfter.toList.map fun s => ("retryAfter", Json.str s)
  .obj [(name f.status, .obj (details ++ retry))]

def reply (e : ApiError) (language : Option String) (catalog : Option Catalog) : Reply :=
  let f := ofError e language catalog
  let headers : Headers := [("content-type", Offers.jsonType)]
  let headers :=
    match f.retryAfter with
    | some s => headers.setIfValid "retry-after" s
    | none => headers
  let headers :=
    match language with
    | some l => headers.setIfValid "content-language" l
    | none => headers
  { status := f.status, headers, body := .buffered f.toJson.text }

end Fault

end Standby
