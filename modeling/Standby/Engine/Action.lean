import Standby.Caller
import Standby.Engine.Cache
import Standby.Http.Fault
import Standby.Listing.Page
import Standby.Schema.Check
import Standby.Version.Registry
/-!
# Actions and hooks

An action is a handler with the schema of the body that it takes and the status of its success. A hook wraps
an action: it is called before the handler and may answer in its place, and called again after it and may
replace the response. Handlers and hooks see the request as a `Context`. They may change the world that the
API serves and the cache of the request, and rewrite the request.
-/

namespace Standby

/-- A request as handlers and hooks see it. -/
structure Context where
  method : String
  /-- The path without a format suffix. -/
  path : String
  headers : Headers
  action : String
  /-- The version of the request. A resource without versions has none, and the keyword `latest` in its place counts as
  none. -/
  version : Option Version
  window : Window
  responseType : String
  language : Option String
  caller : Caller
  project : Option String
  params : List (String × String)
  query : Query
  body : Option Json
  baseUrl : String

namespace Context

def param (c : Context) (name : String) : Except ApiError String :=
  match lookup? name c.params with
  | some value => .ok value
  | none => .error (.badArgument s!"missing path parameter {name}")

/-- Whether the request has a version, and one not before `v`. -/
def isAtLeast (c : Context) (v : Version) : Bool := c.version.any v.le

/-- The version by which handlers are chosen. -/
def effectiveVersion (c : Context) : Version := c.version.getD c.window.default

/-- What the body of a request to an action endpoint holds under the name of the action. -/
def argument? (c : Context) : Option Json := c.body.bind (·.get? c.action)

end Context

/-- What handlers and hooks can change. -/
structure Workspace (σ κ : Type) where
  world : σ
  cache : Cache κ
  /-- The request as the calls so far have left it. -/
  request : Context

/-- What the first call of a request meets. -/
def Context.start {σ κ : Type} (c : Context) (world : σ) : Workspace σ κ := ⟨world, .empty, c⟩

/-- A computation that can change the workspace and can fail. What it changed before it failed stays. -/
abbrev Step (σ κ α : Type) := ExceptT ApiError (StateM (Workspace σ κ)) α

/-- What a handler gives back. -/
inductive Outcome where
  /-- Success without a body. -/
  | empty
  /-- Success with a body. -/
  | value (j : Json)
  /-- A response with a status of its own. -/
  | response (r : Response)
  /-- A reply that is finished and only gets the version header. -/
  | raw (r : Reply)

/-- A handler with its schema and the status of its success. -/
structure Action (σ κ : Type) where
  handler : Context → Step σ κ Outcome
  schema : Option Schema := none
  status : Nat := 200

/-- What is called before and after the handler of an action. -/
structure Hook (σ κ : Type) where
  before : Context → Step σ κ (Option Response) := fun _ => pure none
  after : Context → Response → Step σ κ (Option Response) := fun _ _ => pure none

end Standby
