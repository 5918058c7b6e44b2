import Standby.Engine.Dispatcher
import Standby.Json.Parser
import Standby.Version.Header
/-!
# Serving a request

A request passes a row of gates before any extension sees it: its path must lead to a resource, its version
must be supported, its media type and body readable, its action one that the resource has, and a project in
its path the caller's own. Then the hooks of the action are called in order; each may answer the request. If
none does, the body is checked against the schema of the action, the handler is called, and the hooks are
called again in reverse. The version header of a fault says at which version the request was found to be, and
that of any other reply which version the request has in the end, as what is called may rewrite it.
-/

namespace Standby

/-- A call into an extension: a hook, by its place among the hooks of the action, or the handler. -/
inductive Phase where
  | before (hook : Nat)
  | handler
  | after (hook : Nat)
  deriving DecidableEq, Repr

/-- What serving a request gives: the outcome, the workspace, and the calls made, in order. -/
structure Run (σ κ α : Type) where
  result : Except ApiError α
  workspace : Workspace σ κ
  calls : List Phase

namespace Dispatcher

variable {σ κ : Type}

/-- A value as the body of a POST or PUT request. Other bodies are not looked at; a declared length of zero and
a body of blanks count as no body. -/
def decodeBody (req : Request) : Except ApiError (Option Json) :=
  let isSpace (b : UInt8) : Bool := b = 32 || b = 9 || b = 10 || b = 12 || b = 13
  if req.method ≠ "POST" ∧ req.method ≠ "PUT" then .ok none
  else if req.headers.text? "content-length" = some "0" || req.body.all isSpace then .ok none
  else
    match (Text.Utf8.decode? req.body).bind Json.parse? with
    | some j => .ok (some j)
    | none => .error (.malformedBody "Malformed request body")

/-- The action that a method asks for at a part of a resource. At an action endpoint it is the only key of the
body. -/
def actionName (method : String) (target : RouteTarget) (body : Option Json) : Except ApiError String :=
  match target, method with
  | .collection, "GET" => .ok "index"
  | .member, "GET" => .ok "show"
  | .collection, "POST" => .ok "create"
  | .member, "PUT" => .ok "update"
  | .member, "DELETE" => .ok "delete"
  | .action, "POST" =>
    match body.bind Json.members? with
    | some [(key, _)] => .ok key
    | some (_ :: _ :: _) => .error (.malformedBody "too many body keys")
    | _ => .error (.malformedBody "Malformed request body")
  | _, _ => .error .badMethod

/-- The registry that holds the handlers of an action. The actions of the action endpoint come from the
controllers, the others from the resource. -/
def handlersOf (e : Entry σ κ) (target : RouteTarget) (action : String) :
    Except ApiError (Registry (Action σ κ)) :=
  if target = .action then
    match e.actions.find? (·.contains action) with
    | some r => .ok r
    | none => .error (.invalidAction action)
  else if e.resource.actions.contains action then .ok e.resource.actions
  else .error .badMethod

/-- The URL that links begin with. -/
def baseUrl (d : Dispatcher σ κ) (headers : Headers) : String :=
  match d.publicEndpoint with
  | some endpoint => Text.dropEnd '/' endpoint
  | none => "http://" ++ (headers.text? "host").getD "localhost"

/-- The first gate: where the path leads. -/
def locate (d : Dispatcher σ κ) (req : Request) : Except ApiError (Route × Entry σ κ) :=
  match d.router.route? req.path with
  | none => .error .noRoute
  | some route =>
    match lookup? route.resource d.entries with
    | none => .error .noRoute
    | some entry => .ok (route, entry)

/-- The second gate: the version of the request, for resources that have versions. -/
def versionOf (d : Dispatcher σ κ) (e : Entry σ κ) (req : Request) : Except ApiError (Option Version) :=
  if e.resource.versioned then
    (VersionHeader.resolve d.versionHeader d.service d.window (req.headers.values d.versionHeader)).map some
  else .ok none

/-- The language that faults are worded in. -/
def languageOf (d : Dispatcher σ κ) (req : Request) : Option String :=
  d.offers.language? (req.headers.text? "accept-language")

/-- The last gate: a project in the path must be the caller's. -/
def checkProject (inPath : Option String) (caller : Caller) : Except ApiError Unit :=
  match inPath with
  | none => .ok ()
  | some p =>
    if caller.project = some p then .ok () else .error (.projectMismatch p (caller.project.getD "None"))

/-- The other gates. A request that passes them has a context and handlers. -/
def contextOf (d : Dispatcher σ κ) (route : Route) (e : Entry σ κ) (version : Option Version) (req : Request) :
    Except ApiError (Context × Registry (Action σ κ)) := do
  let _ ← d.offers.requestType (req.headers.text? "content-type")
  let body ← decodeBody req
  let action ← actionName req.method route.target body
  let handlers ← handlersOf e route.target action
  let caller :=
    Caller.ofParts (req.headers.text? "x-user-id") (req.headers.text? "x-project-id")
      (req.headers.text? "x-roles")
  checkProject route.project caller
  .ok
    ({ method := req.method
       path := route.path
       headers := req.headers
       action
       version
       window := d.window
       responseType := d.offers.responseType route.suffix (req.headers.text? "accept")
       language := d.languageOf req
       caller
       project := route.project
       params := route.params
       query := (req.query.map Text.Form.decodePairs).getD []
       body
       baseUrl := d.baseUrl req.headers },
      handlers)

/-- Calls hooks ahead of the handler until one answers or fails, and gives back the hooks that have passed. The hook of
a registry is looked up when its turn comes, by the action that the request then has and by the version `v`; hooks are
numbered from `i` on. -/
def runBefore (v : Version) (i : Nat) :
    List (Registry (Hook σ κ)) → Workspace σ κ → Run σ κ (Response ⊕ List (Hook σ κ))
  | [], w => ⟨.ok (.inr []), w, []⟩
  | r :: rs, w =>
    match r.resolve w.request.action v with
    | none => runBefore v i rs w
    | some h =>
      match (h.before w.request).run.run w with
      | (.error e, w) => ⟨.error e, w, [.before i]⟩
      | (.ok (some answer), w) => ⟨.ok (.inl answer), w, [.before i]⟩
      | (.ok none, w) =>
        let run := runBefore v (i + 1) rs w
        ⟨run.result.map (Sum.map id (h :: ·)), run.workspace, .before i :: run.calls⟩

/-- Calls hooks after the handler, the last one first, where the first hook has number `i`. A hook that has
nothing for the version of the request is passed over. -/
def runAfter (i : Nat) : List (Hook σ κ) → Response → Workspace σ κ → Run σ κ Response
  | [], r, w => ⟨.ok r, w, []⟩
  | h :: hs, r, w =>
    let run := runAfter (i + 1) hs r w
    match run.result with
    | .error _ => run
    | .ok r =>
      let (result, w) := (h.after run.workspace.request r).run.run run.workspace
      let calls := run.calls ++ [.after i]
      match result with
      | .ok none => ⟨.ok r, w, calls⟩
      | .ok (some replaced) => ⟨.ok replaced, w, calls⟩
      | .error e => if e.code = .versionNotFoundForMethod then ⟨.ok r, w, calls⟩ else ⟨.error e, w, calls⟩

/-- The response or the finished reply that an outcome is. -/
def settle (status : Nat) : Outcome → Response ⊕ Reply
  | .empty => .inl { status, body := none }
  | .value j => .inl { status, body := some j }
  | .response r => .inl r
  | .raw r => .inr r

/-- Checks the body and calls the handler, which is looked up by the action that the request has by now. -/
def runHandler (v : Version) (handlers : Registry (Action σ κ)) (w : Workspace σ κ) :
    Run σ κ (Response ⊕ Reply) :=
  match handlers.resolve w.request.action v with
  | none => ⟨.error (.versionNotFound w.request.action), w, []⟩
  | some action =>
    match (action.schema.map (·.check (w.request.body.getD .null))).getD (.ok ()) with
    | .error v => ⟨.error (.ofViolation v), w, []⟩
    | .ok _ =>
      let (result, w) := (action.handler w.request).run.run w
      ⟨result.map (settle action.status), w, [.handler]⟩

/-- Writes a response in the media type of the request. -/
def serialize (w : Workspace σ κ) (r : Response) : Reply := r.toReply w.request.responseType

/-- Calls the hooks and the handler of an admitted request. All of them are chosen by the version that the request has
at first. -/
def perform (e : Entry σ κ) (handlers : Registry (Action σ κ)) (w : Workspace σ κ) : Run σ κ Reply :=
  let v := w.request.effectiveVersion
  let pre := runBefore v 0 e.hooks w
  match pre.result with
  | .error err => ⟨.error err, pre.workspace, pre.calls⟩
  | .ok (.inl answer) => ⟨.ok (serialize pre.workspace answer), pre.workspace, pre.calls⟩
  | .ok (.inr hooks) =>
    let main := runHandler v handlers pre.workspace
    match main.result with
    | .error err => ⟨.error err, main.workspace, pre.calls ++ main.calls⟩
    | .ok (.inr reply) => ⟨.ok reply, main.workspace, pre.calls ++ main.calls⟩
    | .ok (.inl response) =>
      let post := runAfter 0 hooks response main.workspace
      ⟨post.result.map (serialize post.workspace), post.workspace, pre.calls ++ main.calls ++ post.calls⟩

/-- Adds the version header, if the request has a version. -/
def stamp (d : Dispatcher σ κ) (version : Option Version) (r : Reply) : Reply :=
  match version with
  | none => r
  | some v =>
    let headers := r.headers.setIfValid d.versionHeader (VersionHeader.entry d.service v)
    { r with headers := headers.append "vary" d.versionHeader }

def fault (d : Dispatcher σ κ) (req : Request) (version : Option Version) (e : ApiError) : Reply :=
  d.stamp version (Fault.reply e (d.languageOf req) d.catalog)

/-- The reply to a request, the world after it, and the calls into extensions that were made. -/
structure Answer (σ : Type) where
  reply : Reply
  world : σ
  calls : List Phase

/-- Serves a request. A fault is marked with the version that the request was found to have, any other reply with the one
that it has in the end. -/
def serve (d : Dispatcher σ κ) (req : Request) (world : σ) : Answer σ :=
  match d.locate req with
  | .error e => ⟨d.fault req none e, world, []⟩
  | .ok (route, entry) =>
    match d.versionOf entry req with
    | .error e => ⟨d.fault req none e, world, []⟩
    | .ok version =>
      match d.contextOf route entry version req with
      | .error e => ⟨d.fault req version e, world, []⟩
      | .ok (ctx, handlers) =>
        let run := perform entry handlers (ctx.start world)
        let reply :=
          match run.result with
          | .ok reply => d.stamp run.workspace.request.version reply
          | .error e => d.fault req version e
        ⟨reply, run.workspace.world, run.calls⟩

end Dispatcher

end Standby
