import Standby.Config
import Standby.Engine.Extension
import Standby.Failover.Draft
import Standby.Http.Router
import Standby.Policy
import Standby.Store.Queue
import Standby.Store.Hosts
import Standby.Store.Notifications
import Standby.Store.Segments
/-!
# The failover service

The service serves segments, hosts and notifications out of a store. This module has what its resources share:
the world that they change, the versions at which their behaviour changes, and the reading of filters and
pages from a query.
-/

namespace Standby

/-- What the service changes, and the present time. -/
structure World where
  store : Store := {}
  queue : Queue
  clock : Time.Instant

structure Service where
  config : Config
  policy : Policy
  /-- The identifier of the row with an id. -/
  mint : Table → Nat → String

/-- A step of a handler of the service. Segments are put into the cache of the request. -/
abbrev ServiceStep (α : Type) := Step World Segment α

namespace Service

/-- The first version. -/
def v1_0 : Version := ⟨1, 0⟩

/-- From here on a notification is shown with the details of its recovery. -/
def v1_1 : Version := ⟨1, 1⟩

/-- From here on segments have the attribute `enabled`. -/
def v1_2 : Version := ⟨1, 2⟩

/-- The name under which the segment of a request for hosts is put into the cache. -/
def segmentCache : String := "segments"

/-- When the extensions of the service were last changed. -/
def updated : String := "2024-06-01T00:00:00Z"

/-- Goes on with a result, or fails with its error. -/
def orFail {α : Type} : Except ApiError α → ServiceStep α
  | .ok a => pure a
  | .error e => throw e

/-- Goes on with what the store gives, or fails with its refusal. -/
def orRefuse {α : Type} (r : Except StoreError α) : ServiceStep α := orFail (r.mapError .ofStoreError)

/-- Fails with an error if something stands in the way. -/
def refuseIf (obstacle : Bool) (e : ApiError) : ServiceStep Unit := if obstacle then throw e else pure ()

def world : ServiceStep World := do return (← get).world

/-- Puts a store in the place of the present one. -/
def putStore (s : Store) : ServiceStep Unit :=
  modify fun w => { w with world := { w.world with store := s } }

/-- Takes a step on the store, or fails with its refusal. What the step has done before it was refused stays done. -/
def inStore {α : Type} (x : StoreStep Store α) : ServiceStep α := do
  let (r, store) := x.run.run (← world).store
  putStore store
  orRefuse r

/-- Fails if the caller may not do something to a resource. -/
def authorize (service : Service) (ctx : Context) (resource action : String) : ServiceStep Unit :=
  orFail (service.policy.authorize ctx.caller (Policy.actionName resource action))

/-- The body of a request as what an action needs. -/
def readBody {α : Type} (read : Json → Option α) (ctx : Context) : ServiceStep α :=
  match read (ctx.body.getD .null) with
  | some a => pure a
  | none => throw (.badArgument "the body has not the form that the action needs")

def memberId (ctx : Context) : ServiceStep String := orFail (ctx.param Router.idParam)

/-- A filter that is read from the query, if it is there. -/
def filter {α : Type} (ctx : Context) (name : String) (read : String → Option α) :
    Except ApiError (Option α) :=
  match ctx.query.first? name with
  | none => .ok none
  | some raw =>
    match read raw with
    | some a => .ok (some a)
    | none => .error (.invalid s!"Invalid value for {name} filter: {raw}")

/-- The page that a query asks for, and the slice of the listing that it is. -/
def paging (service : Service) (ctx : Context) (sortable : List String) (default : String) :
    Except ApiError (Page × Slice) := do
  let page ← Page.ofQuery ctx.query service.config.maxLimit
  let sort ← sortKeys ctx.query sortable default
  .ok (page, { sort, limit := some page.limit, marker := page.marker })

/-- A body with one member. -/
def wrap (name : String) (j : Json) : Outcome := .value (.obj [(name, j)])

/-- A page of a listing as a body, with a link to the next page if there is one. -/
def pageBody {α : Type} [Listed α] (ctx : Context) (name : String) (page : Page) (rows : List α)
    (toJson : α → Json) : Outcome :=
  let next := page.next? ctx.baseUrl ctx.path ctx.query rows.length (rows.getLast?.map Listed.uuid)
  .value
    (.obj
      ((name, .arr (rows.map toJson))
        :: next.toList.map fun link => (name ++ "_links", .arr [link.toJson])))

/-- Registers actions under names and ranges of versions. -/
def actions {σ κ : Type} (l : List (String × VersionRange × Action σ κ)) :
    Except RegistryError (Registry (Action σ κ)) :=
  l.foldlM (fun r (name, range, action) => r.register name range action) .empty

end Service

end Standby
