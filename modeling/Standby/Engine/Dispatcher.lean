import Standby.Config
import Standby.Engine.Extension
import Standby.Engine.Inherit
import Standby.Http.Router
/-!
# Dispatchers

A dispatcher is built from the extensions that are loaded: it knows where paths lead, which actions and hooks
each resource has, and which versions are supported. The latest supported version is the latest one that any
action or hook of a resource mentions.
-/

namespace Standby

structure DispatchSettings where
  versionHeader : String
  service : String
  minVersion : Version
  defaultVersion : Version
  primaryMediaType : String
  languages : List String
  publicEndpoint : Option String
  deriving DecidableEq, Repr

/-- Why a dispatcher cannot be built. -/
inductive BuildError where
  | extension (e : ExtensionError)
  | version (e : VersionError)
  | headerName (name : String)
  deriving DecidableEq, Repr

def BuildError.message : BuildError → String
  | .extension e => e.message
  | .version e => s!"invalid API version configuration: {e.message}"
  | .headerName name => s!"invalid version header name: {name}"

def DispatchSettings.ofConfig (c : Config) : Except BuildError DispatchSettings := do
  let minVersion ← (Version.parse c.minVersion).mapError .version
  let defaultVersion ← (Version.parse c.defaultVersion).mapError .version
  .ok
    { versionHeader := c.versionHeader
      service := c.serviceName
      minVersion
      defaultVersion
      primaryMediaType := c.primaryMediaType
      languages := c.languages
      publicEndpoint := c.publicEndpoint }

/-- A resource with what controllers add to it, those of the resource itself first. -/
structure Entry (σ κ : Type) where
  resource : Resource σ κ
  actions : List (Registry (Action σ κ))
  hooks : List (Registry (Hook σ κ))

/-- The latest versions that the registries of a resource mention, one of each that mentions any. -/
def Entry.latestOfEach {σ κ : Type} (e : Entry σ κ) : List Version :=
  e.resource.actions.latestMentioned?.toList ++ e.actions.filterMap (·.latestMentioned?)
    ++ e.hooks.filterMap (·.latestMentioned?)

/-- The latest version that the actions and hooks of a resource mention. -/
def Entry.latestMentioned? {σ κ : Type} (e : Entry σ κ) : Option Version := Registry.latest? e.latestOfEach

/-- What serves requests. -/
structure Dispatcher (σ κ : Type) where
  router : Router
  entries : List (String × Entry σ κ)
  window : Window
  offers : Offers
  /-- The name of the version header, in lower case. -/
  versionHeader : String
  service : String
  publicEndpoint : Option String
  catalog : Option Catalog := none

namespace Dispatcher

variable {σ κ : Type}

/-- What extensions bring. -/
abbrev Parts (σ κ : Type) := List (Resource σ κ) × List (Controller σ κ)

/-- Adds resources to those there are. No two may have the same collection. -/
def addResources (resources : List (Resource σ κ)) : List (Resource σ κ) → Except BuildError (List (Resource σ κ))
  | [] => .ok resources
  | r :: rest =>
    if resources.any (·.collection == r.collection) then .error (.extension (.duplicateResource r.collection))
    else addResources (resources ++ [r]) rest

/-- Adds what one extension brings. -/
def collect (parts : Parts σ κ) (e : Extension σ κ) : Except BuildError (Parts σ κ) := do
  let resources ← e.resources.mapError fun err => .extension (.registry err)
  let all ← addResources parts.1 resources
  let controllers ← e.controllers.mapError fun err => .extension (.registry err)
  .ok (all, parts.2 ++ controllers)

/-- Adds the route to a resource. A parent must be a collection among `collections`. -/
def addRoute (collections : List String) (router : Router) (r : Resource σ κ) : Except BuildError Router :=
  if r.root then .ok (router.addRoot r.collection)
  else
    match r.parent with
    | none => .ok (router.addCollection r.collection)
    | some parent =>
      if collections.contains parent.collection then
        .ok (router.addNested parent.collection parent.param r.collection)
      else .error (.extension (.unknownParent r.collection parent.collection))

/-- The resources that the controllers of a resource are taken from. -/
def chainOf (resources : List (Resource σ κ)) (r : Resource σ κ) : List String :=
  Inherit.chain (resources.map fun r => (r.collection, r.inherits)) r.collection r.inherits

/-- A resource with what controllers add to it. -/
def entryOf (resources : List (Resource σ κ)) (controllers : List (Controller σ κ)) (r : Resource σ κ) :
    Entry σ κ :=
  let mine := (chainOf resources r).flatMap fun target => controllers.filter (·.resource == target)
  { resource := r, actions := mine.map (·.actions), hooks := mine.map (·.hooks) }

def build (settings : DispatchSettings) (extensions : ExtensionSet σ κ) : Except BuildError (Dispatcher σ κ) := do
  let (resources, controllers) ← extensions.list.foldlM collect ([], [])
  let router ← resources.foldlM (addRoute (resources.map (·.collection))) {}
  let entries := resources.map fun r => (r.collection, entryOf resources controllers r)
  let versions := entries.filterMap fun (_, e) => e.latestMentioned?
  let max := versions.foldl Version.max (settings.defaultVersion.max settings.minVersion)
  let window ← (Window.ofBounds settings.minVersion max settings.defaultVersion).mapError .version
  if !Headers.isName settings.versionHeader then .error (.headerName settings.versionHeader)
  else
    .ok
      { router
        entries
        window
        offers := Offers.ofPrimary settings.primaryMediaType settings.languages
        versionHeader := Text.lower settings.versionHeader
        service := settings.service
        publicEndpoint := settings.publicEndpoint }

end Dispatcher

end Standby
