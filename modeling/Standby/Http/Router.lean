import Standby.Assoc
import Standby.Text.Percent
/-!
# Routes

A path leads to a collection, to a member of one, or to the action endpoint of a member:

    /                                              the root resource
    /v1                                            the root resource's member "v1"
    /v1[/project]/collection[/id[/action]]         a collection at the top
    /v1[/project]/parent/id/collection[/id[/action]]   a collection below a member of another

Empty components do not count, components are percent-decoded, and an ending `.json` is taken off first.
-/

namespace Standby

/-- Which part of a resource a path leads to. -/
inductive RouteTarget where
  | collection
  | member
  | action
  deriving DecidableEq, Repr

/-- Where a path leads. -/
structure Route where
  resource : String
  target : RouteTarget
  params : List (String × String)
  project : Option String
  /-- The path without its format suffix. -/
  path : String
  suffix : Option String
  deriving DecidableEq, Repr

/-- A collection below the members of another one. -/
structure NestedCollection where
  parent : String
  /-- The parameter that holds the parent's identifier. -/
  param : String
  collection : String
  deriving DecidableEq, Repr

/-- The collections that paths can lead to. -/
structure Router where
  root : Option String := none
  topLevel : List String := []
  nested : List NestedCollection := []
  deriving DecidableEq, Repr

namespace Router

/-- The first component of every path but the root's. -/
def versionSegment : String := "v1"

/-- The parameter that holds a member's identifier. -/
def idParam : String := "id"

/-- The last component of a path to an action endpoint. -/
def actionSegment : String := "action"

def addRoot (r : Router) (collection : String) : Router := { r with root := some collection }

/-- Adds a collection at the top. -/
def addCollection (r : Router) (collection : String) : Router :=
  { r with topLevel := r.topLevel ++ [collection] }

/-- Adds a collection below the members of another one. -/
def addNested (r : Router) (parent param collection : String) : Router :=
  { r with nested := r.nested ++ [⟨parent, param, collection⟩] }

/-- Whether a collection of this name stands at the top. -/
def isCollection (r : Router) (name : String) : Bool := r.topLevel.contains name

/-- The decoded components of a path. -/
def components (path : String) : List String :=
  ((Text.pieces '/' path).filter (· ≠ "")).map Text.Percent.decodeText

/-- A resource with the part of it and the parameters that a path names. -/
abbrev Place := String × RouteTarget × List (String × String)

/-- The place below a collection that the components after its name lead to. -/
def within? (collection : String) (params : List (String × String)) : List String → Option Place
  | [] => some (collection, .collection, params)
  | [id] => some (collection, .member, insertKey idParam id params)
  | [id, last] =>
    if last = actionSegment then some (collection, .action, insertKey idParam id params) else none
  | _ => none

/-- The place that the components after the project lead to. -/
def place? (r : Router) : List String → Option Place
  | [] => none
  | collection :: rest =>
    if r.isCollection collection then
      match within? collection [] rest with
      | some place => some place
      | none =>
        match rest with
        | id :: name :: rest =>
          match r.nested.find? fun n => n.parent == collection && n.collection == name with
          | some n => within? n.collection [(n.param, id)] rest
          | none => none
        | _ => none
    else none

/-- Takes a project off the front: a component that is no collection, followed by one that is. -/
def splitProject (r : Router) : List String → Option String × List String
  | project :: collection :: rest =>
    if !r.isCollection project && r.isCollection collection then (some project, collection :: rest)
    else (none, project :: collection :: rest)
  | rest => (none, rest)

/-- The project and the place that the components of a path lead to. -/
def locate? (r : Router) : List String → Option (Option String × Place)
  | [] => r.root.map fun root => (none, root, .collection, [])
  | [start] =>
    if start = versionSegment then
      r.root.map fun root => (none, root, .member, [(idParam, versionSegment)])
    else none
  | start :: rest =>
    if start = versionSegment then
      let (project, rest) := r.splitProject rest
      (r.place? rest).map fun place => (project, place)
    else none

/-- Where a path leads, if anywhere. -/
def route? (r : Router) (raw : String) : Option Route :=
  let (path, suffix) :=
    match Text.before? ".json" raw with
    | some path => (path, some "json")
    | none => (raw, none)
  (r.locate? (components path)).map fun (project, resource, target, params) =>
    { resource, target, params, project, path, suffix }

end Router

end Standby
