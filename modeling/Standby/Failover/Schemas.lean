import Standby.Failover.Rows
import Standby.Schema.Basic
/-!
# Schemas of request bodies

A body holds one member, named for what is written. Creating needs the main attributes, changing needs at least
one. The attribute `enabled` of a segment is accepted only where `withEnabled`.
-/

namespace Standby.Schemas

/-- A name of 1 to 255 characters. -/
def name : Schema :=
  .string { minLength := some 1, maxLength := some 255, format := some .name }

/-- A string of at least one character, and at most `most`. -/
def nonEmpty (most : Option Nat) : Schema := .string { minLength := some 1, maxLength := most }

def oneOf (words : List String) : Schema := .string { options := some words }

/-- An object with the given attributes and no others. -/
def record (properties : List (String × Schema)) (required : List String) (anyOf : List (List String)) : Schema :=
  .object properties [] required anyOf false

/-- An object whose only member is required. -/
def wrapped (key : String) (inner : Schema) : Schema := record [(key, inner)] [key] []

def segmentProperties (withEnabled : Bool) : List (String × Schema) :=
  [("name", name), ("description", .nullable (.string { maxLength := some 255 })),
    ("recovery_method", oneOf (RecoveryMethod.all.map (·.name))), ("service_type", nonEmpty (some 255))]
    ++ if withEnabled then [("enabled", .flag)] else []

def hostProperties : List (String × Schema) :=
  [("name", name), ("type", nonEmpty (some 255)), ("control_attributes", nonEmpty none), ("reserved", .flag),
    ("on_maintenance", .flag)]

/-- The pattern of the name of a host that a notification is about: letters, digits and the marks of host
names. -/
def hostNamePattern : Text.Pattern :=
  .ofExpression "^[a-zA-Z0-9_.-]*$"
    { fromStart := true
      parts := [(.ranges [('a', 'z'), ('A', 'Z'), ('0', '9'), ('_', '_'), ('.', '.'), ('-', '-')], .many)]
      toEnd := true }

def notificationProperties : List (String × Schema) :=
  [("type", oneOf (FailureKind.all.map (·.name))),
    ("hostname",
      .string { minLength := some 1, maxLength := some 255, pattern := some hostNamePattern }),
    ("generated_time", .string { format := some .dateTime }), ("payload", .object [] [] [] [] true)]

def createSegment (withEnabled : Bool) : Schema :=
  wrapped "segment" (record (segmentProperties withEnabled) ["name", "recovery_method", "service_type"] [])

def updateSegment (withEnabled : Bool) : Schema :=
  wrapped "segment"
    (record (segmentProperties withEnabled) [] ((segmentProperties withEnabled).map fun (key, _) => [key]))

def createHost : Schema := wrapped "host" (record hostProperties ["name", "type", "control_attributes"] [])

def updateHost : Schema := wrapped "host" (record hostProperties [] (hostProperties.map fun (key, _) => [key]))

/-- The body that reports a failure. -/
def createNotification : Schema :=
  wrapped "notification"
    (record notificationProperties ["type", "hostname", "generated_time", "payload"] [])

/-- The body that calls an action of a segment: the action's name, with `null` or an empty object. -/
def segmentAction (action : String) : Schema := wrapped action (.nullable (record [] [] []))

end Standby.Schemas
