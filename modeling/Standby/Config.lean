import Standby.Assoc
import Standby.Json.Basic
import Standby.Text.Ascii
import Standby.Text.Blank
import Standby.Text.Split
/-!
# Configuration

Every setting has a default and can be set by a variable of the environment.
-/

namespace Standby

structure Config where
  listen : String := "0.0.0.0:15868"
  logLevel : String := "info"
  minVersion : String := "1.0"
  defaultVersion : String := "1.0"
  /-- No page of a listing has more items than this. -/
  maxLimit : Nat := 1000
  versionHeader : String := "OpenStack-API-Version"
  serviceName : String := "instance-ha"
  primaryMediaType : String := "application/vnd.failsafe+json"
  languages : List String := ["en"]
  /-- Where links lead, if not to the host that the request names. -/
  publicEndpoint : Option String := none
  /-- For how many seconds a notification of the same failure counts as a duplicate. -/
  duplicateInterval : Nat := 180
  disabledExtensions : List String := []
  deriving DecidableEq, Repr

/-- A variable whose value is not one that its setting can have. -/
structure ConfigError where
  key : String
  value : String
  deriving DecidableEq, Repr

def ConfigError.message (e : ConfigError) : String := s!"invalid configuration value for {e.key}: {e.value}"

namespace Config

/-- The items of a list separated by commas, without blank ones. -/
def splitList (raw : String) : List String := ((Text.pieces ',' raw).map Text.trim).filter (· ≠ "")

/-- A number that a variable holds, or the default when it is not set. -/
def number (env : List (String × String)) (key : String) (default : Nat) : Except ConfigError Nat :=
  match lookup? key env with
  | none => .ok default
  | some raw =>
    match Text.nat64? (Text.trim raw) with
    | some n => .ok n
    | none => .error ⟨key, raw⟩

/-- The settings that an environment makes. -/
def ofEnv (env : List (String × String)) : Except ConfigError Config := do
  let base : Config := {}
  let text (key default : String) : String := (lookup? key env).getD default
  let list (key : String) (default : List String) : List String :=
    ((lookup? key env).map splitList).getD default
  let maxLimit ← number env "API_MAX_LIMIT" base.maxLimit
  let interval ← number env "DUPLICATE_NOTIFICATION_DETECTION_INTERVAL" base.duplicateInterval
  .ok
    { listen := text "GATEWAY_LISTEN" base.listen
      logLevel := text "LOG_LEVEL" base.logLevel
      minVersion := text "API_MIN_VERSION" base.minVersion
      defaultVersion := text "API_DEFAULT_VERSION" base.defaultVersion
      maxLimit
      versionHeader := text "API_VERSION_HEADER" base.versionHeader
      serviceName := text "API_SERVICE_NAME" base.serviceName
      primaryMediaType := text "API_PRIMARY_MEDIA_TYPE" base.primaryMediaType
      languages := list "AVAILABLE_LANGUAGES" base.languages
      publicEndpoint :=
        ((lookup? "PUBLIC_ENDPOINT" env).map fun v => Text.dropEnd '/' (Text.trim v)).filter (· ≠ "")
      duplicateInterval := interval
      disabledExtensions := list "DISABLED_EXTENSIONS" base.disabledExtensions }

def toJson (c : Config) : Json :=
  .obj
    [("gatewayListen", .str c.listen), ("logLevel", .str c.logLevel), ("apiMinVersion", .str c.minVersion),
      ("apiDefaultVersion", .str c.defaultVersion), ("apiMaxLimit", .ofNat c.maxLimit),
      ("apiVersionHeader", .str c.versionHeader), ("apiServiceName", .str c.serviceName),
      ("apiPrimaryMediaType", .str c.primaryMediaType), ("availableLanguages", .ofTexts c.languages),
      ("publicEndpoint", .ofText? c.publicEndpoint),
      ("duplicateNotificationDetectionInterval", .ofNat c.duplicateInterval),
      ("disabledExtensions", .ofTexts c.disabledExtensions)]

end Config

end Standby
