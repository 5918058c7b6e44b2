import Standby.Json.Basic
import Standby.Time.Instant
/-!
# Segments, hosts and notifications

Hosts are grouped into failover segments, which share a way of recovery. A notification reports the failure of
a host, of one of its processes or of an instance on it. Times are those of creation and of the last change.
-/

namespace Standby

inductive Table where
  | segments
  | hosts
  | notifications
  deriving DecidableEq, Repr

/-- What a row of a table is called. -/
def Table.rowName : Table → String
  | .segments => "Failover segment"
  | .hosts => "Host"
  | .notifications => "Notification"

/-- How the hosts of a segment are recovered. -/
inductive RecoveryMethod where
  | auto
  | reservedHost
  | autoPriority
  | rhPriority
  deriving DecidableEq, Repr

namespace RecoveryMethod

def all : List RecoveryMethod := [.auto, .reservedHost, .autoPriority, .rhPriority]

def name : RecoveryMethod → String
  | .auto => "auto"
  | .reservedHost => "reserved_host"
  | .autoPriority => "auto_priority"
  | .rhPriority => "rh_priority"

def ofName? (s : String) : Option RecoveryMethod := all.find? (·.name == s)

end RecoveryMethod

/-- What has failed. -/
inductive FailureKind where
  | computeHost
  | virtualMachine
  | process
  deriving DecidableEq, Repr

namespace FailureKind

def all : List FailureKind := [.computeHost, .virtualMachine, .process]

def name : FailureKind → String
  | .computeHost => "COMPUTE_HOST"
  | .virtualMachine => "VM"
  | .process => "PROCESS"

def ofName? (s : String) : Option FailureKind := all.find? (·.name == s)

end FailureKind

/-- How far a notification has been dealt with. -/
inductive Progress where
  | new
  | running
  | error
  | failed
  | ignored
  | finished
  deriving DecidableEq, Repr

namespace Progress

def all : List Progress := [.new, .running, .error, .failed, .ignored, .finished]

def name : Progress → String
  | .new => "new"
  | .running => "running"
  | .error => "error"
  | .failed => "failed"
  | .ignored => "ignored"
  | .finished => "finished"

def ofName? (s : String) : Option Progress := all.find? (·.name == s)

end Progress

structure Segment where
  id : Nat
  uuid : String
  name : String
  description : Option String
  recoveryMethod : RecoveryMethod
  serviceType : String
  enabled : Bool
  createdAt : Time.Instant
  updatedAt : Option Time.Instant
  deriving DecidableEq, Repr

structure Host where
  id : Nat
  uuid : String
  name : String
  hostType : String
  controlAttributes : String
  reserved : Bool
  onMaintenance : Bool
  /-- The identifier of the segment that the host belongs to. -/
  segment : String
  createdAt : Time.Instant
  updatedAt : Option Time.Instant
  deriving DecidableEq, Repr

/-- A report of a failure. -/
structure Notification where
  id : Nat
  uuid : String
  generatedAt : Time.Instant
  kind : FailureKind
  payload : Json
  /-- The identifier of the host that the report is about. -/
  sourceHost : String
  progress : Progress
  createdAt : Time.Instant
  updatedAt : Option Time.Instant

end Standby
