import Standby.Engine.Dispatch
import Standby.Service.Extensions
import Standby.Service.Hosts
import Standby.Service.Notifications
import Standby.Service.SegmentActions
import Standby.Service.Versions
/-!
# The API of the service

The extensions of the service are loaded in a fixed order, without those that the configuration disables. The
one that lists extensions comes last and knows of all the others.
-/

namespace Standby.Service

/-- The extensions of the service, without the one that lists them. -/
def builtin (service : Service) : List (Extension World Segment) :=
  [versionsExtension, service.segmentsExtension, service.hostsExtension, service.notificationsExtension,
    service.segmentActionsExtension]

/-- Loads the extensions that are not disabled. -/
def load (service : Service) : Except ExtensionError (ExtensionSet World Segment) := do
  let disabled := service.config.disabledExtensions
  let wanted := service.builtin.filter fun e => !disabled.contains e.shortName
  let loaded ← wanted.foldlM (fun set e => (set.add e).map (·.2)) ExtensionSet.empty
  if disabled.contains extensionsInfo.shortName then .ok loaded
  else
    let infos := loaded.list.map ExtensionInfo.of ++ [extensionsInfo]
    (loaded.add (service.extensionsExtension infos)).map (·.2)

def dispatcher (service : Service) : Except BuildError (Dispatcher World Segment) := do
  let extensions ← service.load.mapError .extension
  let settings ← DispatchSettings.ofConfig service.config
  Dispatcher.build settings extensions

end Standby.Service
