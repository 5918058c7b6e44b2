import Mathlib.Data.List.Permutation
import Standby.Proofs.Engine.Layout
import Standby.Proofs.Service.Endpoints
/-!
# Starting the service

With all its extensions the service gets a dispatcher from every configuration whose versions can be read and are
in order and whose version header has a proper name.
-/

namespace Standby

namespace Service

variable (service : Service)

theorem exists_of_toBool {ε α : Type} {x : Except ε α} (h : x.toBool = true) : ∃ a, x = .ok a := by
  cases x with
  | error e => cases h
  | ok a => exact ⟨a, rfl⟩

/-! ## The extensions register without conflict -/

/-- The one resource of an extension is there if its actions can be registered. -/
theorem exists_of_single {l : List (String × VersionRange × Action World Segment)}
    {f : Registry (Action World Segment) → Resource World Segment} {rs : Except RegistryError _}
    (hrs : rs = do let actions ← actions l; .ok [f actions]) (h : rs.toBool = true) :
    ∃ actions, rs = .ok [f actions] := by
  obtain ⟨resources, h⟩ := exists_of_toBool h
  obtain ⟨registry, -, hr⟩ := bind_eq_ok.1 (hrs ▸ h)
  cases hr
  exact ⟨registry, h⟩

theorem exists_versions : ∃ actions, versionsExtension.resources =
    .ok [{ collection := "versions", member := "version", versioned := false, root := true, actions }] :=
  exists_of_single rfl (by cbv)

theorem exists_segments : ∃ actions, service.segmentsExtension.resources =
    .ok [{ collection := "segments", member := "segment", actions }] :=
  exists_of_single rfl (by cbv)

theorem exists_hosts : ∃ actions, service.hostsExtension.resources =
    .ok
      [{ collection := "hosts"
         member := "host"
         parent := some ⟨"segments", segmentParam⟩
         inherits := some "segments"
         actions }] :=
  exists_of_single rfl (by cbv)

theorem exists_notifications : ∃ actions, service.notificationsExtension.resources =
    .ok [{ collection := "notifications", member := "notification", actions }] :=
  exists_of_single rfl (by cbv)

theorem exists_extensions (infos : List ExtensionInfo) : ∃ actions, (service.extensionsExtension infos).resources =
    .ok [{ collection := "extensions", member := "extension", actions }] :=
  exists_of_single rfl (by cbv)

theorem exists_segmentActions : ∃ controllers, service.segmentActionsExtension.controllers = .ok controllers :=
  exists_of_toBool (by cbv)

/-! ## The dispatcher -/

variable {service}

theorem exists_load (h : service.config.disabledExtensions = []) :
    ∃ infos, service.load = .ok ⟨service.builtin ++ [service.extensionsExtension infos]⟩ := by
  refine ⟨service.builtin.map ExtensionInfo.of ++ [extensionsInfo], ?_⟩
  unfold load
  rw [h]
  rfl

/-- A dispatcher of the service with all its extensions is built from them, by what the configuration says. -/
theorem build_of_dispatcher (h : service.config.disabledExtensions = []) {d : Dispatcher World Segment}
    (hd : service.dispatcher = .ok d) :
    ∃ infos settings, DispatchSettings.ofConfig service.config = .ok settings ∧
      Dispatcher.build settings ⟨service.builtin ++ [service.extensionsExtension infos]⟩ = .ok d := by
  obtain ⟨infos, hload⟩ := exists_load h
  obtain ⟨set, hset, hd⟩ := bind_eq_ok.1 hd
  obtain ⟨settings, hsettings, hd⟩ := bind_eq_ok.1 hd
  cases hload.symm.trans (mapError_eq_ok.1 hset)
  exact ⟨infos, settings, hsettings, hd⟩

/-- The configuration says how versions are asked for, and which is the first and which that of requests that name none. -/
theorem window_of_dispatcher (hdisabled : service.config.disabledExtensions = []) {d : Dispatcher World Segment}
    (hd : service.dispatcher = .ok d) {min default : Version} (hmin : Version.parse service.config.minVersion = .ok min)
    (hdefault : Version.parse service.config.defaultVersion = .ok default) :
    d.service = service.config.serviceName ∧ d.window.min = min ∧ d.window.default = default := by
  obtain ⟨infos, settings, hsettings, hbuild⟩ := build_of_dispatcher hdisabled hd
  obtain ⟨-, hservice, hmin', hdefault'⟩ := DispatchSettings.ofConfig_eq_ok hsettings
  cases hmin.symm.trans hmin'
  cases hdefault.symm.trans hdefault'
  refine ⟨?_, Dispatcher.window_of_build hbuild⟩
  obtain ⟨-, rfl⟩ := Dispatcher.build_eq_ok_iff.1 hbuild
  exact hservice

/-- The resources of all extensions. -/
theorem exists_resources (service : Service) (infos : List ExtensionInfo) :
    ∃ versions segments hosts notifications extensions,
      (⟨service.builtin ++ [service.extensionsExtension infos]⟩ : ExtensionSet World Segment).resources =
        [{ collection := "versions", member := "version", versioned := false, root := true, actions := versions },
          { collection := "segments", member := "segment", actions := segments },
          { collection := "hosts"
            member := "host"
            parent := some ⟨"segments", segmentParam⟩
            inherits := some "segments"
            actions := hosts },
          { collection := "notifications", member := "notification", actions := notifications },
          { collection := "extensions", member := "extension", actions := extensions }] := by
  obtain ⟨versions, hversions⟩ := exists_versions
  obtain ⟨segments, hsegments⟩ := service.exists_segments
  obtain ⟨hosts, hhosts⟩ := service.exists_hosts
  obtain ⟨notifications, hnotifications⟩ := service.exists_notifications
  obtain ⟨extensions, hextensions⟩ := service.exists_extensions infos
  refine ⟨versions, segments, hosts, notifications, extensions, ?_⟩
  simp only [ExtensionSet.resources, builtin, List.cons_append, List.nil_append, List.flatMap_cons, List.flatMap_nil,
    Extension.resourceList, hversions, hsegments, hhosts, hnotifications, hextensions]
  rfl

/-- The extensions go together: each brings a collection that no other has. -/
theorem goTogether (service : Service) (infos : List ExtensionInfo) :
    GoTogether (service.builtin ++ [service.extensionsExtension infos]) := by
  obtain ⟨versions, hversions⟩ := exists_versions
  obtain ⟨segments, hsegments⟩ := service.exists_segments
  obtain ⟨hosts, hhosts⟩ := service.exists_hosts
  obtain ⟨notifications, hnotifications⟩ := service.exists_notifications
  obtain ⟨extensions, hextensions⟩ := service.exists_extensions infos
  have hcontrollers := service.exists_segmentActions
  refine ⟨?resources, ?controllers, ?once⟩
  case resources =>
    simp only [builtin, List.cons_append, List.nil_append, List.forall_mem_cons]
    exact ⟨⟨_, hversions⟩, ⟨_, hsegments⟩, ⟨_, hhosts⟩, ⟨_, hnotifications⟩, ⟨_, rfl⟩, ⟨_, hextensions⟩,
      List.forall_mem_nil _⟩
  case controllers =>
    simp only [builtin, List.cons_append, List.nil_append, List.forall_mem_cons]
    exact ⟨⟨_, rfl⟩, ⟨_, rfl⟩, ⟨_, rfl⟩, ⟨_, rfl⟩, hcontrollers, ⟨_, rfl⟩, List.forall_mem_nil _⟩
  case once =>
    obtain ⟨_, _, _, _, _, hresources⟩ := service.exists_resources infos
    unfold ExtensionSet.resources at hresources
    rw [hresources]
    simp

theorem exists_dispatcher {min default : Version} (hmin : Version.parse service.config.minVersion = .ok min)
    (hdefault : Version.parse service.config.defaultVersion = .ok default) (horder : min.le default = true)
    (hname : Headers.isName service.config.versionHeader = true)
    (hdisabled : service.config.disabledExtensions = []) : ∃ d, service.dispatcher = .ok d := by
  obtain ⟨infos, hload⟩ := exists_load hdisabled
  have hsettings : ∃ settings, DispatchSettings.ofConfig service.config = .ok settings ∧
      settings.minVersion = min ∧ settings.defaultVersion = default ∧
      settings.versionHeader = service.config.versionHeader := by
    simp [DispatchSettings.ofConfig, hmin, hdefault, Except.mapError, bind, Except.bind]
  obtain ⟨settings, hs, rfl, rfl, hheader⟩ := hsettings
  have hbuildable : Dispatcher.Buildable settings ⟨service.builtin ++ [service.extensionsExtension infos]⟩ := by
    refine ⟨service.goTogether infos, ?_, horder, hheader ▸ hname⟩
    obtain ⟨_, _, _, _, _, hresources⟩ := service.exists_resources infos
    rw [hresources]
    simp [Dispatcher.HasParent]
  obtain ⟨d, hd⟩ : ∃ d, Dispatcher.build settings _ = .ok d := ⟨_, Dispatcher.build_eq_ok_iff.2 ⟨hbuildable, rfl⟩⟩
  refine ⟨d, ?_⟩
  simp [dispatcher, hload, hs, hd, Except.mapError, bind, Except.bind]

/-- A dispatcher of the service with all its extensions has their resources, and the paths lead to those. -/
theorem router_of_dispatcher (hdisabled : service.config.disabledExtensions = []) {d : Dispatcher World Segment}
    (hd : service.dispatcher = .ok d) :
    d.router = { root := some "versions", topLevel := ["segments", "notifications", "extensions"],
                 nested := [⟨"segments", segmentParam, "hosts"⟩] } ∧
      d.entries.map (·.1) = ["versions", "segments", "hosts", "notifications", "extensions"] ∧
      d.versionHeader = Text.lower service.config.versionHeader := by
  obtain ⟨infos, settings, hsettings, hbuild⟩ := build_of_dispatcher hdisabled hd
  obtain ⟨_, _, _, _, _, hresources⟩ := service.exists_resources infos
  obtain ⟨-, rfl⟩ := Dispatcher.build_eq_ok_iff.1 hbuild
  unfold Dispatcher.ofExtensions
  rw [hresources]
  exact ⟨rfl, rfl, congrArg Text.lower (DispatchSettings.ofConfig_eq_ok hsettings).1⟩

/-- Without rules of its own a policy lets administrators do everything. -/
theorem authorize_of_isAdmin {c : Caller} (hc : c.isAdmin = true) (action : String) :
    ({} : Policy).authorize c action = .ok () := by
  have hallowed : ({} : Policy).allows c action = true := by
    show (Policy.defaultRule action).allows c = true
    unfold Policy.defaultRule
    split
    · rfl
    · exact hc
  rw [Policy.authorize, if_pos hallowed]

/-- The service with the default configuration and without rules of its own, where a row is identified by its number. -/
def byDefault : Service := ⟨{}, {}, fun _ id => toString id⟩

theorem exists_dispatcher_byDefault : ∃ d, byDefault.dispatcher = .ok d := by
  have hversion : Version.parse byDefault.config.minVersion = .ok ⟨1, 0⟩ := rfl
  have hname : Headers.isName byDefault.config.versionHeader = true := rfl
  exact exists_dispatcher hversion hversion (Version.le_refl _) hname rfl

end Service

end Standby
