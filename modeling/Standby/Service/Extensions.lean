import Standby.Service.Basic
/-!
# Extensions

The extensions that are loaded are listed to those who may discover them.
-/

namespace Standby.Service

structure ExtensionInfo where
  name : String
  shortName : String
  description : String
  updated : String
  deriving DecidableEq, Repr

/-- What is said of an extension. -/
def ExtensionInfo.of {σ κ : Type} (e : Extension σ κ) : ExtensionInfo :=
  ⟨e.name, e.shortName, e.description, e.updated⟩

def ExtensionInfo.toJson (i : ExtensionInfo) : Json :=
  .obj
    [("name", .str i.name), ("alias", .str i.shortName), ("description", .str i.description),
      ("updated", .str i.updated), ("links", .arr [])]

/-- The extensions that a caller may discover. -/
def discoverable (service : Service) (ctx : Context) (infos : List ExtensionInfo) : List ExtensionInfo :=
  infos.filter fun i => service.policy.allows ctx.caller (Policy.actionName i.shortName Policy.discoverable)

def indexExtensions (service : Service) (infos : List ExtensionInfo) (ctx : Context) : ServiceStep Outcome := do
  service.authorize ctx "extensions" "index"
  pure (wrap "extensions" (.arr ((service.discoverable ctx infos).map (·.toJson))))

def showExtension (service : Service) (infos : List ExtensionInfo) (ctx : Context) : ServiceStep Outcome := do
  service.authorize ctx "extensions" "show"
  let id ← memberId ctx
  match (service.discoverable ctx infos).find? (·.shortName == id) with
  | some i => pure (wrap "extension" i.toJson)
  | none => throw (.notFound s!"Extension {id} could not be found.")

/-- The entry of the list of extensions for this one. -/
def extensionsInfo : ExtensionInfo := ⟨"Extensions", "extensions", "Extension discovery.", updated⟩

def extensionsExtension (service : Service) (infos : List ExtensionInfo) : Extension World Segment where
  name := extensionsInfo.name
  shortName := extensionsInfo.shortName
  updated := extensionsInfo.updated
  description := extensionsInfo.description
  resources := do
    let actions ← actions
      [("index", .all, { handler := service.indexExtensions infos }),
        ("show", .all, { handler := service.showExtension infos })]
    .ok [{ collection := "extensions", member := "extension", actions }]

end Standby.Service
