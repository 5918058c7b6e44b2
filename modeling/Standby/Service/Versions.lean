import Standby.Service.Basic
/-!
# Versions

What the API supports is described at its root, for requests of any version.
-/

namespace Standby.Service

/-- The API as one entry of the list of versions. -/
def currentVersion (ctx : Context) : Json :=
  .obj
    [("id", .str "v1.0"), ("status", .str "CURRENT"), ("version", .str ctx.window.max.text),
      ("min_version", .str ctx.window.min.text), ("updated", .str "2024-01-01T00:00:00Z"),
      ("links", .arr [(Link.mk "self" s!"{ctx.baseUrl}/{Router.versionSegment}/").toJson])]

def indexVersions (ctx : Context) : ServiceStep Outcome :=
  pure (wrap "versions" (.arr [currentVersion ctx]))

def showVersion (ctx : Context) : ServiceStep Outcome := do
  let id ← memberId ctx
  if id = Router.versionSegment then pure (wrap "version" (currentVersion ctx))
  else throw (.notFound s!"Version {id} could not be found.")

def versionsExtension : Extension World Segment where
  name := "Versions"
  shortName := "versions"
  updated := updated
  description := "API version discovery."
  resources := do
    let actions ← actions
      [("index", .all, { handler := indexVersions }), ("show", .all, { handler := showVersion })]
    .ok [{ collection := "versions", member := "version", versioned := false, root := true, actions }]

end Standby.Service
