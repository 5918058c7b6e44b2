import Standby.Proofs.Engine.Disregarded
import Standby.Proofs.Engine.Stamping
import Standby.Proofs.Version.Header
/-!
# Asking again for the version of a reply

A client that asks for the latest version, or for none, learns from the reply which version it has got. If it sends the
request again with the entry of the reply in place of all that it has said about versions, it gets the same reply, and
the same is changed: nothing that the server calls looks at the version header, and what else decides on the reply is
the version, which is the same again.
-/

namespace Standby

variable {σ κ : Type}

namespace Headers

theorem values_of_without {h h' : Headers} {name other : String} (hsame : h.without name = h'.without name)
    (hn : other ≠ name) : h.values other = h'.values other := by
  rw [← values_without h hn, hsame, values_without h' hn]

theorem without_set (h : Headers) (name value : String) : (h.set name value).without name = h.without name := by
  simp [set, without, List.filter_append]

end Headers

/-- Two requests are the same but for the lines of a header. -/
structure Request.SameBut (name : String) (req req' : Request) : Prop where
  method : req.method = req'.method
  path : req.path = req'.path
  query : req.query = req'.query
  body : req.body = req'.body
  headers : req.headers.without name = req'.headers.without name

/-- A request again, where one entry is all that the lines of the version header say. -/
structure Request.Echoes (name entry : String) (req req' : Request) : Prop extends Request.SameBut name req req' where
  entry : req'.headers.values name = [entry]

/-- Such a request is made by setting the header. -/
theorem Request.echoes_set (req : Request) (name entry : String) :
    req.Echoes name entry { req with headers := req.headers.set name entry } where
  method := rfl
  path := rfl
  query := rfl
  body := rfl
  headers := (Headers.without_set req.headers name entry).symm
  entry := Headers.values_set_self req.headers name entry

namespace Dispatcher

/-- The headers that the server reads or writes for another purpose than the version. -/
def otherHeaders : List String :=
  ["content-type", "accept", "accept-language", "content-length", "host", "vary", "x-user-id", "x-project-id", "x-roles"]

/-- Nothing that a dispatcher calls looks at a header of the request. -/
structure Disregards (d : Dispatcher σ κ) (name : String) : Prop where
  own : ∀ collection action a, d.OwnAction collection action a → Standby.Disregards name a.handler
  added : ∀ collection action a, d.AddedAction collection action a → Standby.Disregards name a.handler
  hook : ∀ collection action h, d.AddedHook collection action h → h.Disregards name

variable {d : Dispatcher σ κ} {req req' : Request} {name : String}

/-! ## Requests that are the same but for a header -/

section SameBut
variable (h : req.SameBut name req') (hname : name ∉ otherHeaders)

include h

theorem locate_sameBut : d.locate req = d.locate req' := by simp only [locate, h.path]

include hname

theorem text?_sameBut (other : String) (hother : other ∈ otherHeaders) :
    req.headers.text? other = req'.headers.text? other := by
  have hne : other ≠ name := fun heq => hname (heq ▸ hother)
  rw [Headers.text?, Headers.text?, Headers.values_of_without h.headers hne]

theorem fault_sameBut (version : Option Version) (e : ApiError) : d.fault req version e = d.fault req' version e := by
  simp only [fault, languageOf, text?_sameBut h hname "accept-language" (by decide)]

theorem decodeBody_sameBut : decodeBody req = decodeBody req' := by
  simp only [decodeBody, h.method, h.body, text?_sameBut h hname "content-length" (by decide)]

/-- Two such requests pass the gates alike, and what is seen of them is the same but for the header. -/
theorem contextOf_sameBut (route : Route) (e : Entry σ κ) (version : Option Version) :
    d.contextOf route e version req' =
      (d.contextOf route e version req).map fun p => ({ p.1 with headers := req'.headers }, p.2) := by
  have htext (other : String) (hother : other ∈ otherHeaders) := text?_sameBut h hname other hother
  simp only [contextOf, languageOf, baseUrl, h.method, h.query, decodeBody_sameBut h hname,
    htext "content-type" (by decide), htext "accept" (by decide), htext "accept-language" (by decide),
    htext "host" (by decide), htext "x-user-id" (by decide), htext "x-project-id" (by decide),
    htext "x-roles" (by decide)]
  -- One step for each gate: a request that a gate refuses is refused with the same error.
  rcases d.offers.requestType (req'.headers.text? "content-type") with err | type
  · rfl
  rcases decodeBody req' with err | body
  · rfl
  simp only [bind_ok]
  rcases actionName req'.method route.target body with err | action
  · rfl
  simp only [bind_ok]
  rcases handlersOf e route.target action with err | handlers
  · rfl
  simp only [bind_ok]
  rcases checkProject route.project _ with err | ⟨⟩
  · rfl
  · rfl

/-- Such requests are served alike if they are served at the same version. -/
theorem serve_sameBut (hd : d.Disregards name) (hversion : ∀ e, d.versionOf e req = d.versionOf e req') (world : σ) :
    d.serve req world = d.serve req' world := by
  have hlocate := locate_sameBut (d := d) h
  rcases hl : d.locate req with err | ⟨route, e⟩
  · simp only [serve, ← hlocate, hl, fault_sameBut h hname]
  rcases hv : d.versionOf e req with err | version
  · simp only [serve, ← hlocate, hl, ← hversion, hv, fault_sameBut h hname]
  have hcontext := contextOf_sameBut (d := d) h hname route e version
  rcases hc : d.contextOf route e version req with err | ⟨ctx, handlers⟩
  · rw [hc] at hcontext
    simp only [serve, ← hlocate, hl, ← hversion, hv, hc, hcontext, Except.map, fault_sameBut h hname]
  rw [hc] at hcontext
  -- Both are admitted, and what is called sees the request that the workspace has, whichever of the two was sent.
  let a : Admitted d req := ⟨route, e, version, ctx, handlers, hl, hv, hc⟩
  let a' : Admitted d req' := ⟨route, e, version, _, handlers, hlocate ▸ hl, hversion e ▸ hv, hcontext⟩
  have hheaders : ctx.headers = req.headers := congrArg (·.headers) a.ctx_eq
  have hstart : (a.ctx.start (κ := κ) world).hide name = (a'.ctx.start world).hide name := by
    simp only [Workspace.hide, Context.start, Context.hide, a, a', hheaders, h.headers]
  have hrun : (a.run world).Alike name (a'.run world) := by
    refine alike_perform (fun r hr action hook hb => ?_) (fun action target hb => ?_) hstart
    · exact hd.hook _ _ hook ⟨e, a.lookup?_entry, r, hr, hb⟩
    · rcases handlersOf_eq_ok a.handlersOf_eq with ⟨-, hr, -⟩ | ⟨-, hr, -⟩
      · exact hd.added _ _ target ⟨e, a.lookup?_entry, handlers, hr, hb⟩
      · exact hd.own _ _ target ⟨e, a.lookup?_entry, hr ▸ hb⟩
  have hreply (final : Option Version) (result : Except ApiError Reply) : a.reply final result = a'.reply final result := by
    cases result with
    | ok reply => rfl
    | error err => exact fault_sameBut h hname version err
  rw [a.serve_eq, a'.serve_eq, hreply, hrun.result, hrun.calls,
    show (a.run world).workspace.world = (a'.run world).workspace.world from congrArg (·.world) hrun.workspace,
    show (a.run world).workspace.request.version = (a'.run world).workspace.request.version from
      congrArg (·.request.version) hrun.workspace]

end SameBut

/-! ## The version of a reply -/

variable {extensions : ExtensionSet σ κ} {config : Config} {settings : DispatchSettings} {v : Version}

theorem IsBuiltFrom.arrives (hd : d.IsBuiltFrom extensions) {route : Route} {e : Entry σ κ}
    (hresolve : VersionHeader.resolve d.versionHeader d.service d.window (req.headers.values d.versionHeader) = .ok v)
    (hleads : d.LeadsTo req route e) (hversioned : e.resource.versioned = true) : d.Arrives req route e (some v) := by
  obtain ⟨token, htoken, hwindow⟩ := bind_eq_ok.1 hresolve
  exact ⟨hleads, hversioned, token, htoken, mapError_eq_ok.1 hwindow, hd.supports_of_resolve hresolve⟩

end Dispatcher

end Standby
