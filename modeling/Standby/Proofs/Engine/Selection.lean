import Standby.Proofs.Engine.Calls
import Standby.Proofs.Json.Reading
/-!
# Which handler an action is looked up in

An action of the action endpoint is looked up in one controller only: the first of those that apply to the resource
which knows the name, at whatever versions. What is called is bound there, under the name that the request has once the
hooks have passed, for a range that covers the version of the request. If nothing is, the request ends as one that has no
handler for its version, even if a later controller has one: the trees of `orchard` are such a case.
-/

namespace Standby

variable {α σ κ : Type}

namespace Registry

/-- A name has something at a version. -/
def Covers (r : Registry α) (name : String) (v : Version) : Prop :=
  ∃ b ∈ r.bindings name, b.range.contains v = true

theorem resolve_eq_none_iff {r : Registry α} {name : String} {v : Version} :
    r.resolve name v = none ↔ ¬r.Covers name v := by
  simp [resolve, Covers]

theorem exists_of_resolve {r : Registry α} {name : String} {v : Version} {target : α}
    (h : r.resolve name v = some target) :
    ∃ b ∈ r.bindings name, b.range.contains v = true ∧ b.target = target := by
  obtain ⟨b, hb, rfl⟩ := Option.map_eq_some_iff.1 h
  have hcontains := List.find?_some (p := fun b : Binding α => b.range.contains v) hb
  exact ⟨b, List.mem_of_find?_eq_some hb, hcontains, rfl⟩

end Registry

namespace Dispatcher

variable {d : Dispatcher σ κ} {extensions : ExtensionSet σ κ} {req : Request}

/-- A controller is the first of those that apply to the resource of a request, its own and those that it inherits, that
knows the action by name. -/
def Admitted.LooksIn (a : Admitted d req) (extensions : ExtensionSet σ κ) (c : Controller σ κ) : Prop :=
  ∃ rest, Inherit.Complete extensions.pointers (a.route.resource :: rest) ∧
    (extensions.controllersFor (a.route.resource :: rest)).find? (·.actions.contains a.ctx.action) = some c

/-- The handlers of an action at the action endpoint are those of the controller that it is looked up in. -/
theorem Admitted.exists_controller (hd : d.IsBuiltFrom extensions) (a : Admitted d req)
    (htarget : a.route.target = .action) : ∃ c, a.LooksIn extensions c ∧ a.handlers = c.actions := by
  obtain ⟨-, -, rest, hcomplete, hactions, -⟩ := hd.entry a.lookup?_entry
  have hhandlers := a.handlersOf_eq
  unfold handlersOf at hhandlers
  rw [if_pos htarget, hactions, List.find?_map] at hhandlers
  cases hfirst : (extensions.controllersFor (a.route.resource :: rest)).find?
      ((·.contains a.ctx.action) ∘ (·.actions)) with
  | none =>
    rw [hfirst] at hhandlers
    cases hhandlers
  | some c =>
    rw [hfirst] at hhandlers
    exact ⟨c, ⟨rest, hcomplete, hfirst⟩, (Except.ok.inj hhandlers).symm⟩

/-- Where nothing is bound at the version of a request and no hook ends it before, it is answered by the fault that says
so. -/
theorem serve_of_unbound (a : Admitted d req) {world : σ} {w : Workspace σ κ}
    (hp : Passes (hooksIn a.entry (a.ctx.start world)) (a.ctx.start world) w)
    (hb : a.handlers.resolve w.request.action a.ctx.effectiveVersion = none) :
    d.serve req world = ⟨d.fault req a.version (.versionNotFound w.request.action), w.world,
      befores (hooksIn a.entry (a.ctx.start world)).length⟩ := by
  rw [a.serve_eq, Admitted.run]
  simp only [perform, runBefore_eq_befores hp]
  rw [runHandler_of_unbound (v := (Context.start (κ := κ) a.ctx world).request.effectiveVersion) hb, List.append_nil]
  rfl

/-- **Selection.** An action at the action endpoint is looked up in the first of the controllers of its resource that
knows its name. What is called is bound there, under the name that the hooks have left to the request, for a range that
covers the version. Once the hooks have passed, what is bound there at that version is called if it takes the body, and
if nothing is bound there the reply says so. If no hook rewrites the action, the name is the one that was looked up. -/
theorem serve_selects (hd : d.IsBuiltFrom extensions) (a : Admitted d req) (htarget : a.route.target = .action)
    (world : σ) :
    ∃ c, a.LooksIn extensions c ∧
      (∀ action w, Reaches a.ctx.effectiveVersion (hooksIn a.entry (a.ctx.start world)) a.handlers (a.ctx.start world)
          action w →
        ∃ b ∈ c.actions.bindings w.request.action, b.range.contains a.ctx.effectiveVersion = true ∧ b.target = action) ∧
      (∀ w, Passes (hooksIn a.entry (a.ctx.start world)) (a.ctx.start world) w →
        (c.actions.Covers w.request.action a.ctx.effectiveVersion →
          ∃ b ∈ c.actions.bindings w.request.action, b.range.contains a.ctx.effectiveVersion = true ∧
            (b.target.Accepts w → Reaches a.ctx.effectiveVersion (hooksIn a.entry (a.ctx.start world)) a.handlers
              (a.ctx.start world) b.target w)) ∧
        (¬c.actions.Covers w.request.action a.ctx.effectiveVersion →
          d.serve req world = ⟨d.fault req a.version (.versionNotFound w.request.action), w.world,
            befores (hooksIn a.entry (a.ctx.start world)).length⟩)) ∧
      ((∀ h ∈ hooksOf a.entry a.ctx, h.KeepsAction) →
        hooksIn a.entry (a.ctx.start world) = hooksOf a.entry a.ctx ∧
          ∀ w, Passes (hooksOf a.entry a.ctx) (a.ctx.start world) w → w.request.action = a.ctx.action) := by
  obtain ⟨c, hlooks, hhandlers⟩ := a.exists_controller hd htarget
  refine ⟨c, hlooks, ?_, ?_, fun hkeeps => ⟨hooksIn_of_keepsAction hkeeps world, fun w h => h.action_eq hkeeps⟩⟩
  · intro action w hreaches
    exact Registry.exists_of_resolve (hhandlers ▸ hreaches.bound)
  intro w hpasses
  constructor
  · intro hcovers
    cases hresolve : a.handlers.resolve w.request.action a.ctx.effectiveVersion with
    | none => exact absurd hcovers (Registry.resolve_eq_none_iff.1 (hhandlers ▸ hresolve))
    | some action =>
      obtain ⟨b, hb, hcontains, rfl⟩ := Registry.exists_of_resolve (hhandlers ▸ hresolve)
      exact ⟨b, hb, hcontains, fun haccepts => ⟨hpasses, hresolve, haccepts⟩⟩
  · intro hcovers
    exact serve_of_unbound a hpasses (hhandlers ▸ Registry.resolve_eq_none_iff.2 hcovers)

/-- An object whose numbers are natural ones of 64 bits is decoded from a body as it was written. -/
theorem decodeBody_text {members : List (String × Json)} (hplain : Json.isPlain Json.maxDepth (.obj members) = true)
    (hmethod : req.method = "POST" ∨ req.method = "PUT") (hlength : req.headers.text? "content-length" ≠ some "0")
    (hbody : req.body = Text.Utf8.encode (Json.obj members).text) : decodeBody req = .ok (some (.obj members)) := by
  have htext : (Json.obj members).text.toList = '\x7b' :: (Json.membersText members ++ "\x7d").toList := by
    simp [Json.text]
  have hhead : ∃ bytes, req.body = 123 :: bytes := by
    rw [hbody, Text.Utf8.encode, htext, List.flatMap_cons]
    exact ⟨_, rfl⟩
  have hread : (Text.Utf8.decode? req.body).bind Json.parse? = some (.obj members) := by
    rw [hbody, Text.Utf8.decode?_encode, Option.bind_some, Json.parse?_text hplain]
  obtain ⟨bytes, hbytes⟩ := hhead
  unfold decodeBody
  rw [hread]
  rcases hmethod with hmethod | hmethod <;> simp [hmethod, hlength, hbytes]

/-- Trees of which two controllers know the same action, one for version 1.0 and the other one from 1.1 on. -/
def orchard : ExtensionSet Unit Unit :=
  let action : Action Unit Unit := { handler := fun _ => pure .empty }
  ⟨[{ name := "Orchard"
      shortName := "orchard"
      updated := ""
      resources := .ok [{ collection := "trees", member := "tree" }]
      controllers := .ok
        [{ resource := "trees", actions := ⟨[("prune", [⟨.between ⟨1, 0⟩ ⟨1, 0⟩, action⟩])]⟩ },
          { resource := "trees", actions := ⟨[("prune", [⟨.since ⟨1, 1⟩, action⟩])]⟩ }] }]⟩

def orchardDispatcher : Dispatcher Unit Unit where
  router := ⟨none, ["trees"], []⟩
  entries := orchard.resources.map fun r => (r.collection, entryOf orchard.resources orchard.controllers r)
  window := ⟨⟨1, 0⟩, ⟨1, 1⟩, ⟨1, 0⟩⟩
  offers := ⟨["application/json"], ["en"]⟩
  versionHeader := "version"
  service := "orchard"
  publicEndpoint := none

theorem isBuiltFrom_orchard : orchardDispatcher.IsBuiltFrom orchard := by
  refine ⟨⟨"version", "orchard", ⟨1, 0⟩, ⟨1, 0⟩, "application/json", ["en"], none⟩, ?_⟩
  have hparts : orchard.list.foldlM collect ([], []) = .ok (orchard.resources, orchard.controllers) := rfl
  have hrouter : orchard.resources.foldlM (addRoute (orchard.resources.map (·.collection))) {} =
      .ok orchardDispatcher.router := rfl
  have hmentioned : orchardDispatcher.entries.filterMap (fun (_, e) => e.latestMentioned?) = [⟨1, 1⟩] := by cbv
  rw [orchardDispatcher] at hmentioned
  rw [build, hparts, bind_ok]
  simp only [hrouter, bind_ok, hmentioned]
  rfl

/-- A request at version 1.1 to prune a tree. -/
def pruning : Request where
  method := "POST"
  path := "/v1/trees/oak/action"
  query := none
  headers := [("version", "orchard 1.1")]
  body := Text.Utf8.encode (Json.obj [("prune", .null)]).text

/-- Where that leads. -/
def pruningRoute : Route := ⟨"trees", .action, [("id", "oak")], none, "/v1/trees/oak/action", none⟩

/-- Trees inherit from nothing. -/
theorem eq_nil_orchard {rest : List String} (h : Inherit.Complete orchard.pointers ("trees" :: rest)) : rest = [] := by
  cases rest with
  | nil => rfl
  | cons next rest =>
    have hlinked := (List.isChain_cons_cons.1 h.linked).1
    cases hlinked

/-- The request to prune is admitted, with the handlers of the first controller. -/
theorem exists_admitted_pruning : ∃ a : Admitted orchardDispatcher pruning, a.route.resource = "trees" ∧
    a.route.target = .action ∧ a.ctx.action = "prune" ∧ a.ctx.effectiveVersion = ⟨1, 1⟩ := by
  have hbody : decodeBody pruning = .ok (some (.obj [("prune", .null)])) :=
    decodeBody_text rfl (.inl rfl) (by decide) rfl
  have hroute : orchardDispatcher.router.route? "/v1/trees/oak/action" = some pruningRoute := by decide +kernel
  obtain ⟨e, he⟩ : ∃ e, lookup? "trees" orchardDispatcher.entries = some e := ⟨_, rfl⟩
  have hlocated : orchardDispatcher.locate pruning = .ok (pruningRoute, e) := by
    have hentry : lookup? pruningRoute.resource orchardDispatcher.entries = some e := he
    rw [locate, pruning, hroute]
    simp only [hentry]
  have hversion : orchardDispatcher.versionOf e pruning = .ok (some ⟨1, 1⟩) := by
    cases he
    rfl
  obtain ⟨-, -, rest, hcomplete, hactions, -⟩ := isBuiltFrom_orchard.entry he
  cases eq_nil_orchard hcomplete
  have hhandlers : ∃ handlers, handlersOf e .action "prune" = .ok handlers := by
    rw [handlersOf, hactions]
    exact ⟨_, rfl⟩
  obtain ⟨handlers, hhandlers⟩ := hhandlers
  have hadmitted : orchardDispatcher.contextOf pruningRoute e (some ⟨1, 1⟩) pruning =
      .ok (orchardDispatcher.contextAt pruningRoute (some ⟨1, 1⟩) pruning "prune" (some (.obj [("prune", .null)])),
        handlers) :=
    contextOf_eq_ok_iff.2 ⟨⟨none, rfl⟩, _, "prune", hbody, rfl, hhandlers, rfl, rfl⟩
  exact ⟨⟨_, e, _, _, handlers, hlocated, hversion, hadmitted⟩, rfl, rfl, rfl, rfl⟩

theorem serve_selects_orchard : orchardDispatcher.IsBuiltFrom orchard ∧
    ∃ a : Admitted orchardDispatcher pruning, a.route.target = .action ∧ ∃ c, a.LooksIn orchard c ∧
      ∀ w, Passes (hooksIn a.entry (a.ctx.start ())) (a.ctx.start ()) w →
        ¬c.actions.Covers w.request.action a.ctx.effectiveVersion →
          (orchardDispatcher.serve pruning ()).reply =
            orchardDispatcher.fault pruning a.version (.versionNotFound w.request.action) := by
  obtain ⟨a, -, htarget, -⟩ := exists_admitted_pruning
  obtain ⟨c, hlooks, -, hserve, -⟩ := serve_selects isBuiltFrom_orchard a htarget ()
  refine ⟨isBuiltFrom_orchard, a, htarget, c, hlooks, ?_⟩
  intro w hpasses hcovers
  rw [(hserve w hpasses).2 hcovers]

/-- Version 1.1 of the action is there, in the second controller, but the request to prune is told that it is not. -/
theorem serve_pruning_unbound : orchardDispatcher.IsBuiltFrom orchard ∧
    ∃ (a : Admitted orchardDispatcher pruning) (rest : List String), a.route.target = .action ∧
      Inherit.Complete orchard.pointers (a.route.resource :: rest) ∧
      (∃ c ∈ orchard.controllersFor (a.route.resource :: rest), c.actions.Covers a.ctx.action a.ctx.effectiveVersion) ∧
      orchardDispatcher.serve pruning () =
        ⟨orchardDispatcher.fault pruning a.version (.versionNotFound a.ctx.action), (), []⟩ := by
  obtain ⟨a, hresource, htarget, haction, hversion⟩ := exists_admitted_pruning
  obtain ⟨c, ⟨rest, hcomplete, hfirst⟩, hhandlers⟩ := a.exists_controller isBuiltFrom_orchard htarget
  obtain ⟨-, -, rest', hcomplete', -, hhooks⟩ := isBuiltFrom_orchard.entry a.lookup?_entry
  rw [hresource] at hcomplete hcomplete' hfirst hhooks
  cases eq_nil_orchard hcomplete
  cases eq_nil_orchard hcomplete'
  refine ⟨isBuiltFrom_orchard, a, [], htarget, ?_, ?_, ?_⟩
  · rwa [hresource]
  · rw [hresource, haction, hversion]
    exact ⟨_, List.mem_cons_of_mem _ List.mem_cons_self, _, List.mem_cons_self, rfl⟩
  have hnone : hooksIn a.entry (a.ctx.start ()) = [] := by
    rw [hooksIn, hhooks]
    rfl
  have hunbound : a.handlers.resolve a.ctx.action a.ctx.effectiveVersion = none := by
    rw [haction] at hfirst
    cases hfirst
    rw [hhandlers, haction, hversion]
    rfl
  have hpasses : Passes (hooksIn a.entry (a.ctx.start ())) (a.ctx.start ()) (a.ctx.start ()) := by
    rw [hnone]
    exact .nil _
  rw [serve_of_unbound a hpasses hunbound, hnone]
  rfl

end Dispatcher

end Standby
