import Standby.Proofs.Service.Bindings
import Standby.Proofs.Service.Disregarding
import Standby.Proofs.Service.HostRoutes
import Standby.Proofs.Service.Noninterference
import Standby.Proofs.Service.SideBySide
/-!
# The flags of segments before version 1.2

A request without a version, or with one before 1.2, neither sees the flags of segments nor has them decide on anything:
in two worlds that are the same, but for the flags of some segments, it gets the same reply, and it leaves two worlds that
are the same again, but for the flags of these segments.
-/

namespace Standby.Service

variable {ids : List Nat} {service : Service} {ctx : Context} {d : Dispatcher World Segment} {req : Request}

/-! ## Listings -/

/-- A page shows no more of its rows than their identifiers and what they are as JSON. -/
theorem pageBody_map {α : Type} [Listed α] {f : α → α} {toJson : α → Json}
    (huuid : ∀ a, Listed.uuid (f a) = Listed.uuid a) (hjson : ∀ a, toJson (f a) = toJson a) (name : String) (page : Page)
    (rows : List α) : pageBody ctx name page (rows.map f) toJson = pageBody ctx name page rows toJson := by
  have hlast : (rows.map f).getLast?.map Listed.uuid = rows.getLast?.map Listed.uuid := by
    rw [List.getLast?_map, Option.map_map]
    exact congrArg (rows.getLast?.map ·) (funext huuid)
  have hshown : (rows.map f).map toJson = rows.map toJson := by
    rw [List.map_map]
    exact congrArg (rows.map ·) (funext hjson)
  rw [pageBody, pageBody, hlast, hshown, List.length_map]

section Before
variable (hbelow : ctx.isAtLeast v1_2 = false)
include hbelow

theorem segmentJson_masked (s : Segment) : segmentJson ctx (s.masked ids) = segmentJson ctx s := by
  rw [segmentJson, segmentJson, hbelow]
  unfold Segment.masked
  split <;> rfl

theorem overlooks_eq : Overlooks ids ctx ctx Eq where
  same _ := rfl
  segment s s' hs := by rw [← segmentJson_masked hbelow s, ← segmentJson_masked hbelow s', show s.masked ids = _ from hs]

/-- The flag is no filter yet. -/
theorem enabled_of_segmentFilter {f : SegmentFilter} (h : segmentFilter ctx = .ok f) : f.enabled = none := by
  obtain ⟨recoveryMethod, -, h⟩ := bind_eq_ok.1 h
  obtain ⟨serviceType, -, h⟩ := bind_eq_ok.1 h
  rw [hbelow] at h
  cases h
  rfl

theorem relates_indexSegments : Relates (Beside ids) Eq (service.indexSegments ctx) (service.indexSegments ctx) := by
  refine (blind_authorize _ _).relates.bind fun _ _ _ => relates_orFail_bind fun f hf => ?_
  refine relates_orFail_bind fun p _ => relates_world.bind fun w w' hw => ?_
  obtain ⟨page, slice⟩ := p
  have hlisted := hw.store.listSegments (enabled_of_segmentFilter hbelow hf) slice
  refine (relates_orRefuse hlisted).bind fun rows rows' hrows => relates_pure ?_
  rw [← pageBody_map same_masked.uuid (segmentJson_masked hbelow), hrows,
    pageBody_map same_masked.uuid (segmentJson_masked hbelow)]

theorem relates_showSegment : Relates (Beside ids) Eq (service.showSegment ctx) (service.showSegment ctx) := by
  refine (blind_authorize _ _).relates.bind fun _ _ _ => blind_memberId.relates.bind ?_
  rintro id _ rfl
  refine relates_world.bind fun w w' hw => (relates_orRefuse (hw.store.segment id)).bind fun row row' hrow => ?_
  exact relates_pure ((overlooks_eq hbelow).segment row row' hrow)

omit hbelow

theorem relates_indexHosts : Relates (Beside ids) Eq (service.indexHosts ctx) (service.indexHosts ctx) := by
  refine (blind_authorize _ _).relates.bind fun _ _ _ => (relates_loadSegment (agrees_refl ctx)).bind fun s s' hs => ?_
  have hfilter : hostFilter ctx s' = hostFilter ctx s := by rw [hostFilter, hostFilter, hs.uuid]
  rw [hfilter, ← hostJson_of_sameBut hs]
  refine relates_orFail_bind fun f _ => relates_orFail_bind fun p _ => relates_world.bind fun w w' hw => ?_
  obtain ⟨page, slice⟩ := p
  have hlisted : w'.store.listHosts f slice = w.store.listHosts f slice := by
    rw [Store.listHosts, Store.listHosts, hw.store.hosts]
  rw [hlisted]
  refine (relates_orRefuse (results_refl _)).bind ?_
  rintro rows _ rfl
  exact relates_pure rfl

theorem relates_showHost : Relates (Beside ids) Eq (service.showHost ctx) (service.showHost ctx) := by
  refine (blind_authorize _ _).relates.bind fun _ _ _ => (relates_loadSegment (agrees_refl ctx)).bind fun s s' hs => ?_
  refine (relates_loadHost (agrees_refl ctx) hs).bind ?_
  rintro row _ rfl
  exact relates_pure (by rw [hostJson_of_sameBut hs])

theorem relates_indexNotifications :
    Relates (Beside ids) Eq (service.indexNotifications ctx) (service.indexNotifications ctx) := by
  refine (blind_authorize _ _).relates.bind fun _ _ _ => relates_orFail_bind fun f _ => ?_
  refine relates_orFail_bind fun p _ => relates_world.bind fun w w' hw => ?_
  obtain ⟨page, slice⟩ := p
  have hlisted : w'.store.listNotifications f slice = w.store.listNotifications f slice := by
    rw [Store.listNotifications, Store.listNotifications, hw.store.notifications]
  rw [hlisted]
  refine (relates_orRefuse (results_refl _)).bind ?_
  rintro rows _ rfl
  exact relates_pure rfl

theorem relates_showNotification (details : Option (List Json)) :
    Relates (Beside ids) Eq (service.showNotification details ctx) (service.showNotification details ctx) := by
  refine (blind_authorize _ _).relates.bind fun _ _ _ => blind_memberId.relates.bind ?_
  rintro id _ rfl
  refine relates_world.bind fun w w' hw => ?_
  have hfound : w'.store.notification id = w.store.notification id := by
    rw [Store.notification, Store.notification, hw.store.notifications]
  rw [hfound]
  refine (relates_orRefuse (results_refl _)).bind ?_
  rintro row _ rfl
  exact relates_pure rfl

end Before

/-! ## The actions -/

theorem blind_indexExtensions (infos : List ExtensionInfo) : Blind (service.indexExtensions infos ctx) :=
  (blind_authorize _ _).bind fun _ => blind_pure _

theorem blind_showExtension (infos : List ExtensionInfo) : Blind (service.showExtension infos ctx) := by
  refine (blind_authorize _ _).bind fun _ => blind_memberId.bind fun id => ?_
  cases (service.discoverable ctx infos).find? (·.shortName == id) with
  | some i => exact blind_pure _
  | none => exact blind_throw _

/-- Handlers of a request that is told nothing of flags do the same, whatever the flags are. -/
theorem Own.relates {collection name : String} {a : Action World Segment} (h : service.Own collection name a)
    (hbelow : ctx.isAtLeast v1_2 = false) : Relates (Beside ids) Eq (a.handler ctx) (a.handler ctx) := by
  by_cases hname : name = "index" ∨ name = "show"
  · cases h with
    | indexVersions => exact blind_indexVersions.relates
    | showVersion => exact blind_showVersion.relates
    | indexExtensions infos => exact (blind_indexExtensions infos).relates
    | showExtension infos => exact (blind_showExtension infos).relates
    | indexSegments => exact relates_indexSegments hbelow
    | showSegment => exact relates_showSegment hbelow
    | indexHosts => exact relates_indexHosts
    | showHost => exact relates_showHost
    | indexNotifications => exact relates_indexNotifications
    | showNotification details => exact relates_showNotification details
    | _ => exact absurd hname (by decide)
  · exact h.relates_of_agrees (agrees_refl ctx) (overlooks_eq hbelow) hname

/-! ## Requests -/

/-- What a resource without versions does itself does not look at the world. -/
theorem Own.blind_of_unversioned (hd : service.dispatcher = .ok d) {collection name : String}
    {a : Action World Segment} (h : service.Own collection name a) {e : Entry World Segment}
    (he : lookup? collection d.entries = some e) (hversioned : e.resource.versioned = false) : Blind (a.handler ctx) := by
  have htable (t : Table) (ht : collection = t.collection) : Blind (a.handler ctx) :=
    absurd ((presents_of_dispatcher hd (ht ▸ he)).versioned.symm.trans hversioned) (by decide)
  cases h with
  | indexVersions => exact blind_indexVersions
  | showVersion => exact blind_showVersion
  | indexExtensions infos => exact blind_indexExtensions infos
  | showExtension infos => exact blind_showExtension infos
  | indexSegments | showSegment | createSegment | updateSegment | deleteSegment => exact htable .segments rfl
  | indexHosts | showHost | createHost | updateHost | deleteHost => exact htable .hosts rfl
  | indexNotifications | showNotification | createNotification => exact htable .notifications rfl

/-- A request has no version, or one before `v`. -/
def Precedes (d : Dispatcher World Segment) (req : Request) (v : Version) : Prop :=
  ∀ route e version, d.locate req = .ok (route, e) → d.versionOf e req = .ok (some version) → v.le version = false

theorem Precedes.isAtLeast {v : Version} (h : Precedes d req v) (a : d.Admitted req) : a.ctx.isAtLeast v = false := by
  rw [Context.isAtLeast, a.ctx_version]
  cases hv : a.version with
  | none => rfl
  | some version => exact h _ _ version a.located (hv ▸ a.versioned)

/-- Before version 1.2 no hook gets to see the cache, unless the handler does not look at the world. -/
theorem hooks_or_blind (hd : service.dispatcher = .ok d) (h : d.Handled req) (hbefore : Precedes d req v1_2) :
    Dispatcher.hooksOf h.entry h.ctx = [] ∨ Blind (h.action.handler h.ctx) := by
  have he := h.toAdmitted.lookup?_entry
  cases hv : h.version with
  | some version =>
    refine .inl (hooksOf_eq_nil hd he ?_)
    rw [Context.effectiveVersion, h.ctx_version, hv]
    exact hbefore _ _ version h.located (hv ▸ h.versioned)
  | none =>
    rcases action_cases hd h with hown | hadded
    · refine .inr (hown.blind_of_unversioned hd he (Bool.eq_false_iff.2 fun hversioned => ?_))
      have hserved := h.versioned
      rw [Dispatcher.versionOf, if_pos hversioned, hv] at hserved
      obtain ⟨_, -, hnone⟩ := map_eq_ok.1 hserved
      cases hnone
    · exact .inl (hooksOf_of_added hd he hadded)

/-- **Flags are concealed before version 1.2.** In two worlds that are the same, but for the flags of some segments, a
request without a version, or with one before 1.2, gets the same reply, and it leaves worlds that are the same again, but
for the flags of these segments. A segment that it creates is the same in both. -/
theorem serve_concealed (hd : service.dispatcher = .ok d) (hbefore : Precedes d req v1_2) {w w' : World}
    (hw : w.SameBut ids w') :
    (d.serve req w).reply = (d.serve req w').reply ∧ (d.serve req w).world.SameBut ids (d.serve req w').world ∧
      ((∀ id ∈ ids, id ≤ w.store.lastSegmentId) → ∀ uuid row, w.store.lastSegmentId < row.id →
        (lookup? uuid (d.serve req w).world.store.segments = some row ↔
          lookup? uuid (d.serve req w').world.store.segments = some row)) := by
  have hserve : (d.serve req w).reply = (d.serve req w').reply ∧
      (d.serve req w).world.SameBut ids (d.serve req w').world := by
    rcases refuses_cases hd req with ⟨version, e, -, hrefused⟩ | ⟨⟨h⟩⟩
    · rw [(hrefused w).1, (hrefused w').1, (hrefused w).2, (hrefused w').2]
      exact ⟨rfl, hw⟩
    rcases hooks_or_blind hd h hbefore with hhooks | hblind
    · have hrelates : Relates (Beside ids) Eq (h.action.handler h.ctx) (h.action.handler h.ctx) ∧
          Aloof (h.action.handler h.ctx) := by
        rcases action_cases hd h with hown | hadded
        · exact ⟨hown.relates (hbefore.isAtLeast h.toAdmitted), hown.aloof h.ctx⟩
        · refine ⟨hadded.relates_of_agrees (agrees_refl _) (overlooks_eq (hbefore.isAtLeast h.toAdmitted)), ?_⟩
          exact hadded.aloof h.ctx
      have hstart : Beside ids (h.ctx.start w) (h.ctx.start w') := ⟨hw, rfl⟩
      -- The reply is marked with the version that the request has in the end, so the request is kept in view.
      obtain ⟨hresult, hafter, hrequest⟩ := Dispatcher.perform_of_relates hhooks
        (fun a ha => Option.some.inj (h.resolved.symm.trans ha) ▸ hrelates.1.with_request hrelates.2 hrelates.2)
        (fun _ _ hend => hend.1.responseType) ⟨hstart, rfl⟩
      have hversion := congrArg (·.version) hrequest
      rw [h.toAdmitted.serve_eq, h.toAdmitted.serve_eq]
      exact ⟨congrArg₂ h.toAdmitted.reply hversion hresult, hafter.world⟩
    · obtain ⟨reply, hreply⟩ := serve_of_blind h hblind
      rw [(hreply w).1, (hreply w').1, (hreply w).2, (hreply w').2]
      exact ⟨rfl, hw⟩
  refine ⟨hserve.1, hserve.2, fun hids uuid row hnew => hserve.2.store.lookup?_iff uuid fun hmem => ?_⟩
  exact absurd (hids row.id hmem) (by omega)

/-- The store with one segment, had it been created without its flag. -/
def dormant : Store := (Store.run [.createSegment "1" .first ⟨"haven", none, .auto, "COMPUTE", some false⟩]).store

/-- An administrator asks for the segments that are enabled, and names no version. -/
def enabledOnes : Request := ⟨"GET", "/v1/segments", some "enabled=true", [("x-roles", "admin")], []⟩

/-- By default a request that names no version has the first one. -/
theorem precedes_enabledOnes (hd : byDefault.dispatcher = .ok d) : Precedes d enabledOnes v1_2 := by
  intro route e version _ hserved
  have hvalues : enabledOnes.headers.values d.versionHeader = [] := by
    rw [(router_of_dispatcher rfl hd).2.2]
    decide
  have hdefault : d.window.default = v1_0 := (window_of_dispatcher rfl hd rfl rfl).2.2
  rw [Dispatcher.versionOf, hvalues] at hserved
  split at hserved
  · cases hserved
    rw [hdefault]
    decide
  · cases hserved

/-- Whether the one segment there is is enabled cannot be found out by asking for those that are. -/
theorem serve_concealed_listing : ∃ d, byDefault.dispatcher = .ok d ∧ Precedes d enabledOnes v1_2 ∧
    (lookup? "1" haven.segments).map (·.enabled) = some true ∧
    (lookup? "1" dormant.segments).map (·.enabled) = some false ∧ haven.SameBut [1] dormant ∧
    (∀ id ∈ [1], id ≤ haven.lastSegmentId) ∧
    ∀ queue clock, (d.serve enabledOnes ⟨haven, queue, clock⟩).reply =
      (d.serve enabledOnes ⟨dormant, queue, clock⟩).reply := by
  obtain ⟨d, hd⟩ := exists_dispatcher_byDefault
  have hsame : haven.SameBut [1] dormant := ⟨rfl, rfl, rfl, rfl, rfl, rfl, rfl, rfl⟩
  have hbefore := precedes_enabledOnes hd
  refine ⟨d, hd, hbefore, rfl, rfl, hsame, by decide, fun queue clock => ?_⟩
  have hworlds : World.SameBut [1] ⟨haven, queue, clock⟩ ⟨dormant, queue, clock⟩ := ⟨hsame, rfl, rfl⟩
  exact (serve_concealed hd hbefore hworlds).1

end Standby.Service
