import Standby.Proofs.Service.Changes
/-!
# What handlers fail with

Every failure of a handler of the service is one of those listed in `Cause`. Two of them are not the client's doing: that
the path has no parameter which the handler asks for, and that the body cannot be read as what the handler needs. Each
handler is given with the parameters that it asks for and with what it reads its body as.
-/

namespace Standby

/-- What a handler fails with that asks for some parameters of the path and reads the body as something. -/
inductive Service.Cause (ctx : Context) (asks : List String) (canRead : Json → Prop) : ApiError → Prop
  | notAuthorized (action : String) : Cause ctx asks canRead (.notAuthorized action)
  | filter (name raw : String) : Cause ctx asks canRead (.invalid s!"Invalid value for {name} filter: {raw}")
  | noLimit : Cause ctx asks canRead (.invalid "limit param must be an integer")
  | negativeLimit : Cause ctx asks canRead (.invalid "limit param must be positive")
  | direction (raw : String) : Cause ctx asks canRead (.invalid s!"Unknown sort direction '{raw}', must be 'desc' or 'asc'")
  | sortKey (bad : String) : Cause ctx asks canRead (.invalid s!"Invalid sort_key: {bad}")
  | directions : Cause ctx asks canRead (.invalid "The number of sort_keys and sort_dirs must be same")
  | noRow (table : Table) (key : String) : Cause ctx asks canRead (.ofStoreError (.notFound table key))
  | taken (table : Table) (name : String) : Cause ctx asks canRead (.ofStoreError (.alreadyExists table name))
  | marker (marker : String) : Cause ctx asks canRead (.ofStoreError (.invalidMarker marker))
  | noVersion (id : String) : Cause ctx asks canRead (.notFound s!"Version {id} could not be found.")
  | noExtension (id : String) : Cause ctx asks canRead (.notFound s!"Extension {id} could not be found.")
  | noHost (name : String) : Cause ctx asks canRead (.notFound s!"Host with name {name} could not be found.")
  | maintenance (name : String) : Cause ctx asks canRead (.conflict s!"Host '{name}' is on maintenance.")
  | duplicate (host kind : String) :
    Cause ctx asks canRead (.conflict s!"Notification received from host {host} of type '{kind}' is duplicate.")
  | missing (name : String) (asked : name ∈ asks) (none : lookup? name ctx.params = none) :
    Cause ctx asks canRead (.badArgument s!"missing path parameter {name}")
  | unreadable (h : ¬canRead (ctx.body.getD .null)) :
    Cause ctx asks canRead (.badArgument "the body has not the form that the action needs")

namespace Service

open StoreStep (attempt_of_run)

variable {service : Service} {ctx : Context} {asks : List String} {canRead : Json → Prop}

/-- Every failure has the usual status of its code. -/
theorem Cause.status {e : ApiError} (h : Cause ctx asks canRead e) : e.status = e.code.status := by
  cases h <;> rfl

/-! ## Queries -/

theorem fails_filter {α : Type} (name : String) (read : String → Option α) :
    FailsWith (Cause ctx asks canRead) (filter ctx name read) := by
  unfold filter
  split
  · exact failsWith_ok _
  · split
    · exact failsWith_ok _
    · exact failsWith_error (.filter _ _)

theorem fails_ofQuery (q : Query) (most : Nat) : FailsWith (Cause ctx asks canRead) (Page.ofQuery q most) := by
  unfold Page.ofQuery
  split
  · exact failsWith_ok _
  split
  · exact failsWith_error .noLimit
  split
  · exact failsWith_error .negativeLimit
  · exact failsWith_ok _

theorem fails_parse (raw : String) : FailsWith (Cause ctx asks canRead) (SortDir.parse raw) := by
  unfold SortDir.parse
  exact .ite (failsWith_ok _) (.ite (failsWith_ok _) (failsWith_error (.direction raw)))

theorem fails_mapM_parse (raws : List String) : FailsWith (Cause ctx asks canRead) (raws.mapM SortDir.parse) := by
  induction raws with
  | nil => exact failsWith_ok _
  | cons raw raws ih =>
    rw [List.mapM_cons]
    exact (fails_parse raw).bind fun _ => ih.bind fun _ => failsWith_ok _

theorem fails_sortKeys (q : Query) (allowed : List String) (default : String) :
    FailsWith (Cause ctx asks canRead) (sortKeys q allowed default) := by
  unfold sortKeys
  apply (fails_mapM_parse _).bind
  intro dirs
  split
  · exact failsWith_error (.sortKey _)
  · exact .ite (failsWith_ok _) (.ite (failsWith_ok _) (.ite (failsWith_error .directions) (failsWith_ok _)))

theorem fails_paging (sortable : List String) (default : String) :
    FailsWith (Cause ctx asks canRead) (service.paging ctx sortable default) :=
  (fails_ofQuery _ _).bind fun _ => (fails_sortKeys _ _ _).bind fun _ => failsWith_ok _

theorem fails_segmentFilter : FailsWith (Cause ctx asks canRead) (segmentFilter ctx) := by
  unfold segmentFilter
  apply (fails_filter _ _).bind
  intro method
  apply (fails_filter _ _).bind
  intro type
  split
  · exact (fails_filter _ _).bind fun _ => failsWith_ok _
  · exact failsWith_ok _

theorem fails_hostFilter (s : Segment) : FailsWith (Cause ctx asks canRead) (hostFilter ctx s) :=
  (fails_filter _ _).bind fun _ => (fails_filter _ _).bind fun _ => (fails_filter _ _).bind fun _ =>
    (fails_filter _ _).bind fun _ => failsWith_ok _

theorem fails_notificationFilter : FailsWith (Cause ctx asks canRead) (notificationFilter ctx) :=
  (fails_filter _ _).bind fun _ => (fails_filter _ _).bind fun _ => (fails_filter _ _).bind fun _ =>
    (fails_filter _ _).bind fun _ => failsWith_ok _

/-! ## Refusals of the store -/

section Refusals
variable {store : Store} {uuid name : String} {now : Time.Instant}

/-- Whatever the store refuses, it is for a cause. -/
def Refuses (ctx : Context) (asks : List String) (canRead : Json → Prop) {α : Type} (r : Except StoreError α) : Prop :=
  FailsWith (fun e => Cause ctx asks canRead (.ofStoreError e)) r

theorem refuses_find {α : Type} (table : Table) (rows : List (String × α)) :
    Refuses ctx asks canRead (Store.find table uuid rows) := by
  unfold Store.find
  split
  · exact failsWith_ok _
  · exact failsWith_error (.noRow table uuid)

theorem refuses_rename (table : Table) (old new : String) (names : List (String × String)) :
    Refuses ctx asks canRead (Store.rename table uuid old new names) := by
  unfold Store.rename
  exact .ite (failsWith_ok _) (.ite (failsWith_error (.taken table new)) (failsWith_ok _))

theorem refuses_list {α : Type} [Listed α] (rows : List (String × α)) (keep : α → Bool) (slice : Slice) :
    Refuses ctx asks canRead (Store.list rows keep slice) := by
  unfold Store.list
  split
  · exact failsWith_ok _
  · exact failsWith_error (.marker _)

theorem refuses_createSegment (d : SegmentDraft) :
    Refuses ctx asks canRead ((StoreStep.createSegment uuid now d).attempt store) := by
  rw [attempt_of_run (Store.createSegment_settles d)]
  exact .ite (failsWith_error (.taken .segments d.name)) (failsWith_ok _)

theorem refuses_updateSegment (p : SegmentPatch) :
    Refuses ctx asks canRead ((StoreStep.updateSegment uuid now p).attempt store) := by
  rw [attempt_of_run (Store.updateSegment_settles p)]
  exact (refuses_find _ _).bind fun _ => (refuses_rename _ _ _ _).bind fun _ => failsWith_ok _

theorem refuses_destroySegment : Refuses ctx asks canRead ((StoreStep.destroySegment uuid).attempt store) := by
  rw [attempt_of_run Store.destroySegment_settles]
  exact (refuses_find _ _).bind fun _ => failsWith_ok _

theorem refuses_createHost (segment : String) (d : HostDraft) :
    Refuses ctx asks canRead ((StoreStep.createHost uuid now segment d).attempt store) := by
  rw [attempt_of_run (Store.createHost_settles segment d)]
  exact .ite (failsWith_error (.noRow .segments segment))
    (.ite (failsWith_error (.taken .hosts d.name)) (failsWith_ok _))

theorem refuses_updateHost (p : HostPatch) :
    Refuses ctx asks canRead ((StoreStep.updateHost uuid now p).attempt store) := by
  rw [attempt_of_run (Store.updateHost_settles p)]
  exact (refuses_find _ _).bind fun _ => (refuses_rename _ _ _ _).bind fun _ => failsWith_ok _

theorem refuses_destroyHost : Refuses ctx asks canRead ((StoreStep.destroyHost uuid).attempt store) := by
  rw [attempt_of_run Store.destroyHost_settles]
  exact (refuses_find _ _).bind fun _ => failsWith_ok _

end Refusals

/-! ## Steps that handlers share -/

theorem stops_orFail {α : Type} {P : ApiError → Prop} {r : Except ApiError α} (h : FailsWith P r) :
    StopsWith P (orFail r) := by
  cases r with
  | ok a => exact stopsWith_pure a
  | error e => exact stopsWith_throw (h e rfl)

theorem stops_orRefuse {α : Type} {r : Except StoreError α} (h : Refuses ctx asks canRead r) :
    StopsWith (Cause ctx asks canRead) (orRefuse r) := by
  apply stops_orFail
  cases r with
  | ok a => exact failsWith_ok a
  | error e => exact failsWith_error (h e rfl)

theorem stops_refuseIf {P : ApiError → Prop} (obstacle : Bool) {e : ApiError} (h : P e) :
    StopsWith P (refuseIf obstacle e) := by
  unfold refuseIf
  split
  · exact stopsWith_throw h
  · exact stopsWith_pure ()

theorem stops_world {P : ApiError → Prop} : StopsWith P world := fun _ => failsWith_ok _

theorem stops_inStore {α : Type} {x : StoreStep Store α} (hx : ∀ s, Refuses ctx asks canRead (x.attempt s)) :
    StopsWith (Cause ctx asks canRead) (inStore x) := by
  intro w
  have h := hx w.world.store
  unfold StoreStep.attempt at h
  rw [run_inStore]
  generalize x.run.run w.world.store = run at h ⊢
  obtain ⟨r, store⟩ := run
  cases r with
  | ok a => exact failsWith_ok a
  | error e => exact failsWith_error (h e rfl)

theorem stops_authorize (resource action : String) :
    StopsWith (Cause ctx asks canRead) (service.authorize ctx resource action) := by
  apply stops_orFail
  unfold Policy.authorize
  exact .ite (failsWith_ok _) (failsWith_error (.notAuthorized _))

theorem stops_param {name : String} (h : name ∈ asks) :
    StopsWith (Cause ctx asks canRead) (orFail (ctx.param name)) := by
  apply stops_orFail
  unfold Context.param
  split
  · exact failsWith_ok _
  · rename_i hnone
    exact failsWith_error (.missing name h hnone)

theorem stops_memberId (h : Router.idParam ∈ asks) : StopsWith (Cause ctx asks canRead) (memberId ctx) :=
  stops_param h

theorem stops_readBody {α : Type} {read : Json → Option α} (h : ∀ j, canRead j → ∃ a, read j = some a) :
    StopsWith (Cause ctx asks canRead) (readBody read ctx) := by
  unfold readBody
  split
  · exact stopsWith_pure _
  · rename_i hnone
    apply stopsWith_throw
    apply Cause.unreadable
    intro hread
    obtain ⟨a, ha⟩ := h _ hread
    cases hnone.symm.trans ha

theorem stops_loadSegment (h : segmentParam ∈ asks) : StopsWith (Cause ctx asks canRead) (loadSegment ctx) := by
  apply (stops_param h).bind
  intro id
  refine stops_world.bind fun w => ?_
  apply (stops_orRefuse (refuses_find _ _)).bind
  intro row
  exact StopsWith.bind (fun _ => failsWith_ok _) fun _ => stopsWith_pure row

theorem stops_loadHost (h : Router.idParam ∈ asks) (s : Segment) :
    StopsWith (Cause ctx asks canRead) (loadHost ctx s) := by
  apply (stops_memberId h).bind
  intro id
  refine stops_world.bind fun w => ?_
  apply (stops_orRefuse (refuses_find _ _)).bind
  intro row
  split
  · exact stopsWith_pure row
  · exact stopsWith_throw (.noRow .hosts id)

theorem stops_hostNamed (store : Store) (name : String) :
    StopsWith (Cause ctx asks canRead) (hostNamed store name) := by
  apply (stops_orRefuse (refuses_list _ _ _)).bind
  intro rows
  cases rows with
  | nil => exact stopsWith_throw (.noHost name)
  | cons row rows => exact stopsWith_pure row

theorem stops_isDuplicate (interval : Nat) (store : Store) (host : Host) (draft : NotificationDraft) :
    StopsWith (Cause ctx asks canRead) (isDuplicate interval store host draft) :=
  (stops_orRefuse (refuses_list _ _ _)).bind fun _ => stopsWith_pure _

/-! ## Handlers -/

theorem answers_indexVersions : Answers (Cause ctx asks canRead) (indexVersions ctx) :=
  answers_pure (isPlain_wrap _ _)

theorem answers_showVersion (h : Router.idParam ∈ asks) : Answers (Cause ctx asks canRead) (showVersion ctx) := by
  apply Answers.bind (stops_memberId h)
  intro id
  split
  · exact answers_pure (isPlain_wrap _ _)
  · exact answers_throw (.noVersion id)

theorem answers_indexExtensions (infos : List ExtensionInfo) :
    Answers (Cause ctx asks canRead) (service.indexExtensions infos ctx) :=
  .bind (stops_authorize _ _) fun _ => answers_pure (isPlain_wrap _ _)

theorem answers_showExtension (h : Router.idParam ∈ asks) (infos : List ExtensionInfo) :
    Answers (Cause ctx asks canRead) (service.showExtension infos ctx) := by
  apply Answers.bind (stops_authorize _ _)
  intro u
  apply Answers.bind (stops_memberId h)
  intro id
  split
  · exact answers_pure (isPlain_wrap _ _)
  · exact answers_throw (.noExtension id)

/-- The end of a handler that lists. -/
theorem answers_page {α : Type} [Listed α] {sortable : List String} {default name : String}
    {table : Store → List (String × α)} {keep : α → Bool} {toJson : α → Json} :
    Answers (Cause ctx asks canRead) (do
      let (page, slice) ← orFail (service.paging ctx sortable default)
      let rows ← orRefuse (Store.list (table (← world).store) keep slice)
      pure (pageBody ctx name page rows toJson)) := by
  apply Answers.bind (stops_orFail (fails_paging sortable default))
  intro p
  apply Answers.bind stops_world
  intro w
  exact .bind (stops_orRefuse (refuses_list _ _ _)) fun rows => answers_pure (Outcome.isPlain_value _)

theorem answers_indexSegments : Answers (Cause ctx asks canRead) (service.indexSegments ctx) := by
  apply Answers.bind (stops_authorize _ _)
  intro u
  apply Answers.bind (stops_orFail fails_segmentFilter)
  intro f
  exact answers_page

theorem answers_showSegment (h : Router.idParam ∈ asks) :
    Answers (Cause ctx asks canRead) (service.showSegment ctx) := by
  apply Answers.bind (stops_authorize _ _)
  intro u
  apply Answers.bind (stops_memberId h)
  intro id
  apply Answers.bind stops_world
  intro w
  exact .bind (stops_orRefuse (refuses_find _ _)) fun row => answers_pure (isPlain_wrap _ _)

/-- The end of a handler that writes. -/
theorem answers_commit {α : Type} {x : StoreStep Store α} {outcome : α → Outcome}
    (hx : ∀ s, Refuses ctx asks canRead (x.attempt s)) (ho : ∀ a, (outcome a).IsPlain) :
    Answers (Cause ctx asks canRead) (do
      let a ← inStore x
      pure (outcome a)) :=
  .bind (stops_inStore hx) fun a => answers_pure (ho a)

theorem answers_createSegment (h : ∀ j, canRead j → ∃ d, SegmentDraft.ofBody? j = some d) :
    Answers (Cause ctx asks canRead) (service.createSegment ctx) := by
  apply Answers.bind (stops_authorize _ _)
  intro u
  apply Answers.bind (stops_readBody h)
  intro draft
  apply Answers.bind stops_world
  intro w
  exact answers_commit (fun s => refuses_createSegment draft) fun row => isPlain_wrap _ _

theorem answers_patchSegment (h : Router.idParam ∈ asks) (patch : SegmentPatch) :
    Answers (Cause ctx asks canRead) (patchSegment ctx patch) := by
  apply Answers.bind (stops_memberId h)
  intro id
  apply Answers.bind stops_world
  intro w
  exact answers_commit (fun s => refuses_updateSegment patch) fun row => isPlain_wrap _ _

theorem answers_updateSegment (h : Router.idParam ∈ asks) (hread : ∀ j, canRead j → ∃ d, SegmentPatch.ofBody? j = some d) :
    Answers (Cause ctx asks canRead) (service.updateSegment ctx) :=
  .bind (stops_authorize _ _) fun _ => .bind (stops_readBody hread) fun patch => answers_patchSegment h patch

theorem answers_setEnabled (h : Router.idParam ∈ asks) (action : String) (enabled : Bool) :
    Answers (Cause ctx asks canRead) (service.setEnabled action enabled ctx) :=
  .bind (stops_authorize _ _) fun _ => answers_patchSegment h _

theorem answers_deleteSegment (h : Router.idParam ∈ asks) :
    Answers (Cause ctx asks canRead) (service.deleteSegment ctx) := by
  apply Answers.bind (stops_authorize _ _)
  intro u
  apply Answers.bind (stops_memberId h)
  intro id
  exact answers_commit (fun s => refuses_destroySegment) fun _ => Outcome.isPlain_empty

theorem answers_indexHosts (h : segmentParam ∈ asks) : Answers (Cause ctx asks canRead) (service.indexHosts ctx) := by
  apply Answers.bind (stops_authorize _ _)
  intro u
  apply Answers.bind (stops_loadSegment h)
  intro s
  apply Answers.bind (stops_orFail (fails_hostFilter s))
  intro f
  exact answers_page

theorem answers_showHost (h : segmentParam ∈ asks) (hid : Router.idParam ∈ asks) :
    Answers (Cause ctx asks canRead) (service.showHost ctx) := by
  apply Answers.bind (stops_authorize _ _)
  intro u
  apply Answers.bind (stops_loadSegment h)
  intro s
  exact .bind (stops_loadHost hid s) fun row => answers_pure (isPlain_wrap _ _)

theorem answers_createHost (h : segmentParam ∈ asks) (hread : ∀ j, canRead j → ∃ d, HostDraft.ofBody? j = some d) :
    Answers (Cause ctx asks canRead) (service.createHost ctx) := by
  apply Answers.bind (stops_authorize _ _)
  intro u
  apply Answers.bind (stops_loadSegment h)
  intro s
  apply Answers.bind (stops_readBody hread)
  intro draft
  apply Answers.bind stops_world
  intro w
  exact answers_commit (fun store => refuses_createHost s.uuid draft) fun row => isPlain_wrap _ _

theorem answers_updateHost (h : segmentParam ∈ asks) (hid : Router.idParam ∈ asks)
    (hread : ∀ j, canRead j → ∃ d, HostPatch.ofBody? j = some d) :
    Answers (Cause ctx asks canRead) (service.updateHost ctx) := by
  apply Answers.bind (stops_authorize _ _)
  intro u
  apply Answers.bind (stops_loadSegment h)
  intro s
  apply Answers.bind (stops_loadHost hid s)
  intro old
  apply Answers.bind (stops_readBody hread)
  intro patch
  apply Answers.bind stops_world
  intro w
  exact answers_commit (fun store => refuses_updateHost patch) fun row => isPlain_wrap _ _

theorem answers_deleteHost (h : segmentParam ∈ asks) (hid : Router.idParam ∈ asks) :
    Answers (Cause ctx asks canRead) (service.deleteHost ctx) := by
  apply Answers.bind (stops_authorize _ _)
  intro u
  apply Answers.bind (stops_loadSegment h)
  intro s
  apply Answers.bind (stops_loadHost hid s)
  intro row
  exact answers_commit (fun store => refuses_destroyHost) fun _ => Outcome.isPlain_empty

theorem answers_indexNotifications : Answers (Cause ctx asks canRead) (service.indexNotifications ctx) := by
  apply Answers.bind (stops_authorize _ _)
  intro u
  apply Answers.bind (stops_orFail fails_notificationFilter)
  intro f
  exact answers_page

theorem answers_showNotification (h : Router.idParam ∈ asks) (details : Option (List Json)) :
    Answers (Cause ctx asks canRead) (service.showNotification details ctx) := by
  apply Answers.bind (stops_authorize _ _)
  intro u
  apply Answers.bind (stops_memberId h)
  intro id
  apply Answers.bind stops_world
  intro w
  exact .bind (stops_orRefuse (refuses_find _ _)) fun row => answers_pure (isPlain_wrap _ _)

theorem answers_createNotification (h : ∀ j, canRead j → ∃ d, NotificationDraft.ofBody? j = some d) :
    Answers (Cause ctx asks canRead) (service.createNotification ctx) := by
  apply Answers.bind (stops_authorize _ _)
  intro u
  apply Answers.bind (stops_readBody h)
  intro draft
  apply Answers.bind stops_world
  intro w
  apply Answers.bind (stops_hostNamed _ _)
  intro host
  apply Answers.bind (stops_refuseIf _ (.maintenance host.name))
  intro v
  apply Answers.bind (stops_isDuplicate _ _ _ _)
  intro duplicate
  apply Answers.bind (stops_refuseIf _ (.duplicate draft.hostName draft.kind.name))
  intro x
  exact ⟨fun _ => failsWith_ok _, fun w o ho => by cases ho; exact isPlain_wrap _ _⟩

end Service

end Standby
