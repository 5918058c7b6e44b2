import Standby.Proofs.Service.Upgrades
/-!
# What the actions of hosts do

An action of hosts that succeeds has loaded the segment of the path and put it into the cache. What it shows are hosts of
this segment as they are stored afterwards, and what it writes is a host of this segment too.
-/

namespace Standby

/-- The body of a reply that holds hosts: none, one of them, or a page. -/
inductive HoldsHosts : Option Json → List Json → Prop
  | none : HoldsHosts none []
  | one (host : Json) : HoldsHosts (some (.obj [("host", host)])) [host]
  | page (hosts : List Json) (next : Option Link) :
    HoldsHosts (some (.obj (("hosts", .arr hosts) :: next.toList.map fun link => ("hosts_links", .arr [link.toJson]))))
      hosts

/-- The rows of a listing are rows of the table that pass the filter. -/
theorem Store.mem_of_list_eq_ok {α : Type} [Listed α] {table : List (String × α)} {keep : α → Bool} {slice : Slice}
    {rows : List α} (h : Store.list table keep slice = .ok rows) {row : α} (hrow : row ∈ rows) :
    row ∈ table.map (·.2) ∧ keep row = true := by
  unfold Store.list at h
  split at h
  · rename_i page hpage
    cases h
    exact List.mem_filter.1 (Listing.mem_of_slice? hpage hrow)
  · cases h

namespace Service

variable {service : Service} {ctx : Context} {w w' : Workspace World Segment} {o : Outcome}

/-! ## Handlers that succeed -/

/-- The host that the path names is loaded if it is one of the segment. -/
theorem run_loadHost {id : String} (hid : lookup? Router.idParam ctx.params = some id) (g : Segment)
    (w : Workspace World Segment) :
    (loadHost ctx g).run.run w =
      (match (lookup? id w.world.store.hosts).filter (·.segment = g.uuid) with
        | some row => .ok row
        | none => .error (.ofStoreError (.notFound .hosts id)), w) := by
  rw [loadHost, memberId, param_eq_ok.2 hid]
  simp only [run_bind, run_orFail, run_world, orRefuse, Store.host, Store.find]
  cases lookup? id w.world.store.hosts with
  | none => rfl
  | some row =>
    by_cases hown : row.segment = g.uuid
    · rw [Option.filter_some, if_pos (decide_eq_true hown)]
      simp only [Except.mapError, if_pos hown]
      rfl
    · rw [Option.filter_some, if_neg (by simpa using hown)]
      simp only [Except.mapError, if_neg hown]
      rfl

theorem run_loadHost_bind_eq_ok {g : Segment} {rest : Host → ServiceStep Outcome} :
    (loadHost ctx g >>= rest).run.run w = (.ok o, w') ↔
      ∃ id row, lookup? Router.idParam ctx.params = some id ∧ lookup? id w.world.store.hosts = some row ∧
        row.segment = g.uuid ∧ (rest row).run.run w = (.ok o, w') := by
  constructor
  · intro h
    obtain ⟨row, w₁, hload, hrest⟩ := run_bind_eq_ok.1 h
    obtain ⟨id, w₂, hmember, -⟩ := run_bind_eq_ok.1 hload
    have hid := param_eq_ok.1 (orFail_eq_ok hmember).1
    rw [run_loadHost hid] at hload
    split at hload
    · rename_i hfound
      cases hload
      obtain ⟨hrow, hown⟩ := Option.filter_eq_some_iff.1 hfound
      exact ⟨id, row, hid, hrow, of_decide_eq_true hown, hrest⟩
    · cases hload
  · rintro ⟨id, row, hid, hrow, hown, hrest⟩
    rw [run_bind, run_loadHost hid, hrow, Option.filter_some, if_pos (decide_eq_true hown)]
    exact hrest

/-! ## Effects -/

/-- What an action of hosts that succeeds below a segment gives, and the store that it leaves. -/
inductive HostEffect (service : Service) (ctx : Context) (g : Segment) (w : World) : String → Outcome → Store → Prop
  | index {f page slice rows} (filtered : hostFilter ctx g = .ok f) (listed : w.store.listHosts f slice = .ok rows) :
    HostEffect service ctx g w "index" (pageBody ctx "hosts" page rows (hostJson g)) w.store
  | show {id row} (member : lookup? Router.idParam ctx.params = some id) (stored : lookup? id w.store.hosts = some row)
    (own : row.segment = g.uuid) : HostEffect service ctx g w "show" (wrap "host" (hostJson g row)) w.store
  | create {draft row store}
    (created : w.store.createHost (service.mint .hosts (w.store.lastHostId + 1)) w.clock g.uuid draft = .ok (row, store)) :
    HostEffect service ctx g w "create" (wrap "host" (hostJson g row)) store
  | update {id old patch row store} (member : lookup? Router.idParam ctx.params = some id)
    (stored : lookup? id w.store.hosts = some old) (own : old.segment = g.uuid)
    (updated : w.store.updateHost old.uuid w.clock patch = .ok (row, store)) :
    HostEffect service ctx g w "update" (wrap "host" (hostJson g row)) store
  | delete {id old store} (member : lookup? Router.idParam ctx.params = some id)
    (stored : lookup? id w.store.hosts = some old) (own : old.segment = g.uuid)
    (destroyed : w.store.destroyHost old.uuid = .ok store) : HostEffect service ctx g w "delete" .empty store

/-- The workspace that an effect leaves. -/
def afterEffect (w : Workspace World Segment) (g : Segment) (store : Store) : Workspace World Segment :=
  { loading w g with world := { w.world with store } }

/-- An action of hosts that succeeds has one of these effects, below the segment of the path. -/
theorem Own.exists_effect {collection name : String} {a : Action World Segment} (h : service.Own collection name a)
    (hhosts : collection = "hosts") (hrun : (a.handler ctx).run.run w = (.ok o, w')) :
    ∃ id g store, lookup? segmentParam ctx.params = some id ∧ lookup? id w.world.store.segments = some g ∧
      HostEffect service ctx g w.world name o store ∧ w' = afterEffect w g store := by
  cases h with
  | indexHosts =>
    obtain ⟨-, id, g, hid, hg, h⟩ := run_loaded_eq_ok.1 hrun
    obtain ⟨f, hfilter, h⟩ := run_orFail_bind_eq_ok.1 h
    obtain ⟨⟨page, slice⟩, -, h⟩ := run_orFail_bind_eq_ok.1 h
    obtain ⟨rows, hrows, h⟩ := run_orFail_bind_eq_ok.1 h
    cases h
    exact ⟨id, g, _, hid, hg, .index hfilter (mapError_eq_ok.1 hrows), rfl⟩
  | showHost =>
    obtain ⟨-, id, g, hid, hg, h⟩ := run_loaded_eq_ok.1 hrun
    obtain ⟨member, row, hmember, hrow, hown, h⟩ := run_loadHost_bind_eq_ok.1 h
    cases h
    exact ⟨id, g, _, hid, hg, .show hmember hrow hown, rfl⟩
  | createHost =>
    obtain ⟨-, id, g, hid, hg, h⟩ := run_loaded_eq_ok.1 hrun
    obtain ⟨draft, -, h⟩ := run_readBody_bind_eq_ok.1 h
    obtain ⟨row, store, hstore, rfl, rfl⟩ := (run_commit_eq_ok fun _ => Store.atomic_createHost _ _ _ _).1 h
    exact ⟨id, g, _, hid, hg, .create hstore, rfl⟩
  | updateHost =>
    obtain ⟨-, id, g, hid, hg, h⟩ := run_loaded_eq_ok.1 hrun
    obtain ⟨member, old, hmember, hold, hown, h⟩ := run_loadHost_bind_eq_ok.1 h
    obtain ⟨patch, -, h⟩ := run_readBody_bind_eq_ok.1 h
    obtain ⟨row, store, hstore, rfl, rfl⟩ := (run_commit_eq_ok fun _ => Store.atomic_updateHost _ _ _).1 h
    exact ⟨id, g, _, hid, hg, .update hmember hold hown hstore, rfl⟩
  | deleteHost =>
    obtain ⟨-, id, g, hid, hg, h⟩ := run_loaded_eq_ok.1 hrun
    obtain ⟨member, old, hmember, hold, hown, h⟩ := run_loadHost_bind_eq_ok.1 h
    obtain ⟨_, store, hstore, rfl, rfl⟩ := (run_commit_eq_ok fun _ => Store.atomic_destroyHost old.uuid).1 h
    exact ⟨id, g, _, hid, hg, .delete hmember hold hown (map_eq_ok.2 ⟨_, hstore, rfl⟩), rfl⟩
  | _ => exact absurd hhosts (by decide)

namespace HostEffect
variable {g : Segment} {w : World} {name : String} {store : Store}

/-- The actions of hosts write no segment. -/
theorem segments (h : HostEffect service ctx g w name o store) : store.segments = w.store.segments := by
  cases h with
  | index | «show» => rfl
  | create created =>
    obtain ⟨-, -, -, rfl⟩ := Store.createHost_eq_ok.1 created
    rfl
  | update _ _ _ updated =>
    obtain ⟨_, _, -, -, -, rfl⟩ := Store.updateHost_eq_ok.1 updated
    rfl
  | delete _ _ _ destroyed =>
    obtain ⟨_, -, rfl⟩ := Store.destroyHost_eq_ok.1 destroyed
    rfl

/-- All but deleting gives a value. -/
theorem exists_value (h : HostEffect service ctx g w name o store) (hname : name ≠ "delete") : ∃ j, o = .value j := by
  cases h with
  | delete => exact absurd rfl hname
  | _ => exact ⟨_, rfl⟩

/-- What is shown, created or changed is one host of the segment, as it is stored afterwards. -/
theorem exists_row (h : HostEffect service ctx g w name o store) (hs : w.store.Tabled)
    (hname : name ≠ "index" ∧ name ≠ "delete") :
    ∃ row : Host, o = wrap "host" (hostJson g row) ∧ (row.segment = g.uuid ∧ lookup? row.uuid store.hosts = some row) ∧
      (name ≠ "create" → lookup? Router.idParam ctx.params = some row.uuid) := by
  have hown {id : String} {row : Host} (hrow : lookup? id w.store.hosts = some row) : row.uuid = id :=
    hs.hosts.own _ (mem_of_lookup?_eq_some hrow)
  cases h with
  | @«show» id row member stored own =>
    exact ⟨row, rfl, ⟨own, hown stored ▸ stored⟩, fun _ => hown stored ▸ member⟩
  | @create draft row store created =>
    obtain ⟨-, -, rfl, rfl⟩ := Store.createHost_eq_ok.1 created
    exact ⟨_, rfl, ⟨rfl, by simp [lookup?_insertKey, Store.newHost]⟩, fun hne => absurd rfl hne⟩
  | @update id old patch row store member stored own updated =>
    obtain ⟨old', names, hold, -, rfl, rfl⟩ := Store.updateHost_eq_ok.1 updated
    rw [hown stored, stored] at hold
    cases hold
    exact ⟨_, rfl, ⟨own, by simp [lookup?_insertKey, HostPatch.apply]⟩, fun _ => hown stored ▸ member⟩
  | index => exact absurd rfl hname.1
  | delete => exact absurd rfl hname.2

/-- What is shown are hosts of the segment, as they are stored afterwards. -/
theorem holds (h : HostEffect service ctx g w name o store) (hs : w.store.Tabled) :
    ∃ rows : List Host, HoldsHosts o.json? (rows.map (hostJson g)) ∧
      ∀ row ∈ rows, row.segment = g.uuid ∧ lookup? row.uuid store.hosts = some row := by
  have hone (hname : name ≠ "index" ∧ name ≠ "delete") : ∃ rows : List Host,
      HoldsHosts o.json? (rows.map (hostJson g)) ∧
        ∀ row ∈ rows, row.segment = g.uuid ∧ lookup? row.uuid store.hosts = some row := by
    obtain ⟨row, rfl, hrow, -⟩ := h.exists_row hs hname
    exact ⟨[row], .one _, List.forall_mem_singleton.2 hrow⟩
  cases h with
  | @index f page slice rows filtered listed =>
    refine ⟨rows, .page _ _, fun row hrow => ?_⟩
    obtain ⟨⟨hsegment, -⟩, -⟩ := hostFilter_eq_ok.1 filtered
    obtain ⟨hstored, hkeeps⟩ := Store.mem_of_list_eq_ok listed hrow
    obtain ⟨p, hp, rfl⟩ := List.mem_map.1 hstored
    simp only [HostFilter.keeps, hsegment, Option.all_some, Bool.and_eq_true, beq_iff_eq, and_assoc] at hkeeps
    exact ⟨hkeeps.1.symm, (lookup?_eq_some_iff hs.hosts.keys).2 (hs.hosts.own p hp ▸ hp)⟩
  | delete => exact ⟨[], .none, fun _ h => by cases h⟩
  | _ => exact hone ⟨by decide, by decide⟩

end HostEffect

end Service

end Standby
