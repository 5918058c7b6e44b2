import Standby.Proofs.Service.Bindings
/-!
# Requests that change nothing

Every action of the service reads, or changes the world only if it succeeds, and then its status says so. A reply
with any other status therefore leaves the world as it was, and so does every GET request.
-/

namespace Standby.Service

variable {service : Service}

/-- The status of every action is one of success. -/
theorem Own.status {collection name : String} {a : Action World Segment} (h : service.Own collection name a) :
    200 ≤ a.status ∧ a.status < 300 := by
  cases h <;> simp

theorem Added.status {name : String} {a : Action World Segment} (h : service.Added name a) :
    200 ≤ a.status ∧ a.status < 300 := by
  cases h <;> simp

/-- A handler that is atomic and has a status of success has changed nothing if the reply has another status. -/
theorem world_of_transacts {d : Dispatcher World Segment} {req : Request} (h : d.Handled req)
    (ht : Transacts service.Change (h.action.handler h.ctx)) (hs : 200 ≤ h.action.status ∧ h.action.status < 300) (w : World)
    (hreply : ¬(200 ≤ (d.serve req w).reply.status ∧ (d.serve req w).reply.status < 300)) :
    (d.serve req w).world = w := by
  obtain ⟨hfinish, hworld⟩ := h.serve_eq w
  rw [hfinish] at hreply
  rw [hworld]
  generalize hrun : (h.action.handler h.ctx).run.run (h.ctx.start w) = run at hreply ⊢
  obtain ⟨result, w'⟩ := run
  cases result with
  | error e => exact ht.atomic _ e w' hrun
  | ok o =>
    rw [h.status_finish o _ _ (ht.plain _ o w' hrun)] at hreply
    exact absurd hs hreply

/-- **A request that fails changes nothing, and neither does a GET request.** Whatever the configuration, the policy,
the request and the world, a reply without a status of success leaves the world as it was, with its tables, its
counters and its queue. -/
theorem serve_world_unchanged {d : Dispatcher World Segment} (hd : service.dispatcher = .ok d) (req : Request)
    (w : World)
    (h : ¬(200 ≤ (d.serve req w).reply.status ∧ (d.serve req w).reply.status < 300) ∨ req.method = "GET") :
    (d.serve req w).world = w := by
  rcases serve_cases hd req with ⟨reply, hrefused⟩ | ⟨⟨handled⟩⟩
  · exact (hrefused w).2
  · have hreads (hr : ∀ ctx, Reads (handled.action.handler ctx)) : (d.serve req w).world = w :=
      (handled.serve_eq w).2.trans (hr _ _)
    rcases h with hstatus | hget
    · rcases action_cases hd handled with hown | hadded
      · rcases hown.reads_or_transacts with hr | ⟨-, -, ht⟩
        · exact hreads hr
        · exact world_of_transacts handled (ht _) hown.status w hstatus
      · exact world_of_transacts handled (hadded.transacts _) hadded.status w hstatus
    · obtain ⟨hown, hname⟩ := own_of_get hd handled hget
      rcases hown.reads_or_transacts with hr | ⟨hindex, hshow, -⟩
      · exact hreads hr
      · rcases hname with hn | hn
        · exact absurd hn hindex
        · exact absurd hn hshow

/-- A name that is taken is refused. -/
theorem status_creating_rack {d : Dispatcher World Segment} (hd : byDefault.dispatcher = .ok d) {w : World}
    (hw : w.store = racked) : (d.serve (creating "/v1/segments" "segment" rackMembers) w).reply.status = 409 := by
  have hroute : d.router.route? "/v1/segments" = some ⟨"segments", .collection, [], none, "/v1/segments", none⟩ := by
    rw [(router_of_dispatcher rfl hd).1]
    decide +kernel
  obtain ⟨a, -, hadmin, hbody, -, hbound⟩ := exists_admitted_creating hd "/v1/segments" "segment" rackMembers
    (t := .segments) hroute (by decide +kernel) (.createSegment (Version.le_refl _))
  have haccepts : (Schemas.createSegment (v1_2.le v1_0)).check (a.ctx.body.getD .null) = .ok () := by
    rw [hbody]
    rfl
  have hdraft : SegmentDraft.ofBody? (a.ctx.body.getD .null) = some ⟨"rack", none, .auto, "COMPUTE", none⟩ := by
    rw [hbody]
    rfl
  have hstore : w.store.createSegment (byDefault.mint .segments (w.store.lastSegmentId + 1)) w.clock
      ⟨"rack", none, .auto, "COMPUTE", none⟩ = .error (.alreadyExists .segments "rack") := by
    rw [hw]
    rfl
  have hcall : (byDefault.createSegment a.ctx).run.run (a.ctx.start w) =
      (.error (.ofStoreError (.alreadyExists .segments "rack")), a.ctx.start w) := by
    have hauthorize : byDefault.policy.authorize a.ctx.caller (Policy.actionName "segments" "create") = .ok () :=
      authorize_of_isAdmin hadmin _
    rw [createSegment, run_bind, run_authorize, hauthorize]
    show (readBody SegmentDraft.ofBody? a.ctx >>= _ : ServiceStep Outcome).run.run (a.ctx.start w) = _
    rw [run_bind, run_readBody, hdraft]
    refine (run_commit (fun _ => Store.atomic_createSegment _ _ _) _ _).trans ?_
    have hworld : (a.ctx.start w : Workspace World Segment).world = w := rfl
    rw [hworld, ← Store.createSegment, hstore]
  rw [(a.serve_of_failure (decorates_of_admitted hd a) hbound (Action.accepts_start rfl haccepts) hcall).1,
    Dispatcher.status_fault]
  rfl

/-- Anybody may list the segments, and nothing changes; nor does anything if a segment is to be created with a name that
is taken. -/
theorem serve_world_unchanged_racked : ∃ d, byDefault.dispatcher = .ok d ∧
    (∀ w, (d.serve ⟨"GET", "/v1/segments", none, [], []⟩ w).world = w) ∧
    ∀ w, w.store = racked → (d.serve (creating "/v1/segments" "segment" rackMembers) w).reply.status = 409 ∧
      (d.serve (creating "/v1/segments" "segment" rackMembers) w).world = w := by
  obtain ⟨d, hd⟩ := exists_dispatcher_byDefault
  refine ⟨d, hd, fun w => serve_world_unchanged hd _ w (.inr rfl), fun w hw => ?_⟩
  have hstatus := status_creating_rack hd hw
  exact ⟨hstatus, serve_world_unchanged hd _ w (.inl (by rw [hstatus]; decide))⟩

end Standby.Service
