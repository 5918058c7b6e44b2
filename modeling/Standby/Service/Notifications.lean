import Standby.Failover.Schemas
import Standby.Failover.View
import Standby.Service.Basic
/-!
# Notifications

A notification is accepted only for a known host that is not on maintenance, and not again for the same host,
kind and payload within the detection interval. An accepted one is queued for the recovery engine; it is
accepted also if the queue cannot take it.
-/

namespace Standby.Service

def notificationSortKeys : List String := ["created_at", "generated_time", "type", "status", "source_host_uuid"]

def notificationFilter (ctx : Context) : Except ApiError NotificationFilter := do
  let sourceHost ← filter ctx "source_host_uuid" some
  let kind ← filter ctx "type" FailureKind.ofName?
  let progress ← filter ctx "status" Progress.ofName?
  let since ← filter ctx "generated-since" Time.Timestamp.strict?
  .ok { sourceHost, kind, progress, since }

def indexNotifications (service : Service) (ctx : Context) : ServiceStep Outcome := do
  service.authorize ctx "notifications" "index"
  let f ← orFail (notificationFilter ctx)
  let (page, slice) ← orFail (service.paging ctx notificationSortKeys "generated_time")
  let rows ← orRefuse ((← world).store.listNotifications f slice)
  pure (pageBody ctx "notifications" page rows (·.toJson none))

def showNotification (service : Service) (details : Option (List Json)) (ctx : Context) : ServiceStep Outcome := do
  service.authorize ctx "notifications" "show"
  let id ← memberId ctx
  let row ← orRefuse ((← world).store.notification id)
  pure (wrap "notification" (row.toJson details))

/-- The first host with a name. -/
def hostNamed (store : Store) (name : String) : ServiceStep Host := do
  let rows ← orRefuse (store.listHosts { name := some name } {})
  match rows with
  | row :: _ => pure row
  | [] => throw (.notFound s!"Host with name {name} could not be found.")

/-- A number, if a signed number of 64 bits can be as large. -/
def signed? (n : Nat) : Option Nat := if n < 9223372036854775808 then some n else none

/-- How far the detection interval reaches back. One of too many seconds is the longest span there is. -/
def detectionSpan (interval : Nat) : Time.Span := ((signed? interval).bind Time.Span.ofSeconds?).getD .longest

/-- The earliest time at which a report of the same failure makes one generated at `t` a duplicate. An interval that
reaches back beyond the first instant begins with it. -/
def duplicateSince (interval : Nat) (t : Time.Instant) : Time.Instant := (t.minus? (detectionSpan interval)).getD .first

/-- Whether a notification of the same host, kind and payload is stored that was generated no earlier than
`interval` seconds before the new one. -/
def isDuplicate (interval : Nat) (store : Store) (host : Host) (draft : NotificationDraft) : ServiceStep Bool := do
  let f : NotificationFilter :=
    { sourceHost := some host.uuid
      kind := some draft.kind
      since := some (duplicateSince interval draft.generatedAt) }
  let rows ← orRefuse (store.listNotifications f {})
  pure (rows.any fun n => n.payload.same draft.payload)

/-- Queues a notification if the queue takes it. -/
def handOver (n : Notification) : ServiceStep Unit :=
  modify fun w =>
    match w.world.queue.send n with
    | .ok queue => { w with world := { w.world with queue } }
    | .error _ => w

/-- Accepts a notification. -/
def createNotification (service : Service) (ctx : Context) : ServiceStep Outcome := do
  service.authorize ctx "notifications" "create"
  let draft ← readBody NotificationDraft.ofBody? ctx
  let w ← world
  let host ← hostNamed w.store draft.hostName
  refuseIf host.onMaintenance (.conflict s!"Host '{host.name}' is on maintenance.")
  let duplicate ← isDuplicate service.config.duplicateInterval w.store host draft
  refuseIf duplicate
    (.conflict s!"Notification received from host {draft.hostName} of type '{draft.kind.name}' is duplicate.")
  let uuid := service.mint .notifications (w.store.lastNotificationId + 1)
  let row ← inStore
    (StoreStep.createNotification uuid w.clock
      { kind := draft.kind
        generatedAt := draft.generatedAt
        payload := draft.payload
        sourceHost := host.uuid })
  handOver row
  pure (wrap "notification" (row.toJson none))

def notificationsExtension (service : Service) : Extension World Segment where
  name := "Notifications"
  shortName := "notifications"
  updated := updated
  description := "Host and instance failure notifications."
  resources := do
    let actions ← actions
      [("index", .all, { handler := service.indexNotifications }),
        ("show", .between v1_0 v1_0, { handler := service.showNotification none }),
        ("show", .since v1_1, { handler := service.showNotification (some []) }),
        ("create", .all,
          { handler := service.createNotification
            schema := some Schemas.createNotification
            status := 202 })]
    .ok [{ collection := "notifications", member := "notification", actions }]

end Standby.Service
