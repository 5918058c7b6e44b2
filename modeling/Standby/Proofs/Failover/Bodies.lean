import Standby.Failover.Draft
import Standby.Failover.Schemas
import Standby.Proofs.Schema.Accepted
import Standby.Proofs.Time.Reading
/-!
# Bodies that a schema accepts

Each body of a request that writes is described twice, by a schema and by a reader of drafts. The two agree: what the
schema accepts can be read, and the draft says what the attributes of the body say (`BodyKind.reads_of_check`).
-/

namespace Standby

variable {α : Type} {read : Json → Option α} {field : Option String} {x : Option Json} {j v : Json}

namespace Record

/-! ## Reading fields -/

theorem optional_some (h : v ≠ .null) : optional read (some v) = (read v).map some := by
  cases v with
  | null => exact absurd rfl h
  | _ => rfl

/-- A field that holds a written value, if it holds one at all, is read back. -/
theorem optional_of_written (write : α → Json) (hread : ∀ a, read (write a) = some a) (hnull : ∀ a, write a ≠ .null)
    (hx : ∀ v ∈ x, ∃ a, v = write a) : ∃ y, optional read x = some y ∧ x = y.map write := by
  cases x with
  | none => exact ⟨none, rfl, rfl⟩
  | some v =>
    obtain ⟨a, rfl⟩ := hx v rfl
    refine ⟨some a, ?_, rfl⟩
    rw [optional_some (hnull a), hread]
    rfl

theorem required_of_written (write : α → Json) (hread : ∀ a, read (write a) = some a) (hsome : x.isSome = true)
    (hx : ∀ v ∈ x, ∃ a, v = write a) : ∃ a, required read x = some a ∧ x = some (write a) := by
  obtain ⟨v, rfl⟩ := Option.isSome_iff_exists.1 hsome
  obtain ⟨a, rfl⟩ := hx v rfl
  exact ⟨a, hread a, rfl⟩

theorem optional_flag (hx : ∀ v ∈ x, Schema.flag.checkAt field v = .ok ()) :
    ∃ y, optional Flag.ofJson? x = some y ∧ x.map Flag.ofJson? = y.map some := by
  cases x with
  | none => exact ⟨none, rfl, rfl⟩
  | some v =>
    obtain ⟨b, hb⟩ := Schema.checkAt_flag_eq_ok.1 (hx v rfl)
    have hnull : v ≠ .null := by
      rintro rfl
      cases hb
    refine ⟨some b, ?_, ?_⟩
    · rw [optional_some hnull, hb]
      rfl
    · simp [hb]

theorem optional_ofText? (hx : ∀ v ∈ x, ∃ y, v = .ofText? y) :
    ∃ y, optional Json.str? x = some y ∧ x.getD .null = .ofText? y := by
  cases x with
  | none => exact ⟨none, rfl, rfl⟩
  | some v =>
    obtain ⟨y, rfl⟩ := hx v rfl
    refine ⟨y, ?_, rfl⟩
    cases y <;> rfl

theorem clearable_ofText? (hx : ∀ v ∈ x, ∃ y, v = .ofText? y) :
    ∃ y, clearable Json.str? x = some y ∧ x = y.map .ofText? := by
  cases x with
  | none => exact ⟨none, rfl, rfl⟩
  | some v =>
    obtain ⟨y, rfl⟩ := hx v rfl
    refine ⟨some y, ?_, rfl⟩
    cases y <;> rfl

theorem inner?_of_get? {key : String} (h : j.get? key = some v) : inner? key read j = read v := by
  cases j with
  | obj members =>
    have hv : lookup? key members = some v := h
    simp [inner?, fields?, required, hv]
  | _ => cases h

end Record

/-! ## What the names of an enumeration read as -/

theorem RecoveryMethod.ofName?_name (m : RecoveryMethod) : ofName? m.name = some m := by
  cases m <;> rfl

theorem FailureKind.ofName?_name (k : FailureKind) : ofName? k.name = some k := by
  cases k <;> rfl

namespace Schemas

/-! ## Attributes -/

/-- What is known of the attributes that the schema of a record accepts. -/
structure Accepts (properties : List (String × Schema)) (needed : List String) (attrs : List (String × Json)) :
    Prop where
  isSome : ∀ name ∈ needed, (lookup? name attrs).isSome = true
  isKnown : ∀ p ∈ attrs, Schema.isKnown properties [] p.1 = true
  accepted : ∀ name schema, lookup? name properties = some schema → ∀ v ∈ lookup? name attrs,
    schema.checkAt (some name) v = .ok ()

variable {properties : List (String × Schema)} {needed : List String} {groups : List (List String)}
  {attrs : List (String × Json)} {name : String} {rules : TextRules} {withEnabled : Bool}

theorem accepts_of_check {key : String} (h : (wrapped key (record properties needed groups)).check j = .ok ()) :
    ∃ attrs, j.get? key = some (.obj attrs) ∧ Accepts properties needed attrs := by
  rw [Schema.check_eq] at h
  obtain ⟨members, rfl, hkey, -, hmember⟩ := Schema.checkAt_object_eq_ok h
  obtain ⟨v, hv⟩ := Option.isSome_iff_exists.1 (hkey key (List.mem_singleton_self key))
  have hrecord := hmember key _ (List.mem_singleton_self _) v hv
  obtain ⟨attrs, rfl, hneeded, hknown, hattrs⟩ := Schema.checkAt_object_eq_ok hrecord
  exact ⟨attrs, hv, ⟨hneeded, hknown rfl, fun name schema hp => hattrs name schema (mem_of_lookup?_eq_some hp)⟩⟩

namespace Accepts

/-- An attribute without a schema is missing. -/
theorem eq_none (h : Accepts properties needed attrs) (hname : Schema.isKnown properties [] name = false) :
    lookup? name attrs = none := by
  by_contra hne
  obtain ⟨v, hv⟩ := Option.ne_none_iff_exists'.1 hne
  have hknown := h.isKnown (name, v) (mem_of_lookup?_eq_some hv)
  rw [hname] at hknown
  cases hknown

theorem text (h : Accepts properties needed attrs) (name : String) (hp : lookup? name properties = some (.string rules)) :
    ∀ v ∈ lookup? name attrs, ∃ s, v = .str s ∧ rules.Allow s := by
  intro v hv
  exact Schema.checkAt_string_eq_ok.1 (h.accepted name _ hp v hv)

theorem optional_text (h : Accepts properties needed attrs) (name : String)
    (hp : lookup? name properties = some (.string rules)) :
    ∃ y, Record.optional Json.str? (lookup? name attrs) = some y ∧ lookup? name attrs = y.map .str := by
  apply Record.optional_of_written Json.str (fun _ => rfl) (fun _ => Json.noConfusion)
  intro v hv
  obtain ⟨s, hs, -⟩ := h.text name hp v hv
  exact ⟨s, hs⟩

theorem required_text (h : Accepts properties needed attrs) (name : String)
    (hp : lookup? name properties = some (.string rules)) (hn : name ∈ needed) :
    ∃ s, Record.required Json.str? (lookup? name attrs) = some s ∧ lookup? name attrs = some (.str s) := by
  apply Record.required_of_written Json.str (fun _ => rfl) (h.isSome name hn)
  intro v hv
  obtain ⟨s, hs, -⟩ := h.text name hp v hv
  exact ⟨s, hs⟩

/-- A text that may be `null`. -/
theorem nullable_text (h : Accepts properties needed attrs) (name : String)
    (hp : lookup? name properties = some (.nullable (.string rules))) :
    ∀ v ∈ lookup? name attrs, ∃ y, v = .ofText? y := by
  intro v hv
  rcases Schema.checkAt_nullable_eq_ok.1 (h.accepted name _ hp v hv) with hnull | hstring
  · exact ⟨none, hnull⟩
  · obtain ⟨s, hs, -⟩ := Schema.checkAt_string_eq_ok.1 hstring
    exact ⟨some s, hs⟩

theorem optional_flag (h : Accepts properties needed attrs) (name : String) (hp : lookup? name properties = some .flag) :
    ∃ y, Record.optional Flag.ofJson? (lookup? name attrs) = some y ∧
      (lookup? name attrs).map Flag.ofJson? = y.map some :=
  Record.optional_flag (h.accepted name _ hp)

/-! ### Names of an enumeration -/

section Named

variable {nameOf : α → String} {ofName? : String → Option α} {all : List α}

theorem named (h : Accepts properties needed attrs) (name : String)
    (hp : lookup? name properties = some (oneOf (all.map nameOf))) :
    ∀ v ∈ lookup? name attrs, ∃ a, v = .str (nameOf a) := by
  intro v hv
  obtain ⟨s, hs, hallow⟩ := h.text name hp v hv
  obtain ⟨a, -, ha⟩ := List.mem_map.1 (hallow.options _ rfl)
  exact ⟨a, by rw [hs, ha]⟩

theorem optional_named (h : Accepts properties needed attrs) (name : String)
    (hp : lookup? name properties = some (oneOf (all.map nameOf))) (hof : ∀ a, ofName? (nameOf a) = some a) :
    ∃ y, Record.optional (Record.named ofName?) (lookup? name attrs) = some y ∧
      lookup? name attrs = y.map (.str <| nameOf ·) :=
  Record.optional_of_written (fun a => .str (nameOf a)) hof (fun _ => Json.noConfusion) (h.named name hp)

theorem required_named (h : Accepts properties needed attrs) (name : String)
    (hp : lookup? name properties = some (oneOf (all.map nameOf))) (hof : ∀ a, ofName? (nameOf a) = some a)
    (hn : name ∈ needed) :
    ∃ a, Record.required (Record.named ofName?) (lookup? name attrs) = some a ∧
      lookup? name attrs = some (.str (nameOf a)) :=
  Record.required_of_written (fun a => .str (nameOf a)) hof (h.isSome name hn) (h.named name hp)

end Named

/-- The flag of a segment is read whether or not the schema has it: where it has no schema it is missing. -/
theorem enabled (h : Accepts (segmentProperties withEnabled) needed attrs) :
    ∃ y, Record.optional Flag.ofJson? (lookup? "enabled" attrs) = some y ∧
      (lookup? "enabled" attrs).map Flag.ofJson? = y.map some := by
  cases withEnabled with
  | true => exact h.optional_flag "enabled" rfl
  | false =>
    have hnone : lookup? "enabled" attrs = none := h.eq_none (by decide)
    rw [hnone]
    exact ⟨none, rfl, rfl⟩

end Accepts

/-! ## The attribute `enabled` -/

/-- What is accepted without the attribute is accepted with it. -/
theorem check_segment_mono {groups groups' : List (List String)} (hgroups : groups ⊆ groups')
    (hempty : groups = [] → groups' = [])
    (h : (wrapped "segment" (record (segmentProperties false) needed groups)).check j = .ok ()) :
    (wrapped "segment" (record (segmentProperties true) needed groups')).check j = .ok () := by
  have hold : segmentProperties true = segmentProperties false ++ [("enabled", .flag)] := rfl
  have hrecord (field : Option String) (child : Json)
      (hchild : (record (segmentProperties false) needed groups).checkAt field child = .ok ()) :
      (record (segmentProperties true) needed groups').checkAt field child = .ok () := by
    refine Schema.checkAt_object_mono (fun p hp => ⟨p, ?_, rfl⟩) (fun q hq hasked => ⟨q, ?_, rfl, fun _ h => h⟩)
      hgroups hempty hchild
    · rw [hold]
      exact List.mem_append_left _ hp
    · rw [hold] at hq
      rcases List.mem_append.1 hq with hq | hq
      · exact hq
      · cases List.mem_singleton.1 hq
        exact absurd hasked (by decide)
  rw [Schema.check_eq] at h ⊢
  refine Schema.checkAt_object_mono (fun p hp => ⟨_, List.mem_singleton_self _, ?_⟩) (fun q hq _ => ?_)
    (List.Subset.refl _) (fun h => h) h
  · cases List.mem_singleton.1 hp
    rfl
  · cases List.mem_singleton.1 hq
    exact ⟨_, List.mem_singleton_self _, rfl, hrecord _⟩

section More
variable {withEnabled' : Bool} (hmore : withEnabled = true → withEnabled' = true)
include hmore

theorem check_createSegment_mono (h : (createSegment withEnabled).check j = .ok ()) :
    (createSegment withEnabled').check j = .ok () := by
  cases withEnabled with
  | true => rwa [hmore rfl]
  | false =>
    cases withEnabled' with
    | false => exact h
    | true => exact check_segment_mono (List.Subset.refl _) (fun h => h) h

theorem check_updateSegment_mono (h : (updateSegment withEnabled).check j = .ok ()) :
    (updateSegment withEnabled').check j = .ok () := by
  cases withEnabled with
  | true => rwa [hmore rfl]
  | false =>
    cases withEnabled' with
    | false => exact h
    | true => exact check_segment_mono (by decide) (by decide) h

end More

end Schemas

open Schemas

variable {attrs : List (String × Json)} {withEnabled : Bool}

/-! ## Segments -/

/-- The draft of a segment says what the attributes say. A missing description is one that is `null`. -/
structure SegmentDraft.Matches (d : SegmentDraft) (attrs : List (String × Json)) : Prop where
  name : lookup? "name" attrs = some (.str d.name)
  description : (lookup? "description" attrs).getD .null = .ofText? d.description
  recoveryMethod : lookup? "recovery_method" attrs = some (.str d.recoveryMethod.name)
  serviceType : lookup? "service_type" attrs = some (.str d.serviceType)
  enabled : (lookup? "enabled" attrs).map Flag.ofJson? = d.enabled.map some

/-- The patch of a segment says what the attributes say. A missing description is not one that is `null`. -/
structure SegmentPatch.Matches (d : SegmentPatch) (attrs : List (String × Json)) : Prop where
  name : lookup? "name" attrs = d.name.map .str
  description : lookup? "description" attrs = d.description.map .ofText?
  recoveryMethod : lookup? "recovery_method" attrs = d.recoveryMethod.map (.str ·.name)
  serviceType : lookup? "service_type" attrs = d.serviceType.map .str
  enabled : (lookup? "enabled" attrs).map Flag.ofJson? = d.enabled.map some

theorem SegmentDraft.exists_of_check (h : (createSegment withEnabled).check j = .ok ()) :
    ∃ attrs, j.get? "segment" = some (.obj attrs) ∧ ∃ d, ofBody? j = some d ∧ d.Matches attrs := by
  obtain ⟨attrs, hj, h⟩ := accepts_of_check h
  obtain ⟨name, hname, hname'⟩ := h.required_text "name" rfl (by simp)
  obtain ⟨description, hdescription, hdescription'⟩ :=
    Record.optional_ofText? (h.nullable_text "description" rfl)
  obtain ⟨method, hmethod, hmethod'⟩ :=
    h.required_named "recovery_method" rfl RecoveryMethod.ofName?_name (by simp)
  obtain ⟨service, hservice, hservice'⟩ := h.required_text "service_type" rfl (by simp)
  obtain ⟨enabled, henabled, henabled'⟩ := h.enabled
  refine ⟨attrs, hj, ⟨name, description, method, service, enabled⟩, ?_, ?_⟩
  · rw [ofBody?, Record.inner?_of_get? hj]
    simp [ofJson?, Record.fields?, segmentFields, hname, hdescription, hmethod, hservice, henabled]
  · exact ⟨hname', hdescription', hmethod', hservice', henabled'⟩

theorem SegmentPatch.exists_of_check (h : (updateSegment withEnabled).check j = .ok ()) :
    ∃ attrs, j.get? "segment" = some (.obj attrs) ∧ ∃ d, ofBody? j = some d ∧ d.Matches attrs := by
  obtain ⟨attrs, hj, h⟩ := accepts_of_check h
  obtain ⟨name, hname, hname'⟩ := h.optional_text "name" rfl
  obtain ⟨description, hdescription, hdescription'⟩ :=
    Record.clearable_ofText? (h.nullable_text "description" rfl)
  obtain ⟨method, hmethod, hmethod'⟩ :=
    h.optional_named "recovery_method" rfl RecoveryMethod.ofName?_name
  obtain ⟨service, hservice, hservice'⟩ := h.optional_text "service_type" rfl
  obtain ⟨enabled, henabled, henabled'⟩ := h.enabled
  refine ⟨attrs, hj, ⟨name, description, method, service, enabled⟩, ?_, ?_⟩
  · rw [ofBody?, Record.inner?_of_get? hj]
    simp [ofJson?, Record.fields?, segmentFields, hname, hdescription, hmethod, hservice, henabled]
  · exact ⟨hname', hdescription', hmethod', hservice', henabled'⟩

/-! ## Hosts -/

structure HostDraft.Matches (d : HostDraft) (attrs : List (String × Json)) : Prop where
  name : lookup? "name" attrs = some (.str d.name)
  hostType : lookup? "type" attrs = some (.str d.hostType)
  controlAttributes : lookup? "control_attributes" attrs = some (.str d.controlAttributes)
  reserved : (lookup? "reserved" attrs).map Flag.ofJson? = d.reserved.map some
  onMaintenance : (lookup? "on_maintenance" attrs).map Flag.ofJson? = d.onMaintenance.map some

structure HostPatch.Matches (d : HostPatch) (attrs : List (String × Json)) : Prop where
  name : lookup? "name" attrs = d.name.map .str
  hostType : lookup? "type" attrs = d.hostType.map .str
  controlAttributes : lookup? "control_attributes" attrs = d.controlAttributes.map .str
  reserved : (lookup? "reserved" attrs).map Flag.ofJson? = d.reserved.map some
  onMaintenance : (lookup? "on_maintenance" attrs).map Flag.ofJson? = d.onMaintenance.map some

theorem HostDraft.exists_of_check (h : createHost.check j = .ok ()) :
    ∃ attrs, j.get? "host" = some (.obj attrs) ∧ ∃ d, ofBody? j = some d ∧ d.Matches attrs := by
  obtain ⟨attrs, hj, h⟩ := accepts_of_check h
  obtain ⟨name, hname, hname'⟩ := h.required_text "name" rfl (by simp)
  obtain ⟨type, htype, htype'⟩ := h.required_text "type" rfl (by simp)
  obtain ⟨control, hcontrol, hcontrol'⟩ := h.required_text "control_attributes" rfl (by simp)
  obtain ⟨reserved, hreserved, hreserved'⟩ := h.optional_flag "reserved" rfl
  obtain ⟨maintenance, hmaintenance, hmaintenance'⟩ := h.optional_flag "on_maintenance" rfl
  refine ⟨attrs, hj, ⟨name, type, control, reserved, maintenance⟩, ?_, ?_⟩
  · rw [ofBody?, Record.inner?_of_get? hj]
    simp [ofJson?, Record.fields?, hostFields, hname, htype, hcontrol, hreserved, hmaintenance]
  · exact ⟨hname', htype', hcontrol', hreserved', hmaintenance'⟩

theorem HostPatch.exists_of_check (h : updateHost.check j = .ok ()) :
    ∃ attrs, j.get? "host" = some (.obj attrs) ∧ ∃ d, ofBody? j = some d ∧ d.Matches attrs := by
  obtain ⟨attrs, hj, h⟩ := accepts_of_check h
  obtain ⟨name, hname, hname'⟩ := h.optional_text "name" rfl
  obtain ⟨type, htype, htype'⟩ := h.optional_text "type" rfl
  obtain ⟨control, hcontrol, hcontrol'⟩ := h.optional_text "control_attributes" rfl
  obtain ⟨reserved, hreserved, hreserved'⟩ := h.optional_flag "reserved" rfl
  obtain ⟨maintenance, hmaintenance, hmaintenance'⟩ := h.optional_flag "on_maintenance" rfl
  refine ⟨attrs, hj, ⟨name, type, control, reserved, maintenance⟩, ?_, ?_⟩
  · rw [ofBody?, Record.inner?_of_get? hj]
    simp [ofJson?, Record.fields?, hostFields, hname, htype, hcontrol, hreserved, hmaintenance]
  · exact ⟨hname', htype', hcontrol', hreserved', hmaintenance'⟩

/-! ## Notifications -/

/-- The draft of a notification says what the attributes say. Its time is the instant that the attribute denotes as
an RFC 3339 timestamp. -/
structure NotificationDraft.Matches (d : NotificationDraft) (attrs : List (String × Json)) : Prop where
  kind : lookup? "type" attrs = some (.str d.kind.name)
  hostName : lookup? "hostname" attrs = some (.str d.hostName)
  generatedAt : ∃ s, lookup? "generated_time" attrs = some (.str s) ∧
    Time.Timestamp.strict? s = some d.generatedAt
  payload : lookup? "payload" attrs = some d.payload

/-- The schema takes a time in the strict form, which the reader of drafts reads in the wider one. -/
theorem Schemas.Accepts.instant {properties : List (String × Schema)} {needed : List String}
    (h : Accepts properties needed attrs) (name : String)
    (hp : lookup? name properties = some (.string { format := some .dateTime })) (hn : name ∈ needed) :
    ∃ t, Record.required Record.instant? (lookup? name attrs) = some t ∧
      ∃ s, lookup? name attrs = some (.str s) ∧ Time.Timestamp.strict? s = some t := by
  obtain ⟨v, hv⟩ := Option.isSome_iff_exists.1 (h.isSome name hn)
  obtain ⟨s, rfl, hallow⟩ := h.text name hp v hv
  have haccepts : TextFormat.dateTime.accepts s = true := hallow.format _ rfl
  obtain ⟨t, ht⟩ := Option.isSome_iff_exists.1 haccepts
  refine ⟨t, ?_, s, hv, ht⟩
  rw [hv]
  exact Time.Timestamp.lenient?_of_strict? ht

theorem NotificationDraft.exists_of_check (h : createNotification.check j = .ok ()) :
    ∃ attrs, j.get? "notification" = some (.obj attrs) ∧ ∃ d, ofBody? j = some d ∧ d.Matches attrs := by
  obtain ⟨attrs, hj, h⟩ := accepts_of_check h
  obtain ⟨kind, hkind, hkind'⟩ := h.required_named "type" rfl FailureKind.ofName?_name (by simp)
  obtain ⟨host, hhost, hhost'⟩ := h.required_text "hostname" rfl (by simp)
  obtain ⟨t, ht, ht'⟩ := h.instant "generated_time" rfl (by simp)
  obtain ⟨payload, hpayload⟩ := Option.isSome_iff_exists.1 (h.isSome "payload" (by simp))
  have hpayload' : Record.required some (lookup? "payload" attrs) = some payload := by
    rw [hpayload]
    rfl
  refine ⟨attrs, hj, ⟨kind, host, t, payload⟩, ?_, ?_⟩
  · rw [ofBody?, Record.inner?_of_get? hj]
    simp [ofJson?, Record.fields?, notificationFields, hkind, hhost, ht, hpayload']
  · exact ⟨hkind', hhost', ht', hpayload⟩

/-! ## All bodies -/

/-- The bodies of requests that write, by what the schema and the reader are for. -/
inductive BodyKind where
  | createSegment (withEnabled : Bool)
  | updateSegment (withEnabled : Bool)
  | createHost
  | updateHost
  | createNotification

namespace BodyKind

def schema : BodyKind → Schema
  | createSegment withEnabled => Schemas.createSegment withEnabled
  | updateSegment withEnabled => Schemas.updateSegment withEnabled
  | createHost => Schemas.createHost
  | updateHost => Schemas.updateHost
  | createNotification => Schemas.createNotification

/-- The only key of the body. -/
def key : BodyKind → String
  | createSegment _ => "segment"
  | updateSegment _ => "segment"
  | createHost => "host"
  | updateHost => "host"
  | createNotification => "notification"

/-- Whether the body can be read, and what it is read as says what the attributes say. -/
def Reads (k : BodyKind) (body : Json) (attrs : List (String × Json)) : Prop :=
  match k with
  | createSegment _ => ∃ d, SegmentDraft.ofBody? body = some d ∧ d.Matches attrs
  | updateSegment _ => ∃ d, SegmentPatch.ofBody? body = some d ∧ d.Matches attrs
  | createHost => ∃ d, HostDraft.ofBody? body = some d ∧ d.Matches attrs
  | updateHost => ∃ d, HostPatch.ofBody? body = some d ∧ d.Matches attrs
  | createNotification => ∃ d, NotificationDraft.ofBody? body = some d ∧ d.Matches attrs

/-- A body that its schema accepts is an object with attributes under its key, and can be read as what they say. -/
theorem reads_of_check {k : BodyKind} {body : Json} (h : k.schema.check body = .ok ()) :
    ∃ attrs, body.get? k.key = some (.obj attrs) ∧ k.Reads body attrs := by
  cases k with
  | createSegment withEnabled => exact SegmentDraft.exists_of_check h
  | updateSegment withEnabled => exact SegmentPatch.exists_of_check h
  | createHost => exact HostDraft.exists_of_check h
  | updateHost => exact HostPatch.exists_of_check h
  | createNotification => exact NotificationDraft.exists_of_check h

/-- A body that takes the description of a segment away and enables it by a word. -/
def clearing : Json := .obj [("segment", .obj [("description", .null), ("enabled", .str "Yes")])]

theorem reads_clearing : (updateSegment true).schema.check clearing = .ok () ∧
    ∃ attrs, clearing.get? "segment" = some (.obj attrs) ∧ (updateSegment true).Reads clearing attrs :=
  ⟨rfl, reads_of_check (k := updateSegment true) rfl⟩

example : SegmentPatch.ofBody? clearing = some { description := some none, enabled := some true } := rfl

end BodyKind

end Standby
