import Mathlib.Data.List.Infix
import Standby.Proofs.Engine.Gates
/-!
# Faults that a client can do something about

An error is the client's if its code is one of those for requests that are wrong, if it has the usual status of its
code, and if the client is told something else than that the server could not comply. Whatever a request is refused
with before its handler is called is the client's.
-/

namespace Standby

/-! ## Messages -/

/-- A text has another one as a part. -/
def Occurs (part s : String) : Prop := part.toList <:+: s.toList

instance (part s : String) : Decidable (Occurs part s) := inferInstanceAs (Decidable (_ <:+: _))

namespace Occurs

variable {part s t : String}

theorem refl (s : String) : Occurs s s := List.infix_rfl

theorem left (h : Occurs part s) : Occurs part (s ++ t) := by
  unfold Occurs
  rw [String.toList_append]
  exact h.trans (List.infix_append' [] s.toList t.toList)

theorem right (h : Occurs part t) : Occurs part (s ++ t) := by
  unfold Occurs
  rw [String.toList_append]
  exact h.trans (List.suffix_append _ _).isInfix

end Occurs

/-- What a client is told when a handler was given what it cannot work with. -/
def couldNotComply : String := ErrorCode.badArgument.generalMessage?.getD ""

/-- Texts that do not occur in it. -/
def foreignParts : List String :=
  ["'", ":", "[", "b", "g", "x", "A", "I", "V", " is too short", " is less than the minimum of ",
    "The method specified is not allowed for this resource."]

theorem not_occurs_foreign : ∀ part ∈ foreignParts, ¬Occurs part couldNotComply := by decide +kernel

/-- A message in which one of these texts occurs is another one. -/
theorem ne_couldNotComply {message : String} (part : String) (hpart : part ∈ foreignParts) (h : Occurs part message) :
    message ≠ couldNotComply := by
  rintro rfl
  exact not_occurs_foreign part hpart h

/-! ## Errors of clients -/

/-- Whether errors with a code are the server's: it lacks something, is in disorder, or has called a handler that cannot
work with what it was given. -/
def ErrorCode.isServers : ErrorCode → Bool
  | .notImplemented | .serviceUnavailable | .badArgument | .internalError => true
  | _ => false

namespace ErrorCode

variable {c : ErrorCode}

theorem status_bounds (h : c.isServers = false) : 400 ≤ c.status ∧ c.status < 500 := by
  revert h
  cases c <;> decide

/-- The faults of clients all have names of their own. -/
theorem name_status_ne (h : c.isServers = false) : Fault.name c.status ≠ "failsafeFault" := by
  revert h
  cases c <;> decide

end ErrorCode

/-- A fault that tells the client what is wrong with its request. -/
structure Fault.IsClients (f : Fault) : Prop where
  status : f.status < 500
  name : Fault.name f.status ≠ "failsafeFault"
  message : f.message ≠ couldNotComply

/-- An error that tells the client what is wrong with its request. -/
structure ApiError.IsClients (e : ApiError) : Prop where
  code : e.code.isServers = false
  status : e.status = e.code.status
  message : e.clientMessage ≠ couldNotComply

namespace ApiError

variable {e : ApiError}

theorem IsClients.status_bounds (h : e.IsClients) : 400 ≤ e.status ∧ e.status < 500 := by
  rw [h.status]
  exact ErrorCode.status_bounds h.code

theorem IsClients.code_ne (h : e.IsClients) : e.code ≠ .badArgument ∧ e.code ≠ .internalError := by
  refine ⟨fun hcode => ?_, fun hcode => ?_⟩
  · have := h.code
    rw [hcode] at this
    cases this
  · have := h.code
    rw [hcode] at this
    cases this

/-- Without a catalog of messages in other languages the fault of a client's error is as good as the error. -/
theorem IsClients.fault (h : e.IsClients) (language : Option String) : (Fault.ofError e language none).IsClients where
  status := h.status_bounds.2
  name := by
    show Fault.name e.status ≠ "failsafeFault"
    rw [h.status]
    exact ErrorCode.name_status_ne h.code
  message := by
    have hmessage : (Fault.ofError e language none).message = e.clientMessage := by cases language <;> rfl
    rw [hmessage]
    exact h.message

/-- An error is the client's if its code is and if its message is shown and has a part that the general one has not. -/
theorem isClients_of {code : ErrorCode} {message : String} (part : String) (hcode : code.isServers = false)
    (hshown : code.generalMessage? = none) (hpart : part ∈ foreignParts) (h : Occurs part message) :
    (of code message).IsClients where
  code := hcode
  status := rfl
  message := by
    rw [clientMessage, of, hshown]
    exact ne_couldNotComply part hpart h

/-- What is missing is named to the client. -/
theorem isClients_missing {code : ErrorCode} (what : String) (hcode : code.isServers = false)
    (hshown : code.generalMessage? = none) : (of code (what ++ " could not be found.")).IsClients :=
  isClients_of "b" hcode hshown (by simp [foreignParts]) (.right (by decide))

theorem isClients_noRoute : noRoute.IsClients :=
  isClients_of "b" rfl rfl (by simp [foreignParts]) (by decide)

theorem isClients_badMethod : badMethod.IsClients :=
  isClients_of "The method specified is not allowed for this resource." rfl rfl (by simp [foreignParts]) (.refl _)

theorem isClients_invalidContentType (type : String) : (invalidContentType type).IsClients :=
  isClients_of "I" rfl rfl (by simp [foreignParts]) (.left (.left (by decide)))

theorem isClients_versionNotFound (action : String) : (versionNotFound action).IsClients where
  code := rfl
  status := rfl
  message := isClients_noRoute.message

theorem isClients_invalidAction (action : String) : (invalidAction action).IsClients :=
  isClients_of ":" rfl rfl (by simp [foreignParts]) (.left (by decide))

theorem isClients_projectMismatch (inPath ofCaller : String) : (projectMismatch inPath ofCaller).IsClients :=
  isClients_of "'" rfl rfl (by simp [foreignParts]) (.right (.refl _))

/-- Every complaint has a wording of its own. -/
theorem reason_ne (value : Json) (c : Complaint) : c.reason value ≠ couldNotComply := by
  cases c with
  | notOfType type => exact ne_couldNotComply "'" (by simp [foreignParts]) (.right (.refl _))
  | missingKey key => exact ne_couldNotComply "'" (by simp [foreignParts]) (.left (.left (.refl _)))
  | noGroup => exact ne_couldNotComply "g" (by simp [foreignParts]) (.right (by decide))
  | unexpectedKey key => exact ne_couldNotComply "'" (by simp [foreignParts]) (.right (by decide))
  | notOneOf options => exact ne_couldNotComply "[" (by simp [foreignParts]) (.left (.left (.right (by decide))))
  | notAFlag => exact ne_couldNotComply "[" (by simp [foreignParts]) (.left (.left (.right (by decide))))
  | tooShort => exact ne_couldNotComply " is too short" (by simp [foreignParts]) (.right (.refl _))
  | tooLong => exact ne_couldNotComply "g" (by simp [foreignParts]) (.right (by decide))
  | noMatch pattern => exact ne_couldNotComply "'" (by simp [foreignParts]) (.right (.refl _))
  | badName => exact ne_couldNotComply "'" (by simp [foreignParts]) (.left (by decide))
  | badFormat format => exact ne_couldNotComply "'" (by simp [foreignParts]) (.right (.refl _))
  | tooSmall n min =>
    exact ne_couldNotComply " is less than the minimum of " (by simp [foreignParts]) (.left (.right (.refl _)))
  | tooLarge n max => exact ne_couldNotComply "g" (by simp [foreignParts]) (.left (.right (by decide)))

theorem isClients_ofViolation (v : Violation) : (ofViolation v).IsClients where
  code := rfl
  status := rfl
  message := by
    show v.message ≠ couldNotComply
    unfold Violation.message
    split
    · exact ne_couldNotComply "I" (by simp [foreignParts]) (.left (.left (.left (.left (.left (by decide))))))
    · exact reason_ne v.value v.complaint

/-- The body cannot be read, or has not exactly one key where it should. -/
theorem isClients_malformedBody {message : String} (h : message ∈ ["Malformed request body", "too many body keys"]) :
    (malformedBody message).IsClients := by
  refine isClients_of "b" rfl rfl (by simp [foreignParts]) ?_
  simp only [List.mem_cons, List.not_mem_nil, or_false] at h
  rcases h with rfl | rfl
  · decide
  · decide

theorem isClients_invalidText (raw : String) : (ofVersionError (.invalidText raw)).IsClients :=
  isClients_of "A" rfl rfl (by simp [foreignParts]) (.left (.left (by decide)))

theorem isClients_unsupported (requested min max : Version) :
    (ofVersionError (.unsupported requested min max)).IsClients :=
  isClients_of "V" rfl rfl (by simp [foreignParts]) (.left (.left (.left (.left (.left (.left (by decide)))))))

end ApiError

/-! ## Versions -/

namespace VersionHeader

theorem fails_parse (s : String) :
    FailsWith ApiError.IsClients ((VersionToken.parse s).mapError ApiError.ofVersionError) := by
  apply FailsWith.mapError
  intro e h
  rw [Dispatcher.parse_eq_error h]
  exact ApiError.isClients_invalidText _

theorem fails_said {service entry : String} {r : Except ApiError VersionToken} (h : said? service entry = some r) :
    FailsWith ApiError.IsClients r := by
  unfold said? at h
  split at h
  · cases h
  split at h
  · cases h
  simp only [Option.some.injEq] at h
  split at h
  · cases h
    exact failsWith_error (ApiError.isClients_invalidText _)
  · cases h
    exact fails_parse _

theorem fails_requested (name service : String) (lines : List String) :
    FailsWith ApiError.IsClients (requested name service lines) := by
  induction lines with
  | nil => exact failsWith_ok _
  | cons line lines ih =>
    unfold requested
    split
    · exact failsWith_error
        (ApiError.isClients_of "A" rfl rfl (by simp [foreignParts]) (.right (by decide)))
    split
    · exact failsWith_ok _
    · rename_i e hsaid
      obtain ⟨entry, -, hentry⟩ := List.exists_of_findSome?_eq_some hsaid
      exact failsWith_error (fails_said hentry e rfl)
    · exact ih

theorem fails_resolve (name service : String) (window : Window) (lines : List String) :
    FailsWith ApiError.IsClients (resolve name service window lines) := by
  apply (fails_requested name service lines).bind
  intro token
  apply FailsWith.mapError
  intro e h
  obtain ⟨v, -, -, rfl⟩ := Dispatcher.resolve_eq_error h
  exact ApiError.isClients_unsupported _ _ _

end VersionHeader

/-! ## Gates -/

namespace Dispatcher

variable {σ κ : Type} {d : Dispatcher σ κ}

theorem fails_locate (req : Request) : FailsWith ApiError.IsClients (d.locate req) := by
  rcases d.locate_cases req with ⟨route, entry, -, h⟩ | ⟨-, h⟩
  · exact h ▸ failsWith_ok _
  · exact h ▸ failsWith_error ApiError.isClients_noRoute

theorem fails_versionOf (entry : Entry σ κ) (req : Request) :
    FailsWith ApiError.IsClients (d.versionOf entry req) := by
  unfold versionOf
  exact .ite ((VersionHeader.fails_resolve _ _ _ _).map some) (failsWith_ok _)

theorem fails_requestType (header : Option String) : FailsWith ApiError.IsClients (d.offers.requestType header) := by
  rcases requestType_cases d.offers header with ⟨-, type, h⟩ | ⟨-, type, h⟩
  · exact h ▸ failsWith_ok _
  · exact h ▸ failsWith_error (ApiError.isClients_invalidContentType type)

theorem fails_decodeBody (req : Request) : FailsWith ApiError.IsClients (decodeBody req) := by
  rcases decodeBody_cases req with ⟨body, h⟩ | h
  · exact h ▸ failsWith_ok _
  · exact h ▸ failsWith_error (ApiError.isClients_malformedBody (by simp))

theorem fails_actionName (method : String) (target : RouteTarget) (body : Option Json) :
    FailsWith ApiError.IsClients (actionName method target body) := by
  unfold actionName
  split
  · exact failsWith_ok _
  · exact failsWith_ok _
  · exact failsWith_ok _
  · exact failsWith_ok _
  · exact failsWith_ok _
  · split
    · exact failsWith_ok _
    · exact failsWith_error (ApiError.isClients_malformedBody (by simp))
    · exact failsWith_error (ApiError.isClients_malformedBody (by simp))
  · exact failsWith_error ApiError.isClients_badMethod

theorem fails_handlersOf (entry : Entry σ κ) (target : RouteTarget) (action : String) :
    FailsWith ApiError.IsClients (handlersOf entry target action) := by
  rcases handlersOf_cases entry target action with ⟨-, handlers, h⟩ | ⟨-, h⟩
  · exact h ▸ failsWith_ok _
  rw [h]
  split
  · exact failsWith_error (ApiError.isClients_invalidAction action)
  · exact failsWith_error ApiError.isClients_badMethod

theorem fails_checkProject (inPath : Option String) (caller : Caller) :
    FailsWith ApiError.IsClients (checkProject inPath caller) := by
  rcases checkProject_cases inPath caller with ⟨-, h⟩ | ⟨p, -, -, h⟩
  · exact h ▸ failsWith_ok _
  · exact h ▸ failsWith_error (ApiError.isClients_projectMismatch _ _)

theorem fails_contextOf (route : Route) (entry : Entry σ κ) (version : Option Version) (req : Request) :
    FailsWith ApiError.IsClients (d.contextOf route entry version req) := by
  apply (fails_requestType _).bind
  intro type
  apply (fails_decodeBody req).bind
  intro body
  apply (fails_actionName _ _ _).bind
  intro action
  apply (fails_handlersOf _ _ _).bind
  intro handlers
  exact (fails_checkProject _ _).bind fun _ => failsWith_ok _

/-- Whatever a request is refused with before its handler is called is its client's error. -/
theorem Refuses.isClients {req : Request} {version : Option Version} {e : ApiError} (h : d.Refuses req version e) :
    e.IsClients := by
  cases h with
  | route h => exact fails_locate req e h
  | version located h => exact fails_versionOf _ req e h
  | gate located versioned h => exact fails_contextOf _ _ _ req e h
  | unbound a => exact ApiError.isClients_versionNotFound a.ctx.action
  | violation a v => exact ApiError.isClients_ofViolation v

end Dispatcher

end Standby
