import Standby.Proofs.Engine.Gates
import Standby.Proofs.Text.Roundtrip
/-!
# The version of a reply

A reply says which version it was made at: it has the version header with this one entry, and a `vary` that names the
header. A fault has the version that the request was found to have, any other reply the one that the request has in the
end, which is the same as long as no call has given it another. A reply that is made at no version has these headers only
if an extension has given them.
-/

namespace Standby

variable {σ κ : Type}

/-! ## Values of headers -/

namespace Headers

variable {h : Headers} {name value other : String}

theorem values_append (h : Headers) (name value other : String) :
    (h.append name value).values other = h.values other ++ if name = other then [value] else [] := by
  by_cases hn : name = other <;> simp [append, values, hn]

theorem values_without (h : Headers) (hn : other ≠ name) : (h.without name).values other = h.values other := by
  rw [without, values, values, List.filter_filter]
  congr 2
  funext p
  by_cases hp : p.1 = other <;> simp [hp, hn]

@[simp]
theorem values_without_self (h : Headers) (name : String) : (h.without name).values name = [] := by
  simp [without, values, List.filter_filter]

@[simp]
theorem values_set_self (h : Headers) (name value : String) : (h.set name value).values name = [value] := by
  rw [set, ← append, values_append, values_without_self, if_pos rfl, List.nil_append]

theorem values_set (h : Headers) (value : String) (hn : other ≠ name) :
    (h.set name value).values other = h.values other := by
  rw [set, ← append, values_append, values_without h hn, if_neg (Ne.symm hn), List.append_nil]

theorem values_setIfValid_self (h : Headers) (name : String) (hv : isValue value = true) :
    (h.setIfValid name value).values name = [value] := by
  rw [setIfValid, if_pos hv, values_set_self]

theorem values_setIfValid (h : Headers) (value : String) (hn : other ≠ name) :
    (h.setIfValid name value).values other = h.values other := by
  unfold setIfValid
  split
  · exact values_set h value hn
  · rfl

theorem isValue_append (a b : String) : isValue (a ++ b) = (isValue a && isValue b) := by
  rw [isValue, String.toList_append, List.all_append]
  rfl

/-- Numbers can stand in the value of a header. -/
theorem isValue_toString (n : Nat) : isValue (toString n) = true := by
  refine List.all_eq_true.2 fun c hc => ?_
  have hrange := Text.toNat_of_isDigit (Text.isDigit_of_mem_toDigits (n := n) (by simpa using hc))
  simp only [Bool.or_eq_true, Bool.and_eq_true, decide_eq_true_eq]
  omega

end Headers

/-- The entry of a version can be the value of a header if the name of the service can. -/
theorem VersionHeader.isValue_entry {service : String} (h : Headers.isValue service = true) (v : Version) :
    Headers.isValue (VersionHeader.entry service v) = true := by
  have hspace : Headers.isValue " " = true := by decide
  have hdot : Headers.isValue "." = true := by decide
  rw [VersionHeader.entry, Version.text]
  simp only [Headers.isValue_append, Headers.isValue_toString, h, hspace, hdot, Bool.and_self]

namespace Dispatcher

variable {d : Dispatcher σ κ}

/-! ## The mark -/

theorem values_stamp (hservice : Headers.isValue d.service = true) (hheader : d.versionHeader ≠ "vary")
    (v : Version) (r : Reply) :
    (d.stamp (some v) r).headers.values d.versionHeader = [VersionHeader.entry d.service v] := by
  rw [stamp]
  simp only [Headers.values_append, if_neg (Ne.symm hheader), List.append_nil]
  exact Headers.values_setIfValid_self _ _ (VersionHeader.isValue_entry hservice v)

theorem mem_vary_stamp (d : Dispatcher σ κ) (v : Version) (r : Reply) :
    d.versionHeader ∈ (d.stamp (some v) r).headers.values "vary" := by
  rw [stamp]
  simp [Headers.values_append]

/-! ## What extensions give a reply -/

/-- The headers that the server sets in a reply of its own accord, its mark apart. -/
def ownHeaders : List String := ["content-type", "retry-after", "content-language"]

/-- The replies that a request can come to before any mark, each with the headers that the extensions have given it:
those of the response that a hook answers with, of the handler's finished reply, or of the handler's response as the
hooks after it have left it. A fault has been given none. -/
inductive Gives (d : Dispatcher σ κ) (req : Request) (world : σ) : Reply → Headers → Prop
  | fault (e : ApiError) : Gives d req world (Fault.reply e (d.languageOf req) d.catalog) []
  | answer (a : Admitted d req) {k : Nat} {h : Hook σ κ} {r : Response} {w₁ w₂ : Workspace σ κ}
    (passes : Passes ((hooksIn a.entry (a.ctx.start world)).take k) (a.ctx.start world) w₁)
    (hook : (hooksIn a.entry (a.ctx.start world))[k]? = some h)
    (call : (h.before w₁.request).run.run w₁ = (.ok (some r), w₂)) :
    Gives d req world (serialize w₂ r) r.headers
  | finished (a : Admitted d req) {action : Action σ κ} {reply : Reply} {w₁ w₂ : Workspace σ κ}
    (reaches : Reaches a.ctx.effectiveVersion (hooksIn a.entry (a.ctx.start world)) a.handlers (a.ctx.start world) action w₁)
    (call : (action.handler w₁.request).run.run w₁ = (.ok (.raw reply), w₂)) :
    Gives d req world reply reply.headers
  | response (a : Admitted d req) {action : Action σ κ} {o : Outcome} {r r' : Response} {w₁ w₂ w₃ : Workspace σ κ}
    (reaches : Reaches a.ctx.effectiveVersion (hooksIn a.entry (a.ctx.start world)) a.handlers (a.ctx.start world) action w₁)
    (call : (action.handler w₁.request).run.run w₁ = (.ok o, w₂)) (means : Outcome.Means action.status o r)
    (revises : Revises (hooksIn a.entry (a.ctx.start world)).reverse r w₂ r' w₃) :
    Gives d req world (serialize w₃ r') r'.headers

/-- A reply without a mark: its headers are those that the extensions have given it, and others that the server sets. -/
def Unmarked (d : Dispatcher σ κ) (req : Request) (world : σ) (r : Reply) : Prop :=
  ∃ given, d.Gives req world r given ∧ ∀ name ∉ ownHeaders, r.headers.values name = given.values name

/-- A reply is marked with a version, or if there is none it has in the place of a mark only what the extensions have
given it. -/
def Bears (d : Dispatcher σ κ) (req : Request) (world : σ) (r : Reply) : Option Version → Prop
  | some v => r.headers.values d.versionHeader = [VersionHeader.entry d.service v] ∧
    d.versionHeader ∈ r.headers.values "vary"
  | none => ∃ given, d.Gives req world r given ∧ r.headers.values d.versionHeader = given.values d.versionHeader ∧
    r.headers.values "vary" = given.values "vary"

theorem values_serialize (w : Workspace σ κ) (r : Response) {name : String} (hname : name ∉ ownHeaders) :
    (serialize w r).headers.values name = r.headers.values name := by
  have hne : name ≠ "content-type" := fun h => hname (by rw [h]; decide)
  unfold serialize Response.toReply
  split
  · rfl
  · exact Headers.values_setIfValid _ _ hne

theorem unmarked_fault (d : Dispatcher σ κ) (req : Request) (world : σ) (e : ApiError) :
    d.Unmarked req world (d.fault req none e) := by
  refine ⟨[], .fault e, fun name hname => ?_⟩
  simp only [ownHeaders, List.mem_cons, List.not_mem_nil, or_false, not_or] at hname
  obtain ⟨htype, hretry, hlanguage⟩ := hname
  have hfirst : Headers.values [("content-type", Offers.jsonType)] name = [] := by
    simp [Headers.values, Ne.symm htype]
  have hfault : d.fault req none e = Fault.reply e (d.languageOf req) d.catalog := rfl
  rw [hfault]
  simp only [Fault.reply]
  split <;> split <;>
    simp only [Headers.values_setIfValid _ _ hretry, Headers.values_setIfValid _ _ hlanguage, hfirst] <;> rfl

theorem fault_eq_stamp (d : Dispatcher σ κ) (req : Request) (version : Option Version) (e : ApiError) :
    d.fault req version e = d.stamp version (d.fault req none e) := rfl

/-- Whichever course the calls of a request take, a reply that comes of them has the headers that they have given it. -/
theorem Admitted.unmarked {req : Request} (a : Admitted d req) {world : σ} {reply : Reply}
    (hresult : (a.run world).result = .ok reply) : d.Unmarked req world reply := by
  obtain ⟨calls, w, h⟩ : ∃ calls w, Course a.ctx.effectiveVersion (hooksIn a.entry (a.ctx.start world)) a.handlers
    (a.ctx.start world) calls (.ok reply) w := ⟨_, _, hresult ▸ a.course world⟩
  cases h with
  | answered passes hook call => exact ⟨_, .answer a passes hook call, fun _ => values_serialize _ _⟩
  | finished reaches call => exact ⟨_, .finished a reaches call, fun _ _ => rfl⟩
  | completed reaches call means revises =>
    exact ⟨_, .response a reaches call means revises, fun _ => values_serialize _ _⟩

theorem bears_none {req : Request} {world : σ} {r : Reply} (hheader : d.versionHeader ∉ ownHeaders)
    (hr : d.Unmarked req world r) : d.Bears req world r none := by
  obtain ⟨given, hgives, hvalues⟩ := hr
  exact ⟨given, hgives, hvalues _ hheader, hvalues _ (by decide)⟩

/-- What is not marked yet bears the version that it is marked with then. -/
theorem bears_stamp {req : Request} {world : σ} {r : Reply} (hservice : Headers.isValue d.service = true)
    (hheader : d.versionHeader ∉ "vary" :: ownHeaders) (hr : d.Unmarked req world r) (version : Option Version) :
    d.Bears req world (d.stamp version r) version := by
  cases version with
  | none => exact bears_none (List.not_mem_of_not_mem_cons hheader) hr
  | some v => exact ⟨values_stamp hservice (List.ne_of_not_mem_cons hheader) v r, mem_vary_stamp d v r⟩

/-! ## Replies -/

theorem Arrives.version_unique {req : Request} {route route' : Route} {e e' : Entry σ κ} {version version' : Option Version}
    (h : d.Arrives req route e version) (h' : d.Arrives req route' e' version') : version = version' := by
  obtain ⟨-, rfl⟩ := h.leads.unique h'.leads
  have hs := h.served
  have hs' := h'.served
  cases version with
  | none =>
    cases version' with
    | none => rfl
    | some v' => cases hs'.1.symm.trans hs
  | some v =>
    cases version' with
    | none => cases hs.1.symm.trans hs'
    | some v' =>
      obtain ⟨-, token, htoken, hv, -⟩ := hs
      obtain ⟨-, token', htoken', hv', -⟩ := hs'
      cases htoken.symm.trans htoken'
      cases hv.symm.trans hv'
      rfl

/-- A request that does not arrive at a resource gets a fault without a mark. One that does gets a fault with the mark of
the version that it was found to have, or a reply with the mark of the version that it has in the end. -/
theorem reply_cases (hw : d.window.Supports d.window.default) (req : Request) (world : σ) :
    ((∀ route e version, ¬d.Arrives req route e version) ∧
      ∃ err, (d.serve req world).reply = d.fault req none err) ∨
    ∃ route e version, d.Arrives req route e version ∧
      ((∃ err, (d.serve req world).reply = d.fault req version err) ∨
        ∃ (a : Admitted d req) (r : Reply), a.version = version ∧ (a.run world).result = .ok r ∧
          (d.serve req world).reply = d.stamp (a.run world).workspace.request.version r) := by
  rcases locate_cases d req with ⟨route, e, hleads, hl⟩ | ⟨hnone, hl⟩
  case inr =>
    exact .inl ⟨fun route e _ h => hnone ⟨route, e, h.leads⟩, .noRoute, by simp only [serve, hl]⟩
  rcases versionOf_cases hw e req with ⟨version, hserved, hv⟩ | ⟨hnone, err, hv, -⟩
  case inr =>
    refine .inl ⟨fun route' e' version h => ?_, err, by simp only [serve, hl, hv]⟩
    obtain ⟨-, rfl⟩ := hleads.unique h.leads
    exact hnone version h.served
  refine .inr ⟨route, e, version, ⟨hleads, hserved⟩, ?_⟩
  cases hc : d.contextOf route e version req with
  | error err => exact .inl ⟨err, by simp only [serve, hl, hv, hc]⟩
  | ok p =>
    obtain ⟨ctx, handlers⟩ := p
    let a : Admitted d req := ⟨route, e, version, ctx, handlers, hl, hv, hc⟩
    cases hresult : (a.run world).result with
    | error err => exact .inl ⟨err, by rw [a.serve_eq, hresult]; rfl⟩
    | ok r => exact .inr ⟨a, r, rfl, hresult, by rw [a.serve_eq, hresult]; rfl⟩

/-- As long as no call gives the request another version, it has in the end the one that it was found to have. -/
theorem Admitted.version_run {req : Request} (a : Admitted d req) (world : σ)
    (h : ∀ p w₁ w₂, a.Makes world p w₁ w₂ → w₂.request.version = w₁.request.version) :
    (a.run world).workspace.request.version = a.version := by
  rw [← a.ctx_version]
  exact (a.course world).unchanged (·.request.version) h

/-- **The mark.** A fault to a request that is served at a version has the version header with this one entry, and a `vary`
that names the header. Any other reply has the entry of the version that the request has in the end, which is the same
unless a call has given it another; if it has none, the reply has only what the extensions have given it, next to the
headers that describe its body. So does the reply to a request that leads nowhere or whose version is not supported. -/
theorem serve_marks {extensions : ExtensionSet σ κ} (hd : d.IsBuiltFrom extensions)
    (hservice : Headers.isValue d.service = true) (hheader : d.versionHeader ∉ "vary" :: ownHeaders) (req : Request)
    (world : σ) :
    (∀ route e version, d.Arrives req route e version →
      ((∃ err, (d.serve req world).reply = d.fault req version err) ∧ d.Bears req world (d.serve req world).reply version) ∨
      ∃ (a : Admitted d req) (r : Reply), (a.run world).result = .ok r ∧
        d.Bears req world (d.serve req world).reply (a.run world).workspace.request.version ∧
        ((∀ p w₁ w₂, a.Makes world p w₁ w₂ → w₂.request.version = w₁.request.version) →
          (a.run world).workspace.request.version = version)) ∧
    ((∀ route e version, ¬d.Arrives req route e version) → d.Bears req world (d.serve req world).reply none) := by
  rcases reply_cases hd.supports_default req world with
    ⟨hnone, err, hreply⟩ | ⟨route, e, version, harrives, ⟨err, hreply⟩ | ⟨a, r, hversion, hresult, hreply⟩⟩
  · refine ⟨fun route e version h => absurd h (hnone route e version), fun _ => ?_⟩
    rw [hreply]
    exact bears_none (List.not_mem_of_not_mem_cons hheader) (unmarked_fault d req world err)
  · refine ⟨fun route' e' version' h => ?_, fun hnone => absurd harrives (hnone route e version)⟩
    cases harrives.version_unique h
    refine .inl ⟨⟨err, hreply⟩, ?_⟩
    rw [hreply, fault_eq_stamp]
    exact bears_stamp hservice hheader (unmarked_fault d req world err) version
  · refine ⟨fun route' e' version' h => ?_, fun hnone => absurd harrives (hnone route e version)⟩
    cases harrives.version_unique h
    refine .inr ⟨a, r, hresult, ?_, fun hkept => (a.version_run world hkept).trans hversion⟩
    rw [hreply]
    exact bears_stamp hservice hheader (a.unmarked hresult) _

/-- A visitor to the grove is told its version; one who takes a wrong turn is not. -/
theorem serve_marks_grove : (groveDispatcher {}).IsBuiltFrom (grove {}) ∧
    ((groveDispatcher {}).serve visit ()).reply.headers.values "version" = ["grove 1.0"] ∧
    (groveDispatcher {}).Bears ⟨"GET", "/meadow", none, [], []⟩ ()
      ((groveDispatcher {}).serve ⟨"GET", "/meadow", none, [], []⟩ ()).reply none := by
  obtain ⟨hmarked, -⟩ := serve_marks (isBuiltFrom_grove {}) (by decide) (by decide) visit ()
  obtain ⟨-, hunmarked⟩ := serve_marks (isBuiltFrom_grove {}) (by decide) (by decide) ⟨"GET", "/meadow", none, [], []⟩ ()
  have hentry : VersionHeader.entry (groveDispatcher {}).service ⟨1, 0⟩ = "grove 1.0" := by decide
  have hlost : (groveDispatcher {}).router.route? "/meadow" = none := by decide +kernel
  have hversion : ((admittedVisit {}).run ()).workspace.request.version = some ⟨1, 0⟩ := by
    rw [Admitted.run, perform, admittedVisit, hooks_grove]
    rfl
  refine ⟨isBuiltFrom_grove {}, ?_, hunmarked ?_⟩
  · rcases hmarked _ _ (some ⟨1, 0⟩) ⟨⟨rfl, rfl⟩, rfl, none, rfl, rfl, by decide, by decide⟩ with
      ⟨-, hmark, -⟩ | ⟨a, r, -, hbears, -⟩
    · rw [← hentry]
      exact hmark
    · rw [a.unique (admittedVisit {}), hversion] at hbears
      rw [← hentry]
      exact hbears.1
  · rintro route e v ⟨⟨hroute, -⟩, -⟩
    cases hlost.symm.trans hroute

/-- The grove, with the header that describes bodies as its version header. -/
def mislabelled : DispatchSettings := { groveSettings with versionHeader := "content-type" }

theorem isBuiltFrom_mislabelled : (ofExtensions mislabelled (grove {})).IsBuiltFrom (grove {}) :=
  let h := (build_eq_ok_iff.1 (build_grove {})).1
  ⟨mislabelled, build_eq_ok_iff.2 ⟨⟨h.together, h.parents, h.order, by decide⟩, rfl⟩⟩

/-- A visit that is served at version 1.0 can be marked with another one, which a hook has set, and a reply that is not
marked can have a version header all the same, if that is the one that describes its body. -/
theorem visit_mismarked : (groveDispatcher usurper).IsBuiltFrom (grove usurper) ∧
    (∃ route e, (groveDispatcher usurper).Arrives visit route e (some ⟨1, 0⟩)) ∧
    ((groveDispatcher usurper).serve visit ()).reply.headers.values "version" = ["grove 9.9"] ∧
    (ofExtensions mislabelled (grove {})).IsBuiltFrom (grove {}) ∧
    (∀ route e version, ¬(ofExtensions mislabelled (grove {})).Arrives ⟨"GET", "/meadow", none, [], []⟩ route e version) ∧
    ((ofExtensions mislabelled (grove {})).serve ⟨"GET", "/meadow", none, [], []⟩ ()).reply.headers.values
      "content-type" = ["application/json"] := by
  have hlost : (ofExtensions mislabelled (grove {})).router.route? "/meadow" = none := by decide +kernel
  refine ⟨isBuiltFrom_grove usurper, ⟨_, _, ⟨⟨rfl, rfl⟩, rfl, none, rfl, rfl, by decide, by decide⟩⟩, ?_,
    isBuiltFrom_mislabelled, ?_, ?_⟩
  · rw [(admittedVisit usurper).serve_eq, Admitted.run, perform, admittedVisit, hooks_grove]
    decide
  · rintro route e v ⟨⟨hroute, -⟩, -⟩
    cases hlost.symm.trans hroute
  · simp only [serve, locate, hlost]
    rfl

end Dispatcher

end Standby
