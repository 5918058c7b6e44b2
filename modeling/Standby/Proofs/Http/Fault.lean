import Standby.Http.Fault
import Standby.Proofs.Json.Reading
/-!
# What a fault tells

The body of a fault is an object with one key, which is the name of the faults with the status of the error. Its value
holds the status, the message in the words of the client's language, and when to try again if that is said of such an
error. The body is read as it was written.
-/

namespace Standby

/-- The message that stands for a text: what the catalog has for it in the language, or else the text as it is. -/
inductive Catalog.Words (language : Option String) (catalog : Option Catalog) (text : String) : String → Prop
  | translated {l : String} {c : Catalog} {translation : String} (hlanguage : language = some l)
    (hcatalog : catalog = some c) (h : c.inLanguage? text l = some translation) :
    Words language catalog text translation
  | plain (h : ∀ l c, language = some l → catalog = some c → c.inLanguage? text l = none) :
    Words language catalog text text

namespace Fault

variable {e : ApiError} {message : String}

/-- The members that tell of an error: its status, the message, and when to try again, which only clients that have sent
too much are told. -/
structure Tells (e : ApiError) (message : String) (members : List (String × Json)) : Prop where
  code : lookup? "code" members = some (.ofNat e.status)
  message : lookup? "message" members = some (.str message)
  retryAfter : ∀ j, lookup? "retryAfter" members = some j ↔
    (e.status = 413 ∨ e.status = 429) ∧ ∃ s, e.retryAfter = some s ∧ j = .str s
  once : (members.map (·.1)).Nodup
  keys : ∀ k ∈ members.map (·.1), k = "code" ∨ k = "message" ∨ k = "retryAfter"

/-- An object with the name of the fault as its only key. -/
def envelope (e : ApiError) (members : List (String × Json)) : Json := .obj [(name e.status, .obj members)]

/-- The members that a fault is written with. -/
def members (f : Fault) : List (String × Json) :=
  [("code", .ofNat f.status), ("message", .str f.message)] ++ f.retryAfter.toList.map fun s => ("retryAfter", .str s)

theorem words_ofError (e : ApiError) (language : Option String) (catalog : Option Catalog) :
    Catalog.Words language catalog e.clientMessage (ofError e language catalog).message := by
  cases language with
  | none => exact .plain fun l c hl => by cases hl
  | some l =>
    cases catalog with
    | none => exact .plain fun l c _ hc => by cases hc
    | some c =>
      cases h : c.inLanguage? e.clientMessage l with
      | some translation =>
        have hmessage : (ofError e (some l) (some c)).message = translation := by simp [ofError, h]
        exact hmessage ▸ .translated rfl rfl h
      | none =>
        have hmessage : (ofError e (some l) (some c)).message = e.clientMessage := by simp [ofError, h]
        rw [hmessage]
        refine .plain fun l' c' hl hc => ?_
        cases hl
        cases hc
        exact h

theorem retryAfter_ofError (e : ApiError) (language : Option String) (catalog : Option Catalog) {s : String} :
    (ofError e language catalog).retryAfter = some s ↔ (e.status = 413 ∨ e.status = 429) ∧ e.retryAfter = some s := by
  by_cases h : e.status = 413 ∨ e.status = 429 <;> simp [ofError, h]

theorem lookup?_retryAfter (f : Fault) : lookup? "retryAfter" f.members = f.retryAfter.map .str := by
  obtain ⟨status, message, retryAfter⟩ := f
  cases retryAfter <;> rfl

theorem sublist_keys (f : Fault) : List.Sublist (f.members.map (·.1)) ["code", "message", "retryAfter"] := by
  obtain ⟨status, message, retryAfter⟩ := f
  cases retryAfter <;> simp [members]

theorem tells_ofError (e : ApiError) (language : Option String) (catalog : Option Catalog) :
    Tells e (ofError e language catalog).message (ofError e language catalog).members where
  code := rfl
  message := rfl
  retryAfter j := by
    rw [lookup?_retryAfter, Option.map_eq_some_iff]
    simp only [retryAfter_ofError, and_assoc, exists_and_left, @eq_comm _ _ j]
  once := (sublist_keys _).nodup (by decide)
  keys k hk := by simpa using (sublist_keys _).subset hk

/-- A fault is read as it was written. -/
theorem parse?_envelope (f : Fault) (h : e.status < Nat.pow 2 64) (hstatus : f.status = e.status) :
    Json.parse? (envelope e f.members).text = some (envelope e f.members) := by
  apply Json.parse?_text
  have hcount : Json.isCount (.int f.status) = true := Json.isCount_iff.2 ⟨_, hstatus ▸ h, rfl⟩
  obtain ⟨status, message, retryAfter⟩ := f
  cases retryAfter <;>
    simp [envelope, members, Json.isPlain, Json.membersPlain, Json.ofNat, hcount, Json.maxDepth]

/-- The reply to an error has the status of the error, and its body tells of it and of nothing else. -/
theorem exists_reply (e : ApiError) (language : Option String) (catalog : Option Catalog) :
    (reply e language catalog).status = e.status ∧
      ∃ message members, Catalog.Words language catalog e.clientMessage message ∧ Tells e message members ∧
        (reply e language catalog).body = .buffered (envelope e members).text ∧
        (e.status < Nat.pow 2 64 → Json.parse? (envelope e members).text = some (envelope e members)) :=
  ⟨rfl, _, _, words_ofError e language catalog, tells_ofError e language catalog, rfl,
    fun h => parse?_envelope _ h rfl⟩

end Fault

end Standby
