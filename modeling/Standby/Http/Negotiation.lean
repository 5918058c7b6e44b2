import Standby.Error
import Standby.Http.MediaType
import Standby.Http.Quality
import Standby.Text.Blank
/-!
# Negotiation of media types and languages

A client ranks what it takes by quality. Of the media types on offer the best is the one whose most specific
matching range has the greatest quality, the first of several equal ones; of the languages, the one that
matches a range of greatest quality.
-/

namespace Standby

/-- What the server can read and write: media types in order of preference, and languages. -/
structure Offers where
  mediaTypes : List String
  languages : List String
  deriving DecidableEq, Repr

namespace Offers

/-- The media type that is always served. -/
def jsonType : String := "application/json"

/-- Plain JSON, one more media type, and the given languages. -/
def ofPrimary (primary : String) (languages : List String) : Offers :=
  let primary := Text.lower primary
  ⟨if primary = jsonType then [jsonType] else [jsonType, primary], languages⟩

/-- The pieces of a list in a header. -/
def listed (header : String) : List String := (Text.pieces ',' header).map Text.trim

/-- How closely a range matches an offer: not at all, by the wildcard, by type, or by type and subtype. -/
def closeness? (range offer : MediaType) : Option Nat :=
  if range.type = "*" then some 0
  else if range.type ≠ offer.type then none
  else if range.subtype = "*" then some 1
  else if range.subtype = offer.subtype ∧ range.suffix = offer.suffix then some 2
  else none

/-- The quality of a range; one that is missing or cannot be read is full quality. -/
def qualityOf (range : MediaType) : Quality :=
  ((range.param? "q").bind Quality.ofText?).getD Quality.one

/-- The quality of the range that matches an offer most closely, the last of several equally close ones. -/
def mediaQuality? (ranges : List MediaType) (offer : MediaType) : Option Quality :=
  let step (best : Option (Nat × Quality)) (range : MediaType) : Option (Nat × Quality) :=
    match closeness? range offer, best with
    | none, best => best
    | some n, none => some (n, qualityOf range)
    | some n, some (m, q) => if m ≤ n then some (n, qualityOf range) else some (m, q)
  (ranges.foldl step none).map (·.2)

/-- The first of the alternatives whose quality is positive and not below that of any other. -/
def best? {α : Type} (alternatives : List (α × Option Quality)) : Option α :=
  let step (best : Option (α × Quality)) (a : α × Option Quality) : Option (α × Quality) :=
    match a.2, best with
    | none, best => best
    | some q, none => if q.isPositive then some (a.1, q) else none
    | some q, some (b, p) => if q.isPositive && q.above p then some (a.1, q) else some (b, p)
  (alternatives.foldl step none).map (·.1)

/-- The media type of a reply. The suffix `json` asks for plain JSON, which is also the choice when the
client takes nothing on offer. -/
def responseType (o : Offers) (suffix accept : Option String) : String :=
  if suffix = some "json" then jsonType
  else
    match accept.bind Text.nonBlank? with
    | none => jsonType
    | some accept =>
      let ranges := (listed accept).filterMap MediaType.ofText?
      let rated := o.mediaTypes.map fun t => (t, (MediaType.ofText? t).bind (mediaQuality? ranges))
      (best? rated).getD jsonType

/-- The media type of a request body. None, a blank one and plain text count as not declared. -/
def requestType (o : Offers) (header : Option String) : Except ApiError (Option String) :=
  match header.bind Text.nonBlank? with
  | none => .ok none
  | some raw =>
    match MediaType.ofText? raw with
    | none => .error (.invalidContentType raw)
    | some m =>
      let essence := m.essence
      if essence = "text/plain" then .ok none
      else if o.mediaTypes.contains essence then .ok (some essence)
      else .error (.invalidContentType essence)

/-- A language range with its quality, unless it is empty or the quality cannot be read. -/
def languageRange? (part : String) : Option (String × Quality) :=
  match Text.pieces ';' part with
  | [] => none
  | tag :: params =>
    let tag := Text.lower (Text.trim tag)
    if tag.isEmpty then none
    else
      match params.findSome? fun p => Text.after? "q=" (Text.trim p) with
      | none => some (tag, .one)
      | some q => (Quality.ofText? (Text.trim q)).map fun q => (tag, q)

/-- The part of a language tag before its first hyphen. -/
def primarySubtag (tag : String) : String := String.ofList (tag.toList.takeWhile (· ≠ '-'))

/-- Whether a range matches a language: as the wildcard, as a whole, or by the primary subtag. -/
def matchesLanguage (range language : String) : Bool :=
  range == "*" || range == language || primarySubtag range == primarySubtag language

/-- The greatest quality of the ranges that match a language. -/
def languageQuality? (ranges : List (String × Quality)) (language : String) : Option Quality :=
  match (ranges.filter fun (range, _) => matchesLanguage range (Text.lower language)).map (·.2) with
  | [] => none
  | q :: qs => some (qs.foldl Quality.max q)

/-- The best language for a client, if it takes one of those there are. -/
def language? (o : Offers) (accept : Option String) : Option String :=
  accept.bind fun header =>
    let ranges := (Text.pieces ',' header).filterMap languageRange?
    best? (o.languages.map fun l => (l, languageQuality? ranges l))

end Offers

end Standby
