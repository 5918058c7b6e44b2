import Standby.Error
import Standby.Assoc
import Standby.Json.Basic
import Standby.Text.Percent
import Standby.Text.Blank
/-!
# Pages of a listing

A listing is asked for in pages: the query sets how many items a page has, after which item it begins, and by
which keys the items are sorted. A full page comes with a link to the next one, which keeps the rest of the
query.
-/

namespace Standby

inductive SortDir where
  | asc
  | desc
  deriving DecidableEq, Repr

def SortDir.text : SortDir → String
  | .asc => "asc"
  | .desc => "desc"

/-- The direction that a word stands for. -/
def SortDir.parse (raw : String) : Except ApiError SortDir :=
  if raw = "asc" then .ok .asc
  else if raw = "desc" then .ok .desc
  else .error (.invalid s!"Unknown sort direction '{raw}', must be 'desc' or 'asc'")

/-- The pairs of a query, decoded, in order. -/
abbrev Query := List (String × String)

namespace Query

def first? (q : Query) (key : String) : Option String := lookup? key q

/-- The values of a key. -/
def values (q : Query) (key : String) : List String := (q.filter (·.1 == key)).map (·.2)

end Query

structure Link where
  rel : String
  href : String
  deriving DecidableEq, Repr

def Link.toJson (l : Link) : Json := .obj [("rel", .str l.rel), ("href", .str l.href)]

/-- How many items a page has at most, and the identifier of the item that it comes after. -/
structure Page where
  limit : Nat
  marker : Option String
  deriving DecidableEq, Repr

namespace Page

/-- The page that a query asks for. No page has more than `most` items. -/
def ofQuery (q : Query) (most : Nat) : Except ApiError Page := do
  let limit ←
    match q.first? "limit" with
    | none => .ok most
    | some raw =>
      match Text.int64? (Text.trim raw) with
      | none => .error (.invalid "limit param must be an integer")
      | some n =>
        if n < 0 then .error (.invalid "limit param must be positive") else .ok (min n.toNat most)
  .ok ⟨limit, (q.first? "marker").filter (· ≠ "")⟩

/-- The query that asks for the page after the item `last`. -/
def nextQuery (p : Page) (q : Query) (last : String) : Query :=
  q.filter (fun (k, _) => k != "limit" && k != "marker") ++ [("limit", toString p.limit), ("marker", last)]

/-- The link to the next page, if a page with `count` items of which the last one is `last` is full. -/
def next? (p : Page) (baseUrl path : String) (q : Query) (count : Nat) (last : Option String) : Option Link :=
  if p.limit = 0 || count ≠ p.limit then none
  else
    last.map fun last =>
      ⟨"next", baseUrl ++ path ++ "?" ++ Text.Form.encodePairs (p.nextQuery q last)⟩

end Page

/-- The keys that a query sorts by, each with its direction. All keys must be allowed ones. Without a key the
listing is sorted by `default`, in the first direction given, and without a direction it is descending. -/
def sortKeys (q : Query) (allowed : List String) (default : String) :
    Except ApiError (List (String × SortDir)) := do
  let keys := q.values "sort_key"
  let dirs ← (q.values "sort_dir").mapM SortDir.parse
  match keys.find? (!allowed.contains ·) with
  | some bad => .error (.invalid s!"Invalid sort_key: {bad}")
  | none =>
    if keys.isEmpty then .ok [(default, dirs.head?.getD .desc)]
    else if dirs.isEmpty then .ok (keys.map fun k => (k, .desc))
    else if dirs.length ≠ keys.length then
      .error (.invalid "The number of sort_keys and sort_dirs must be same")
    else .ok (keys.zip dirs)

end Standby
