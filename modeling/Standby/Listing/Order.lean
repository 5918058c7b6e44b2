import Standby.Listing.Page
import Standby.Time.Instant
/-!
# The order of a listing

Rows are compared by sort keys, each with a direction, and rows that agree on all keys by ascending id. A slice
of a listing is the rows after its marker, as many as its limit allows.
-/

namespace Standby

/-- The value of a sort key. Values of different kinds are ordered as the kinds are listed here. -/
inductive SortValue where
  | null
  | bool (b : Bool)
  | int (n : Nat)
  | text (s : String)
  | time (t : Time.Instant)
  deriving DecidableEq, Repr

namespace SortValue

/-- The place of a kind of values. -/
def rank : SortValue → Nat
  | null => 0
  | bool _ => 1
  | int _ => 2
  | text _ => 3
  | time _ => 4

def compareInstants (a b : Time.Instant) : Ordering :=
  (compare a.seconds b.seconds).then (compare a.nanos b.nanos)

def cmp : SortValue → SortValue → Ordering
  | bool a, bool b => compare a.toNat b.toNat
  | int a, int b => compare a b
  | text a, text b => compare a b
  | time a, time b => compareInstants a b
  | a, b => compare a.rank b.rank

/-- A text, or the null value when there is none. -/
def ofText? : Option String → SortValue
  | none => null
  | some s => text s

/-- A time, or the null value when there is none. -/
def ofTime? : Option Time.Instant → SortValue
  | none => null
  | some t => time t

end SortValue

/-- Rows that can be listed. A key that the rows do not have is the same for all of them. -/
class Listed (α : Type) where
  id : α → Nat
  uuid : α → String
  sortValue : α → String → SortValue

/-- How a listing is sorted, and which slice of it is wanted. -/
structure Slice where
  sort : List (String × SortDir) := []
  limit : Option Nat := none
  marker : Option String := none
  deriving DecidableEq, Repr

namespace Listing

variable {α : Type} [Listed α]

/-- The order of two rows by one key. -/
def compareKey (a b : α) : String × SortDir → Ordering
  | (key, .asc) => (Listed.sortValue a key).cmp (Listed.sortValue b key)
  | (key, .desc) => ((Listed.sortValue a key).cmp (Listed.sortValue b key)).swap

/-- The order of two rows by keys and then by id. -/
def compareRows (sort : List (String × SortDir)) (a b : α) : Ordering :=
  sort.foldr (fun key rest => (compareKey a b key).then rest) (compare (Listed.id a) (Listed.id b))

def sorted (sort : List (String × SortDir)) (rows : List α) : List α :=
  rows.mergeSort fun a b => (compareRows sort a b).isLE

/-- The rows after the one with the given identifier, if there is one. -/
def afterMarker? (marker : String) : List α → Option (List α)
  | [] => none
  | row :: rows => if Listed.uuid row = marker then some rows else afterMarker? marker rows

/-- A slice of some rows, or nothing if no row is the marker. -/
def slice? (s : Slice) (rows : List α) : Option (List α) :=
  let ordered := sorted s.sort rows
  let rest :=
    match s.marker with
    | none => some ordered
    | some marker => afterMarker? marker ordered
  rest.map fun rows =>
    match s.limit with
    | none => rows
    | some n => rows.take n

end Listing

end Standby
