import Standby.Proofs.Basic
import Standby.Proofs.Listing.Order
import Standby.Proofs.Text.Roundtrip
/-!
# From page to page

The query of a link to the next page asks for as many items as the page had, after its last one, and for the rest what
the query of the page asks for. The slice that it stands for goes on where the page ends. What order a query asks for is
said by `Query.AsksFor`, and that is how its listing is sorted.
-/

namespace Standby

/-! ## Queries -/

namespace Query

/-- Queries with the same values of all keys but those that say which page is wanted. -/
def SamePages (q q' : Query) : Prop := ∀ key, key ≠ "limit" → key ≠ "marker" → q'.values key = q.values key

variable {q q' : Query}

theorem first?_eq_head? (q : Query) (key : String) : q.first? key = (q.values key).head? := by
  induction q with
  | nil => rfl
  | cons p q ih =>
    obtain ⟨k, v⟩ := p
    by_cases hk : k = key
    · simp [first?, values, lookup?, hk]
    · simpa [first?, values, lookup?, hk] using ih

theorem SamePages.first? (h : q.SamePages q') {key : String} (hl : key ≠ "limit") (hm : key ≠ "marker") :
    q'.first? key = q.first? key := by
  rw [first?_eq_head?, first?_eq_head?, h key hl hm]

theorem values_append (q q' : Query) (key : String) : values (q ++ q') key = q.values key ++ q'.values key := by
  simp [values]

end Query

theorem sortKeys_of_samePages {q q' : Query} (h : q.SamePages q') (allowed : List String) (default : String) :
    sortKeys q' allowed default = sortKeys q allowed default := by
  rw [sortKeys, sortKeys, h "sort_key" (by decide) (by decide), h "sort_dir" (by decide) (by decide)]

/-! ## The order that is asked for -/

/-- The order that a query asks for. The keys stand as values of `sort_key`, the first one first, and the direction of each
stands in the same place among the values of `sort_dir`. Without directions all keys are descending. Without keys the
listing goes by a default one, in the first direction. -/
inductive Query.AsksFor (q : Query) (default : String) : List (String × SortDir) → Prop
  | pairs {sort} (hne : sort ≠ []) (keys : q.values "sort_key" = sort.map (·.1))
    (dirs : q.values "sort_dir" = sort.map (·.2.text)) : q.AsksFor default sort
  | keys (hne : q.values "sort_key" ≠ []) (dirs : q.values "sort_dir" = []) :
    q.AsksFor default ((q.values "sort_key").map fun key => (key, .desc))
  | dir {dir rest} (keys : q.values "sort_key" = []) (dirs : q.values "sort_dir" = SortDir.text dir :: rest) :
    q.AsksFor default [(default, dir)]
  | neither (keys : q.values "sort_key" = []) (dirs : q.values "sort_dir" = []) : q.AsksFor default [(default, .desc)]

theorem SortDir.parse_eq_ok_iff {raw : String} {dir : SortDir} : SortDir.parse raw = .ok dir ↔ raw = dir.text := by
  constructor
  · intro h
    unfold SortDir.parse at h
    split at h
    · cases h
      assumption
    · split at h
      · cases h
        assumption
      · cases h
  · rintro rfl
    cases dir <;> rfl

theorem mapM_parse_eq_ok_iff {raws : List String} {dirs : List SortDir} :
    raws.mapM SortDir.parse = .ok dirs ↔ raws = dirs.map SortDir.text := by
  induction raws generalizing dirs with
  | nil => cases dirs <;> simp [pure, Except.pure]
  | cons raw raws ih =>
    simp only [List.mapM_cons, bind_eq_ok, SortDir.parse_eq_ok_iff, ih]
    constructor
    · rintro ⟨dir, rfl, dirs, rfl, h⟩
      cases h
      rfl
    · cases dirs with
      | nil => nofun
      | cons dir dirs =>
        intro h
        obtain ⟨rfl, rfl⟩ := List.cons.inj h
        exact ⟨dir, rfl, dirs, rfl, rfl⟩

/-- A listing is sorted as its query asks for, if the query has only keys and directions that there are. -/
theorem asksFor_of_sortKeys {q : Query} {allowed : List String} {default : String} {sort : List (String × SortDir)}
    (h : sortKeys q allowed default = .ok sort) : q.AsksFor default sort := by
  obtain ⟨dirs, hdirs, h⟩ := bind_eq_ok.1 h
  rw [mapM_parse_eq_ok_iff] at hdirs
  split at h
  · cases h
  · split at h
    · next hkeys =>
      rw [List.isEmpty_iff] at hkeys
      cases h
      cases dirs with
      | nil => exact .neither hkeys hdirs
      | cons dir dirs => exact .dir hkeys hdirs
    · next hkeys =>
      rw [List.isEmpty_iff] at hkeys
      split at h
      · next hnone =>
        rw [List.isEmpty_iff] at hnone
        cases h
        exact .keys hkeys (hdirs.trans (congrArg _ hnone))
      · split at h
        · cases h
        · next hlength =>
          cases h
          have hlength : dirs.length = (q.values "sort_key").length := not_not.1 hlength
          have hsort : q.values "sort_key" = ((q.values "sort_key").zip dirs).map Prod.fst :=
            (List.map_fst_zip (Nat.le_of_eq hlength.symm)).symm
          refine .pairs (fun hnil => ?_) hsort ?_
          · rw [hnil] at hsort
            exact hkeys hsort
          · have hdirections := List.map_snd_zip (Nat.le_of_eq hlength)
            rw [hdirs, ← congrArg (List.map SortDir.text) hdirections, List.map_map]
            rfl

/-! ## Pages -/

namespace Page

theorem limit_le_of_ofQuery {q : Query} {most : Nat} {p : Page} (h : ofQuery q most = .ok p) : p.limit ≤ most := by
  unfold ofQuery at h
  split at h
  · cases h
    exact Nat.le_refl most
  · split at h
    · cases h
    · split at h
      · cases h
      · cases h
        exact Nat.min_le_right _ _

/-- Of the query of a link the next one keeps what the first one has kept. -/
theorem filter_nextQuery (p : Page) (q : Query) (last : String) :
    (p.nextQuery q last).filter (fun (key, _) => key != "limit" && key != "marker") =
      q.filter fun (key, _) => key != "limit" && key != "marker" := by
  simp [nextQuery, List.filter_append]

/-- The old values of the two keys are dropped, and all others are kept. -/
theorem values_nextQuery (p : Page) (q : Query) (last key : String) :
    Query.values (p.nextQuery q last) key =
      (if key = "limit" ∨ key = "marker" then [] else q.values key) ++
        Query.values [("limit", toString p.limit), ("marker", last)] key := by
  have hnext : p.nextQuery q last = q.filter (fun x => x.1 != "limit" && x.1 != "marker") ++
      [("limit", toString p.limit), ("marker", last)] := rfl
  rw [hnext, Query.values_append]
  congr 1
  rw [Query.values, List.filter_filter]
  split
  · next hkey =>
    rw [List.map_eq_nil_iff, List.filter_eq_nil_iff]
    intro x _ hx
    simp only [Bool.and_eq_true, beq_iff_eq, bne_iff_ne] at hx
    obtain ⟨rfl, hl, hm⟩ := hx
    exact hkey.elim hl hm
  · next hkey =>
    refine congrArg _ (List.filter_congr fun x _ => ?_)
    by_cases hx : x.1 = key
    · simpa [hx] using hkey
    · simp [hx]

theorem samePages_nextQuery (p : Page) (q : Query) (last : String) : q.SamePages (p.nextQuery q last) := by
  intro key hl hm
  rw [values_nextQuery, if_neg (not_or.2 ⟨hl, hm⟩)]
  simp [Query.values, hl.symm, hm.symm]

theorem first?_nextQuery (p : Page) (q : Query) (last : String) :
    (p.nextQuery q last).first? "limit" = some (toString p.limit) ∧ (p.nextQuery q last).first? "marker" = some last := by
  simp only [Query.first?_eq_head?, values_nextQuery, true_or, or_true, if_true, List.nil_append]
  exact ⟨rfl, rfl⟩

/-- The next page has the same limit and comes after the last item of this one. -/
theorem ofQuery_nextQuery {p : Page} {most : Nat} {last : String} (q : Query) (hmost : p.limit ≤ most)
    (hfits : p.limit < 9223372036854775808) (hlast : last ≠ "") :
    ofQuery (p.nextQuery q last) most = .ok ⟨p.limit, some last⟩ := by
  obtain ⟨hl, hm⟩ := first?_nextQuery p q last
  have hpositive : ¬(p.limit : Int) < 0 := by omega
  have hmarker : (some last).filter (· ≠ "") = some last := if_pos (decide_eq_true hlast)
  simp only [ofQuery, hl, hm, hmarker, Text.int64?_toString hfits, if_neg hpositive, Int.toNat_natCast,
    Nat.min_eq_left hmost]
  rfl

/-- Only a full page that is not empty has a link. -/
theorem next?_eq_none {p : Page} {baseUrl path : String} {q : Query} {count : Nat} {last : Option String}
    (h : count ≠ p.limit) : p.next? baseUrl path q count last = none := by
  simp [next?, h]

theorem next?_eq_some {p : Page} {baseUrl path : String} {q : Query} {last : String} (h : 1 ≤ p.limit) :
    p.next? baseUrl path q p.limit (some last) =
      some ⟨"next", baseUrl ++ path ++ "?" ++ Text.Form.encodePairs (p.nextQuery q last)⟩ := by
  have hne : p.limit ≠ 0 := by omega
  simp [next?, hne]

end Page

/-! ## Slices -/

namespace Listing

/-- As many rows as a limit allows. -/
def cut {α : Type} (limit : Option Nat) (rows : List α) : List α :=
  match limit with
  | none => rows
  | some n => rows.take n

/-- What is cut off of some rows leaves out only those for which there is no room. -/
theorem eq_cut_iff {α : Type} {limit : Option Nat} {rest page : List α} :
    page = cut limit rest ↔ ∃ after, rest = page ++ after ∧ (∀ n, limit = some n → page.length ≤ n) ∧
      (after ≠ [] → limit = some page.length) := by
  cases limit with
  | none => simp [cut, eq_comm]
  | some n =>
    constructor
    · rintro rfl
      refine ⟨rest.drop n, (List.take_append_drop n rest).symm, fun m hm => ?_, fun hne => ?_⟩
      · cases hm
        exact List.length_take_le _ _
      · rw [ne_eq, List.drop_eq_nil_iff, Nat.not_le] at hne
        rw [cut, List.length_take_of_le (Nat.le_of_lt hne)]
    · rintro ⟨after, rfl, hroom, hfull⟩
      by_cases hnil : after = []
      · rw [hnil, List.append_nil, cut, List.take_of_length_le (hroom n rfl)]
      · rw [cut, Option.some.inj (hfull hnil), List.take_left]

variable {α : Type} [Listed α]

/-- What comes after the last of some rows is the rest. -/
theorem afterMarker?_append {before : List α} {last : α} (rest : List α) (hlast : before.getLast? = some last)
    (huuids : ((before ++ rest).map Listed.uuid).Nodup) :
    afterMarker? (Listed.uuid last) (before ++ rest) = some rest := by
  induction before with
  | nil => cases hlast
  | cons row before ih =>
    obtain ⟨hrow, hnodup⟩ := List.nodup_cons.1 huuids
    cases before with
    | nil =>
      cases hlast
      simp [afterMarker?]
    | cons next before =>
      rw [List.getLast?_cons_cons] at hlast
      have hmem : last ∈ next :: before ++ rest := List.mem_append_left _ (List.mem_of_getLast? hlast)
      have hne : Listed.uuid row ≠ Listed.uuid last := fun h => hrow (h ▸ List.mem_map_of_mem hmem)
      rw [List.cons_append, afterMarker?, if_neg hne]
      exact ih hlast hnodup

theorem mem_of_afterMarker? {marker : String} {rows rest : List α} (h : afterMarker? marker rows = some rest) {row : α}
    (hrow : row ∈ rest) : row ∈ rows := by
  induction rows with
  | nil => cases h
  | cons first rows ih =>
    rw [afterMarker?] at h
    split at h
    · cases h
      exact List.mem_cons_of_mem _ hrow
    · exact List.mem_cons_of_mem _ (ih h)

/-- A slice has none but the rows that it is a slice of. -/
theorem mem_of_slice? {slice : Slice} {rows page : List α} (h : slice? slice rows = some page) {row : α}
    (hrow : row ∈ page) : row ∈ rows := by
  unfold slice? at h
  obtain ⟨rest, hrest, rfl⟩ := Option.map_eq_some_iff.1 h
  have hmem : row ∈ rest := by
    split at hrow
    · exact hrow
    · exact List.mem_of_mem_take hrow
  have hsorted : row ∈ sorted slice.sort rows := by
    split at hrest
    · exact Option.some.inj hrest ▸ hmem
    · exact mem_of_afterMarker? hrest hmem
  exact mem_sorted.1 hsorted

/-- The first slice has all rows if there is room for them. -/
theorem slice?_of_length_le {sort : List (String × SortDir)} {rows : List α} {limit : Nat} (h : rows.length ≤ limit) :
    slice? { sort, limit := some limit } rows = some (sorted sort rows) :=
  congrArg some (List.take_of_length_le (by rwa [sorted, List.length_mergeSort]))

/-- The slice behind some sorted rows begins with the rows that follow them. -/
theorem slice?_eq_some {sort : List (String × SortDir)} {rows before rest : List α}
    (huuids : (rows.map Listed.uuid).Nodup) (hrows : sorted sort rows = before ++ rest) (limit : Option Nat) :
    slice? { sort, limit, marker := before.getLast?.map Listed.uuid } rows = some (cut limit rest) := by
  have hperm : ((before ++ rest).map Listed.uuid).Nodup := by
    rw [← hrows]
    exact ((List.mergeSort_perm rows _).map Listed.uuid).nodup_iff.2 huuids
  unfold slice?
  simp only [hrows]
  cases hlast : before.getLast? with
  | none =>
    rw [List.getLast?_eq_none_iff.1 hlast]
    rfl
  | some last =>
    simp only [Option.map_some, afterMarker?_append rest hlast hperm]
    rfl

end Listing

end Standby
