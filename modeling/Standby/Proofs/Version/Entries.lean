import Mathlib.Logic.Relation
import Standby.Proofs.Version.Header
/-!
# The entries of the version header

The lines of the header make one list of entries, wherever a line ends and the next begins. An entry is the service's
own if its first word is the name of the service. The first own entry decides what the header says, and without one it
says nothing: whatever is done to the others and to the lines, as long as the own entries stay in their order, leads to
the same result.
-/

namespace Standby

/-! ## Pieces -/

namespace Text

theorem splitAt_append (sep : Char) (as bs : List Char) :
    splitAt sep (as ++ sep :: bs) = splitAt sep as ++ splitAt sep bs := by
  induction as with
  | nil => simp [splitAt]
  | cons c as ih =>
    obtain ⟨p, ps, hp⟩ := List.exists_cons_of_ne_nil (splitAt_ne_nil sep as)
    by_cases hc : c = sep
    · simp [splitAt, hc, ih]
    · simp [splitAt, hc, ih, hp]

/-- The pieces of two texts are those of both with the separator between them. -/
theorem pieces_append (a b : String) : pieces ',' (a ++ "," ++ b) = pieces ',' a ++ pieces ',' b := by
  have htext : (a ++ "," ++ b).toList = a.toList ++ ',' :: b.toList := by simp [String.toList_append]
  rw [pieces, htext, splitAt_append, List.map_append]
  rfl

theorem pieces_of_notMem {s : String} (h : ',' ∉ s.toList) : pieces ',' s = [s] := by
  rw [pieces, splitAt_of_notMem h, List.map_singleton, String.ofList_toList]

end Text

namespace VersionHeader

/-- The entries of the lines, in order. -/
def entries (lines : List String) : List String := lines.flatMap (Text.pieces ',')

/-- Whether the first word of an entry is the name of the service, in whatever case. -/
def isOwn (service entry : String) : Bool := (Text.words entry).head?.any (Text.sameIgnoringCase · service)

variable {name service : String} {lines lines' : List String}

theorem entries_append (lines lines' : List String) : entries (lines ++ lines') = entries lines ++ entries lines' :=
  List.flatMap_append

/-! ## What the header says -/

theorem said?_eq_none_iff {entry : String} : said? service entry = none ↔ isOwn service entry = false := by
  unfold said? isOwn
  cases Text.words entry with
  | nil => simp
  | cons word rest => cases h : Text.sameIgnoringCase word service <;> simp [h]

/-- What entries say is what the first own one says. -/
theorem findSome?_said? (l : List String) :
    l.findSome? (said? service) = (l.find? (isOwn service)).bind (said? service) := by
  induction l with
  | nil => rfl
  | cons e l ih =>
    rw [List.findSome?_cons, List.find?_cons]
    cases h : isOwn service e with
    | false => rw [said?_eq_none_iff.2 h, ih]
    | true =>
      cases hsaid : said? service e with
      | none => cases h.symm.trans (said?_eq_none_iff.1 hsaid)
      | some r => exact hsaid.symm

/-- The lines of the header are read as one list of entries. -/
theorem requested_eq (h : ∀ line ∈ lines, Headers.isText line = true) :
    requested name service lines =
      (((entries lines).findSome? (said? service)).map (Except.map some)).getD (.ok none) := by
  induction lines with
  | nil => rfl
  | cons line lines ih =>
    have hline := h line List.mem_cons_self
    have hrest := ih fun l hl => h l (List.mem_cons_of_mem _ hl)
    rw [requested, hline, entries, List.flatMap_cons, List.findSome?_append]
    cases (Text.pieces ',' line).findSome? (said? service) with
    | none => exact hrest
    | some r => cases r <;> rfl

theorem requested_of_find? (h : ∀ line ∈ lines, Headers.isText line = true) :
    requested name service lines =
      ((((entries lines).find? (isOwn service)).bind (said? service)).map (Except.map some)).getD (.ok none) := by
  rw [requested_eq h, findSome?_said?]

theorem requested_eq_none_iff (h : ∀ line ∈ lines, Headers.isText line = true) :
    requested name service lines = .ok none ↔ ∀ e ∈ entries lines, isOwn service e = false := by
  rw [requested_of_find? h]
  cases hown : (entries lines).find? (isOwn service) with
  | none =>
    have hnone := List.find?_eq_none.1 hown
    exact iff_of_true rfl fun e he => eq_false_of_ne_true (hnone e he)
  | some e =>
    have he := List.find?_some hown
    refine iff_of_false (fun hresult => ?_) fun hnone => ?_
    · cases hsaid : said? service e with
      | none => cases he.symm.trans (said?_eq_none_iff.1 hsaid)
      | some r =>
        rw [Option.bind_some, hsaid] at hresult
        cases r <;> cases hresult
    · cases he.symm.trans (hnone e (List.mem_of_find?_eq_some hown))

/-! ## Changes that do not matter -/

/-- Changes to the lines of a header that leave the own entries as they are. -/
inductive Edit (service : String) : List String → List String → Prop
  /-- A line is cut in two at a comma. -/
  | cut (before : List String) (a b : String) (after : List String) :
    Edit service (before ++ (a ++ "," ++ b) :: after) (before ++ a :: b :: after)
  /-- An entry that is blank or another service's is put in. -/
  | insert (before : List String) {e : String} (after : List String) (single : ',' ∉ e.toList)
    (other : isOwn service e = false) : Edit service (before ++ after) (before ++ e :: after)
  /-- An entry that is blank or another service's changes places with the one after it. -/
  | swap (before : List String) {e e' : String} (after : List String) (single : ',' ∉ e.toList)
    (single' : ',' ∉ e'.toList) (other : isOwn service e = false) :
    Edit service (before ++ e :: e' :: after) (before ++ e' :: e :: after)

/-- The own entries of the lines, in order. -/
def ownEntries (service : String) (lines : List String) : List String := (entries lines).filter (isOwn service)

theorem ownEntries_append (lines lines' : List String) :
    ownEntries service (lines ++ lines') = ownEntries service lines ++ ownEntries service lines' := by
  rw [ownEntries, entries_append, List.filter_append]
  rfl

theorem ownEntries_cons (line : String) (lines : List String) :
    ownEntries service (line :: lines) = (Text.pieces ',' line).filter (isOwn service) ++ ownEntries service lines := by
  rw [ownEntries, entries, List.flatMap_cons, List.filter_append]
  rfl

theorem ownEntries_cons_of_other {e : String} (single : ',' ∉ e.toList) (other : isOwn service e = false)
    (lines : List String) : ownEntries service (e :: lines) = ownEntries service lines := by
  rw [ownEntries_cons, Text.pieces_of_notMem single]
  simp [other]

theorem Edit.ownEntries_eq (h : Edit service lines lines') : ownEntries service lines = ownEntries service lines' := by
  cases h with
  | cut before a b after =>
    simp only [ownEntries_append, ownEntries_cons, Text.pieces_append, List.filter_append, List.append_assoc]
  | insert before after single other => rw [ownEntries_append, ownEntries_append, ownEntries_cons_of_other single other]
  | swap before after single single' other =>
    rw [ownEntries_append, ownEntries_append, ownEntries_cons_of_other single other, ownEntries_cons, ownEntries_cons,
      ownEntries_cons_of_other single other]

/-- Any number of such changes, in either direction, leave the own entries in their order. -/
theorem ownEntries_of_edits (h : Relation.EqvGen (Edit service) lines lines') :
    ownEntries service lines = ownEntries service lines' := by
  induction h with
  | rel _ _ h => exact h.ownEntries_eq
  | refl _ => rfl
  | symm _ _ _ ih => exact ih.symm
  | trans _ _ _ _ _ ih ih' => exact ih.trans ih'

/-- **The first own entry.** Of headers of text, what two say is the same if they have the same first own entry, as they
do if one comes of the other by cutting lines at commas, putting in, taking out and moving entries that are blank or of
other services. A header says nothing exactly if no entry is the service's own. -/
theorem requested_own (name service : String) {lines : List String} (h : ∀ line ∈ lines, Headers.isText line = true) :
    (∀ lines', (∀ line ∈ lines', Headers.isText line = true) →
      (entries lines).find? (isOwn service) = (entries lines').find? (isOwn service) →
        requested name service lines = requested name service lines') ∧
    (∀ lines', (∀ line ∈ lines', Headers.isText line = true) → Relation.EqvGen (Edit service) lines lines' →
      requested name service lines = requested name service lines') ∧
    (requested name service lines = .ok none ↔ ∀ e ∈ entries lines, isOwn service e = false) := by
  have hfirst (lines' : List String) (h' : ∀ line ∈ lines', Headers.isText line = true)
      (hown : (entries lines).find? (isOwn service) = (entries lines').find? (isOwn service)) :
      requested name service lines = requested name service lines' := by
    rw [requested_of_find? h, requested_of_find? h', hown]
  refine ⟨hfirst, fun lines' h' hedits => hfirst lines' h' ?_, requested_eq_none_iff h⟩
  rw [← List.head?_filter, ← List.head?_filter]
  exact congrArg List.head? (ownEntries_of_edits hedits)

/-- A line with the entries of two services says the same as two lines with them in the other order, and as if the other
service's were not there. -/
theorem requested_own_compute :
    let text (lines : List String) : Prop := ∀ line ∈ lines, Headers.isText line = true
    let requested := requested "openstack-api-version" "instance-ha"
    text ["compute 2.60 beta,instance-ha 1.1"] ∧ text ["instance-ha 1.1", "compute 2.60 beta"] ∧
      requested ["compute 2.60 beta,instance-ha 1.1"] = requested ["instance-ha 1.1", "compute 2.60 beta"] ∧
      requested ["compute 2.60 beta,instance-ha 1.1"] = requested ["instance-ha 1.1"] ∧
      requested ["compute 2.60 beta,instance-ha 1.1"] ≠ .ok none := by
  have htext : ∀ line ∈ ["compute 2.60 beta,instance-ha 1.1"], Headers.isText line = true := by decide
  have hother : ∀ line ∈ ["instance-ha 1.1", "compute 2.60 beta"], Headers.isText line = true := by decide
  obtain ⟨hfirst, hedits, hnone⟩ := requested_own "openstack-api-version" "instance-ha" htext
  have hedit : Relation.EqvGen (Edit "instance-ha") ["compute 2.60 beta,instance-ha 1.1"]
      ["instance-ha 1.1", "compute 2.60 beta"] :=
    .trans _ ["compute 2.60 beta", "instance-ha 1.1"] _
      (.rel _ _ (.cut [] "compute 2.60 beta" "instance-ha 1.1" []))
      (.rel _ _ (.swap [] [] (by decide) (by decide) (by decide)))
  refine ⟨htext, hother, hedits _ hother hedit, hfirst ["instance-ha 1.1"] (by decide) (by decide), fun h => ?_⟩
  exact absurd (hnone.1 h "instance-ha 1.1" (by decide)) (by decide)

end VersionHeader

end Standby
