import Mathlib.Data.List.Induction
import Standby.Http.Negotiation
/-!
# The language of a reply

The ranges of a header give the languages that they match weights: a range that is `*` matches every language, any other
one those that it names and those with the same primary subtag. A language is chosen by the greatest weight that it is
given, and of several with the same weight the first one. A range that names a language with quality zero gives it no
weight, and takes none away: a language that is refused by its own name is served if another range speaks for it.
-/

namespace Standby

/-! ## Weights -/

namespace Quality

variable {p q : Quality}

/-- What a quality counts for: nothing unless it is defined and positive. -/
def weight : Quality → Nat
  | .steps n => n.toNat
  | .undefined => 0

theorem isPositive_iff : q.isPositive = true ↔ 0 < q.weight := by
  cases q <;> simp [isPositive, weight]

theorem above_iff (hp : p.isPositive = true) : q.above p = true ↔ p.weight < q.weight := by
  cases p with
  | undefined => cases hp
  | steps m =>
    cases q with
    | undefined => simp [above, weight]
    | steps n =>
      simp only [isPositive, decide_eq_true_eq] at hp
      simp only [above, weight, decide_eq_true_eq]
      omega

theorem weight_max_le_iff {n : Nat} : (p.max q).weight ≤ n ↔ p.weight ≤ n ∧ q.weight ≤ n := by
  cases p with
  | undefined => simp [max, weight]
  | steps a =>
    cases q with
    | undefined => simp [max, weight]
    | steps b =>
      simp only [max, weight]
      split <;> omega

theorem weight_foldl_max_le_iff {qs : List Quality} {n : Nat} :
    (qs.foldl max q).weight ≤ n ↔ q.weight ≤ n ∧ ∀ p ∈ qs, p.weight ≤ n := by
  induction qs generalizing q with
  | nil => simp
  | cons p qs ih => rw [List.foldl_cons, ih, weight_max_le_iff, List.forall_mem_cons, and_assoc]

end Quality

namespace Offers

/-! ## The first of the best -/

section Best
variable {α : Type} {l : List (α × Option Quality)} {a : α} {q : Quality}

/-- What a quality counts for that may be missing. -/
def weightOf (q : Option Quality) : Nat := (q.map (·.weight)).getD 0

/-- The best of the alternatives so far, after one more of them. -/
def better (best : Option (α × Quality)) (a : α × Option Quality) : Option (α × Quality) :=
  match a.2, best with
  | none, best => best
  | some q, none => if q.isPositive then some (a.1, q) else none
  | some q, some (b, p) => if q.isPositive && q.above p then some (a.1, q) else some (b, p)

theorem best?_eq (l : List (α × Option Quality)) : best? l = (l.foldl better none).map (·.1) := rfl

/-- One more alternative takes the place of the best so far if it has more weight. -/
theorem better_eq {best : Option (α × Quality)} (a : α × Option Quality)
    (hbest : ∀ b p, best = some (b, p) → p.isPositive = true) :
    better best a = if weightOf (best.map (·.2)) < weightOf a.2 then a.2.map (a.1, ·) else best := by
  obtain ⟨a, quality⟩ := a
  cases quality with
  | none => simp [better, weightOf]
  | some q =>
    cases best with
    | none => by_cases hq : q.isPositive = true <;> simp [better, weightOf, hq, ← Quality.isPositive_iff]
    | some best =>
      obtain ⟨b, p⟩ := best
      have hpositive := Quality.isPositive_iff (q := q)
      have habove := Quality.above_iff (q := q) (hbest b p rfl)
      by_cases hlt : p.weight < q.weight
      · simp [better, weightOf, hlt, habove.2 hlt, hpositive.2 (by omega)]
      · simp [better, weightOf, hlt, mt habove.1 hlt]

/-- An alternative has a positive weight, those before it have less, and those after it no more. -/
structure IsFirstBest (l : List (α × Option Quality)) (a : α) (q : Quality) : Prop where
  positive : 0 < q.weight
  place : ∃ before after, l = before ++ (a, some q) :: after ∧ (∀ b ∈ before, weightOf b.2 < q.weight) ∧
    ∀ b ∈ after, weightOf b.2 ≤ q.weight

theorem IsFirstBest.le (h : IsFirstBest l a q) : ∀ b ∈ l, weightOf b.2 ≤ q.weight := by
  obtain ⟨-, before, after, rfl, hbefore, hafter⟩ := h
  intro b hb
  rcases List.mem_append.1 hb with hb | hb
  · exact Nat.le_of_lt (hbefore b hb)
  · rcases List.mem_cons.1 hb with rfl | hb
    · exact Nat.le_refl q.weight
    · exact hafter b hb

theorem IsFirstBest.concat (h : IsFirstBest l a q) {b : α × Option Quality} (hb : ¬q.weight < weightOf b.2) :
    IsFirstBest (l ++ [b]) a q := by
  obtain ⟨hpositive, before, after, rfl, hbefore, hafter⟩ := h
  refine ⟨hpositive, before, after ++ [b], by simp, hbefore, fun c hc => ?_⟩
  rcases List.mem_append.1 hc with hc | hc
  · exact hafter c hc
  · exact List.mem_singleton.1 hc ▸ Nat.le_of_not_lt hb

theorem isFirstBest_concat {n : Nat} (hl : ∀ b ∈ l, weightOf b.2 ≤ n) {o : Option Quality} (ho : n < weightOf o) :
    ∃ q, o = some q ∧ IsFirstBest (l ++ [(a, o)]) a q := by
  cases o with
  | none => exact absurd ho (Nat.not_lt_zero n)
  | some q =>
    have hq : n < q.weight := ho
    exact ⟨q, rfl, by omega, l, [], rfl, fun b hb => Nat.lt_of_le_of_lt (hl b hb) hq, nofun⟩

/-- Going through the alternatives leads to the first of the best, unless none has any weight. -/
theorem foldl_better (l : List (α × Option Quality)) :
    (l.foldl better none = none ∧ ∀ b ∈ l, weightOf b.2 = 0) ∨
      ∃ a q, l.foldl better none = some (a, q) ∧ IsFirstBest l a q := by
  induction l using List.reverseRecOn with
  | nil => exact .inl ⟨rfl, nofun⟩
  | append_singleton l b ih =>
    rw [List.foldl_append, List.foldl_cons, List.foldl_nil]
    rcases ih with ⟨hbest, hnone⟩ | ⟨a, q, hbest, hfirst⟩
    · rw [hbest, better_eq b (by simp)]
      split
      · rename_i hlt
        obtain ⟨q, hq, hfirst⟩ := isFirstBest_concat (a := b.1) (fun c hc => Nat.le_of_eq (hnone c hc)) hlt
        exact .inr ⟨b.1, q, by rw [hq]; rfl, hfirst⟩
      · rename_i hle
        refine .inl ⟨rfl, fun c hc => ?_⟩
        rcases List.mem_append.1 hc with hc | hc
        · exact hnone c hc
        · exact List.mem_singleton.1 hc ▸ Nat.eq_zero_of_not_pos hle
    · rw [hbest, better_eq b fun _ _ h => by cases h; exact Quality.isPositive_iff.2 hfirst.positive]
      split
      · rename_i hlt
        obtain ⟨q, hq, hfirst⟩ := isFirstBest_concat (a := b.1) hfirst.le hlt
        exact .inr ⟨b.1, q, by rw [hq]; rfl, hfirst⟩
      · rename_i hle
        exact .inr ⟨a, q, rfl, hfirst.concat hle⟩

theorem exists_of_weightOf_pos {o : Option Quality} (h : 0 < weightOf o) : ∃ q, o = some q ∧ weightOf o = q.weight := by
  cases o with
  | none => cases h
  | some q => exact ⟨q, rfl, rfl⟩

theorem IsFirstBest.unique {a' : α} {q' : Quality} (h : IsFirstBest l a q) (h' : IsFirstBest l a' q') : a = a' := by
  obtain ⟨-, before, after, rfl, hbefore, hafter⟩ := h
  obtain ⟨-, before', after', heq, hbefore', hafter'⟩ := h'
  -- Of two that stand at different places, the one ahead would have both less weight and no less.
  rcases List.append_eq_append_iff.1 heq with ⟨_ | ⟨x, between⟩, rfl, hrest⟩ | ⟨_ | ⟨x, between⟩, rfl, hrest⟩
  · cases hrest
    rfl
  · cases hrest
    have hless : q.weight < q'.weight := hbefore' (a, some q) (by simp)
    have hmore : q'.weight ≤ q.weight := hafter (a', some q') (by simp)
    omega
  · cases hrest
    rfl
  · cases hrest
    have hless : q'.weight < q.weight := hbefore (a', some q') (by simp)
    have hmore : q.weight ≤ q'.weight := hafter' (a, some q) (by simp)
    omega

theorem best?_eq_some_iff : best? l = some a ↔ ∃ q, IsFirstBest l a q := by
  rw [best?_eq]
  rcases foldl_better l with ⟨hbest, hnone⟩ | ⟨b, q, hbest, hfirst⟩
  · rw [hbest]
    refine ⟨nofun, ?_⟩
    rintro ⟨q, hpositive, before, after, rfl, -, -⟩
    have hzero : q.weight = 0 := hnone (a, some q) (by simp)
    omega
  · rw [hbest]
    constructor
    · intro h
      cases h
      exact ⟨q, hfirst⟩
    · rintro ⟨q', hfirst'⟩
      rw [hfirst.unique hfirst']
      rfl

end Best

/-! ## What a header gives to a language -/

/-- The language ranges of a header, each with its quality. -/
def rangesOf (header : String) : List (String × Quality) := (Text.pieces ',' header).filterMap languageRange?

/-- One of the ranges that match a language has this weight. -/
def Gives (header language : String) (n : Nat) : Prop :=
  ∃ r ∈ rangesOf header, matchesLanguage r.1 (Text.lower language) = true ∧ r.2.weight = n

/-- A header lists a language by its own name, and with quality zero only. -/
structure Refuses (header language : String) : Prop where
  listed : (Text.lower language, Quality.steps 0) ∈ rangesOf header
  only : ∀ q, (Text.lower language, q) ∈ rangesOf header → q = .steps 0

variable {header language : String}

theorem weightOf_languageQuality?_le_iff {n : Nat} :
    weightOf (languageQuality? (rangesOf header) language) ≤ n ↔ ∀ m, Gives header language m → m ≤ n := by
  have hmatching : (∀ m, Gives header language m → m ≤ n) ↔
      ∀ q ∈ ((rangesOf header).filter fun r => matchesLanguage r.1 (Text.lower language)).map (·.2), q.weight ≤ n := by
    simp only [Gives, List.forall_mem_map, List.mem_filter]
    constructor
    · intro h r hr
      exact h r.2.weight ⟨r, hr.1, hr.2, rfl⟩
    · rintro h m ⟨r, hr, hmatches, rfl⟩
      exact h r ⟨hr, hmatches⟩
  rw [hmatching, languageQuality?]
  split
  · rename_i hnil
    simp [hnil, weightOf]
  · rename_i q qs hcons
    rw [hcons, List.forall_mem_cons]
    exact Quality.weight_foldl_max_le_iff

theorem weightOf_languageQuality?_lt_iff {n : Nat} (hn : 0 < n) :
    weightOf (languageQuality? (rangesOf header) language) < n ↔ ∀ m, Gives header language m → m < n := by
  obtain ⟨n, rfl⟩ := Nat.exists_eq_succ_of_ne_zero (Nat.ne_of_gt hn)
  simp only [Nat.lt_succ_iff]
  exact weightOf_languageQuality?_le_iff

theorem Gives.le {n : Nat} (h : Gives header language n) :
    n ≤ weightOf (languageQuality? (rangesOf header) language) :=
  weightOf_languageQuality?_le_iff.1 (Nat.le_refl _) n h

/-- The weight of a language is one that a range has given it. -/
theorem gives_weightOf (h : 0 < weightOf (languageQuality? (rangesOf header) language)) :
    Gives header language (weightOf (languageQuality? (rangesOf header) language)) := by
  refine Classical.byContradiction fun hnone => ?_
  refine Nat.lt_irrefl _ ((weightOf_languageQuality?_lt_iff h).2 fun m hm => ?_)
  exact Nat.lt_of_le_of_ne hm.le fun heq => hnone (heq ▸ hm)

/-- A language that is refused by its own name is given a weight by another range only. -/
theorem Refuses.exists_range {n : Nat} (h : Refuses header language) (hn : Gives header language n) (hpos : 0 < n) :
    ∃ r ∈ rangesOf header, r.1 ≠ Text.lower language ∧
      (r.1 = "*" ∨ primarySubtag r.1 = primarySubtag (Text.lower language)) ∧ r.2.weight = n := by
  obtain ⟨⟨tag, q⟩, hr, hmatches, rfl⟩ := hn
  have hother : tag ≠ Text.lower language := by
    rintro rfl
    rw [h.only q hr] at hpos
    exact Nat.lt_irrefl 0 hpos
  simp only [matchesLanguage, Bool.or_eq_true, beq_iff_eq] at hmatches
  exact ⟨(tag, q), hr, hother, by tauto, rfl⟩

/-! ## The choice -/

/-- A language stands in a list at a place where it has a positive weight, those before it have less, and those after it
no more. -/
def IsChoice (header : String) (languages : List String) (language : String) : Prop :=
  ∃ before after n, languages = before ++ language :: after ∧ 0 < n ∧ Gives header language n ∧
    (∀ b ∈ before, ∀ m, Gives header b m → m < n) ∧ ∀ b ∈ language :: after, ∀ m, Gives header b m → m ≤ n

theorem isChoice_iff {languages : List String} :
    IsChoice header languages language ↔
      ∃ q, IsFirstBest (languages.map fun l => (l, languageQuality? (rangesOf header) l)) language q := by
  constructor
  · rintro ⟨before, after, n, rfl, hpositive, hgives, hbefore, hafter⟩
    have hweight : weightOf (languageQuality? (rangesOf header) language) = n :=
      Nat.le_antisymm (weightOf_languageQuality?_le_iff.2 (hafter language List.mem_cons_self)) hgives.le
    obtain ⟨q, hq, -⟩ := exists_of_weightOf_pos (hweight ▸ hpositive)
    rw [hq] at hweight
    cases (hweight : q.weight = n)
    refine ⟨q, hpositive, before.map _, after.map _, by rw [List.map_append, List.map_cons, hq], ?_, ?_⟩
    · rw [List.forall_mem_map]
      exact fun b hb => (weightOf_languageQuality?_lt_iff hpositive).2 (hbefore b hb)
    · rw [List.forall_mem_map]
      exact fun b hb => weightOf_languageQuality?_le_iff.2 (hafter b (List.mem_cons_of_mem _ hb))
  · rintro ⟨q, hpositive, before, after, hsplit, hbefore, hafter⟩
    obtain ⟨before, rest, rfl, rfl, hrest⟩ := List.map_eq_append_iff.1 hsplit
    obtain ⟨l, after, rfl, hl, rfl⟩ := List.map_eq_cons_iff.1 hrest
    obtain ⟨rfl, hq⟩ := Prod.mk.inj hl
    have hweight : weightOf (languageQuality? (rangesOf header) l) = q.weight := by rw [hq]; rfl
    rw [List.forall_mem_map] at hbefore hafter
    refine ⟨before, after, q.weight, rfl, hpositive, hweight ▸ gives_weightOf (hweight ▸ hpositive), ?_, ?_⟩
    · exact fun b hb => (weightOf_languageQuality?_lt_iff hpositive).1 (hbefore b hb)
    · rw [List.forall_mem_cons]
      exact ⟨weightOf_languageQuality?_le_iff.1 (Nat.le_of_eq hweight),
        fun b hb => weightOf_languageQuality?_le_iff.1 (hafter b hb)⟩

/-- **The choice of a language.** Without a header there is none; with one it is the first of those in the list that are
given the greatest weight, if that is positive. If the header refuses it by its own name, the weight is that of another
range, which is `*` or has the same primary subtag. -/
theorem language?_choice (o : Offers) (accept : Option String) (language : String) :
    (o.language? accept = some language ↔ ∃ header, accept = some header ∧ IsChoice header o.languages language) ∧
    ∀ header, accept = some header → Refuses header language → o.language? accept = some language →
      ∃ r ∈ rangesOf header, r.1 ≠ Text.lower language ∧
        (r.1 = "*" ∨ primarySubtag r.1 = primarySubtag (Text.lower language)) ∧ 0 < r.2.weight := by
  have hchoice : o.language? accept = some language ↔
      ∃ header, accept = some header ∧ IsChoice header o.languages language := by
    rw [language?, Option.bind_eq_some_iff]
    refine exists_congr fun header => and_congr_right fun _ => ?_
    rw [isChoice_iff]
    exact best?_eq_some_iff
  refine ⟨hchoice, fun header haccept hrefuses hserved => ?_⟩
  obtain ⟨_, hsame, _, _, n, -, hpositive, hgives, -, -⟩ := hchoice.1 hserved
  cases haccept.symm.trans hsame
  obtain ⟨r, hr, hother, hmatches, rfl⟩ := hrefuses.exists_range hgives hpositive
  exact ⟨r, hr, hother, hmatches, hpositive⟩

/-- A client that refuses English and takes anything else is served in English if there is nothing else. -/
theorem language?_refused : Refuses "en;q=0, *" "en" ∧
    Offers.language? ⟨["application/json"], ["en"]⟩ (some "en;q=0, *") = some "en" := by
  have hranges : rangesOf "en;q=0, *" = [("en", .steps 0), ("*", .one)] := by decide +kernel
  have hlower : Text.lower "en" = "en" := by decide
  refine ⟨⟨?_, fun q hq => ?_⟩, by decide +kernel⟩
  · rw [hranges, hlower]
    exact List.mem_cons_self
  · rw [hranges, hlower] at hq
    simpa using hq

end Offers

end Standby
