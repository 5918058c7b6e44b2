import Mathlib.Data.List.Nodup
import Standby.Assoc
/-!
# Results and tables

Two computations in a row succeed exactly if both do, and what they come to is related to what two others come to if
each of them is. A table in which every key stands once holds a pair exactly if a look-up finds it. Setting a key that
is not there adds a pair at the end, and setting one that is there changes nothing but its value.
-/

namespace Standby

variable {ε ε' α α' β β' : Type}

/-! ## Results -/

theorem bind_eq_ok {x : Except ε α} {f : α → Except ε β} {b : β} :
    (x >>= f) = .ok b ↔ ∃ a, x = .ok a ∧ f a = .ok b := by
  constructor
  · intro h
    cases x with
    | error e => cases h
    | ok a => exact ⟨a, rfl, h⟩
  · rintro ⟨a, rfl, h⟩
    exact h

theorem bind_ok (a : α) (f : α → Except ε β) : (Except.ok a >>= f) = f a := rfl

/-- Of two computations with a state in a row, the second one starts from where the first one has left the state. -/
theorem run_bind {σ : Type} (x : ExceptT ε (StateM σ) α) (f : α → ExceptT ε (StateM σ) β) (s : σ) :
    (x >>= f).run.run s =
      match x.run.run s with
      | (.ok a, s') => (f a).run.run s'
      | (.error e, s') => (.error e, s') := by
  rw [ExceptT.run_bind, StateT.run_bind]
  rcases x.run.run s with ⟨r, s'⟩
  cases r <;> rfl

/-- Two computations in a row fail if the first one does, or the second one on what the first one comes to. -/
theorem bind_eq_error {x : Except ε α} {f : α → Except ε β} {e : ε} :
    (x >>= f) = .error e ↔ x = .error e ∨ ∃ a, x = .ok a ∧ f a = .error e := by
  constructor
  · intro h
    cases x with
    | error e' =>
      cases h
      exact .inl rfl
    | ok a => exact .inr ⟨a, rfl, h⟩
  · rintro (rfl | ⟨a, rfl, h⟩)
    · rfl
    · exact h

theorem mapError_eq_ok {f : ε → ε'} {x : Except ε α} {a : α} : x.mapError f = .ok a ↔ x = .ok a := by
  cases x <;> simp [Except.mapError]

theorem mapError_eq_error {f : ε → ε'} {x : Except ε α} {e : ε'} :
    x.mapError f = .error e ↔ ∃ e', x = .error e' ∧ f e' = e := by
  cases x <;> simp [Except.mapError]

theorem map_eq_ok {f : α → β} {x : Except ε α} {b : β} : x.map f = .ok b ↔ ∃ a, x = .ok a ∧ f a = b := by
  cases x <;> simp [Except.map]

theorem forM_eq_ok {f : α → Except ε Unit} {l : List α} : l.forM f = .ok () ↔ ∀ a ∈ l, f a = .ok () := by
  induction l with
  | nil => exact ⟨fun _ _ h => absurd h List.not_mem_nil, fun _ => rfl⟩
  | cons a l ih =>
    rw [List.forall_mem_cons, ← ih]
    show (f a >>= fun _ => l.forM f) = _ ↔ _
    rw [bind_eq_ok]
    exact ⟨fun ⟨_, h⟩ => h, fun h => ⟨(), h⟩⟩

theorem exists_of_forM_eq_error {f : α → Except ε Unit} {l : List α} {e : ε} (h : l.forM f = .error e) :
    ∃ a ∈ l, f a = .error e := by
  induction l with
  | nil => cases h
  | cons a l ih =>
    obtain ha | ⟨_, -, hl⟩ := bind_eq_error.1 (show (f a >>= fun _ => l.forM f) = .error e from h)
    · exact ⟨a, List.mem_cons_self, ha⟩
    · obtain ⟨b, hb, hfails⟩ := ih hl
      exact ⟨b, List.mem_cons_of_mem _ hb, hfails⟩

/-- A list is gone through until a step fails, and then the steps before it have succeeded. -/
theorem foldlM_eq_error_iff {f : β → α → Except ε β} {l : List α} {b : β} {e : ε} :
    l.foldlM f b = .error e ↔
      ∃ before a after b', l = before ++ a :: after ∧ before.foldlM f b = .ok b' ∧ f b' a = .error e := by
  constructor
  · intro h
    induction l generalizing b with
    | nil => cases h
    | cons a l ih =>
      rw [List.foldlM_cons] at h
      obtain ha | ⟨b₁, h₁, h⟩ := bind_eq_error.1 h
      · exact ⟨[], a, l, b, rfl, rfl, ha⟩
      · obtain ⟨before, c, after, b', rfl, hbefore, hc⟩ := ih h
        refine ⟨a :: before, c, after, b', rfl, ?_, hc⟩
        rw [List.foldlM_cons]
        exact bind_eq_ok.2 ⟨b₁, h₁, hbefore⟩
  · rintro ⟨before, a, after, b', rfl, hbefore, ha⟩
    rw [List.foldlM_append]
    refine bind_eq_error.2 (.inr ⟨b', hbefore, ?_⟩)
    rw [List.foldlM_cons]
    exact bind_eq_error.2 (.inl ha)

theorem exists_mapM_iff {f : α → Except ε β} {l : List α} :
    (∃ bs, l.mapM f = .ok bs) ↔ ∀ a ∈ l, ∃ b, f a = .ok b := by
  induction l with
  | nil => exact ⟨fun _ => nofun, fun _ => ⟨[], List.mapM_nil⟩⟩
  | cons a l ih =>
    rw [List.forall_mem_cons, ← ih, List.mapM_cons]
    constructor
    · rintro ⟨bs, h⟩
      obtain ⟨b, hb, h⟩ := bind_eq_ok.1 h
      obtain ⟨bs', hbs, -⟩ := bind_eq_ok.1 h
      exact ⟨⟨b, hb⟩, bs', hbs⟩
    · rintro ⟨⟨b, hb⟩, bs, hbs⟩
      exact ⟨b :: bs, bind_eq_ok.2 ⟨b, hb, bind_eq_ok.2 ⟨bs, hbs, rfl⟩⟩⟩

/-- Of a list the first result that is a failure is that of the whole. -/
theorem mapM_eq_error_iff {f : α → Except ε β} {l : List α} {e : ε} :
    l.mapM f = .error e ↔
      ∃ before a after, l = before ++ a :: after ∧ (∀ b ∈ before, ∃ c, f b = .ok c) ∧ f a = .error e := by
  constructor
  · intro h
    induction l with
    | nil => cases h
    | cons a l ih =>
      rw [List.mapM_cons] at h
      obtain ha | ⟨b, hb, h⟩ := bind_eq_error.1 h
      · exact ⟨[], a, l, rfl, nofun, ha⟩
      · obtain hl | ⟨bs, -, h⟩ := bind_eq_error.1 h
        · obtain ⟨before, c, after, rfl, hbefore, hc⟩ := ih hl
          exact ⟨a :: before, c, after, rfl, List.forall_mem_cons.2 ⟨⟨b, hb⟩, hbefore⟩, hc⟩
        · cases h
  · rintro ⟨before, a, after, rfl, hbefore, ha⟩
    obtain ⟨bs, hbs⟩ := exists_mapM_iff.2 hbefore
    rw [List.mapM_append]
    refine bind_eq_error.2 (.inr ⟨bs, hbs, bind_eq_error.2 (.inl ?_)⟩)
    rw [List.mapM_cons]
    exact bind_eq_error.2 (.inl ha)

/-! ## Two results side by side -/

section Related
variable {R : α → α' → Prop} {Q : β → β' → Prop}

/-- Two results are related if both are the same failure, or both are successes with related values. -/
inductive Results (R : α → α' → Prop) : Except ε α → Except ε α' → Prop
  | ok {a : α} {a' : α'} (h : R a a') : Results R (.ok a) (.ok a')
  | error (e : ε) : Results R (.error e) (.error e)

theorem results_refl (r : Except ε α) : Results Eq r r := by
  cases r with
  | ok a => exact .ok rfl
  | error e => exact .error e

theorem Results.eq {r r' : Except ε α} (h : Results Eq r r') : r = r' := by
  cases h with
  | ok h => rw [h]
  | error e => rfl

theorem Results.cases {r : Except ε α} {r' : Except ε α'} (h : Results R r r') :
    (∃ e, r = .error e ∧ r' = .error e) ∨ ∃ a a', r = .ok a ∧ r' = .ok a' ∧ R a a' := by
  cases h with
  | error e => exact .inl ⟨e, rfl, rfl⟩
  | ok h => exact .inr ⟨_, _, rfl, rfl, h⟩

theorem Results.imp {Q : α → α' → Prop} {r : Except ε α} {r' : Except ε α'} (h : Results R r r')
    (hq : ∀ a a', R a a' → Q a a') : Results Q r r' := by
  cases h with
  | ok h => exact .ok (hq _ _ h)
  | error e => exact .error e

theorem Results.mapError {r : Except ε α} {r' : Except ε α'} (h : Results R r r') (f : ε → ε') :
    Results R (r.mapError f) (r'.mapError f) := by
  cases h with
  | ok h => exact .ok h
  | error e => exact .error (f e)

theorem Results.of_map {f : α → β} {f' : α' → β'} {r : Except ε α} {r' : Except ε α'}
    (h : Results Q (r.map f) (r'.map f')) : Results (fun a a' => Q (f a) (f' a')) r r' := by
  cases r <;> cases r' <;> cases h
  · exact .error _
  · next hq => exact .ok hq

theorem Results.bind {r : Except ε α} {r' : Except ε α'} {f : α → Except ε β} {f' : α' → Except ε β'}
    (h : Results R r r') (hf : ∀ a a', R a a' → Results Q (f a) (f' a')) : Results Q (r >>= f) (r' >>= f') := by
  cases h with
  | ok h => exact hf _ _ h
  | error e => exact .error e

end Related

/-! ## Tables -/

theorem lookup?_eq_none_iff {key : String} {l : List (String × α)} :
    lookup? key l = none ↔ key ∉ l.map (·.1) := by
  induction l with
  | nil => simp [lookup?]
  | cons p l ih =>
    obtain ⟨k, v⟩ := p
    by_cases hk : k = key
    · simp [lookup?, hk]
    · simp only [lookup?, if_neg hk, ih, List.map_cons, List.mem_cons, not_or]
      exact ⟨fun h => ⟨Ne.symm hk, h⟩, fun h => h.2⟩

theorem mem_of_lookup?_eq_some {key : String} {value : α} {l : List (String × α)}
    (h : lookup? key l = some value) : (key, value) ∈ l := by
  induction l with
  | nil => cases h
  | cons p l ih =>
    obtain ⟨k, v⟩ := p
    by_cases hk : k = key
    · simp only [lookup?, if_pos hk, Option.some.injEq] at h
      subst hk h
      exact List.mem_cons_self
    · simp only [lookup?, if_neg hk] at h
      exact List.mem_cons_of_mem _ (ih h)

/-- With unique keys a look-up finds every pair of the table. -/
theorem lookup?_eq_some_iff {key : String} {value : α} {l : List (String × α)} (hl : (l.map (·.1)).Nodup) :
    lookup? key l = some value ↔ (key, value) ∈ l := by
  refine ⟨mem_of_lookup?_eq_some, fun h => ?_⟩
  have hk : lookup? key l ≠ none := fun hn =>
    lookup?_eq_none_iff.1 hn (List.mem_map.2 ⟨(key, value), h, rfl⟩)
  obtain ⟨other, ho⟩ := Option.ne_none_iff_exists'.1 hk
  have hp : (key, other) = (key, value) :=
    List.inj_on_of_nodup_map hl (mem_of_lookup?_eq_some ho) h rfl
  rw [ho, (Prod.mk.inj hp).2]

theorem insertKey_of_fresh {key : String} (value : α) {l : List (String × α)} (h : lookup? key l = none) :
    insertKey key value l = l ++ [(key, value)] := by
  induction l with
  | nil => rfl
  | cons p l ih =>
    obtain ⟨k, v⟩ := p
    by_cases hk : k = key
    · simp [lookup?, hk] at h
    · simp only [lookup?, if_neg hk] at h
      simp only [insertKey, if_neg hk, List.cons_append, ih h]

/-- A new value under a key that is there shows only to what tells it from the old one. -/
theorem map_insertKey {key : String} {old : α} (value : α) {l : List (String × α)} (f : String × α → β)
    (h : lookup? key l = some old) (hf : f (key, value) = f (key, old)) :
    (insertKey key value l).map f = l.map f := by
  induction l with
  | nil => cases h
  | cons p l ih =>
    obtain ⟨k, v⟩ := p
    by_cases hk : k = key
    · simp only [lookup?, if_pos hk, Option.some.injEq] at h
      subst hk h
      simp [insertKey, hf]
    · simp only [lookup?, if_neg hk] at h
      simp only [insertKey, if_neg hk, List.map_cons, ih h]

/-- Keys stay unique when a value is set, whether its key is there or not. -/
theorem nodup_keys_insertKey {l : List (String × α)} (hl : (l.map (·.1)).Nodup) (key : String) (value : α) :
    ((insertKey key value l).map (·.1)).Nodup := by
  cases h : lookup? key l with
  | none =>
    rw [insertKey_of_fresh value h, List.map_append]
    exact hl.append (List.nodup_singleton key) (List.disjoint_singleton.2 (lookup?_eq_none_iff.1 h))
  | some old =>
    rw [map_insertKey value (·.1) h rfl]
    exact hl

theorem eraseKey_insertKey (key : String) (value : α) (l : List (String × α)) :
    eraseKey key (insertKey key value l) = eraseKey key l := by
  induction l with
  | nil => simp [insertKey, eraseKey]
  | cons p l ih =>
    obtain ⟨k, v⟩ := p
    by_cases hk : k = key
    · simp [insertKey, eraseKey, hk]
    · unfold eraseKey at ih ⊢
      simp [insertKey, hk, ih]

theorem mem_insertKey {key : String} {value : α} {p : String × α} {l : List (String × α)}
    (h : p ∈ insertKey key value l) : p = (key, value) ∨ p ∈ l := by
  induction l with
  | nil => exact .inl (List.mem_singleton.1 h)
  | cons q l ih =>
    obtain ⟨k, v⟩ := q
    by_cases hk : k = key
    · simp only [insertKey, if_pos hk, List.mem_cons] at h
      subst hk
      exact h.imp_right (List.mem_cons_of_mem _)
    · simp only [insertKey, if_neg hk, List.mem_cons] at h
      rcases h with rfl | h
      · exact .inr List.mem_cons_self
      · exact (ih h).imp_right (List.mem_cons_of_mem _)

/-- With unique keys the rows that a filter leaves are found as before, and no others. -/
theorem lookup?_filter {key : String} {value : α} {l : List (String × α)} (hl : (l.map (·.1)).Nodup)
    (keep : String × α → Bool) :
    lookup? key (l.filter keep) = some value ↔ lookup? key l = some value ∧ keep (key, value) = true := by
  have hs : ((l.filter keep).map (·.1)).Nodup := (List.Sublist.map _ List.filter_sublist).nodup hl
  rw [lookup?_eq_some_iff hs, lookup?_eq_some_iff hl, List.mem_filter]

/-! ## Tables with other values -/

section Values
variable (f : α → β) (key : String) (l : List (String × α))

theorem lookup?_map_value : lookup? key (l.map fun p => (p.1, f p.2)) = (lookup? key l).map f := by
  induction l with
  | nil => rfl
  | cons p l ih =>
    obtain ⟨k, v⟩ := p
    by_cases hk : k = key
    · simp [lookup?, hk]
    · simpa [lookup?, hk] using ih

theorem insertKey_map_value (value : α) :
    insertKey key (f value) (l.map fun p => (p.1, f p.2)) = (insertKey key value l).map fun p => (p.1, f p.2) := by
  induction l with
  | nil => rfl
  | cons p l ih =>
    obtain ⟨k, v⟩ := p
    by_cases hk : k = key
    · simp [insertKey, hk]
    · simpa [insertKey, hk] using ih

theorem eraseKey_map_value : eraseKey key (l.map fun p => (p.1, f p.2)) = (eraseKey key l).map fun p => (p.1, f p.2) := by
  unfold eraseKey
  rw [List.filter_map]
  rfl

end Values

end Standby
