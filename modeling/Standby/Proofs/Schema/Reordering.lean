import Standby.Proofs.Schema.Satisfaction
/-!
# Checks and the order of things

A document with the members of its objects in another order is the same document, and a schema with its properties,
patterns, required keys and groups in another order asks the same. A check goes through all of these in some order, and
what it accepts does not depend on it (`check_eq_ok_iff`).
-/

namespace Standby

/-- The same document, up to the order of the members of its objects. Here and in `Schema.Reordered`, the pairs of one
list are put in the order of the other, which they then correspond to one by one. -/
inductive Json.Reordered : Json → Json → Prop
  | plain {j} (h : j.members? = none) : Reordered j j
  | items {items items'} (hlength : items.length = items'.length) (h : ∀ p ∈ items.zip items', Reordered p.1 p.2) :
      Reordered (.arr items) (.arr items')
  | members {members moved members'} (hunique : (members.map (·.1)).Nodup) (hmoved : members.Perm moved)
      (hkeys : moved.map (·.1) = members'.map (·.1)) (h : ∀ p ∈ moved.zip members', Reordered p.1.2 p.2.2) :
      Reordered (.obj members) (.obj members')

/-- The same schema, up to the order of what is in it. -/
inductive Schema.Reordered : Schema → Schema → Prop
  | object {properties moved properties' patterns moved' patterns' required required' anyOf anyOf' additional}
      (hmoved : properties.Perm moved) (hkeys : moved.map (·.1) = properties'.map (·.1))
      (h : ∀ p ∈ moved.zip properties', Reordered p.1.2 p.2.2)
      (hmoved' : patterns.Perm moved') (hkeys' : moved'.map (·.1) = patterns'.map (·.1))
      (h' : ∀ p ∈ moved'.zip patterns', Reordered p.1.2 p.2.2)
      (hrequired : required.Perm required') (hanyOf : anyOf.Perm anyOf') :
      Reordered (object properties patterns required anyOf additional)
        (object properties' patterns' required' anyOf' additional)
  | string {rules} : Reordered (string rules) (string rules)
  | integer {min max} : Reordered (integer min max) (integer min max)
  | flag : Reordered flag flag
  | nullable {inner inner'} (h : Reordered inner inner') : Reordered (nullable inner) (nullable inner')
  | any : Reordered any any

/-! ## Pairs in another order -/

section Pairs

variable {κ α : Type} {R : α → α → Prop} {l moved l' : List (κ × α)}

/-- Each pair of one list has one with its key in the other, and their values are related. -/
structure Corresponds (R : α → α → Prop) (l l' : List (κ × α)) : Prop where
  right : ∀ p ∈ l, ∃ p' ∈ l', p'.1 = p.1 ∧ R p.2 p'.2
  left : ∀ p' ∈ l', ∃ p ∈ l, p.1 = p'.1 ∧ R p.2 p'.2

theorem Corresponds.of_zip (hkeys : l.map (·.1) = l'.map (·.1)) (h : ∀ p ∈ l.zip l', R p.1.2 p.2.2) :
    Corresponds R l l' := by
  induction l generalizing l' with
  | nil =>
    rw [List.map_eq_nil_iff.1 hkeys.symm]
    exact ⟨nofun, nofun⟩
  | cons p l ih =>
    obtain ⟨p', l', rfl, hkey, hkeys⟩ := List.map_eq_cons_iff.1 hkeys.symm
    rw [List.zip_cons_cons, List.forall_mem_cons] at h
    have hrest := ih hkeys.symm h.2
    constructor
    · refine List.forall_mem_cons.2 ⟨⟨p', List.mem_cons_self, hkey, h.1⟩, fun q hq => ?_⟩
      obtain ⟨q', hq', hr⟩ := hrest.right q hq
      exact ⟨q', List.mem_cons_of_mem _ hq', hr⟩
    · refine List.forall_mem_cons.2 ⟨⟨p, List.mem_cons_self, hkey.symm, h.1⟩, fun q' hq' => ?_⟩
      obtain ⟨q, hq, hr⟩ := hrest.left q' hq'
      exact ⟨q, List.mem_cons_of_mem _ hq, hr⟩

theorem Corresponds.of_moved (hmoved : l.Perm moved) (hkeys : moved.map (·.1) = l'.map (·.1))
    (h : ∀ p ∈ moved.zip l', R p.1.2 p.2.2) : Corresponds R l l' := by
  have hzip := Corresponds.of_zip hkeys h
  exact ⟨fun p hp => hzip.right p (hmoved.mem_iff.1 hp), fun p' hp' =>
    (hzip.left p' hp').imp fun p ⟨hp, hr⟩ => ⟨hmoved.mem_iff.2 hp, hr⟩⟩

theorem keys_of_moved (hmoved : l.Perm moved) (hkeys : moved.map (·.1) = l'.map (·.1)) :
    (l.map (·.1)).Perm (l'.map (·.1)) :=
  hkeys ▸ hmoved.map _

end Pairs

section Members

variable {members members' : List (String × Json)}

theorem Json.Reordered.exists_members {j : Json} (h : j.Reordered (.obj members')) : ∃ members, j = .obj members := by
  cases h with
  | plain => exact ⟨_, rfl⟩
  | members => exact ⟨_, rfl⟩

theorem Json.Reordered.keys (h : Json.Reordered (.obj members) (.obj members')) :
    (members.map (·.1)).Perm (members'.map (·.1)) := by
  cases h with
  | plain h => cases h
  | members _ hmoved hkeys _ => exact keys_of_moved hmoved hkeys

theorem Json.Reordered.corresponds (h : Json.Reordered (.obj members) (.obj members')) :
    Corresponds Json.Reordered members members' := by
  cases h with
  | plain h => cases h
  | members _ hmoved hkeys h => exact .of_moved hmoved hkeys h

theorem Json.Reordered.unique (h : Json.Reordered (.obj members) (.obj members')) : (members.map (·.1)).Nodup := by
  cases h with
  | plain h => cases h
  | members hunique _ _ _ => exact hunique

/-- With unique keys, the values under a key are those that correspond. -/
theorem Json.Reordered.child (h : Json.Reordered (.obj members) (.obj members')) {key : String} {child' : Json}
    (hc : lookup? key members' = some child') : ∃ child, lookup? key members = some child ∧ child.Reordered child' := by
  obtain ⟨m, hm, rfl, hr⟩ := h.corresponds.left _ (mem_of_lookup?_eq_some hc)
  exact ⟨m.2, (lookup?_eq_some_iff h.unique).2 hm, hr⟩

theorem Json.Reordered.child' (h : Json.Reordered (.obj members) (.obj members')) {key : String} {child : Json}
    (hc : lookup? key members = some child) : ∃ child', lookup? key members' = some child' ∧ child.Reordered child' := by
  obtain ⟨m', hm', hname, hr⟩ := h.corresponds.right _ (mem_of_lookup?_eq_some hc)
  have hkey : m'.1 = key := hname
  exact ⟨m'.2, (lookup?_eq_some_iff (h.keys.nodup_iff.1 h.unique)).2 (hkey ▸ hm'), hr⟩

end Members

theorem Json.Reordered.members_or_not {j j' : Json} (h : j.Reordered j') :
    ((∀ members, j ≠ .obj members) ∧ ∀ members, j' ≠ .obj members) ∨
      ∃ members members', j = .obj members ∧ j' = .obj members' := by
  cases h with
  | plain hplain =>
    have hno : ∀ members, j ≠ .obj members := by
      rintro members rfl
      cases hplain
    exact .inl ⟨hno, hno⟩
  | items => exact .inl ⟨nofun, nofun⟩
  | members => exact .inr ⟨_, _, rfl, rfl⟩

/-- What is true neither of lists nor of objects does not depend on the order of members. -/
theorem Json.Reordered.iff_of_not {P : Json → Prop} {j j' : Json} (h : j.Reordered j') (hitems : ∀ items, ¬P (.arr items))
    (hmembers : ∀ members, ¬P (.obj members)) : P j ↔ P j' := by
  cases h with
  | plain => exact Iff.rfl
  | items => exact iff_of_false (hitems _) (hitems _)
  | members => exact iff_of_false (hmembers _) (hmembers _)

namespace Schema

variable {schema schema' : Schema} {document document' : Json}

/-! ## Keys -/

section Keys

variable {properties properties' : List (String × Schema)} {patterns patterns' : List (Text.Pattern × Schema)}
  {required required' : List String} {anyOf anyOf' : List (List String)} {additional : Bool} {keys keys' : List String}

theorem AllowsKeys.reorder (h : AllowsKeys properties patterns required anyOf additional keys)
    (hproperties : (properties.map (·.1)).Perm (properties'.map (·.1)))
    (hpatterns : (patterns.map (·.1)).Perm (patterns'.map (·.1))) (hrequired : required.Perm required')
    (hanyOf : anyOf.Perm anyOf') (hkeys : keys.Perm keys') :
    AllowsKeys properties' patterns' required' anyOf' additional keys' where
  required key hkey := hkeys.mem_iff.1 (h.required key (hrequired.mem_iff.2 hkey))
  group hne := by
    obtain ⟨group, hg, hall⟩ := h.group fun hnil => hne (List.nil_perm.1 (hnil ▸ hanyOf))
    exact ⟨group, hanyOf.mem_iff.1 hg, fun key hkey => hkeys.mem_iff.1 (hall key hkey)⟩
  known hclosed key hkey := by
    rcases h.known hclosed key (hkeys.mem_iff.2 hkey) with ⟨p, hp, rfl⟩ | ⟨q, hq, hmatch⟩
    · obtain ⟨p', hp', hname⟩ := List.mem_map.1 (hproperties.mem_iff.1 (List.mem_map_of_mem hp))
      exact .inl ⟨p', hp', hname⟩
    · obtain ⟨q', hq', hpattern⟩ := List.mem_map.1 (hpatterns.mem_iff.1 (List.mem_map_of_mem hq))
      exact .inr ⟨q', hq', hpattern ▸ hmatch⟩

end Keys

theorem Reordered.coverage (h : schema.Reordered schema') (key : String) :
    schema'.coverage key = schema.coverage key := by
  cases h with
  | object hmoved hkeys _ hmoved' hkeys' _ _ _ =>
    have hnamed := (keys_of_moved hmoved hkeys).any_eq (f := (· == key))
    have hmatched := (keys_of_moved hmoved' hkeys').countP_eq (·.isIn key)
    rw [List.any_map, List.any_map] at hnamed
    rw [List.countP_map, List.countP_map] at hmatched
    exact congrArg₂ (fun (named : Bool) matched => (if named then 1 else 0) + matched) hnamed.symm hmatched.symm
  | _ => rfl

theorem mem_zip_self {α : Type} {l : List α} {p : α × α} (h : p ∈ l.zip l) : p.1 ∈ l ∧ p.2 = p.1 := by
  induction l with
  | nil => cases h
  | cons a l ih =>
    rw [List.zip_cons_cons, List.mem_cons] at h
    rcases h with rfl | h
    · exact ⟨List.mem_cons_self, rfl⟩
    · exact ⟨List.mem_cons_of_mem _ (ih h).1, (ih h).2⟩

theorem reordered_refl (schema : Schema) : schema.Reordered schema := by
  induction schema using inside_induction with
  | object properties patterns required anyOf additional hproperties hpatterns =>
    refine .object (.refl _) rfl (fun p hp => ?_) (.refl _) rfl (fun q hq => ?_) (.refl _) (.refl _)
    · rw [(mem_zip_self hp).2]
      exact hproperties p.1 (mem_zip_self hp).1
    · rw [(mem_zip_self hq).2]
      exact hpatterns q.1 (mem_zip_self hq).1
  | string rules => exact .string
  | integer min max => exact .integer
  | flag => exact .flag
  | nullable inner ih => exact .nullable ih
  | any => exact .any

/-! ## Satisfaction -/

/-- Another schema is satisfied by another object if each of its parts has one to go by, and each member does. -/
theorem Satisfies.transfer {T : Json → Json → Prop} {properties properties' : List (String × Schema)}
    {patterns patterns' : List (Text.Pattern × Schema)} {required required' : List String}
    {anyOf anyOf' : List (List String)} {additional : Bool} {members members' : List (String × Json)}
    (h : (Schema.object properties patterns required anyOf additional).Satisfies (.obj members))
    (hkeys : AllowsKeys properties patterns required anyOf additional (members.map (·.1)) →
      AllowsKeys properties' patterns' required' anyOf' additional (members'.map (·.1)))
    (hchild : ∀ key child', lookup? key members' = some child' → ∃ child, lookup? key members = some child ∧ T child child')
    (hmember : ∀ m' ∈ members', ∃ m ∈ members, m.1 = m'.1 ∧ T m.2 m'.2)
    (hnamed : ∀ p' ∈ properties', ∃ p ∈ properties, p.1 = p'.1 ∧
      ∀ child child', T child child' → p.2.Satisfies child → p'.2.Satisfies child')
    (hmatched : ∀ q' ∈ patterns', ∃ q ∈ patterns, q.1 = q'.1 ∧
      ∀ child child', T child child' → q.2.Satisfies child → q'.2.Satisfies child') :
    (Schema.object properties' patterns' required' anyOf' additional).Satisfies (.obj members') := by
  rw [satisfies_object_iff] at h ⊢
  obtain ⟨hallows, hsatisfies, hsatisfies'⟩ := h
  refine ⟨hkeys hallows, fun p' hp' child' hc' => ?_, fun q' hq' m' hm' hkey => ?_⟩
  · obtain ⟨p, hp, hname, htransfer⟩ := hnamed p' hp'
    obtain ⟨child, hc, hT⟩ := hchild p'.1 child' hc'
    exact htransfer child child' hT (hsatisfies p hp child (hname ▸ hc))
  · obtain ⟨q, hq, hpattern, htransfer⟩ := hmatched q' hq'
    obtain ⟨m, hm, hname, hT⟩ := hmember m' hm'
    exact htransfer m.2 m'.2 hT (hsatisfies' q hq m hm (by rw [hpattern, hname]; exact hkey))

/-- A document satisfies a schema exactly if it does in any other order. -/
theorem Reordered.satisfies_iff (hs : schema.Reordered schema') (hj : document.Reordered document') :
    schema.Satisfies document ↔ schema'.Satisfies document' := by
  induction schema using inside_induction generalizing schema' document document' with
  | object properties patterns required anyOf additional hproperties hpatterns =>
    cases hs with
    | object hmoved hkeys h hmoved' hkeys' h' hrequired hanyOf =>
      have hnamed := Corresponds.of_moved hmoved hkeys h
      have hmatched := Corresponds.of_moved hmoved' hkeys' h'
      have hnames := keys_of_moved hmoved hkeys
      have hnames' := keys_of_moved hmoved' hkeys'
      rcases hj.members_or_not with ⟨hno, hno'⟩ | ⟨members, members', rfl, rfl⟩
      · exact iff_of_false (not_satisfies_object hno) (not_satisfies_object hno')
      constructor
      · intro hs
        refine hs.transfer (·.reorder hnames hnames' hrequired hanyOf hj.keys) (fun _ _ => hj.child) hj.corresponds.left
          (fun p' hp' => ?_) fun q' hq' => ?_
        · obtain ⟨p, hp, hname, hr⟩ := hnamed.left p' hp'
          exact ⟨p, hp, hname, fun _ _ hrc => (hproperties p hp hr hrc).1⟩
        · obtain ⟨q, hq, hpattern, hr⟩ := hmatched.left q' hq'
          exact ⟨q, hq, hpattern, fun _ _ hrc => (hpatterns q hq hr hrc).1⟩
      · intro hs
        refine hs.transfer (T := fun child' child => child.Reordered child')
          (·.reorder hnames.symm hnames'.symm hrequired.symm hanyOf.symm hj.keys.symm) (fun _ _ => hj.child')
          hj.corresponds.right (fun p hp => ?_) fun q hq => ?_
        · obtain ⟨p', hp', hname, hr⟩ := hnamed.right p hp
          exact ⟨p', hp', hname, fun _ _ hrc => (hproperties p hp hr hrc).2⟩
        · obtain ⟨q', hq', hpattern, hr⟩ := hmatched.right q hq
          exact ⟨q', hq', hpattern, fun _ _ hrc => (hpatterns q hq hr hrc).2⟩
  | string rules =>
    cases hs
    exact hj.iff_of_not nofun nofun
  | integer min max =>
    cases hs
    exact hj.iff_of_not nofun nofun
  | flag =>
    cases hs
    exact hj.iff_of_not (fun _ => not_satisfies_flag rfl) (fun _ => not_satisfies_flag rfl)
  | nullable inner ih =>
    cases hs with
    | nullable hs =>
      have hnull : document = .null ↔ document' = .null := hj.iff_of_not (P := (· = .null)) nofun nofun
      rw [satisfies_nullable_iff, satisfies_nullable_iff, hnull, ih hs hj]
  | any =>
    cases hs
    exact iff_of_true .any .any

/-! ## What is covered -/

/-- What comes under a schema does so in any other order. -/
theorem Governs.reorder {t' : Schema} {k' : Json} (h : schema'.Governs document' t' k') (hs : schema.Reordered schema')
    (hj : document.Reordered document') :
    ∃ t k, schema.Governs document t k ∧ t.Reordered t' ∧ k.Reordered k' := by
  induction h generalizing schema document with
  | self => exact ⟨schema, document, .self, hs, hj⟩
  | nullable _ ih =>
    cases hs with
    | nullable hs =>
      obtain ⟨t, k, hg, ht, hk⟩ := ih hs hj
      exact ⟨t, k, .nullable hg, ht, hk⟩
  | named hp' hc' _ ih =>
    cases hs with
    | object hmoved hkeys h _ _ _ _ _ =>
      obtain ⟨members, rfl⟩ := hj.exists_members
      obtain ⟨p, hp, hname, hr⟩ := (Corresponds.of_moved hmoved hkeys h).left _ hp'
      obtain ⟨child, hc, hrc⟩ := hj.child hc'
      obtain ⟨t, k, hg, ht, hk⟩ := ih hr hrc
      exact ⟨t, k, .named hp (hname ▸ hc) hg, ht, hk⟩
  | matched hq' hm' hkey _ ih =>
    cases hs with
    | object _ _ _ hmoved' hkeys' h' _ _ =>
      obtain ⟨members, rfl⟩ := hj.exists_members
      obtain ⟨q, hq, hpattern, hr⟩ := (Corresponds.of_moved hmoved' hkeys' h').left _ hq'
      obtain ⟨m, hm, hname, hrc⟩ := hj.corresponds.left _ hm'
      obtain ⟨t, k, hg, ht, hk⟩ := ih hr hrc
      exact ⟨t, k, .matched hq hm (by rw [hpattern, hname]; exact hkey) hg, ht, hk⟩

theorem CoversOnce.reorder (h : schema.CoversOnce document) (hs : schema.Reordered schema')
    (hj : document.Reordered document') : schema'.CoversOnce document' := by
  intro t' members' hg' m' hm'
  obtain ⟨t, k, hg, ht, hk⟩ := hg'.reorder hs hj
  obtain ⟨members, rfl⟩ := hk.exists_members
  obtain ⟨m, hm, hname, -⟩ := hk.corresponds.left m' hm'
  rw [ht.coverage, ← hname]
  exact h t members hg m hm

/-! ## What is accepted -/

/-- **What a check accepts.** A check accepts a document in which no key is covered twice exactly if the document
satisfies the schema; and then it does so in whatever order the parts of the schema and the members of the document's
objects are. -/
theorem check_eq_ok_iff (h : schema.CoversOnce document) :
    (schema.check document = .ok () ↔ schema.Satisfies document) ∧
      ∀ schema' document', schema.Reordered schema' → document.Reordered document' →
        (schema'.check document' = .ok () ↔ schema.check document = .ok ()) := by
  refine ⟨check_iff_satisfies h, fun schema' document' hs hj => ?_⟩
  calc schema'.check document' = .ok () ↔ schema'.Satisfies document' := check_iff_satisfies (h.reorder hs hj)
    _ ↔ schema.Satisfies document := (hs.satisfies_iff hj).symm
    _ ↔ schema.check document = .ok () := (check_iff_satisfies h).symm

/-- A name, and any number of counts under keys that begin with a mark. -/
def counts : Schema :=
  object [("name", string { minLength := some 1 })]
    [(.ofExpression "^x-" ⟨true, [(.ranges [('x', 'x')], .once), (.ranges [('-', '-')], .once)], false⟩,
      nullable (integer (some 0) none))]
    ["name"] [] false

theorem check_eq_ok_iff_counts :
    counts.CoversOnce (.obj [("name", .str "rack"), ("x-cpu", .num (.int 4))]) ∧
      counts.Satisfies (.obj [("name", .str "rack"), ("x-cpu", .num (.int 4))]) ∧
      counts.check (.obj [("x-cpu", .num (.int 4)), ("name", .str "rack")]) = .ok () := by
  have hcovers : counts.CoversOnce (.obj [("name", .str "rack"), ("x-cpu", .num (.int 4))]) :=
    coversOnce_of_flat (by decide)
  have hcheck : counts.check (.obj [("name", .str "rack"), ("x-cpu", .num (.int 4))]) = .ok () := rfl
  have hswap : Json.Reordered (.obj [("name", .str "rack"), ("x-cpu", .num (.int 4))])
      (.obj [("x-cpu", .num (.int 4)), ("name", .str "rack")]) := by
    refine .members (by decide) (.swap _ _ _) rfl fun p hp => ?_
    simp only [List.zip_cons_cons, List.zip_nil_right, List.mem_cons, List.not_mem_nil, or_false] at hp
    rcases hp with rfl | rfl
    · exact .plain rfl
    · exact .plain rfl
  obtain ⟨hsatisfies, horder⟩ := check_eq_ok_iff hcovers
  exact ⟨hcovers, hsatisfies.1 hcheck, (horder counts _ (reordered_refl counts) hswap).2 hcheck⟩

end Schema

end Standby
