import Mathlib.Data.List.Chain
import Mathlib.Logic.Relation
import Standby.Engine.Dispatcher
import Standby.Proofs.Basic
/-!
# Inheritance

The chain of a resource is searched for in rounds, each of which puts one name on it. Rounds cannot go on for ever, since
each takes a name that is not on the chain, and all but the last one the name of a resource. Where the pointers run in a
circle or lead to a resource that does not exist, the search ends, and what it ends with is all that pointers lead to,
each name once and in their order (`chainOf_closure`).
-/

namespace Standby

namespace Inherit

/-! ## The search for a chain -/

/-- How far a search is: the names on the chain, and the name to go on with. -/
structure Search where
  chain : List String
  next : Option String

/-- A round puts a name on the chain that is not on it, and goes on with what the name points to. A name that no resource
has points to nothing. -/
inductive Round (ps : Pointers) : Search → Search → Prop
  | add {chain : List String} {name : String} (hnew : name ∉ chain) :
      Round ps ⟨chain, some name⟩ ⟨chain ++ [name], (lookup? name ps).join⟩

/-- A search that no round is left of. -/
def Search.Over (ps : Pointers) (s : Search) : Prop := ∀ t, ¬ Round ps s t

/-- How many rounds are left at most: one for each name of a resource that is not on the chain, and one for a name that no
resource has. -/
def Search.left (ps : Pointers) (s : Search) : Nat := (unseen ps s.chain).length + s.next.toList.length

variable {ps : Pointers} {s t : Search}

theorem Search.Over.next_mem (h : s.Over ps) {name : String} (hnext : s.next = some name) : name ∈ s.chain := by
  obtain ⟨chain, next⟩ := s
  cases hnext
  by_contra hnew
  exact h _ (.add hnew)

theorem unseen_append_length_le (ps : Pointers) (chain : List String) (name : String) :
    (unseen ps (chain ++ [name])).length ≤ (unseen ps chain).length := by
  rw [unseen_append]
  exact List.length_filter_le _ _

theorem Round.chain_eq (h : Round ps s t) : ∃ name, t.chain = s.chain ++ [name] := by
  obtain @⟨chain, name, hnew⟩ := h
  exact ⟨name, rfl⟩

theorem Round.left_lt (h : Round ps s t) : t.left ps < s.left ps := by
  obtain @⟨chain, name, hnew⟩ := h
  unfold Search.left
  cases hp : lookup? name ps with
  | none =>
    have hle := unseen_append_length_le ps chain name
    simp only [Option.join_none, Option.toList_none, Option.toList_some, List.length_nil, List.length_singleton]
    omega
  | some next =>
    have hless := unseen_append_length_lt (mem_of_lookup? hp) hnew
    have hnext : next.toList.length ≤ 1 := by cases next <;> simp
    simp only [Option.join_some, Option.toList_some, List.length_singleton]
    omega

/-- No search goes on for ever. -/
theorem wellFounded_round (ps : Pointers) : WellFounded fun t s => Round ps s t :=
  Subrelation.wf Round.left_lt (InvImage.wf (Search.left ps) Nat.lt_wfRel.wf)

/-- What holds of the searches that are over, and before a round if it does after it, holds of all. -/
theorem Search.induction (ps : Pointers) {motive : Search → Prop} (ended : ∀ s, s.Over ps → motive s)
    (round : ∀ s t, Round ps s t → motive t → motive s) (s : Search) : motive s := by
  induction s using (wellFounded_round ps).induction with
  | _ s ih =>
    by_cases h : s.Over ps
    · exact ended s h
    · obtain ⟨t, ht⟩ := not_forall_not.1 h
      exact round s t ht (ih t ht)

theorem Round.extend_eq (h : Round ps s t) : extend ps s.chain s.next = extend ps t.chain t.next := by
  obtain @⟨chain, name, hnew⟩ := h
  change extend ps chain (some name) = extend ps (chain ++ [name]) (lookup? name ps).join
  rw [extend, dif_neg hnew]
  split
  · rename_i hp
    rw [hp, Option.join_none, extend]
  · rename_i hp
    rw [hp, Option.join_some]

theorem Search.Over.extend_eq (h : s.Over ps) : extend ps s.chain s.next = s.chain := by
  obtain ⟨chain, next⟩ := s
  cases next with
  | none => rw [extend]
  | some name => rw [extend, dif_pos (h.next_mem rfl)]

theorem extend_eq_of_rounds (h : Relation.ReflTransGen (Round ps) s t) :
    extend ps s.chain s.next = extend ps t.chain t.next := by
  induction h with
  | refl => rfl
  | tail _ hround ih => exact ih.trans hround.extend_eq

/-- A search comes to an end, and when it is over its chain is this one. -/
structure Search.EndsWith (ps : Pointers) (s : Search) (chain : List String) : Prop where
  ends : Acc (fun t s => Round ps s t) s
  chain_eq : ∀ t, Relation.ReflTransGen (Round ps) s t → t.Over ps → t.chain = chain

theorem endsWith_extend (ps : Pointers) (s : Search) : s.EndsWith ps (extend ps s.chain s.next) where
  ends := (wellFounded_round ps).apply s
  chain_eq _ hrounds hover := hover.extend_eq.symm.trans (extend_eq_of_rounds hrounds).symm

/-- The number of names on a chain is bounded, wherever the pointers lead. -/
theorem length_extend_le (ps : Pointers) (s : Search) :
    (extend ps s.chain s.next).length ≤ s.chain.length + s.left ps := by
  induction s using Search.induction ps with
  | ended s h =>
    rw [h.extend_eq]
    exact Nat.le_add_right _ _
  | round s t h ih =>
    have hless := h.left_lt
    obtain ⟨name, hchain⟩ := h.chain_eq
    rw [h.extend_eq]
    rw [hchain, List.length_append, List.length_singleton, ← hchain] at ih
    omega

theorem length_unseen_le (ps : Pointers) (chain : List String) : (unseen ps chain).length ≤ ps.length := by
  refine Nat.le_trans (List.length_filter_le _ _) ?_
  rw [List.length_map]

theorem length_unseen_lt {name : String} (h : name ∈ ps.map (·.1)) : (unseen ps [name]).length < ps.length := by
  have hless : (unseen ps ([] ++ [name])).length < (unseen ps []).length :=
    unseen_append_length_lt h List.not_mem_nil
  exact Nat.lt_of_lt_of_le hless (length_unseen_le ps [])

theorem length_chain_le (ps : Pointers) (name : String) (next : Option String) :
    (chain ps name next).length ≤ (unseen ps [name]).length + 2 := by
  have hbound : (chain ps name next).length ≤ 1 + ((unseen ps [name]).length + next.toList.length) :=
    length_extend_le ps ⟨[name], next⟩
  have hnext : next.toList.length ≤ 1 := by cases next <;> simp
  omega

/-! ## Chains of pointers -/

/-- Names of which each points to the next, each once. -/
structure Walks (ps : Pointers) (chain : List String) : Prop where
  linked : chain.IsChain fun a b => lookup? a ps = some (some b)
  nodup : chain.Nodup

/-- A walk that goes as far as it can: where it ends nothing leads on, or only back to a name that it has. -/
structure Complete (ps : Pointers) (chain : List String) : Prop extends Walks ps chain where
  ended : ∀ last next, chain.getLast? = some last → lookup? last ps = some (some next) → next ∈ chain

theorem walks_singleton (ps : Pointers) (name : String) : Walks ps [name] :=
  ⟨List.isChain_singleton name, List.nodup_singleton name⟩

theorem Walks.snoc {ps : Pointers} {chain : List String} {last next : String} (h : Walks ps chain)
    (hlast : chain.getLast? = some last) (hnext : lookup? last ps = some (some next)) (hnew : next ∉ chain) :
    Walks ps (chain ++ [next]) where
  linked := by
    refine List.isChain_append.2 ⟨h.linked, List.isChain_singleton next, fun a ha b hb => ?_⟩
    cases hlast.symm.trans ha
    cases hb
    exact hnext
  nodup := List.nodup_append.2
    ⟨h.nodup, List.nodup_singleton next, fun a ha b hb hab => hnew (List.mem_singleton.1 hb ▸ hab ▸ ha)⟩

/-- The chain of a search is a walk, and the search goes on with what its last name points to. -/
structure Search.Stands (ps : Pointers) (s : Search) : Prop where
  walks : Walks ps s.chain
  next_eq : ∃ last, s.chain.getLast? = some last ∧ (lookup? last ps).join = s.next

theorem Search.Stands.round (h : s.Stands ps) (hround : Round ps s t) : t.Stands ps := by
  obtain ⟨hwalks, last, hlast, hnext⟩ := h
  obtain @⟨chain, name, hnew⟩ := hround
  exact ⟨hwalks.snoc hlast (Option.join_eq_some_iff.1 hnext) hnew, name, List.getLast?_concat, rfl⟩

/-- Where a search is over, its chain goes as far as it can. -/
theorem Search.Stands.complete (h : s.Stands ps) (hover : s.Over ps) : Complete ps s.chain where
  toWalks := h.walks
  ended last next hlast hnext := by
    obtain ⟨last', hlast', hnext'⟩ := h.next_eq
    cases hlast.symm.trans hlast'
    rw [hnext] at hnext'
    exact hover.next_mem hnext'.symm

theorem Search.Stands.complete_extend (h : s.Stands ps) :
    s.chain <+: extend ps s.chain s.next ∧ Complete ps (extend ps s.chain s.next) := by
  induction s using Search.induction ps with
  | ended s hover =>
    rw [hover.extend_eq]
    exact ⟨List.prefix_rfl, h.complete hover⟩
  | round s t hround ih =>
    obtain ⟨hstarts, hcomplete⟩ := ih (h.round hround)
    obtain ⟨name, hchain⟩ := hround.chain_eq
    rw [hround.extend_eq]
    exact ⟨(hchain ▸ List.prefix_append s.chain [name]).trans hstarts, hcomplete⟩

/-- The chain of a resource begins with the resource and is complete. -/
theorem complete_chain {ps : Pointers} {name : String} {next : Option String} (h : lookup? name ps = some next) :
    ∃ rest, chain ps name next = name :: rest ∧ Complete ps (name :: rest) := by
  have hstands : (Search.mk [name] next).Stands ps := ⟨walks_singleton ps name, name, rfl, by rw [h, Option.join_some]⟩
  obtain ⟨⟨rest, hrest⟩, hcomplete⟩ := hstands.complete_extend
  rw [← hrest] at hcomplete
  exact ⟨rest, hrest.symm, hcomplete⟩

/-- Pointers lead from one name to another, in any number of steps. -/
def Leads (ps : Pointers) : String → String → Prop := Relation.ReflTransGen fun a b => lookup? a ps = some (some b)

/-- What is on a complete walk points to nothing that is not on it. -/
theorem Complete.next_mem {ps : Pointers} {chain : List String} {a b : String} (h : Complete ps chain) (ha : a ∈ chain)
    (hab : lookup? a ps = some (some b)) : b ∈ chain := by
  obtain ⟨before, after, rfl⟩ := List.append_of_mem ha
  cases after with
  | nil => exact h.ended a b List.getLast?_concat hab
  | cons c after =>
    have hac := (List.isChain_cons_cons.1 (List.isChain_append.1 h.linked).2.1).1
    cases hab.symm.trans hac
    exact List.mem_append_right _ (List.mem_cons_of_mem _ List.mem_cons_self)

/-- On a complete walk are the names that pointers lead to from its first one. -/
theorem Complete.mem_iff {ps : Pointers} {name b : String} {rest : List String} (h : Complete ps (name :: rest)) :
    b ∈ name :: rest ↔ Leads ps name b := by
  constructor
  · exact List.IsChain.induction (Leads ps name) _ h.linked (fun _ _ hab ha => Relation.ReflTransGen.tail ha hab)
      (fun _ => .refl) b
  · intro hleads
    induction hleads with
    | refl => exact List.mem_cons_self
    | tail _ hbc ih => exact h.next_mem ih hbc

end Inherit

/-! ## Resources -/

namespace Dispatcher

variable {σ κ : Type} {rs : List (Resource σ κ)} {r : Resource σ κ}

/-- Resources with what each of them inherits from. -/
def pointersOf (rs : List (Resource σ κ)) : Inherit.Pointers := rs.map fun r => (r.collection, r.inherits)

/-- Some resource of the collection `a` inherits from `b`. -/
def Inherits (rs : List (Resource σ κ)) (a b : String) : Prop := ∃ r ∈ rs, r.collection = a ∧ r.inherits = some b

theorem names_pointersOf (rs : List (Resource σ κ)) : (pointersOf rs).map (·.1) = rs.map (·.collection) := by
  rw [pointersOf, List.map_map]
  rfl

theorem length_pointersOf (rs : List (Resource σ κ)) : (pointersOf rs).length = rs.length := List.length_map _

section Pointers
variable (honce : (rs.map (·.collection)).Nodup)
include honce

theorem lookup?_pointersOf_iff {name : String} {next : Option String} :
    lookup? name (pointersOf rs) = some next ↔ ∃ r ∈ rs, r.collection = name ∧ r.inherits = next := by
  rw [lookup?_eq_some_iff ((names_pointersOf rs).symm ▸ honce), pointersOf, List.mem_map]
  simp only [Prod.mk.injEq]

theorem complete_chainOf (hr : r ∈ rs) :
    ∃ rest, chainOf rs r = r.collection :: rest ∧ Inherit.Complete (pointersOf rs) (r.collection :: rest) :=
  Inherit.complete_chain ((lookup?_pointersOf_iff honce).2 ⟨r, hr, rfl, rfl⟩)

end Pointers

theorem length_chainOf_le (rs : List (Resource σ κ)) (r : Resource σ κ) : (chainOf rs r).length ≤ rs.length + 2 := by
  have hbound := Inherit.length_chain_le (pointersOf rs) r.collection r.inherits
  have hunseen := Inherit.length_unseen_le (pointersOf rs) [r.collection]
  rw [length_pointersOf] at hunseen
  exact Nat.le_trans hbound (Nat.add_le_add_right hunseen 2)

/-- All names on the chain but the last are names of resources, and so is the first. -/
theorem length_chainOf_le_of_mem (hr : r ∈ rs) : (chainOf rs r).length ≤ rs.length + 1 := by
  have hbound := Inherit.length_chain_le (pointersOf rs) r.collection r.inherits
  have hunseen : (Inherit.unseen (pointersOf rs) [r.collection]).length < (pointersOf rs).length :=
    Inherit.length_unseen_lt ((names_pointersOf rs).symm ▸ List.mem_map_of_mem hr)
  rw [length_pointersOf] at hunseen
  exact Nat.le_trans hbound (Nat.add_le_add_right hunseen 1)

theorem leads_iff (honce : (rs.map (·.collection)).Nodup) {a b : String} :
    Inherit.Leads (pointersOf rs) a b ↔ Relation.ReflTransGen (Inherits rs) a b := by
  have hsame : (fun a b => lookup? a (pointersOf rs) = some (some b)) = Inherits rs := by
    funext a b
    exact propext (lookup?_pointersOf_iff honce)
  rw [Inherit.Leads, hsame]

/-- **Inheritance.** Of resources with different collections, wherever they point to, the search for the chain of each
comes to an end, and with its chain: this begins with the resource, each name on it is followed by the one that it
inherits from, no name is on it twice, and a name is on it exactly if inheritance leads there from the resource. -/
theorem chainOf_closure (honce : (rs.map (·.collection)).Nodup) (hr : r ∈ rs) :
    Inherit.Search.EndsWith (pointersOf rs) ⟨[r.collection], r.inherits⟩ (chainOf rs r) ∧
    (chainOf rs r).length ≤ rs.length + 1 ∧
    (chainOf rs r).head? = some r.collection ∧
    (chainOf rs r).IsChain (Inherits rs) ∧
    (chainOf rs r).Nodup ∧
    ∀ name, name ∈ chainOf rs r ↔ Relation.ReflTransGen (Inherits rs) r.collection name := by
  obtain ⟨rest, hchain, hcomplete⟩ := complete_chainOf honce hr
  refine ⟨Inherit.endsWith_extend _ ⟨[r.collection], r.inherits⟩, length_chainOf_le_of_mem hr, ?_⟩
  rw [hchain]
  refine ⟨rfl, ?_, hcomplete.nodup, fun name => hcomplete.mem_iff.trans (leads_iff honce)⟩
  exact hcomplete.linked.imp fun a b hab => (lookup?_pointersOf_iff honce).1 hab

/-- A guild in which the masters take after the journeymen again, the hermits after themselves, and the guests after
patrons that are no part of it. -/
def guild : List (Resource Unit Unit) :=
  [{ collection := "apprentices", member := "apprentice", inherits := some "journeymen" },
    { collection := "journeymen", member := "journeyman", inherits := some "masters" },
    { collection := "masters", member := "master", inherits := some "journeymen" },
    { collection := "hermits", member := "hermit", inherits := some "hermits" },
    { collection := "guests", member := "guest", inherits := some "patrons" }]

/-- The apprentices lead into a circle, the hermits stay where they are, and the guests lead out of the guild. -/
theorem chainOf_closure_guild :
    (guild.map (·.collection)).Nodup ∧ guild[0] ∈ guild ∧ guild[3] ∈ guild ∧ guild[4] ∈ guild ∧
    Inherit.Search.EndsWith (pointersOf guild) ⟨["apprentices"], some "journeymen"⟩
      ["apprentices", "journeymen", "masters"] ∧
    (∀ name, Relation.ReflTransGen (Inherits guild) "apprentices" name ↔
      name ∈ ["apprentices", "journeymen", "masters"]) ∧
    (∀ name, Relation.ReflTransGen (Inherits guild) "hermits" name ↔ name ∈ ["hermits"]) ∧
    (∀ name, Relation.ReflTransGen (Inherits guild) "guests" name ↔ name ∈ ["guests", "patrons"]) := by
  have honce : (guild.map (·.collection)).Nodup := by decide
  have happrentices : chainOf guild guild[0] = ["apprentices", "journeymen", "masters"] := by cbv
  have hhermits : chainOf guild guild[3] = ["hermits"] := by cbv
  have hguests : chainOf guild guild[4] = ["guests", "patrons"] := by cbv
  have hclosure (i : Nat) (hi : i < guild.length) := chainOf_closure honce (List.getElem_mem hi)
  refine ⟨honce, List.getElem_mem _, List.getElem_mem _, List.getElem_mem _, ?_, ?_, ?_, ?_⟩
  · exact happrentices ▸ (hclosure 0 (by decide)).1
  · intro name
    obtain ⟨-, -, -, -, -, hmem⟩ := hclosure 0 (by decide)
    exact happrentices ▸ (hmem name).symm
  · intro name
    obtain ⟨-, -, -, -, -, hmem⟩ := hclosure 3 (by decide)
    exact hhermits ▸ (hmem name).symm
  · intro name
    obtain ⟨-, -, -, -, -, hmem⟩ := hclosure 4 (by decide)
    exact hguests ▸ (hmem name).symm

end Dispatcher

end Standby
