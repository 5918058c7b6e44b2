import Standby.Proofs.Basic
import Standby.Schema.Check
/-!
# The keys on the way to a value

A check keeps the keys that lead to the value that it looks at, and uses the last of them only. `Schema.checkAt` is the
same check with that key alone. On whatever way it sets out, the walk comes to the result of that check, and if it passes
then it is back where it set out (`balanced_walk`).
-/

namespace Standby.Schema

mutual

/-- Checks the value that the key `field` leads to. -/
def checkAt (schema : Schema) (field : Option String) (value : Json) : Except Violation Unit :=
  match schema with
  | .object properties patterns required anyOf additional =>
    match value with
    | .obj members => do
      checkKeys properties patterns required anyOf additional field members
      checkNamed properties members
      members.forM fun (key, child) =>
        if properties.any fun (name, _) => name == key then .ok () else checkMatching patterns key child
    | _ => .error (.located field value (.notOfType "object"))
  | .string rules => checkText rules field value
  | .integer min max => checkInteger min max field value
  | .flag => require (Flag.ofJson? value).isSome field value .notAFlag
  | .nullable inner =>
    match value with
    | .null => .ok ()
    | _ => checkAt inner field value
  | .any => .ok ()

def checkNamed (properties : List (String × Schema)) (members : List (String × Json)) :
    Except Violation Unit :=
  match properties with
  | [] => .ok ()
  | (name, schema) :: rest => do
    match lookup? name members with
    | some child => checkAt schema (some name) child
    | none => .ok ()
    checkNamed rest members

/-- Checks the value of a key by the first pattern that the key matches. -/
def checkMatching (patterns : List (Text.Pattern × Schema)) (key : String) (child : Json) :
    Except Violation Unit :=
  match patterns with
  | [] => .ok ()
  | (p, schema) :: rest => if p.isIn key then checkAt schema (some key) child else checkMatching rest key child

end

/-- Where a walk ends that comes to a result: back on the path on which it set out, or further on if it fails. -/
inductive Balanced (x : Walk) (path : List String) : Except Violation Unit → Prop
  | passes (h : x.run.run path = (.ok (), path)) : Balanced x path (.ok ())
  | fails {v rest} (h : x.run.run path = (.error v, path ++ rest)) : Balanced x path (.error v)

namespace Balanced

variable {x y : Walk} {path : List String} {r r' : Except Violation Unit} {key : String}

theorem pass : Balanced (pure ()) path (.ok ()) := .passes rfl

theorem atField (check : Option String → Except Violation Unit) :
    Balanced (Schema.atField check) path (check path.getLast?) := by
  have hrun : (Schema.atField check).run.run path = (check path.getLast?, path) := by
    rw [Schema.atField, run_bind]
    show (liftM (check path.getLast?) : Walk).run.run path = _
    cases check path.getLast? <;> rfl
  cases h : check path.getLast? with
  | ok _ => exact .passes (by rw [hrun, h])
  | error v =>
    have hstays : (Schema.atField check).run.run path = (.error v, path ++ []) := by rw [hrun, h, List.append_nil]
    exact .fails hstays

theorem seq (hx : Balanced x path r) (hy : Balanced y path r') :
    Balanced (x >>= fun _ => y) path (r >>= fun _ => r') := by
  cases hx with
  | passes h =>
    have hrun : (x >>= fun _ => y).run.run path = y.run.run path := by rw [run_bind, h]
    cases hy with
    | passes h' => exact .passes (hrun.trans h')
    | fails h' => exact .fails (hrun.trans h')
  | fails h => exact .fails (by rw [run_bind, h])

theorem run_inside (key : String) (x : Walk) (path : List String) :
    (Schema.inside key x).run.run path = (x >>= fun _ => modify List.dropLast).run.run (path ++ [key]) := rfl

/-- The key is taken off the path again exactly if the walk under it passes. -/
theorem inside (h : Balanced x (path ++ [key]) r) : Balanced (Schema.inside key x) path r := by
  cases h with
  | passes h =>
    refine .passes ?_
    rw [run_inside, run_bind, h]
    show (_, (path ++ [key]).dropLast) = _
    rw [List.dropLast_concat]
  | @fails v rest h =>
    have hrun : (Schema.inside key x).run.run path = (.error v, path ++ key :: rest) := by
      rw [run_inside, run_bind, h, List.append_assoc]
      rfl
    exact .fails hrun

theorem forM {α : Type} {l : List α} {f : α → Walk} {g : α → Except Violation Unit}
    (h : ∀ a ∈ l, Balanced (f a) path (g a)) : Balanced (l.forM f) path (l.forM g) := by
  induction l with
  | nil => exact .pass
  | cons a l ih => exact (h a List.mem_cons_self).seq (ih fun b hb => h b (List.mem_cons_of_mem _ hb))

end Balanced

mutual

theorem balanced_walk (schema : Schema) (value : Json) (path : List String) :
    Balanced (walk schema value) path (checkAt schema path.getLast? value) := by
  cases schema with
  | object properties patterns required anyOf additional =>
    cases value with
    | obj members =>
      rw [walk, checkAt]
      refine (Balanced.atField _).seq ((balanced_walkNamed properties members path).seq (.forM fun m _ => ?_))
      obtain ⟨key, child⟩ := m
      dsimp only
      split
      · exact .pass
      · exact balanced_walkMatching patterns key child path
    | _ =>
      rw [walk, checkAt]
      · exact .atField _
      all_goals simp
  | string rules =>
    rw [walk, checkAt]
    exact .atField _
  | integer min max =>
    rw [walk, checkAt]
    exact .atField _
  | flag =>
    rw [walk, checkAt]
    exact .atField _
  | nullable inner =>
    cases value with
    | null =>
      rw [walk, checkAt]
      exact .pass
    | _ =>
      rw [walk, checkAt]
      · exact balanced_walk inner _ path
      all_goals simp
  | any =>
    rw [walk, checkAt]
    exact .pass

theorem balanced_walkNamed (properties : List (String × Schema)) (members : List (String × Json)) (path : List String) :
    Balanced (walkNamed properties members) path (checkNamed properties members) := by
  match properties with
  | [] => exact .pass
  | (name, schema) :: rest =>
    have hrest := balanced_walkNamed rest members path
    rw [walkNamed, checkNamed]
    cases lookup? name members with
    | none => exact Balanced.pass.seq hrest
    | some child =>
      have hchild := balanced_walk schema child (path ++ [name])
      rw [List.getLast?_concat] at hchild
      exact hchild.inside.seq hrest

theorem balanced_walkMatching (patterns : List (Text.Pattern × Schema)) (key : String) (child : Json)
    (path : List String) : Balanced (walkMatching patterns key child) path (checkMatching patterns key child) := by
  match patterns with
  | [] => exact .pass
  | (p, schema) :: rest =>
    rw [walkMatching, checkMatching]
    split
    · have hchild := balanced_walk schema child (path ++ [key])
      rw [List.getLast?_concat] at hchild
      exact hchild.inside
    · exact balanced_walkMatching rest key child path

end

/-- A check of a document is the check with the last key alone, of which there is none for the document. -/
theorem check_eq (schema : Schema) (value : Json) : schema.check value = schema.checkAt none value := by
  have h : Balanced (walk schema value) [] (schema.checkAt none value) := balanced_walk schema value []
  unfold check
  generalize schema.checkAt none value = r at h ⊢
  cases h with
  | passes h => rw [h]
  | fails h => rw [h]

end Standby.Schema
