import Rayforce.Error
import Rayforce.Lib.Defined
import Rayforce.Query.Dict
import Rayforce.Query.Evaluate

/-! What a query asks of a table, and what the core's functions on tables are relied on for.  How they
find their answers is not said, nor are tables more than objects. -/

namespace Rayforce.Query

open Defined

variable {α : Type}

/-- A term, over what names mean in the rows that it is asked of. -/
abbrev Term (α : Type) := (String → Option (Meaning α)) → Option (Meaning α)

def Expr.term (I : Interp α) (e : Expr) : Term α := e.meaning I

def Value.term (I : Interp α) (v : Value) : Term α := fun ρ => v.meaning I ρ

/-- What a query asks of its table.  Groups are those of a query that has any. -/
structure Question (α : Type) where
  condition : Option (Term α)
  groups : Option (List (String × Term α))
  named : List (String × Term α)

/-! ### Terms that mean more -/

def Term.Below (e e' : Term α) : Prop := ∀ ρ m, e ρ = some m → e' ρ = some m

/-- Under one name. -/
def Named (p p' : String × Term α) : Prop := p.1 = p'.1 ∧ p.2.Below p'.2

theorem Named.all (named : List (String × Term α)) : List.Forall₂ Named named named :=
  List.forall₂_same.mpr fun _ _ => ⟨rfl, fun _ _ eq => eq⟩

structure Question.Below (q q' : Question α) : Prop where
  condition : Option.Rel Term.Below q.condition q'.condition
  groups : Option.Rel (List.Forall₂ Named) q.groups q'.groups
  named : List.Forall₂ Named q.named q'.named

/-! ### Dicts -/

/-- The keys that the core's `select` reads as clauses. -/
def reserved : List String := ["from", "where", "by", "take", "asc", "desc", "nearest"]

/-- The dict asks something of this table, with none of the clauses that the builders never write. -/
structure Value.Asks (dict : Value) (t : Nat) : Prop where
  paired : dict = dictOf dict.entries
  distinct : (dict.entries.map Prod.fst).Nodup
  source : dict.entries.lookup "from" = some (.object t)
  plain : ∀ key ∈ ["take", "asc", "desc", "nearest"], dict.entries.lookup key = none

/-- What is read off such a dict. -/
def Value.question (I : Interp α) (dict : Value) : Question α where
  condition := (dict.entries.lookup "where").map (Value.term I)
  groups := (dict.entries.lookup "by").map fun g => g.entries.map fun p => (p.1, p.2.term I)
  named := (dict.entries.filter fun p => p.1 ∉ reserved).map fun p => (p.1, p.2.term I)

/-! ### The core -/

/-- What the core's functions on tables answer, each with a table or an error.  Nothing is said where a
term that is asked means nothing. -/
structure Functions (α : Type) where
  select : Nat → Question α → Comp RayError Nat
  update : Nat → Question α → Comp RayError Nat
  sort : Bool → Nat → List String → Comp RayError Nat
  take : Nat → Int → Comp RayError Nat
  join : Operation → List String → Nat → Nat → Comp RayError Nat

/-- The evaluator has these functions under their names, and `ray_update_fn` is the one of updates.  A
query's answer is made of what its terms mean. -/
structure Functions.Documented (F : Functions α) (I : Interp α) (ev : Evaluator (Comp RayError))
    (updateFn : Value → Comp RayError Value) : Prop where
  select : ∀ dict t, dict.Asks t →
    Below (do return .object (← F.select t (dict.question I))) (ev.apply (.nameRef "select") [dict])
  update : ∀ dict t, dict.Asks t → dict.entries.lookup "by" = none →
    Below (do return .object (← F.update t (dict.question I))) (updateFn dict)
  sort : ∀ desc t columns, Below (do return .object (← F.sort desc t columns))
    (ev.apply (.nameRef (if desc then "xdesc" else "xasc")) [.object t, .symVec columns])
  take : ∀ t n, Below (do return .object (← F.take t n))
    (ev.apply (.nameRef "take") [.object t, .i64 n])
  join : ∀ operation ∈ [Operation.innerJoin, .leftJoin, .asofJoin], ∀ on t u,
    Below (do return .object (← F.join operation on t u))
      (ev.apply (.nameRef operation.asStr) [.symVec on, .object t, .object u])
  select_below : ∀ t q q', q.Below q' → Below (F.select t q) (F.select t q')
  update_below : ∀ t q q', q.Below q' → Below (F.update t q) (F.update t q')

end Rayforce.Query
