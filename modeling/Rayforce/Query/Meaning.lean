import Rayforce.Lib.Mask
import Rayforce.Query.Expr

/-! What expressions and ASTs mean, over columns of integers.  Only the operations that the rewrite
touches have a fixed meaning; every other operation, every named call and every object is left to
an interpretation. -/

namespace Rayforce.Query

open Mask

/-- Scalars, columns and masks, and whatever else an interpretation knows. -/
inductive Meaning (α : Type)
  | int (n : Int)
  | col (xs : List Int)
  | mask (bs : List Bool)
  | other (a : α)
  deriving DecidableEq, Repr

structure Interp (α : Type) where
  op : Operation → List (Meaning α) → Option (Meaning α)
  call : String → List (Meaning α) → Option (Meaning α)
  object : Value → Option (Meaning α)

variable {α : Type}

/-- A branch of a choice over `n` elements, a scalar broadcast. -/
def Meaning.broadcast (n : Nat) : Meaning α → Option (List Int)
  | .int k => some (List.replicate n k)
  | .col xs => if xs.length = n then some xs else none
  | _ => none

/-- The element-wise choice between two branches. -/
def choose (mask : List Bool) (a b : Meaning α) : Option (Meaning α) :=
  match a, b with
  | .mask xs, .mask ys =>
    if xs.length = mask.length ∧ ys.length = mask.length then some (.mask (pick mask xs ys))
    else none
  | a, b =>
    match a.broadcast mask.length, b.broadcast mask.length with
    | some xs, some ys => some (.col (pick mask xs ys))
    | _, _ => none

/-- What an operation makes of its operands' meanings. -/
def Interp.apply (I : Interp α) : Operation → List (Meaning α) → Option (Meaning α)
  | .filter, [.col xs, .mask mask] =>
    if xs.length = mask.length then some (.col (keep xs mask)) else none
  | .filter, _ => none
  | .sum, [.col xs] => some (.int xs.sum)
  | .count, [.col xs] => some (.int xs.length)
  | .count, [.mask bs] => some (.int bs.length)
  | .if, [.mask mask, a, b] => choose mask a b
  | operation, operands => I.op operation operands

mutual

/-- What the evaluator makes of an AST: a list headed by a name is a call. -/
def Value.meaning (I : Interp α) (ρ : String → Option (Meaning α)) : Value → Option (Meaning α)
  | .nameRef name => ρ name
  | .i64 n => some (.int n)
  | .list (.nameRef head :: operands) => (valueMeanings I ρ operands).bind (I.call head)
  | v => I.object v

def valueMeanings (I : Interp α) (ρ : String → Option (Meaning α)) :
    List Value → Option (List (Meaning α))
  | [] => some []
  | v :: vs => (v.meaning I ρ).bind fun m => (valueMeanings I ρ vs).map (m :: ·)

end

mutual

/-- What an expression means, where it means anything. -/
def Expr.meaning (I : Interp α) (ρ : String → Option (Meaning α)) : Expr → Option (Meaning α)
  | .col name => ρ name
  | .lit v => v.meaning I ρ
  | .op operation operands => (meanings I ρ operands).bind (I.apply operation)
  | .call name operands => (meanings I ρ operands).bind (I.call name)

def meanings (I : Interp α) (ρ : String → Option (Meaning α)) :
    List Expr → Option (List (Meaning α))
  | [] => some []
  | e :: es => (e.meaning I ρ).bind fun m => (meanings I ρ es).map (m :: ·)

end

/-- The evaluator finds under an operation's name what the operation does. -/
def Interp.Resolves (I : Interp α) : Prop :=
  ∀ operation operands, I.call (Operation.asStr operation) operands = I.apply operation operands

variable {I : Interp α} {ρ : String → Option (Meaning α)} {m : Meaning α}

mutual

/-- Lowering an expression keeps what it means. -/
theorem compile_meaning (resolves : I.Resolves) :
    (e : Expr) → e.compile.meaning I ρ = e.meaning I ρ
  | .col name => rfl
  | .lit v => rfl
  | .op operation operands => by
    simp only [Expr.compile, Value.meaning, Expr.meaning, compileAll_meaning resolves operands]
    exact congrArg _ (funext (resolves operation))
  | .call name operands => by
    simp only [Expr.compile, Value.meaning, Expr.meaning, compileAll_meaning resolves operands]

theorem compileAll_meaning (resolves : I.Resolves) :
    (es : List Expr) → valueMeanings I ρ (compileAll es) = meanings I ρ es
  | [] => rfl
  | e :: es => by
    simp only [compileAll, valueMeanings, meanings, compile_meaning resolves e,
      compileAll_meaning resolves es]

end

/-! ### Operands -/

theorem meanings_cons_eq_some {e : Expr} {es : List Expr} {ms : List (Meaning α)} :
    meanings I ρ (e :: es) = some ms ↔
      ∃ m rest, e.meaning I ρ = some m ∧ meanings I ρ es = some rest ∧ ms = m :: rest := by
  simp only [meanings, Option.bind_eq_some_iff, Option.map_eq_some_iff]
  constructor
  · rintro ⟨m, eq, rest, eqs, rfl⟩
    exact ⟨m, rest, eq, eqs, rfl⟩
  · rintro ⟨m, rest, eq, eqs, rfl⟩
    exact ⟨m, eq, rest, eqs, rfl⟩

theorem op_meaning_eq_some {operation : Operation} {es : List Expr} :
    (Expr.op operation es).meaning I ρ = some m ↔
      ∃ ms, meanings I ρ es = some ms ∧ I.apply operation ms = some m := by
  simp only [Expr.meaning, Option.bind_eq_some_iff]

theorem filter_meaning {c mask : Expr} (h : (Expr.op .filter [c, mask]).meaning I ρ = some m) :
    ∃ xs bs, c.meaning I ρ = some (.col xs) ∧ mask.meaning I ρ = some (.mask bs) ∧
      xs.length = bs.length ∧ m = .col (keep xs bs) := by
  obtain ⟨ms, operands, applied⟩ := op_meaning_eq_some.mp h
  obtain ⟨mc, _, column, second, rfl⟩ := meanings_cons_eq_some.mp operands
  obtain ⟨mm, _, masked, last, rfl⟩ := meanings_cons_eq_some.mp second
  cases last
  unfold Interp.apply at applied
  split at applied
  · next eq =>
    obtain ⟨rfl, rfl⟩ : mc = _ ∧ mm = _ := by simpa using eq
    split at applied
    · next same => exact ⟨_, _, column, masked, same, (Option.some.inj applied).symm⟩
    · cases applied
  all_goals simp_all

end Rayforce.Query
