import Rayforce.Reference.Further

/-! Expressions and the query builders (`expr.rs`, `query.rs`), with the `Value`s that they hold. -/

namespace Rayforce.Reference

open Calls

/-- `Expr`, whose literals are `L`s. -/
inductive Tree (L : Type)
  | col (name : String)
  | lit (value : L)
  | op (operation : Query.Operation) (operands : List (Tree L))
  | call (name : String) (operands : List (Tree L))

variable {L : Type}

mutual

def Tree.lits : Tree L → List L
  | .col _ => []
  | .lit v => [v]
  | .op _ operands => litsOf operands
  | .call _ operands => litsOf operands

def litsOf : List (Tree L) → List L
  | [] => []
  | e :: es => e.lits ++ litsOf es

end

theorem litsOf_eq_flatMap (es : List (Tree L)) : litsOf es = es.flatMap Tree.lits := by
  induction es with
  | nil => rfl
  | cons e es ih => rw [litsOf, ih, List.flatMap_cons]

def Tree.operands : Tree L → List (Tree L)
  | .op _ operands => operands
  | .call _ operands => operands
  | _ => []

mutual

theorem Tree.inductionOn {P : Tree L → Prop} (step : ∀ e, (∀ e' ∈ e.operands, P e') → P e) :
    (e : Tree L) → P e
  | .col _ => step _ fun _ mem => absurd mem List.not_mem_nil
  | .lit _ => step _ fun _ mem => absurd mem List.not_mem_nil
  | .op _ operands => step _ (Tree.inductionAll step operands)
  | .call _ operands => step _ (Tree.inductionAll step operands)

theorem Tree.inductionAll {P : Tree L → Prop} (step : ∀ e, (∀ e' ∈ e.operands, P e') → P e) :
    (es : List (Tree L)) → ∀ e' ∈ es, P e'
  | [] => fun _ mem => absurd mem List.not_mem_nil
  | e :: es => fun e' mem => by
    rcases List.mem_cons.mp mem with same | later
    · exact same ▸ Tree.inductionOn step e
    · exact Tree.inductionAll step es e' later

end

abbrev Expr := Tree Pointer

def cloneExpr (e : Expr) : N Expr := do
  ExceptT.lift (cloneAll e.lits).inl
  return e

def litI64 : N Expr := do return .lit (← i64)

mutual

def dagRewrite : Expr → N Expr
  | .op .sum [.op .filter [c, m]] => do
    return .op .sum [.op .if (← gather Tree.lits [] [dagRewrite m, dagRewrite c, litI64])]
  | .op .sum [e] => do return .op .sum [← dagRewrite e]
  | .op .count [.op .filter [_, m]] => do
    return .op .sum [.op .if (← gather Tree.lits [] [dagRewrite m, litI64, litI64])]
  | .op .count [e] => do return .op .count [← dagRewrite e]
  | .op operation operands => do return .op operation (← dagRewriteAll [] operands)
  | .call name operands => do return .call name (← dagRewriteAll [] operands)
  | .col name => return .col name
  | .lit v => do return .lit (← clone v)

def dagRewriteAll (made : List Expr) : List Expr → N (List Expr)
  | [] => return made
  | e :: es => do
    let e' ← onError (dagRewrite e) (drops (made.flatMap Tree.lits))
    dagRewriteAll (made ++ [e']) es

end

mutual

/-- `Expr::compile`. -/
def compile : Expr → N Pointer
  | .col name => nameRef name
  | .lit v => clone v
  | .op operation operands => do
    let head ← nameRef operation.asStr
    listOf (← compileAll [head] operands)
  | .call name operands => do
    let head ← nameRef name
    listOf (← compileAll [head] operands)

def compileAll (made : List Pointer) : List Expr → N (List Pointer)
  | [] => return made
  | e :: es => do
    let p ← onError (compile e) (drops (made.flatMap one))
    compileAll (made ++ [p]) es

end

theorem dagRewriteAll_eq_gather (made es : List Expr) :
    dagRewriteAll made es = gather Tree.lits made (es.map dagRewrite) := by
  induction es generalizing made with
  | nil => rfl
  | cons e es ih =>
    rw [dagRewriteAll, List.map_cons, gather]
    simp only [ih]

theorem compileAll_eq_gather (made : List Pointer) (es : List Expr) :
    compileAll made es = gather one made (es.map compile) := by
  induction es generalizing made with
  | nil => rfl
  | cons e es ih =>
    rw [compileAll, List.map_cons, gather]
    simp only [ih]

/-- The rewrite fires on the sum and on the count of a filter, and elsewhere goes on below. -/
theorem dagRewrite_op_cases (operation : Query.Operation) (operands : List Expr) :
    (∃ c m filled, operands = [.op .filter [c, m]] ∧
      (filled = [dagRewrite m, dagRewrite c, litI64] ∨ filled = [dagRewrite m, litI64, litI64]) ∧
      dagRewrite (.op operation operands) =
        (do return .op .sum [.op .if (← gather Tree.lits [] filled)])) ∨
    (∃ e, operands = [e] ∧
      dagRewrite (.op operation operands) = (do return .op operation [← dagRewrite e])) ∨
    dagRewrite (.op operation operands) =
      (do return .op operation (← gather Tree.lits [] (operands.map dagRewrite))) := by
  rw [dagRewrite.eq_def]
  split
  · next c m eq =>
    cases eq
    exact .inl ⟨c, m, _, rfl, .inl rfl, rfl⟩
  · next e _ eq =>
    cases eq
    exact .inr (.inl ⟨e, rfl, rfl⟩)
  · next c m eq =>
    cases eq
    exact .inl ⟨c, m, _, rfl, .inr rfl, rfl⟩
  · next e _ eq =>
    cases eq
    exact .inr (.inl ⟨e, rfl, rfl⟩)
  · next eq =>
    cases eq
    rw [dagRewriteAll_eq_gather]
    exact .inr (.inr rfl)
  · next eq => cases eq
  · next eq => cases eq
  · next eq => cases eq

/-- `Expr::execute`. -/
def execute (e : Expr) : N Pointer := do
  let ast ← compile e
  holding ast (known (evalValue ast))

/-- The rewritten expression is a temporary. -/
def compileQueryExpr (e : Expr) : N Pointer := do
  let e' ← dagRewrite e
  ensuring (compile e') (drops e'.lits)

/-- The dict of names and of a local vector of `Value`s. -/
def dictOf (keys : List String) (vals : List Pointer) : N Pointer :=
  ensuring (do
    let k ← known (Value.symVec keys)
    let v ← onError (known (Value.list vals)) (drops [k])
    known (Value.dict k v)) (drops vals)

/-- The clones of the conditions, under `and`. -/
def combine (made : Expr) : List Expr → N Expr
  | [] => return made
  | w :: ws => do combine (.op .and [made, ← cloneExpr w]) ws

def whereClause : List Expr → List (N Pointer)
  | [] => []
  | first :: rest => [do
    let combined ← combine (← cloneExpr first) rest
    ensuring (compileQueryExpr combined) (drops combined.lits)]

/-! ### Select -/

structure Select where
  «from» : Pointer
  proj : List (String × Expr)
  wheres : List Expr
  «by» : List (String × Expr)
  order : Option (List String × Bool)

/-- The `Value`s that the builder holds. -/
def Select.held (q : Select) : List Pointer :=
  q.«from» :: litsOf (q.proj.map Prod.snd ++ q.«by».map Prod.snd ++ q.wheres)

def byClause : List (String × Expr) → List (N Pointer)
  | [] => []
  | groups => [do
    let bv ← gather one [] (groups.map fun g => compileQueryExpr g.2)
    dictOf (groups.map Prod.fst) bv]

def Select.keys (q : Select) : List String :=
  q.proj.map Prod.fst ++ (if q.«by».isEmpty then [] else ["by"]) ++ ["from"] ++
    if q.wheres.isEmpty then [] else ["where"]

def Select.compileDict (q : Select) : N Pointer := do
  let vals ← gather one [] ((q.proj.map fun c => compileQueryExpr c.2) ++
    (byClause q.«by» ++ clone q.«from» :: whereClause q.wheres))
  dictOf q.keys vals

def Select.isAggregationOnly (q : Select) : Bool :=
  if !q.«by».isEmpty || q.proj.isEmpty then false
  else q.proj.all fun
    | (_, .op op _) => Query.isAggregation op
    | _ => false

/-- The one row of an aggregation. -/
def Select.finish (q : Select) (result : Pointer) : N Pointer :=
  if q.isAggregationOnly then holding result do Table.fromValue (← takeRows result)
  else Table.fromValue result

def Select.execute (q : Select) : N Pointer := do
  let dict ← q.compileDict
  let head ← onError (nameRef "select") (drops [dict])
  let selectAst ← listOf [head, dict]
  match q.order with
  | some (cols, desc) =>
    let op ← onError (nameRef (if desc then "xdesc" else "xasc")) (drops [selectAst])
    let columns ← onError (known (Value.symVec cols)) (drops [op, selectAst])
    let ast ← listOf [op, selectAst, columns]
    q.finish (← holding ast (known (evalValue ast)))
  | none => holding selectAst do q.finish (← known (evalValue selectAst))

/-! ### Update -/

structure Update where
  «from» : Pointer
  sets : List (String × Expr)
  wheres : List Expr

def Update.held (q : Update) : List Pointer :=
  q.«from» :: litsOf (q.sets.map Prod.snd ++ q.wheres)

def Update.keys (q : Update) : List String :=
  q.sets.map Prod.fst ++ ["from"] ++ if q.wheres.isEmpty then [] else ["where"]

def Update.compileDict (q : Update) : N Pointer := do
  let vals ← gather one [] ((q.sets.map fun c => compileQueryExpr c.2) ++
    clone q.«from» :: whereClause q.wheres)
  dictOf q.keys vals

def Update.execute (q : Update) : N Pointer := do
  let dict ← q.compileDict
  holding dict (tableOf "ray_update_fn" [dict])

end Rayforce.Reference
