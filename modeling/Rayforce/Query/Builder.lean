import Mathlib.Data.List.Nodup
import Rayforce.Query.Rewrite

/-! The builders of `select` and `update` (`query.rs`): a dict whose keys are the names the caller
chose and the names of the clauses, side by side. -/

namespace Rayforce.Query

/-! ### The builders -/

structure Select where
  «from» : Value
  proj : List (String × Expr)
  wheres : List Expr
  «by» : List (String × Expr)
  order : Option (List String × Bool)

def Select.new (source : Value) : Select := ⟨source, [], [], [], none⟩

/-- Project a column through unchanged. -/
def Select.col (q : Select) (name : String) : Select :=
  { q with proj := q.proj ++ [(name, .col name)] }

def Select.cols (q : Select) (names : List String) : Select :=
  names.foldl (fun q name => { q with proj := q.proj ++ [(name, .col name)] }) q

/-- Add a named computed or aggregation column. -/
def Select.agg (q : Select) (name : String) (expr : Expr) : Select :=
  { q with proj := q.proj ++ [(name, expr)] }

def Select.filter (q : Select) (predicate : Expr) : Select :=
  { q with wheres := q.wheres ++ [predicate] }

/-- `Select::by`, which groups by a column. -/
def Select.groupBy (q : Select) (name : String) : Select :=
  { q with «by» := q.«by» ++ [(name, .col name)] }

def Select.byExpr (q : Select) (name : String) (expr : Expr) : Select :=
  { q with «by» := q.«by» ++ [(name, expr)] }

def Select.orderBy (q : Select) (columns : List String) (desc : Bool) : Select :=
  { q with order := some (columns, desc) }

/-- The dict of a select. -/
def Select.compileDict (q : Select) : Value :=
  let keys := q.proj.map fun p => p.1
  let vals := q.proj.map fun p => compileQueryExpr p.2
  let bk := q.«by».map fun p => p.1
  let bv := q.«by».map fun p => compileQueryExpr p.2
  let (keys, vals) :=
    if q.«by».isEmpty then (keys, vals)
    else (keys ++ ["by"], vals ++ [.dict (.symVec bk) (.list bv)])
  let keys := keys ++ ["from"]
  let vals := vals ++ [q.«from»]
  match q.wheres with
  | [] => .dict (.symVec keys) (.list vals)
  | first :: rest =>
    let combined := rest.foldl Expr.and first
    .dict (.symVec (keys ++ ["where"])) (.list (vals ++ [compileQueryExpr combined]))

structure Update where
  «from» : Value
  sets : List (String × Expr)
  wheres : List Expr

def Update.new (source : Value) : Update := ⟨source, [], []⟩

def Update.set (q : Update) (name : String) (expr : Expr) : Update :=
  { q with sets := q.sets ++ [(name, expr)] }

def Update.filter (q : Update) (predicate : Expr) : Update :=
  { q with wheres := q.wheres ++ [predicate] }

/-- The dict of an update. -/
def Update.compileDict (q : Update) : Value :=
  let keys := q.sets.map fun p => p.1
  let vals := q.sets.map fun p => compileQueryExpr p.2
  let keys := keys ++ ["from"]
  let vals := vals ++ [q.«from»]
  match q.wheres with
  | [] => .dict (.symVec keys) (.list vals)
  | first :: rest =>
    let combined := rest.foldl Expr.and first
    .dict (.symVec (keys ++ ["where"])) (.list (vals ++ [compileQueryExpr combined]))

/-! ### What a caller says -/

/-- A call on a select builder. -/
inductive SelectCall
  | col (name : String)
  | cols (names : List String)
  | agg (name : String) (expr : Expr)
  | filter (predicate : Expr)
  | groupBy (name : String)
  | byExpr (name : String) (expr : Expr)
  | orderBy (columns : List String) (desc : Bool)

def SelectCall.run (q : Select) : SelectCall → Select
  | .col name => q.col name
  | .cols names => q.cols names
  | .agg name expr => q.agg name expr
  | .filter predicate => q.filter predicate
  | .groupBy name => q.groupBy name
  | .byExpr name expr => q.byExpr name expr
  | .orderBy columns desc => q.orderBy columns desc

def SelectCall.projections : SelectCall → List (String × Expr)
  | .col name => [(name, .col name)]
  | .cols names => names.map fun name => (name, .col name)
  | .agg name expr => [(name, expr)]
  | _ => []

def SelectCall.filters : SelectCall → List Expr
  | .filter predicate => [predicate]
  | _ => []

def SelectCall.groups : SelectCall → List (String × Expr)
  | .groupBy name => [(name, .col name)]
  | .byExpr name expr => [(name, expr)]
  | _ => []

/-- A call on an update builder. -/
inductive UpdateCall
  | set (name : String) (expr : Expr)
  | filter (predicate : Expr)

def UpdateCall.run (q : Update) : UpdateCall → Update
  | .set name expr => q.set name expr
  | .filter predicate => q.filter predicate

def UpdateCall.sets : UpdateCall → List (String × Expr)
  | .set name expr => [(name, expr)]
  | _ => []

def UpdateCall.filters : UpdateCall → List Expr
  | .filter predicate => [predicate]
  | _ => []

def Select.build (source : Value) (calls : List SelectCall) : Select :=
  calls.foldl SelectCall.run (Select.new source)

def Update.build (source : Value) (calls : List UpdateCall) : Update :=
  calls.foldl UpdateCall.run (Update.new source)

theorem cols_eq (q : Select) (names : List String) :
    q.cols names = { q with proj := q.proj ++ names.map fun name => (name, .col name) } := by
  unfold Select.cols
  induction names generalizing q with
  | nil => simp
  | cons name names ih =>
    rw [List.foldl_cons, ih]
    simp

/-- A select holds what its calls said, each in call order. -/
theorem select_run (calls : List SelectCall) (q : Select) :
    (calls.foldl SelectCall.run q).«from» = q.«from» ∧
    (calls.foldl SelectCall.run q).proj = q.proj ++ calls.flatMap SelectCall.projections ∧
    (calls.foldl SelectCall.run q).wheres = q.wheres ++ calls.flatMap SelectCall.filters ∧
    (calls.foldl SelectCall.run q).«by» = q.«by» ++ calls.flatMap SelectCall.groups := by
  induction calls generalizing q with
  | nil => simp
  | cons call calls ih =>
    rw [List.foldl_cons]
    obtain ⟨source, proj, wheres, groups⟩ := ih (SelectCall.run q call)
    rw [source, proj, wheres, groups]
    cases call with
    | cols names =>
      simp [SelectCall.run, cols_eq, SelectCall.projections, SelectCall.filters, SelectCall.groups]
    | _ =>
      simp [SelectCall.run, Select.col, Select.agg, Select.filter, Select.groupBy, Select.byExpr,
        Select.orderBy, SelectCall.projections, SelectCall.filters, SelectCall.groups]

theorem update_run (calls : List UpdateCall) (q : Update) :
    (calls.foldl UpdateCall.run q).«from» = q.«from» ∧
    (calls.foldl UpdateCall.run q).sets = q.sets ++ calls.flatMap UpdateCall.sets ∧
    (calls.foldl UpdateCall.run q).wheres = q.wheres ++ calls.flatMap UpdateCall.filters := by
  induction calls generalizing q with
  | nil => simp
  | cons call calls ih =>
    rw [List.foldl_cons]
    obtain ⟨source, sets, wheres⟩ := ih (UpdateCall.run q call)
    rw [source, sets, wheres]
    cases call <;>
      simp [UpdateCall.run, Update.set, Update.filter, UpdateCall.sets, UpdateCall.filters]

end Rayforce.Query
