import Rayforce.Query.Asked
import Rayforce.Query.Lambda

/-! Running a query (`query.rs`).  The dict that a builder compiles is evaluated under `select`, in an
order if one was asked for, and a summary is cut down to its one row. -/

namespace Rayforce.Query

open Defined

variable {α : Type}

/-! ### Tables -/

structure Table (objectType : Nat → Int) where
  object : Nat
  isTable : objectType object = 98

variable {objectType : Nat → Int}

def Table.asValue (t : Table objectType) : Value := .object t.object

def notTable (code : Int) : RayError := .binding s!"expected a table, got type tag {code}"

/-- `Table::from_value`. -/
def Table.fromValue : Value → Comp RayError (Table objectType)
  | .object id =>
    if isTable : objectType id = 98 then return ⟨id, isTable⟩
    else throw (notTable (objectType id))
  | v => throw (notTable (v.typeCode objectType))

/-! ### Evaluation -/

variable (ev : Evaluator (Comp RayError)) (updateFn : Value → Comp RayError Value)

def evalValue (v : Value) : Comp RayError Value := v.eval ev

def takeRows (table : Value) (n : Int) : Comp RayError Value :=
  evalValue ev (.list [.nameRef "take", table, .i64 n])

/-! ### Queries -/

/-- What collapses a column to a single value. -/
def isAggregation : Operation → Bool
  | .sum | .avg | .count | .min | .max | .first | .last | .median => true
  | _ => false

def Select.isAggregationOnly (q : Select) : Bool :=
  if !q.«by».isEmpty || q.proj.isEmpty then false
  else q.proj.all fun
    | (_, .op op _) => isAggregation op
    | _ => false

def Select.execute (q : Select) : Comp RayError (Table objectType) := do
  let selectAst := Value.list [.nameRef "select", q.compileDict]
  let result ← match q.order with
    | some (cols, desc) =>
      evalValue ev (.list [.nameRef (if desc then "xdesc" else "xasc"), selectAst, .symVec cols])
    | none => evalValue ev selectAst
  let result ← if q.isAggregationOnly then takeRows ev result 1 else pure result
  Table.fromValue result

def Update.execute (q : Update) : Comp RayError (Table objectType) := do
  Table.fromValue (← updateFn q.compileDict)

/-! ### Rows and joins -/

def takeMagnitude (n : Int64) (op : String) : Except RayError Int64 :=
  if n = Int64.minValue then .error (.binding s!"{op}: count magnitude overflows i64")
  else .ok (if n < 0 then -n else n)

def Table.take (t : Table objectType) (n : Int64) : Comp RayError (Table objectType) := do
  fromValue (← takeRows ev t.asValue n.toInt)

def Table.head (t : Table objectType) (n : Int64) : Comp RayError (Table objectType) := do
  let n ← outcome (takeMagnitude n "head")
  fromValue (← takeRows ev t.asValue n.toInt)

def Table.tail (t : Table objectType) (n : Int64) : Comp RayError (Table objectType) := do
  let n ← outcome (takeMagnitude n "tail")
  fromValue (← takeRows ev t.asValue (-n).toInt)

def Table.join (op : Operation) (t u : Table objectType) (on : List String) :
    Comp RayError (Table objectType) := do
  fromValue (← evalValue ev (.list [.nameRef op.asStr, .symVec on, t.asValue, u.asValue]))

/-! ### What a caller asks -/

/-- The order of a call that asks for one. -/
def SelectCall.order : SelectCall → Option (List String × Bool)
  | .orderBy columns desc => some (columns, desc)
  | _ => none

def Expr.aggregates : Expr → Bool
  | .op operation _ => isAggregation operation
  | _ => false

/-- Aggregations without groups are one row. -/
def summary (named groups : List (String × Expr)) : Bool :=
  groups.isEmpty && !named.isEmpty && named.all (·.2.aggregates)

variable (F : Functions α) (I : Interp α)

/-- What these projections, filters, groups and this order ask of a table. -/
def answer (t : Table objectType) (named : List (String × Expr)) (filters : List Expr)
    (groups : List (String × Expr)) (order : Option (List String × Bool)) :
    Comp RayError (Table objectType) := do
  let rows ← F.select t.object (asked I named filters groups)
  let rows ← match order with
    | some (columns, desc) => F.sort desc rows columns
    | none => pure rows
  let rows ← if summary named groups then F.take rows 1 else pure rows
  Table.fromValue (.object rows)

/-- What these sets and filters ask of a table. -/
def amended (t : Table objectType) (sets : List (String × Expr)) (filters : List Expr) :
    Comp RayError (Table objectType) := do
  Table.fromValue (.object (← F.update t.object (asked I sets filters [])))

/-! ### Running what was compiled -/

variable {ev updateFn F I} {dict : Value} {t : Nat}

theorem eval_select (paired : dict = dictOf dict.entries) :
    evalValue ev (.list [.nameRef "select", dict]) = ev.apply (.nameRef "select") [dict] := by
  rw [paired, dictOf, evalValue, Value.eval, evalAll_of_inert (by simp [Value.Inert]), pure_bind]

theorem below_selected (documented : F.Documented I ev updateFn) (asks : dict.Asks t) :
    Below (do return .object (← F.select t (dict.question I)))
      (evalValue ev (.list [.nameRef "select", dict])) := by
  rw [eval_select asks.paired]
  exact documented.select dict t asks

theorem below_sorted (documented : F.Documented I ev updateFn) (desc : Bool) {ast : Value}
    {run : Comp RayError Nat} (shown : Below (do return .object (← run)) (evalValue ev ast))
    (cols : List String) :
    Below (do return .object (← run >>= fun t => F.sort desc t cols))
      (evalValue ev (.list [.nameRef (if desc then "xdesc" else "xasc"), ast, .symVec cols])) := by
  have columns : evalAll ev [.symVec cols] = pure [.symVec cols] :=
    evalAll_of_inert (by simp [Value.Inert]) _
  have evaluated : evalValue ev (.list [.nameRef (if desc then "xdesc" else "xasc"), ast, .symVec cols]) =
      evalValue ev ast >>= fun v =>
        ev.apply (.nameRef (if desc then "xdesc" else "xasc")) [v, .symVec cols] := by
    rw [evalValue, Value.eval, evalAll, columns]
    simp [evalValue]
  have sorted := shown.bind fun v =>
    Below.refl (ev.apply (.nameRef (if desc then "xdesc" else "xasc")) [v, .symVec cols])
  rw [evaluated]
  refine Below.trans ?_ sorted
  simp only [bind_assoc, pure_bind]
  exact (Below.refl run).bind fun t => documented.sort desc t cols

theorem takeRows_eq (t : Nat) (n : Int) :
    takeRows ev (.object t) n = ev.apply (.nameRef "take") [.object t, .i64 n] := by
  rw [takeRows, evalValue, Value.eval, evalAll_of_inert (by simp [Value.Inert]), pure_bind]

theorem below_taken (documented : F.Documented I ev updateFn) (t : Nat) (n : Int) :
    Below (do return .object (← F.take t n)) (takeRows ev (.object t) n) := by
  rw [takeRows_eq]
  exact documented.take t n

theorem isAggregationOnly_eq (q : Select) : q.isAggregationOnly = summary q.proj q.«by» := by
  have each : (fun p : String × Expr => p.2.aggregates) = fun
      | (_, .op op _) => isAggregation op
      | _ => false := by
    funext p
    obtain ⟨name, e⟩ := p
    cases e <;> rfl
  rw [Select.isAggregationOnly, summary, each]
  cases q.«by».isEmpty <;> cases q.proj.isEmpty <;> rfl

/-- The end of a select, which cuts a summary to one row. -/
theorem below_cut (documented : F.Documented I ev updateFn) (cut : Bool) {run : Comp RayError Nat}
    {shown : Comp RayError Value} (below : Below (do return .object (← run)) shown) :
    Below (do
        let rows ← run
        let rows ← if cut then F.take rows 1 else pure rows
        Table.fromValue (.object rows))
      (do
        let result ← shown
        let result ← if cut then takeRows ev result 1 else pure result
        Table.fromValue result : Comp RayError (Table objectType)) := by
  cases cut with
  | false =>
    have kept := below.bind fun v => .refl (Table.fromValue v : Comp RayError (Table objectType))
    simpa using kept
  | true =>
    have cut := below.bind fun v =>
      .refl (takeRows ev v 1 >>= fun v => (Table.fromValue v : Comp RayError (Table objectType)))
    refine Below.trans ?_ (by simpa using cut)
    have taken (rows : Nat) := (below_taken documented rows 1).bind fun v =>
      .refl (Table.fromValue v : Comp RayError (Table objectType))
    simpa using (Below.refl run).bind taken

/-- What a select runs, once its dict asks its table. -/
theorem below_ran (documented : F.Documented I ev updateFn) {q : Select} (asks : q.compileDict.Asks t) :
    Below (do
        let rows ← F.select t (q.compileDict.question I)
        let rows ← match q.order with
          | some (columns, desc) => F.sort desc rows columns
          | none => pure rows
        let rows ← if summary q.proj q.«by» then F.take rows 1 else pure rows
        Table.fromValue (.object rows))
      (q.execute ev : Comp RayError (Table objectType)) := by
  have selected := below_selected documented asks
  rw [Select.execute, isAggregationOnly_eq]
  rcases q.order with _ | ⟨cols, desc⟩
  · simpa using below_cut documented (summary q.proj q.«by») selected
  · have sorted := below_sorted documented desc selected cols
    simpa using below_cut documented (summary q.proj q.«by») sorted

/-- The last order that was asked for is the one. -/
theorem order_run (calls : List SelectCall) (q : Select) :
    (calls.foldl SelectCall.run q).order =
      ((calls.filterMap SelectCall.order).getLast?).or q.order := by
  induction calls generalizing q with
  | nil => rfl
  | cons call calls ih =>
    rw [List.foldl_cons, ih]
    cases call with
    | orderBy columns desc =>
      rw [show (SelectCall.orderBy columns desc :: calls).filterMap SelectCall.order =
        (columns, desc) :: calls.filterMap SelectCall.order from rfl, List.getLast?_cons]
      cases (calls.filterMap SelectCall.order).getLast? <;> rfl
    | cols names =>
      rw [SelectCall.run, cols_eq]
      rfl
    | _ => rfl

theorem select_build (source : Value) (calls : List SelectCall) :
    Select.build source calls = ⟨source, calls.flatMap SelectCall.projections,
      calls.flatMap SelectCall.filters, calls.flatMap SelectCall.groups,
      (calls.filterMap SelectCall.order).getLast?⟩ := by
  obtain ⟨same, proj, wheres, groups⟩ := select_run calls (Select.new source)
  have order := order_run calls (Select.new source)
  rw [Select.build, ← Option.or_none (o := List.getLast? _)]
  exact Select.mk.injEq .. ▸ ⟨same, proj, wheres, groups, order⟩

theorem update_build (source : Value) (calls : List UpdateCall) :
    Update.build source calls =
      ⟨source, calls.flatMap UpdateCall.sets, calls.flatMap UpdateCall.filters⟩ := by
  obtain ⟨same, sets, wheres⟩ := update_run calls (Update.new source)
  exact Update.mk.injEq .. ▸ ⟨same, sets, wheres⟩

theorem toInt_neg_of_ne {n : Int64} (fits : n ≠ Int64.minValue) : (-n).toInt = -n.toInt := by
  have low : -2 ^ 63 ≤ n.toInt := Int64.le_toInt n
  have high : n.toInt < 2 ^ 63 := Int64.toInt_lt n
  have above : n.toInt ≠ -2 ^ 63 := fun eq => fits (Int64.toInt_inj.mp eq)
  rw [Int64.toInt_neg]
  exact Int.bmod_eq_of_le (by omega) (by omega)

/-- The magnitude, and the count of as many rows from the end. -/
theorem takeMagnitude_eq {n : Int64} (fits : n ≠ Int64.minValue) (op : String) :
    ∃ k : Int64, takeMagnitude n op = .ok k ∧ k.toInt = n.toInt.natAbs ∧
      (-k).toInt = -n.toInt.natAbs := by
  rw [takeMagnitude, if_neg fits]
  by_cases negative : n < 0
  · have below : n.toInt < 0 := Int64.lt_iff_toInt_lt.mp negative
    rw [if_pos negative]
    refine ⟨-n, rfl, ?_, ?_⟩
    · rw [toInt_neg_of_ne fits]
      omega
    · rw [Int64.neg_neg]
      omega
  · have above : ¬ n.toInt < 0 := fun below => negative (Int64.lt_iff_toInt_lt.mpr below)
    rw [if_neg negative]
    refine ⟨n, rfl, by omega, ?_⟩
    rw [toInt_neg_of_ne fits]
    omega

end Rayforce.Query
