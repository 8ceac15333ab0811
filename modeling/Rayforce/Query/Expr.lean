import Rayforce.Query.Operation

/-! The query DSL's expressions and the ASTs they lower to (`expr.rs`). -/

namespace Rayforce.Query

/-- The objects that ASTs are made of. -/
inductive Value
  /-- A symbol that evaluation resolves as a name. -/
  | nameRef (name : String)
  | i64 (n : Int)
  | symVec (names : List String)
  | list (items : List Value)
  | dict (keys values : Value)
  /-- Any other object. -/
  | object (id : Nat)
  deriving Repr

/-- A node in the query expression tree. -/
inductive Expr
  | col (name : String)
  | lit (value : Value)
  | op (operation : Operation) (operands : List Expr)
  | call (name : String) (operands : List Expr)
  deriving Repr

def Expr.and (e rhs : Expr) : Expr := .op .and [e, rhs]

mutual

/-- Lower an expression to an AST. -/
def Expr.compile : Expr → Value
  | .col name => .nameRef name
  | .lit v => v
  | .op operation operands => .list (.nameRef operation.asStr :: compileAll operands)
  | .call name operands => .list (.nameRef name :: compileAll operands)

def compileAll : List Expr → List Value
  | [] => []
  | e :: es => e.compile :: compileAll es

end

mutual

/-- Rewrite the sum or the count of a filter into a sum over the mask, which the select path can
lower. -/
def dagRewrite : Expr → Expr
  | .op .sum [.op .filter [c, m]] =>
    .op .sum [.op .if [dagRewrite m, dagRewrite c, .lit (.i64 0)]]
  | .op .sum [e] => .op .sum [dagRewrite e]
  | .op .count [.op .filter [_, m]] =>
    .op .sum [.op .if [dagRewrite m, .lit (.i64 1), .lit (.i64 0)]]
  | .op .count [e] => .op .count [dagRewrite e]
  | .op operation operands => .op operation (dagRewriteAll operands)
  | .call name operands => .call name (dagRewriteAll operands)
  | .col name => .col name
  | .lit v => .lit v

def dagRewriteAll : List Expr → List Expr
  | [] => []
  | e :: es => dagRewrite e :: dagRewriteAll es

end

def compileQueryExpr (e : Expr) : Value := (dagRewrite e).compile

mutual

theorem Expr.inductionOn {P : Expr → Prop} (col : ∀ name, P (.col name)) (lit : ∀ v, P (.lit v))
    (op : ∀ operation operands, (∀ e ∈ operands, P e) → P (.op operation operands))
    (call : ∀ name operands, (∀ e ∈ operands, P e) → P (.call name operands)) : (e : Expr) → P e
  | .col name => col name
  | .lit v => lit v
  | .op operation operands =>
    op operation operands (Expr.inductionAll col lit op call operands)
  | .call name operands => call name operands (Expr.inductionAll col lit op call operands)

theorem Expr.inductionAll {P : Expr → Prop} (col : ∀ name, P (.col name)) (lit : ∀ v, P (.lit v))
    (op : ∀ operation operands, (∀ e ∈ operands, P e) → P (.op operation operands))
    (call : ∀ name operands, (∀ e ∈ operands, P e) → P (.call name operands)) :
    (es : List Expr) → ∀ e ∈ es, P e
  | [] => fun _ mem => nomatch mem
  | e :: es => fun e' mem => by
    rcases List.mem_cons.mp mem with same | later
    · exact same ▸ Expr.inductionOn col lit op call e
    · exact Expr.inductionAll col lit op call es e' later

end

theorem dagRewriteAll_eq_map (es : List Expr) : dagRewriteAll es = es.map dagRewrite := by
  induction es with
  | nil => rfl
  | cons e es ih => rw [dagRewriteAll, ih, List.map_cons]

/-- The rewrite fires on the sum and on the count of a filter, and elsewhere goes on below. -/
theorem dagRewrite_op_cases (operation : Operation) (operands : List Expr) :
    (∃ c m, operation = .sum ∧ operands = [.op .filter [c, m]] ∧
      dagRewrite (.op operation operands) =
        .op .sum [.op .if [dagRewrite m, dagRewrite c, .lit (.i64 0)]]) ∨
    (∃ c m, operation = .count ∧ operands = [.op .filter [c, m]] ∧
      dagRewrite (.op operation operands) =
        .op .sum [.op .if [dagRewrite m, .lit (.i64 1), .lit (.i64 0)]]) ∨
    dagRewrite (.op operation operands) = .op operation (operands.map dagRewrite) := by
  rw [dagRewrite.eq_def]
  split
  · next c m eq =>
    cases eq
    exact .inl ⟨c, m, rfl, rfl, rfl⟩
  · next eq =>
    cases eq
    exact .inr (.inr rfl)
  · next c m eq =>
    cases eq
    exact .inr (.inl ⟨c, m, rfl, rfl, rfl⟩)
  · next eq =>
    cases eq
    exact .inr (.inr rfl)
  · next eq =>
    cases eq
    exact .inr (.inr (congrArg _ (dagRewriteAll_eq_map operands)))
  · next eq => cases eq
  · next eq => cases eq
  · next eq => cases eq

end Rayforce.Query
