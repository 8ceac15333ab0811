import Rayforce.Query.Expr

/-! Evaluation of ASTs, in any monad: a list applies its head to its evaluated rest, a name is looked
up, and anything else is its own value.  Code and data are not told apart, so that a literal means
itself only if it looks like neither. -/

namespace Rayforce.Query

variable {m : Type → Type} [Monad m]

/-- What `ray_eval` leaves to the objects and to the environment. -/
structure Evaluator (m : Type → Type) where
  apply : Value → List Value → m Value
  lookup : String → m Value
  /-- What a list without a head evaluates to. -/
  headless : m Value

mutual

/-- `ray_eval`. -/
def Value.eval (ev : Evaluator m) : Value → m Value
  | .nameRef name => ev.lookup name
  | .list [] => ev.headless
  | .list (head :: rest) => do
    let args ← evalAll ev rest
    ev.apply head args
  | v => pure v

def evalAll (ev : Evaluator m) : List Value → m (List Value)
  | [] => pure []
  | v :: vs => do
    let a ← v.eval ev
    let as ← evalAll ev vs
    pure (a :: as)

end

def Expr.execute (ev : Evaluator m) (e : Expr) : m Value := e.compile.eval ev

mutual

/-- What an expression stands for: a literal for itself. -/
def Expr.run (ev : Evaluator m) : Expr → m Value
  | .col name => ev.lookup name
  | .lit v => pure v
  | .op operation operands => do
    let args ← runAll ev operands
    ev.apply (.nameRef operation.asStr) args
  | .call name operands => do
    let args ← runAll ev operands
    ev.apply (.nameRef name) args

def runAll (ev : Evaluator m) : List Expr → m (List Value)
  | [] => pure []
  | e :: es => do
    let a ← e.run ev
    let as ← runAll ev es
    pure (a :: as)

end

mutual

/-- The literals of an expression, from left to right. -/
def Expr.literals : Expr → List Value
  | .col _ => []
  | .lit v => [v]
  | .op _ operands => literalsAll operands
  | .call _ operands => literalsAll operands

def literalsAll : List Expr → List Value
  | [] => []
  | e :: es => e.literals ++ literalsAll es

end

/-- Neither a name nor a list. -/
def Value.Inert : Value → Prop
  | .nameRef _ => False
  | .list _ => False
  | _ => True

/-- The compiled AST evaluates as the expression stands, whatever functions and names do. -/
def CompilesLiterally (e : Expr) : Prop :=
  ∀ (m : Type → Type) [Monad m] [LawfulMonad m] (ev : Evaluator m), e.execute ev = e.run ev

theorem eval_of_inert {v : Value} (inert : v.Inert) (ev : Evaluator m) : v.eval ev = pure v := by
  cases v with
  | nameRef | list => cases inert
  | _ => rw [Value.eval.eq_def]

theorem evalAll_of_inert [LawfulMonad m] {vs : List Value} (inert : ∀ v ∈ vs, v.Inert)
    (ev : Evaluator m) : evalAll ev vs = pure vs := by
  induction vs with
  | nil => rw [evalAll]
  | cons v vs ih =>
    rw [evalAll, eval_of_inert (inert v List.mem_cons_self) ev,
      ih fun w mem => inert w (List.mem_cons_of_mem v mem), pure_bind, pure_bind]

mutual

theorem execute_of_inert (ev : Evaluator m) :
    (e : Expr) → (∀ v ∈ e.literals, v.Inert) → e.execute ev = e.run ev
  | .col name, _ => by rw [Expr.execute, Expr.compile, Value.eval, Expr.run]
  | .lit v, inert => by
    rw [Expr.execute, Expr.compile, Expr.run, eval_of_inert (inert v (List.mem_singleton_self v))]
  | .op operation operands, inert => by
    rw [Expr.execute, Expr.compile, Value.eval, Expr.run, evalAll_of_inert_literals ev operands inert]
  | .call name operands, inert => by
    rw [Expr.execute, Expr.compile, Value.eval, Expr.run, evalAll_of_inert_literals ev operands inert]

theorem evalAll_of_inert_literals (ev : Evaluator m) :
    (es : List Expr) → (∀ v ∈ literalsAll es, v.Inert) → evalAll ev (compileAll es) = runAll ev es
  | [], _ => by rw [compileAll, evalAll, runAll]
  | e :: es, inert => by
    have head := execute_of_inert ev e fun v mem => inert v (List.mem_append_left _ mem)
    have tail := evalAll_of_inert_literals ev es fun v mem => inert v (List.mem_append_right _ mem)
    rw [compileAll, evalAll, runAll, tail, ← head]
    rfl

end

end Rayforce.Query
