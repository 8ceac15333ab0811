import Rayforce.Error
import Rayforce.Query.Evaluate

/-! Lambdas (`lambda.rs`): called as the object that they are, or applied by a name of the global
environment (`runtime.rs`). -/

namespace Rayforce.Query

/-- A lambda, and the global name that it goes by once it has one. -/
structure Fn where
  value : Value
  boundName : Option String

/-- A value's type tag, of objects as the core has it. -/
def Value.typeCode (objectType : Nat → Int) : Value → Int
  | .nameRef _ => -12
  | .i64 _ => -5
  | .symVec _ => 12
  | .list _ => 0
  | .dict _ _ => 99
  | .object id => objectType id

/-- `char::is_whitespace`. -/
def isWhitespace (c : Char) : Bool :=
  let n := c.toNat
  (9 ≤ n && n ≤ 13) || n == 0x20 || n == 0x85 || n == 0xA0 || n == 0x1680 ||
    (0x2000 ≤ n && n ≤ 0x200A) || n == 0x2028 || n == 0x2029 || n == 0x202F || n == 0x205F || n == 0x3000

def startsWithFnForm (source : String) : Bool :=
  match source.toList.dropWhile isWhitespace with
  | '(' :: rest =>
    match rest.dropWhile isWhitespace with
    | 'f' :: 'n' :: c :: _ => isWhitespace c || c == '[' || c == ')'
    | _ => false
  | _ => false

variable {m : Type → Type} [Monad m] (objectType : Nat → Int)

/-- `Fn::from_value`. -/
def Fn.fromValue (value : Value) : Except RayError Fn :=
  let code := value.typeCode objectType
  if code ≠ 100 then .error (.binding s!"Fn::from_value: expected a lambda, got type {code}")
  else .ok ⟨value, none⟩

/-- `Fn::new`, of what `eval` answers to the source. -/
def Fn.new (source : String) (answer : Except RayError Value) : Except RayError Fn :=
  if !startsWithFnForm source then .error (.binding "Fn::new: source must be a `(fn …)` expression")
  else do
    let value ← answer
    fromValue objectType value

/-- `Fn::call`, of which `eval_value` evaluates the list. -/
def Fn.call (ev : Evaluator m) (f : Fn) (args : List Value) : m Value :=
  (Value.list (f.value :: args)).eval ev

/-! ### Global names -/

/-- An Expr that `apply` returned, and the lambda it was asked of. -/
structure Applied where
  head : String
  operands : List Expr
  lambda : Value

def Applied.expr (a : Applied) : Expr := .call a.head a.operands

/-- A thread's lambdas and its global environment. -/
structure World where
  env : String → Option Value
  /-- `BIND_COUNTER`. -/
  counter : UInt64
  /-- Nothing once the handle is dropped. -/
  fns : List (Option Fn)
  applied : List Applied
  /-- The names that `bind` made, each with its lambda. -/
  given : List (String × Value)

def initial (env : String → Option Value) : World := ⟨env, 1, [], [], []⟩

def World.fn? (w : World) (i : Nat) : Option Fn := (w.fns[i]?).join

def World.bound (w : World) (name : String) (value : Option Value) : World :=
  { w with env := fun other => if other = name then value else w.env other }

/-- `set_global`, which the core refuses with an error code or not. -/
def World.setGlobal (w : World) (name : String) (value : Value) : Option Nat → Except RayError Unit × World
  | none => (.ok (), w.bound name (some value))
  | some e => (.error (.binding s!"set_global({name}) failed (err {e})"), w)

def World.getGlobal (w : World) (name : String) : Except RayError Value :=
  match w.env name with
  | none => .error (.binding s!"global not found: {name}")
  | some value => .ok value

/-- The name that `bind` makes of the counter. -/
def generatedName (n : UInt64) : String := "__rustfn_" ++ String.ofList (Nat.toDigits 16 n.toNat)

/-- `Fn::from_global`. -/
def Fn.fromGlobal (w : World) (name : String) : Except RayError Fn := do
  let value ← w.getGlobal name
  let f ← fromValue objectType value
  return { f with boundName := some name }

def Fn.bind (w : World) (f : Fn) (refusal : Option Nat) : Except RayError String × Fn × World :=
  match f.boundName with
  | some name => (.ok name, f, w)
  | none =>
    let name := generatedName w.counter
    let w := { w with counter := w.counter + 1 }
    match w.setGlobal name f.value refusal with
    | (.error e, w) => (.error e, f, w)
    | (.ok (), w) => (.ok name, { f with boundName := some name },
        { w with given := w.given ++ [(name, f.value)] })

def Fn.apply (w : World) (f : Fn) (operands : List Expr) (refusal : Option Nat) :
    Except RayError Expr × Fn × World :=
  match f.bind w refusal with
  | (.error e, f, w) => (.error e, f, w)
  | (.ok name, f, w) =>
    (.ok (.call name operands), f, { w with applied := w.applied ++ [⟨name, operands, f.value⟩] })

inductive Event
  | new (source : String) (answer : Except RayError Value)
  | fromValue (value : Value)
  | fromGlobal (name : String)
  | clone (i : Nat)
  | apply (i : Nat) (operands : List Expr) (refusal : Option Nat)
  | call (i : Nat) (args : List Value)
  | drop (i : Nat)
  /-- `set_global`, or what an evaluation does to a name. -/
  | rebind (name : String) (value : Option Value)

/-- A new handle, where there is one. -/
def World.add (w : World) : Except RayError Fn → World
  | .error _ => w
  | .ok f => { w with fns := w.fns ++ [some f] }

/-- The state after an event, where the event can happen.  What a call changes in the environment are
events of its own. -/
def next (w : World) : Event → Option World
  | .new source answer => some (w.add (Fn.new objectType source answer))
  | .fromValue value => some (w.add (Fn.fromValue objectType value))
  | .fromGlobal name => some (w.add (Fn.fromGlobal objectType w name))
  | .clone i => (w.fn? i).map fun f => w.add (.ok f)
  | .apply i operands refusal =>
    (w.fn? i).map fun f =>
      let (_, f, w) := f.apply w operands refusal
      { w with fns := w.fns.set i (some f) }
  | .call i _ => (w.fn? i).map fun _ => w
  | .drop i => (w.fn? i).map fun _ => { w with fns := w.fns.set i none }
  | .rebind name value => some (w.bound name value)

/-- What the engine does with objects. -/
structure Engine (m : Type → Type) where
  run : Value → List Value → m Value
  unbound : String → m Value
  headless : m Value

/-- Evaluation in an environment, where a head that is a name is the object bound to it. -/
def World.evaluator (w : World) (engine : Engine m) : Evaluator m where
  apply head args :=
    match head with
    | .nameRef name =>
      match w.env name with
      | none => engine.unbound name
      | some value => engine.run value args
    | value => engine.run value args
  lookup name :=
    match w.env name with
    | none => engine.unbound name
    | some value => pure value
  headless := engine.headless

end Rayforce.Query
