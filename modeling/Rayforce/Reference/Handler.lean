import Rayforce.Reference.Builders
import Rayforce.Reference.Machine

/-! Everything a program does with its `Value`s, at the top or in a handler that the core calls
(`env.rs`), and what a handler gives back. -/

namespace Rayforce.Reference

open Calls Transition

/-- Operations that are lent `Value`s and make new ones. -/
inductive Deed
  | slice (self : Pointer) (offset len : Int)
  | concat (self other : Pointer)
  | get (self : Pointer) (idx : Nat)
  | toVec (self : Pointer)
  | format (self : Pointer)
  | serialize (self : Pointer)
  | deserialize (len : Nat)
  | setGlobal (name : String) (value : Pointer)
  | asTable (self : Pointer)
  | columnAt (self : Pointer) (idx : Nat)
  | columns (self : Pointer)
  | readCsv (columnTypes : List String) (path : String)
  | loadSplayed (dir : String) (symPath : Option String)
  | loadParted (root name : String)
  | insert (self : Pointer) (values : List Pointer)
  | upsertColumns (self : Pointer) (columns : List Pointer)
  | endRows (op : String) (self : Pointer) (n : Int64)
  | take (self : Pointer)
  | join (op : Query.Operation) (self other : Pointer) (on : List String)
  | fnNew (source : String)
  | fromGlobal (name : String)
  | bindFn (self : Pointer) (n : UInt64)
  | metadata (self : Pointer)
  | execute (e : Expr)
  | select (q : Select)
  | update (q : Update)
  | qExecute (fd : Int) (query : String)
  | subscriptionSend (id : Int) (msg : Pointer)
  | subscriptionExecute (id : Int) (expr : String)
  | decodeResponse (msg : List UInt8)
  | decodeResponseCols (debug : List UInt8 → String) (msg : List UInt8) (cols : List (List UInt8))
  | send (c : Ipc.Client) (msg : Pointer) (timeout : Option Nat)
  | clientExecute (c : Ipc.Client) (query : String) (timeout : Option Nat)
  | sendAsync (c : Ipc.Client) (msg : Pointer)

/-- The `Value`s that an operation is lent. -/
def Deed.lent : Deed → List Pointer
  | .slice self _ _ | .get self _ | .toVec self | .format self | .serialize self | .setGlobal _ self
  | .asTable self | .columnAt self _ | .columns self | .endRows _ self _ | .take self
  | .bindFn self _ | .metadata self | .subscriptionSend _ self | .send _ self _
  | .sendAsync _ self => [self]
  | .concat self other | .join _ self other _ => [self, other]
  | .insert self values | .upsertColumns self values => self :: values
  | .execute e => e.lits
  | .select q => q.held
  | .update q => q.held
  | .deserialize _ | .readCsv _ _ | .loadSplayed _ _ | .loadParted _ _ | .fnNew _ | .fromGlobal _
  | .qExecute _ _ | .subscriptionExecute _ _ | .decodeResponse _ | .decodeResponseCols _ _ _
  | .clientExecute _ _ _ => []

def single (m : N Pointer) : N (List Pointer) := do return [← m]

def nothing (m : N Unit) : N (List Pointer) := do
  m
  return []

def Deed.run : Deed → N (List Pointer)
  | .slice self offset len => single (Value.slice self offset len)
  | .concat self other => single (Value.concat self other)
  | .get self idx => single (Value.get self idx)
  | .toVec self => Value.toVec self
  | .format self => nothing (Value.format self)
  | .serialize self => nothing (Value.serialize self)
  | .deserialize len => single (Value.deserialize len)
  | .setGlobal name value => nothing (Reference.setGlobal name value)
  | .asTable self => single (Value.asTable self)
  | .columnAt self idx => single (Table.columnAt self idx)
  | .columns self => Table.columns self
  | .readCsv columnTypes path => single (Table.readCsv columnTypes path)
  | .loadSplayed dir symPath => single (Table.loadSplayed dir symPath)
  | .loadParted root name => single (Table.loadParted root name)
  | .insert self values => single (Table.insert self values)
  | .upsertColumns self cols => single (Table.upsertColumns self cols)
  | .endRows op self n => single (Table.endRows op self n)
  | .take self => single (Table.take self)
  | .join op self other on => single (Table.join op self other on)
  | .fnNew source => single (Fn.new source)
  | .fromGlobal name => single (Fn.fromGlobal name)
  | .bindFn self n => nothing (Fn.bind self n)
  | .metadata self => single (Fn.meta self)
  | .execute e => single (Reference.execute e)
  | .select q => single q.execute
  | .update q => single q.execute
  | .qExecute fd query => single (QConnection.execute fd query)
  | .subscriptionSend id msg => single (Subscription.send id msg)
  | .subscriptionExecute id expr => single (Subscription.execute id expr)
  | .decodeResponse msg => single (Reference.decodeResponse msg)
  | .decodeResponseCols debug msg cols => single (Reference.decodeResponseCols debug msg cols)
  | .send c msg timeout => single (TcpClient.send c msg timeout)
  | .clientExecute c query timeout => single (TcpClient.execute c query timeout)
  | .sendAsync c msg => nothing (TcpClient.sendAsync c msg)

/-- What a program does, in a handler with the arguments that the core holds for it. -/
inductive Action
  | base (operation : Operation)
  | deed (d : Deed)
  /-- `Table::from_value` and `Fn::from_value`, which a `Value` is moved into. -/
  | toTable (i : Nat)
  | toFn (i : Nat)
  /-- `Args::get`. -/
  | argument (i : Nat)
  /-- The one argument of a unary handler. -/
  | unary

/-- What an operation makes, beside the `Value`s that are left. -/
def adoptAll (values : Values) (m : N (List Pointer)) : Whole Values := do
  match ← m.run with
  | .ok ps => return values ++ ps.map some
  | .error _ => return values

/-- `Value::from_borrowed` of what the core holds. -/
def borrow (values : Values) (p : Pointer) : Whole Values := do
  (core (.retain p)).inl
  return values ++ [some p]

def Action.program (args : List Pointer) (values : Values) : Action → Option (Whole Values)
  | .base operation => (operation.program values).map Prog.inl
  | .deed d => if ∀ p ∈ d.lent, some p ∈ values then some (adoptAll values d.run) else none
  | .toTable i => do
    let p ← value? values i
    some (adoptAll (values.set i none) (single (Table.fromValue p)))
  | .toFn i => do
    let p ← value? values i
    some (adoptAll (values.set i none) (single (Fn.fromValue p)))
  | .argument i =>
    match args[i]? with
    | none | some .nullptr => some (return values)
    | some p => some (borrow values p)
  | .unary =>
    match args with
    | [.nullptr] => some (return values ++ [some .nullObj])
    | [p] => some (borrow values p)
    | _ => none

/-- An action, with the calls of the core that it makes and what they are answered. -/
structure Acted where
  action : Action
  told : List (Sigma (Sum.elim Call.Reply Further.Reply))

def Act (args : List Pointer) (s : State) (e : Acted) (t : State) : Prop :=
  ∃ p, e.action.program args s.values = some p ∧
    Runs whole.effect p s.world e.told t.values t.world

/-! ### Handlers -/

/-- How a handler ends: with a `Value` that it moves out, or by a panic. -/
inductive Ending
  | reply (i : Nat)
  | panic

/-- `guard`: what the core is handed, and the `Value`s that are left. -/
def guard (values : Values) : Ending → Option (Pointer × Values)
  | .reply i => do
    let p ← value? values i
    some (p, values.set i none)
  | .panic => some (.nullObj, values)

/-- `vary_trampoline` and `unary_trampoline`, with what the core calls them with. -/
inductive Trampoline
  | vary (args : Option (List Pointer)) (n : Int)
  | unary (arg : Pointer)

/-- The arguments that the handler is given, which stay the core's. -/
def Trampoline.args : Trampoline → List Pointer
  | .vary (some args) n => if n ≤ 0 then [] else args.take n.toNat
  | .vary none _ => []
  | .unary arg => [arg]

/-- A unary handler is called with its argument. -/
def Trampoline.Begins : Trampoline → List Acted → Prop
  | .vary _ _, _ => True
  | .unary _, es => es.head?.map Acted.action = some .unary

/-- A call of a handler.  What a panic unwinds is among what the handler did, and the `Value`s that it
keeps are left. -/
def Called (f : Trampoline) (s : State) (es : List Acted) (reply : Pointer) (t : State) : Prop :=
  f.Begins es ∧ ∃ values ending, Run (Act f.args) s es ⟨t.world, values⟩ ∧
    guard values ending = some (reply, t.values)

end Rayforce.Reference
