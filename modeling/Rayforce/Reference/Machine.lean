import Rayforce.Lib.Transition
import Rayforce.Reference.Operations

/-! The live `Value`s of a program, and the operations on them one after the other. -/

namespace Rayforce.Reference

open Calls
open Rayforce.Value (VecType)

abbrev Values := List (Option Pointer)

def value? (values : Values) (i : Nat) : Option Pointer := (values[i]?).join

structure State where
  world : World
  /-- Nothing once the `Value` is dropped or moved. -/
  values : Values

/-- Operations that take no `Value`. -/
inductive Construction
  | atom (name : String) (type : VecType)
  | sym (name s : String)
  | string (s : String)
  | vec (type : VecType) (len : Nat)
  | boolVec (len : Nat)
  | emptyVec (type : VecType) (capacity : Int)
  | symVec (items : List String)
  | strVec (items : List String)
  | emptyList (capacity : Int)
  | eval (source : String)
  | getGlobal (name : String)

def Construction.program : Construction → M Pointer
  | .atom name type => Value.atom name type
  | .sym name s => Value.sym name s
  | .string s => Value.string s
  | .vec type len => Value.vec type len
  | .boolVec len => Value.boolVec len
  | .emptyVec type capacity => Value.emptyVec type capacity
  | .symVec items => Value.symVec items
  | .strVec items => Value.strVec items
  | .emptyList capacity => Value.emptyList capacity
  | .eval source => Reference.eval source
  | .getGlobal name => Reference.getGlobal name

/-- Operations, on `Value`s and tables by their number. -/
inductive Operation
  | null
  | make (c : Construction)
  | clone (i : Nat)
  | drop (i : Nat)
  | list (items : List Nat)
  | dict (keys values : Nat)
  | dictGet (d key : Nat)
  | dictKeys (d : Nat)
  | dictValues (d : Nat)
  | set (i idx : Nat) (elem : VecType)
  | push (i : Nat) (elem : VecType)
  | listPush (i item : Nat)
  | table (names : List String) (columns : List Nat)
  | column (t : Nat) (name : String)
  | writeCsv (t : Nat) (path : String)
  | saveSplayed (t : Nat) (dir : String) (symPath : Option String)
  | evalValue (obj : Nat)
  | call (f : Nat) (args : List Nat)
  | bindVary (name : String)
  | bindUnary (name : String)

/-! ### What an operation leaves of the `Value`s -/

def adopt (values : Values) (m : M Pointer) : Program Values := do
  match ← m.run with
  | .ok p => return values ++ [some p]
  | .error _ => return values

def adoptFound (values : Values) (m : M (Option Pointer)) : Program Values := do
  match ← m.run with
  | .ok (some p) => return values ++ [some p]
  | _ => return values

def leave (values : Values) (m : M Unit) : Program Values := do
  let _ ← m.run
  return values

def change (values : Values) (i : Nat) (p : Program (Except RayError Unit × Pointer)) :
    Program Values := do
  let result ← p
  return values.set i (some result.2)

/-- The operation on the `Value`s, where they are there. -/
def Operation.program (values : Values) : Operation → Option (Program Values)
  | .null => some (return values ++ [some .nullObj])
  | .make c => some (adopt values c.program)
  | .clone i => do
    let p ← value? values i
    some do
      core (.retain p)
      return values ++ [some p]
  | .drop i => do
    let p ← value? values i
    some do
      core (.release p)
      return values.set i none
  | .list items => do
    let items ← items.mapM (value? values)
    some (adopt values (Value.list items))
  | .dict k v => do
    let keys ← value? values k
    let vals ← value? values v
    -- both are moved, and so are two
    if k = v then none
    else some (adopt ((values.set k none).set v none) (Value.dict keys vals))
  | .dictGet d key => do
    let d ← value? values d
    let key ← value? values key
    some (adoptFound values (Value.dictGet d key))
  | .dictKeys d => do
    let d ← value? values d
    some (adopt values (Value.dictKeys d))
  | .dictValues d => do
    let d ← value? values d
    some (adopt values (Value.dictValues d))
  | .set i idx elem => do
    let p ← value? values i
    some (change values i (Value.set p idx elem))
  | .push i elem => do
    let p ← value? values i
    some (change values i (Value.push p elem))
  | .listPush i item => do
    let p ← value? values i
    let q ← value? values item
    -- the list is borrowed alone
    if i = item then none else some (change values i (Value.listPush p q))
  | .table names columns => do
    let columns ← columns.mapM (value? values)
    some (adopt values (Table.new names columns))
  | .column t name => do
    let t ← value? values t
    some (adopt values (Table.column t name))
  | .writeCsv t path => do
    let t ← value? values t
    some (leave values (Table.writeCsv t path))
  | .saveSplayed t dir symPath => do
    let t ← value? values t
    some (leave values (Table.saveSplayed t dir symPath))
  | .evalValue obj => do
    let obj ← value? values obj
    some (adopt values (Reference.evalValue obj))
  | .call f args => do
    let f ← value? values f
    let args ← args.mapM (value? values)
    some (adopt values (Fn.call f args))
  | .bindVary name => some (leave values (Reference.bindVary name))
  | .bindUnary name => some (leave values (Reference.bindUnary name))

/-- An operation, the calls of the core that it makes, and what they are answered. -/
structure Event where
  operation : Operation
  told : List (Sigma Call.Reply)

def Step (s : State) (e : Event) (t : State) : Prop :=
  ∃ p, e.operation.program s.values = some p ∧
    Runs World.effect p s.world e.told t.values t.world

/-- What the live `Value`s have to give back. -/
def duesIn (values : Values) : List Due := values.flatMap fun slot => slot.elim [] Pointer.dues

/-- Every count is that of the live `Value`s, of the references in blocks and of those in the
environment, and every error object that was handed over is freed, once. -/
def Balanced (s : State) : Prop := s.world.Accounts (duesIn s.values)

end Rayforce.Reference
