import Rayforce.Error
import Rayforce.Lib.RefHeap
import Rayforce.Lib.Transition

/-! Handles to the core's reference-counted blocks (`value.rs`, `vector.rs`, `list.rs`).  What the
core does inside one vector or atom is a parameter; who holds a reference to it is not. -/

namespace Rayforce.Value

open RefHeap

/-- The element types, from `RAY_BOOL` to `RAY_STR`. -/
inductive VecType
  | bool | u8 | i16 | i32 | i64 | f32 | f64 | date | time | timestamp | guid | sym | str
  deriving DecidableEq, Repr

inductive TypeCode
  | list | dict
  | vec (type : VecType)
  | atom (type : VecType)
  | other (code : Int)
  deriving DecidableEq, Repr

/-- `abs_type`, where it is that of an element type. -/
def TypeCode.absType : TypeCode → Option VecType
  | .vec type => some type
  | .atom type => some type
  | _ => none

/-- The core inside one block: vectors and atoms are `V`, elements of the crate's own types `E`, and
what a cell holds `C`. -/
structure Core (V E C : Type) where
  /-- A type tag's number. -/
  number : TypeCode → Int
  /-- What the null singleton holds. -/
  null : V
  typeCode : V → TypeCode
  len : V → Int
  dictLen : V → Int
  cell : V → Nat → C
  /-- The boxed element. -/
  atom : VecType → C → V
  isNull : V → Nat → Bool
  rayType : E → VecType
  /-- `ray_vec_set` and `ray_vec_append`, on a block or its copy. -/
  set : V → Nat → E → V
  append : V → E → V
  /-- `ray_vec_set_null_checked`, or its error code. -/
  setNull : V → Nat → Bool → Except Nat V
  /-- Its error code for what is not a vector. -/
  notVec : Nat

/-- The null singleton is a static, not a block. -/
inductive Ptr
  | null
  | block (a : Nat)
  deriving DecidableEq, Repr

def Ptr.refs : Ptr → List Nat
  | .null => []
  | .block a => [a]

inductive Body (V : Type)
  | plain (v : V)
  | list (items : List Ptr)
  deriving DecidableEq

/-- The references a list holds. -/
def Body.kids {V : Type} : Body V → List Nat
  | .plain _ => []
  | .list items => items.flatMap Ptr.refs

def Body.modify {V : Type} (f : V → V) : Body V → Body V
  | .plain v => .plain (f v)
  | .list items => .list items

/-- What `get` returns: a null, the atom of a cell, or an item that stays shared with the list. -/
inductive Item (C : Type)
  | null
  | atom (type : VecType) (cell : C)
  | shared (p : Ptr)

variable {V E C : Type} (core : Core V E C)

/-! ### Reads -/

def Body.typeCode : Body V → TypeCode
  | .plain v => core.typeCode v
  | .list _ => .list

def Body.isVec (b : Body V) : Bool :=
  match b.typeCode core with
  | .vec _ => true
  | _ => false

def Body.isList : Body V → Bool
  | .plain _ => false
  | .list _ => true

def Body.rawLen : Body V → Int
  | .plain v => core.len v
  | .list items => items.length

def Body.dictLen : Body V → Int
  | .plain v => core.dictLen v
  | .list _ => 0

def Body.len (b : Body V) : Nat :=
  if b.isVec core || b.isList then (b.rawLen core).toNat
  else if b.typeCode core == .dict then (b.dictLen core).toNat
  else 0

/-- `Value::raw_slice`, of which `Value::as_slice` is the case of `T::RAY_TYPE`. -/
def Body.rawSlice (b : Body V) (expected : VecType) : Except RayError (List C) :=
  match b, b.typeCode core with
  | .plain v, .vec type =>
    if type ≠ expected then
      let actual := core.number (.vec type)
      let expected := core.number (.vec expected)
      .error (.binding s!"slice: vector element type {actual} != expected {expected}")
    else .ok ((List.range (b.len core)).map (core.cell v))
  | _, _ => .error (.binding "slice: value is not a vector")

def Body.isNullAt (b : Body V) (idx : Nat) : Bool :=
  match b with
  | .plain v => if !b.isVec core || b.len core ≤ idx then false else core.isNull v idx
  | .list _ => false

def Body.get (b : Body V) (idx : Nat) : Except RayError (Item C) :=
  let n := b.len core
  match b, b.typeCode core with
  | .list items, _ =>
    if n ≤ idx then .error (.binding s!"index {idx} out of range for length {n}")
    else .ok (.shared (items.getD idx .null))
  | .plain v, .vec type =>
    if n ≤ idx then .error (.binding s!"index {idx} out of range for length {n}")
    else if type ≠ .sym ∧ type ≠ .str ∧ b.isNullAt core idx then .ok .null
    else .ok (.atom type (core.cell v idx))
  | _, type =>
    let tag := core.number type
    .error (.binding s!"get: value is not a vector or list (type tag {tag})")

/-- Two blocks that read the same. -/
structure Body.Alike (b c : Body V) : Prop where
  len : b.len core = c.len core
  slice : ∀ expected, b.rawSlice core expected = c.rawSlice core expected
  isNullAt : ∀ idx, b.isNullAt core idx = c.isNullAt core idx
  get : ∀ idx, b.get core idx = c.get core idx

/-! ### Handles -/

/-- The handles of a runtime. -/
structure State (V : Type) where
  heap : Heap (Body V)
  /-- Nothing once the handle is dropped. -/
  values : List (Option Ptr)
  /-- References that a refused mutation left behind. -/
  lost : List Nat

def initial : State V := ⟨[], [], []⟩

def State.value? (s : State V) (i : Nat) : Option Ptr := (s.values[i]?).join

def State.body (s : State V) : Ptr → Option (Body V)
  | .null => some (.plain core.null)
  | .block a => body? s.heap a

/-- A handle to a new block. -/
def State.fromOwned (s : State V) (body : Body V) : State V :=
  { s with heap := alloc s.heap body, values := s.values ++ [some (.block (Slots.free s.heap))] }

/-- A handle that takes a new reference. -/
def State.fromBorrowed (s : State V) (p : Ptr) : State V :=
  { s with heap := retainAll s.heap p.refs, values := s.values ++ [some p] }

/-- `Value::list`, of what other handles point to. -/
def State.list (s : State V) (items : List Ptr) : State V :=
  State.fromOwned { s with heap := retainAll s.heap (items.flatMap Ptr.refs) } (.list items)

def State.drop (s : State V) (i : Nat) (p : Ptr) : State V :=
  { s with heap := releaseAll Body.kids s.heap p.refs, values := s.values.set i none }

/-- The core's answer to a call that consumes the reference it is given: the resulting block, or an
error, before which it released the reference or did not. -/
inductive Answer
  | done
  | failed (error : RayError) (released : Bool)
  deriving DecidableEq

/-- A consuming call and `install_mutation`: the block becomes `body`, in which `added` is new. -/
def State.mutate (s : State V) (i : Nat) (p : Ptr) (op : String) (body : Body V) (added : List Nat) :
    Answer → Except RayError Unit × State V
  | .failed error released =>
    let detail := error.display
    (.error (.binding s!"{op}: {detail}"),
      { heap := if released then releaseAll Body.kids s.heap p.refs else s.heap
        values := s.values.set i (some .null)
        lost := if released then s.lost else p.refs ++ s.lost })
  | .done =>
    match p with
    | .null => (.ok (), s)
    | .block a =>
      let (a, heap) := cow Body.kids s.heap a body added
      (.ok (), { s with heap, values := s.values.set i (some (.block a)) })

def State.set (s : State V) (i : Nat) (p : Ptr) (b : Body V) (idx : Nat) (elem : E) (answer : Answer) :
    Except RayError Unit × State V :=
  if (b.typeCode core).absType ≠ some (core.rayType elem) then
    (.error (.binding "set: element type mismatch"), s)
  else
    let n := b.len core
    if n ≤ idx then (.error (.binding s!"set: index {idx} out of range for length {n}"), s)
    else s.mutate i p "set" (b.modify fun v => core.set v idx elem) [] answer

def State.push (s : State V) (i : Nat) (p : Ptr) (b : Body V) (elem : E) (answer : Answer) :
    Except RayError Unit × State V :=
  if (b.typeCode core).absType ≠ some (core.rayType elem) then
    (.error (.binding "push: element type mismatch"), s)
  else s.mutate i p "push" (b.modify fun v => core.append v elem) [] answer

def State.listPush (s : State V) (i : Nat) (p : Ptr) (b : Body V) (item : Ptr) (answer : Answer) :
    Except RayError Unit × State V :=
  match b with
  | .plain _ => (.error (.binding "list_push: value is not a list"), s)
  | .list items => s.mutate i p "list_push" (.list (items ++ [item])) item.refs answer

def State.setNull (s : State V) (p : Ptr) (b : Body V) (idx : Nat) (isNull : Bool) :
    Except RayError Unit × State V :=
  let refused (e : Nat) : Except RayError Unit :=
    .error (.binding s!"set_null: failed (err {e}) — index {idx} out of range or unsupported type")
  match p, b with
  | .block a, .plain v =>
    match core.setNull v idx isNull with
    | .error e => (refused e, s)
    | .ok v => (.ok (), { s with heap := write s.heap a (.plain v) })
  | _, _ => (refused core.notVec, s)

/-- The core gives a block back only for a block of the kind it was asked for. -/
def Answer.admits (b : Body V) (p : Ptr) : Answer → Bool
  | .done => (b.isVec core || b.isList) && p != .null
  | .failed _ _ => true

inductive Event (V E : Type)
  /-- `Value::vec` and the other constructors of vectors and atoms. -/
  | make (v : V)
  | list (items : List Nat)
  | clone (i : Nat)
  | get (i idx : Nat)
  | drop (i : Nat)
  | set (i idx : Nat) (elem : E) (answer : Answer)
  | push (i : Nat) (elem : E) (answer : Answer)
  | setNull (i idx : Nat) (isNull : Bool)
  | listPush (i item : Nat) (answer : Answer)

def Event.target : Event V E → Option Nat
  | .drop i | .set i _ _ _ | .push i _ _ | .setNull i _ _ | .listPush i _ _ => some i
  | _ => none

/-- The state after an event, where the event can happen. -/
def next (s : State V) : Event V E → Option (State V)
  | .make v => some (s.fromOwned (.plain v))
  | .list items => do
    let items ← items.mapM s.value?
    some (s.list items)
  | .clone i => do
    let p ← s.value? i
    some (s.fromBorrowed p)
  | .get i idx => do
    let b ← s.body core (← s.value? i)
    match b.get core idx with
    | .error _ => some s
    | .ok .null => some (s.fromBorrowed .null)
    | .ok (.atom type cell) => some (s.fromOwned (.plain (core.atom type cell)))
    | .ok (.shared p) => some (s.fromBorrowed p)
  | .drop i => do
    let p ← s.value? i
    some (s.drop i p)
  | .set i idx elem answer => do
    let p ← s.value? i
    let b ← s.body core p
    if answer.admits core b p then some (s.set core i p b idx elem answer).2 else none
  | .push i elem answer => do
    let p ← s.value? i
    let b ← s.body core p
    if answer.admits core b p then some (s.push core i p b elem answer).2 else none
  | .setNull i idx isNull => do
    let p ← s.value? i
    let b ← s.body core p
    some (s.setNull core p b idx isNull).2
  | .listPush i item answer => do
    let p ← s.value? i
    let b ← s.body core p
    let q ← s.value? item
    -- the list is borrowed alone
    if item ≠ i ∧ answer.admits core b p then some (s.listPush i p b q answer).2 else none

end Rayforce.Value
