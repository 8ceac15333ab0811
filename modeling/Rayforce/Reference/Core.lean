import Rayforce.Lib.Calls
import Rayforce.Value.Block

/-! References and error objects between the crate and the core, by the contract that the crate's
comments state: which calls lend, which hand over, and which consume what they are given. -/

namespace Rayforce.Reference

open Calls RefHeap Value

/-- A block, as far as the operations read it, and the references in it. -/
structure Object where
  type : TypeCode
  /-- The number of the type's tag. -/
  tag : Int
  len : Int
  dictLen : Int
  refs : List Nat
  deriving DecidableEq

def Object.isVec (o : Object) : Bool :=
  match o.type with
  | .vec _ => true
  | _ => false

def Object.isList (o : Object) : Bool := o.type == .list

def Object.isDict (o : Object) : Bool := o.type == .dict

/-- `RAY_LAZY`, the type of a deferred result. -/
def Object.isLazy (o : Object) : Bool := o.type == .other 104

/-- `Value::len`. -/
def Object.length (o : Object) : Nat :=
  if o.isVec || o.isList then o.len.toNat else if o.isDict then o.dictLen.toNat else 0

/-- A pointer to a core object that is no error.  The null singleton is a static. -/
inductive Pointer
  | nullptr
  | nullObj
  | block (a : Nat)
  deriving DecidableEq

def Pointer.refs : Pointer → List Nat
  | .block a => [a]
  | _ => []

/-- A pointer to a core object.  An error object is read as the error that it reports. -/
inductive Raw
  | object (p : Pointer)
  | error (id : Nat) (e : RayError)
  deriving DecidableEq

instance : Coe Pointer Raw := ⟨.object⟩

def Raw.refs : Raw → List Nat
  | .object p => p.refs
  | .error _ _ => []

def Raw.errors : Raw → List Nat
  | .object _ => []
  | .error id _ => [id]

/-- The core, as far as references go. -/
structure World where
  heap : Heap Object
  /-- The references that the global environment holds. -/
  env : List Nat
  /-- The number of error objects that were handed over; each has the number of those before. -/
  errors : Nat
  /-- The error objects that were freed. -/
  freed : List Nat

/-- What somebody has to give back: a reference to a block, or an error object. -/
inductive Due
  | reference (a : Nat)
  | error (id : Nat)
  deriving DecidableEq

def Due.refs : Due → List Nat
  | .reference a => [a]
  | .error _ => []

def Due.errors : Due → List Nat
  | .reference _ => []
  | .error id => [id]

def Pointer.dues : Pointer → List Due
  | .block a => [.reference a]
  | _ => []

def Raw.dues : Raw → List Due
  | .object p => p.dues
  | .error id _ => [.error id]

/-- The counts are those of the references that are due, in the environment and in blocks, and the
error objects that are due are those not freed, each once. -/
def World.Accounts (w : World) (dues : List Due) : Prop :=
  Counted Object.refs w.heap (dues.flatMap Due.refs ++ w.env) ∧
    (w.freed ++ dues.flatMap Due.errors).Perm (List.range w.errors)

/-! ### Calls -/

/-- Calls that answer with an object that is the caller's. -/
inductive Handing
  /-- `ray_bool` to `ray_guid`, `ray_sym` and `ray_typed_null`. -/
  | atom (type : VecType)
  | str (s : String)
  | vecFromRaw (type : VecType) (len : Nat)
  | vecNew (type : VecType) (capacity : Int)
  | symVecNew (len : Nat)
  | strVecAppend (v : Pointer) (s : String)
  | listNew (capacity : Int)
  | listAppend (l item : Pointer)
  | dictNew (keys values : Pointer)
  | dictGet (d key : Pointer)
  | tableNew (ncols : Nat)
  | tableAddCol (t : Pointer) (name : Int) (col : Pointer)
  | evalStr (source : String)
  | eval (obj : Pointer)
  | lazyMaterialize (v : Pointer)
  | writeCsvFn (args : List Pointer)
  | setSplayedFn (args : List Pointer)
  | fnVary (name : String)
  | fnUnary (name : String)

def Handing.consumes : Handing → List Pointer
  | .strVecAppend v _ | .listAppend v _ | .tableAddCol v _ _ | .lazyMaterialize v => [v]
  | .dictNew keys values => [keys, values]
  | _ => []

/-- Calls that answer with an object that stays its container's, and so never with an error object. -/
inductive Lending
  | dictKeys (d : Pointer)
  | dictVals (d : Pointer)
  | tableGetCol (t : Pointer) (name : Int)
  | envGet (name : Int)

/-- Where a call of the crate happens. -/
inductive Thread
  | runtime | other | noRuntime
  deriving DecidableEq

inductive Call
  | thread
  /-- Reads of an object's header and lengths. -/
  | inspect (p : Pointer)
  | retain (p : Pointer)
  | release (v : Raw)
  | errorFree (id : Nat)
  | symIntern (name : String)
  | hand (h : Handing)
  | vecSet (v : Pointer) (idx : Nat) (elem : VecType)
  | vecAppend (v : Pointer) (elem : VecType)
  | lend (l : Lending)
  /-- `ray_env_bind` or `ray_env_bind_flat`. -/
  | envBind (flat : Bool) (name : Int) (f : Pointer)

/-- The answer of a call that changes a vector, and whether the core refused to consume the
reference, which the caller is not told. -/
structure Changed where
  answer : Raw
  kept : Bool

abbrev Call.Reply : Call → Type
  | .thread => Thread
  | .inspect _ => Object
  | .retain _ | .release _ | .errorFree _ => Unit
  | .symIntern _ => Int
  | .hand _ => Raw
  | .lend _ => Pointer
  | .vecSet _ _ _ | .vecAppend _ _ => Changed
  | .envBind _ _ _ => Int

abbrev Program (α : Type) := Prog Call.Reply α

/-! ### The contract -/

def World.object? (w : World) : Pointer → Option Object
  | .block a => body? w.heap a
  | _ => none

/-- The blocks are there. -/
def World.Live (w : World) (refs : List Nat) : Prop := ∀ a ∈ refs, (Slots.at? w.heap a).isSome

/-- The core takes over references and hands one over, or a new error object. -/
structure World.Hands (w : World) (consumed : List Pointer) (answer : Raw) (w' : World) : Prop where
  counted : ∀ roots, Counted Object.refs w.heap (consumed.flatMap Pointer.refs ++ (roots ++ w.env)) →
    Counted Object.refs w'.heap (answer.refs ++ (roots ++ w'.env))
  errors : List.range w'.errors = List.range w.errors ++ answer.errors
  freed : w'.freed = w.freed

/-- A vector of the element's type, with an element there. -/
def Object.Suits (o : Object) (elem : VecType) (idx : Option Nat) : Prop :=
  o.type = .vec elem ∧ ∀ i, idx = some i → i < o.len.toNat

/-- A vector's change consumes the reference.  What does not suit it, the core refuses with an error,
and then it may not have consumed the reference. -/
def World.Changes (w : World) (v : Pointer) (elem : VecType) (idx : Option Nat) (r : Changed)
    (w' : World) : Prop :=
  if r.kept then
    r.answer.errors ≠ [] ∧ (∀ o, w.object? v = some o → ¬ o.Suits elem idx) ∧ w.Hands [] r.answer w'
  else w.Hands [v] r.answer w'

/-- What the core may do on a call.  What is no longer there it must not be asked to release. -/
def World.effect (w : World) : (c : Call) → c.Reply → World → Prop
  | .thread, _, w' | .symIntern _, _, w' => w' = w
  | .inspect p, o, w' => w' = w ∧ ∀ o', w.object? p = some o' → o = o'
  | .retain p, _, w' => w.Live p.refs → w' = { w with heap := retainAll w.heap p.refs }
  | .release v, _, w' => w.Live v.refs →
      w' = { w with heap := releaseAll Object.refs w.heap v.refs }
  | .errorFree id, _, w' => id ∉ w.freed → w' = { w with freed := id :: w.freed }
  | .hand h, answer, w' => w.Hands h.consumes answer w'
  | .vecSet v idx elem, r, w' => w.Changes v elem (some idx) r w'
  | .vecAppend v elem, r, w' => w.Changes v elem none r w'
  | .lend _, answer, w' => w' = w ∧ ∀ a ∈ answer.refs, a ∈ w.env ++ edges Object.refs w.heap
  | .envBind _ _ _, _, w' => w.Hands [] Pointer.nullptr w'

/-- What the crate leaves with nobody: a builtin's result that it does not look at, an error object
that it takes for a block, and a reference that it takes for consumed. -/
def forgotten : Sigma Call.Reply → List Due
  | ⟨.hand (.writeCsvFn _), .object (.block a)⟩ => [.reference a]
  | ⟨.hand (.setSplayedFn _), .object (.block a)⟩ => [.reference a]
  | ⟨.hand (.fnVary _), .error id _⟩ => [.error id]
  | ⟨.hand (.fnUnary _), .error id _⟩ => [.error id]
  | ⟨.vecAppend (.block a) _, ⟨_, true⟩⟩ => [.reference a]
  | _ => []

theorem World.Accounts.perm {w : World} {ds ds' : List Due} (perm : ds.Perm ds')
    (accounts : w.Accounts ds) : w.Accounts ds' := by
  obtain ⟨counted, freed⟩ := accounts
  refine ⟨counted.perm ((perm.flatMap_right _).append_right _), ?_⟩
  exact ((perm.flatMap_right _).symm.append_left _).trans freed

/-- Who gives back what the core hands over. -/
def custody : Custody Call.Reply World Due where
  effect := World.effect
  holds := World.Accounts
  perm := World.Accounts.perm
  lost := forgotten

end Rayforce.Reference
