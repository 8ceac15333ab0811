import Rayforce.Error
import Rayforce.Lib.Utf8
import Rayforce.Raw.Vector

/-! What the crate reads of a value: its atoms' readers (`scalars.rs`, `convert.rs`), a vector's
cells, boxed or in place, and the mutators of fixed-width vectors (`vector.rs`). -/

namespace Rayforce.Raw

open Utf8

inductive Object
  | null
  | atom (a : Atom)
  | vec {kind : Kind} {n : Nat} (v : Vec kind n)
  | list (items : List Object)
  | dict (length : Nat)
  /-- Tables, functions and the rest. -/
  | other (code : Int) (special : 98 ≤ code ∧ code ≠ 99)

def Object.typeCode (core : Core) : Object → Int
  | null => core.nullTag
  | atom a => a.typeCode
  | @vec kind _ _ => kind.code
  | list _ => 0
  | dict _ => 99
  | other code _ => code

def Object.absType (core : Core) (o : Object) : Int :=
  if o.typeCode core < 0 then -o.typeCode core else o.typeCode core

def Object.isVec (core : Core) (o : Object) : Bool := 1 ≤ o.typeCode core ∧ o.typeCode core ≤ 13

def Object.isList (core : Core) (o : Object) : Bool := o.typeCode core == 0

def Object.isDict (core : Core) (o : Object) : Bool := o.typeCode core == 99

/-- `raw::len`. -/
def Object.rawLen : Object → Nat
  | @vec _ n _ => n
  | list items => items.length
  | _ => 0

def Object.dictLen : Object → Nat
  | dict length => length
  | _ => 0

def Object.len (core : Core) (o : Object) : Nat :=
  if o.isVec core || o.isList core then o.rawLen
  else if o.isDict core then o.dictLen
  else 0

def Object.isEmpty (core : Core) (o : Object) : Bool := o.len core == 0

def Object.isNull : Object → Bool
  | null => true
  | _ => false

/-- `raw::atom_is_null`. -/
def Object.isAtomNull : Object → Bool
  | null => true
  | atom a => a.isNull
  | _ => false

/-! ### Readers of atoms -/

def mismatch (kind : Kind) (typeCode : Int) : RayError :=
  let expected := kind.code
  .binding s!"expected atom of type {expected}, got type tag {typeCode}"

/-- A reader of one type: its check of the tag, then its field.  Only atoms have a negative tag. -/
def Object.read {α : Type} (core : Core) (kind : Kind) (field : Atom → α) : Object → Except RayError α
  | atom a => if a.typeCode = -kind.code then .ok (field a) else .error (mismatch kind a.typeCode)
  | o => .error (mismatch kind (o.typeCode core))

def Object.asBool (core : Core) : Object → Except RayError Bool := read core .bool Atom.asB8

def Object.asU8 (core : Core) : Object → Except RayError UInt8 := read core .u8 Atom.asU8

def Object.asI16 (core : Core) : Object → Except RayError Int16 := read core .i16 Atom.asI16

def Object.asI32 (core : Core) : Object → Except RayError Int32 := read core .i32 Atom.asI32

def Object.asI64 (core : Core) : Object → Except RayError Int64 := read core .i64 Atom.asI64

def Object.asF32 (core : Core) : Object → Except RayError F32 := read core .f32 fun a => a.asF64.toF32

def Object.asF64 (core : Core) : Object → Except RayError F64 := read core .f64 Atom.asF64

def Object.asDateDays (core : Core) : Object → Except RayError Int32 := read core .date Atom.asI32

def Object.asTimeMillis (core : Core) : Object → Except RayError Int32 := read core .time Atom.asI32

def Object.asTimestampNanos (core : Core) : Object → Except RayError Int64 :=
  read core .timestamp Atom.asI64

def Object.asGuid (core : Core) : Object → Except RayError Guid :=
  read core .guid fun a => a.guidBytes.getD .zero

class FromValue (T : Type) where
  fromValue : Core → Object → Except RayError T

export FromValue (fromValue)

instance : FromValue Object := ⟨fun _ o => .ok o⟩
instance : FromValue Bool := ⟨Object.asBool⟩
instance : FromValue UInt8 := ⟨Object.asU8⟩
instance : FromValue Int16 := ⟨Object.asI16⟩
instance : FromValue Int32 := ⟨Object.asI32⟩
instance : FromValue Int64 := ⟨Object.asI64⟩
instance : FromValue F32 := ⟨Object.asF32⟩
instance : FromValue F64 := ⟨Object.asF64⟩
instance : FromValue Guid := ⟨Object.asGuid⟩

instance {T : Type} [FromValue T] : FromValue (Option T) :=
  ⟨fun core o => if o.isNull || o.isAtomNull then .ok none else some <$> fromValue core o⟩

/-! ### Readers of memory -/

def u8In (image : List UInt8) : UInt8 := UInt8.ofBitVec (bitsOf 8 image)

def boolIn (image : List UInt8) : Bool := u8In image != 0

def i16In (image : List UInt8) : Int16 := Int16.ofBitVec (bitsOf 16 image)

def i32In (image : List UInt8) : Int32 := Int32.ofBitVec (bitsOf 32 image)

def i64In (image : List UInt8) : Int64 := Int64.ofBitVec (bitsOf 64 image)

def f32In (image : List UInt8) : F32 := ⟨bitsOf 32 image⟩

def f64In (image : List UInt8) : F64 := ⟨bitsOf 64 image⟩

def guidIn (image : List UInt8) : Guid :=
  if length : image.length = 16 then ⟨image, length⟩ else .zero

/-- An element type of `as_slice`, `vec`, `set` and `push`. -/
class VecElem (T : Type) where
  /-- `RAY_TYPE`. -/
  kind : Kind
  toCell : T → Cell kind
  ofBytes : List UInt8 → T

instance : VecElem UInt8 := ⟨.u8, id, u8In⟩
instance : VecElem Int16 := ⟨.i16, id, i16In⟩
instance : VecElem Int32 := ⟨.i32, id, i32In⟩
instance : VecElem Int64 := ⟨.i64, id, i64In⟩
instance : VecElem F32 := ⟨.f32, id, f32In⟩
instance : VecElem F64 := ⟨.f64, id, f64In⟩
instance : VecElem Guid := ⟨.guid, id, guidIn⟩

/-! ### Reads -/

def Object.rawSlice {T : Type} (core : Core) (expected : Kind) (ofBytes : List UInt8 → T) (o : Object) :
    Except RayError (List T) :=
  match o with
  | @vec _ n v =>
    if !o.isVec core then .error (.binding "slice: value is not a vector")
    else if o.absType core ≠ expected.code then
      let actual := o.absType core
      let expected := expected.code
      .error (.binding s!"slice: vector element type {actual} != expected {expected}")
    else .ok ((List.range n).map fun i => ofBytes (Bytes.row v.data expected.width i))
  | _ => .error (.binding "slice: value is not a vector")

def Object.asSlice (core : Core) (T : Type) [VecElem T] : Object → Except RayError (List T) :=
  rawSlice core (VecElem.kind T) VecElem.ofBytes

def Object.isNullAt (core : Core) (o : Object) (idx : Nat) : Bool :=
  match o with
  | vec v => if !o.isVec core || o.len core ≤ idx then false else v.coreIsNull core idx
  | _ => false

/-- The atom of a cell that is no null. -/
def Vec.box (core : Core) {n : Nat} : {kind : Kind} → Vec kind n → Nat → Except RayError Object
  | .bool, v, idx => .ok (.atom (.bool (boolIn (Bytes.row v.data 1 idx))))
  | .u8, v, idx => .ok (.atom (.u8 (u8In (Bytes.row v.data 1 idx))))
  | .i16, v, idx => .ok (.atom (.i16 (i16In (Bytes.row v.data 2 idx))))
  | .i32, v, idx => .ok (.atom (.i32 (i32In (Bytes.row v.data 4 idx))))
  | .i64, v, idx => .ok (.atom (.i64 (i64In (Bytes.row v.data 8 idx))))
  | .f32, v, idx => .ok (.atom (.f32 (f32In (Bytes.row v.data 4 idx))))
  | .f64, v, idx => .ok (.atom (.f64 (f64In (Bytes.row v.data 8 idx))))
  | .date, v, idx => .ok (.atom (.dateDays (i32In (Bytes.row v.data 4 idx))))
  | .time, v, idx => .ok (.atom (.timeMillis (i32In (Bytes.row v.data 4 idx))))
  | .timestamp, v, idx => .ok (.atom (.timestampNanos (i64In (Bytes.row v.data 8 idx))))
  | .guid, v, idx => .ok (.atom (.guid (guidIn (Bytes.row v.data 16 idx))))
  | .sym, v, idx =>
    let pos := v.cells.getD idx 0
    .ok (.atom (.sym (v.symDomain.runtimeId core pos)))
  | .str, v, idx => .ok (.atom (.string (fromUtf8Lossy (v.cells.getD idx []))))
  | .timespan, _, _ =>
    let other := Kind.timespan.code
    .error (.binding s!"get: unsupported vector element type {other}")

def Object.get (core : Core) (o : Object) (idx : Nat) : Except RayError Object :=
  if !o.isVec core && !o.isList core then
    let tag := o.typeCode core
    .error (.binding s!"get: value is not a vector or list (type tag {tag})")
  else
    let n := o.len core
    if n ≤ idx then .error (.binding s!"index {idx} out of range for length {n}")
    else
      match o with
      | list items => .ok (items.getD idx .null)
      | @vec kind _ v =>
        if kind ≠ .sym ∧ kind ≠ .str ∧ o.isNullAt core idx then .ok .null else v.box core idx
      -- nothing else passes the first test
      | _ => .ok .null

def Object.toVec (core : Core) (T : Type) [FromValue T] (o : Object) : Except RayError (List T) :=
  (List.range (o.len core)).mapM fun i => do
    let v ← o.get core i
    fromValue core v

/-- `VecIter`. -/
structure Iter where
  value : Object
  idx : Nat
  len : Nat

def Object.iter (core : Core) (o : Object) : Iter := ⟨o, 0, o.len core⟩

def Iter.next (core : Core) (it : Iter) : Option (Except RayError Object × Iter) :=
  if it.len ≤ it.idx then none
  else some (it.value.get core it.idx, { it with idx := it.idx + 1 })

theorem Iter.next_lt {core : Core} {it rest : Iter} {item : Except RayError Object}
    (step : it.next core = some (item, rest)) : rest.len - rest.idx < it.len - it.idx := by
  unfold next at step
  split at step
  · cases step
  · next more =>
    cases step
    dsimp only
    omega

/-- What a loop over the iterator sees. -/
def Iter.items (core : Core) (it : Iter) : List (Except RayError Object) :=
  match step : it.next core with
  | none => []
  | some (item, rest) =>
    have : rest.len - rest.idx < it.len - it.idx := next_lt step
    item :: rest.items core
termination_by it.len - it.idx

/-! ### Mutators -/

/-- The null of a type, as `set_null` writes it. -/
def Cell.null : (kind : Kind) → Option (Cell kind)
  | .bool | .u8 => none
  | .i16 => some Int16.minValue
  | .i32 | .date | .time => some Int32.minValue
  | .i64 | .timestamp | .timespan => some Int64.minValue
  | .f32 => some ⟨0x7FC00000⟩
  | .f64 => some ⟨0x7FF8000000000000⟩
  | .guid => some .zero
  | .sym => some (0 : Nat)
  | .str => some []

/-- What the only handle to a vector holds: the vector, or the null that took its place when the core
failed. -/
inductive Handle (kind : Kind)
  | vec (r : Root kind)
  | null

variable {kind : Kind}

def Handle.object : Handle kind → Object
  | vec r => .vec (.root r)
  | null => .null

/-- An element as a cell, where its type is the vector's. -/
def elemCell {T : Type} [VecElem T] (kind : Kind) (elem : T) : Option (Cell kind) :=
  if same : VecElem.kind T = kind then some (same ▸ VecElem.toCell elem) else none

/-- `Value::vec`: the core looks over the cells for the sentinel. -/
def Handle.new {T : Type} [VecElem T] (data : List T) : Handle (VecElem.kind T) :=
  let cells := data.map VecElem.toCell
  vec { hasNulls := cells.any (Cell.isSentinel _), symDomain := none, cells }

/-- `install_mutation`, of the changed vector or of the core's error. -/
def Handle.install (op : String) (r : Root kind) : Option RayError → Except RayError Unit × Handle kind
  | none => (.ok (), vec r)
  | some e =>
    let detail := e.display
    (.error (.binding s!"{op}: {detail}"), null)

def Handle.set {T : Type} [VecElem T] (core : Core) (h : Handle kind) (idx : Nat) (elem : T)
    (failure : Option RayError) : Except RayError Unit × Handle kind :=
  match h, elemCell kind elem with
  | vec r, some cell =>
    let n := h.object.len core
    if n ≤ idx then (.error (.binding s!"set: index {idx} out of range for length {n}"), h)
    else install "set" { r with cells := r.cells.set idx cell } failure
  | _, _ => (.error (.binding "set: element type mismatch"), h)

def Handle.push {T : Type} [VecElem T] (h : Handle kind) (elem : T) (failure : Option RayError) :
    Except RayError Unit × Handle kind :=
  match h, elemCell kind elem with
  | vec r, some cell => install "push" { r with cells := r.cells ++ [cell] } failure
  | _, _ => (.error (.binding "push: element type mismatch"), h)

/-- `set_null`, which the core refuses with the code `e`. -/
def Handle.setNull (h : Handle kind) (idx : Nat) (isNull : Bool) (e : Nat) :
    Except RayError Unit × Handle kind :=
  let refused : Except RayError Unit :=
    .error (.binding s!"set_null: failed (err {e}) — index {idx} out of range or unsupported type")
  match h, Cell.null kind with
  | vec r, some cell =>
    if r.cells.length ≤ idx then (refused, h)
    else if isNull then (.ok (), vec { r with cells := r.cells.set idx cell, hasNulls := true })
    else (.ok (), h)
  | _, _ => (refused, h)

/-- One call of a mutator, with the core's part in it. -/
inductive Mutation : Type 1
  | set (T : Type) [VecElem T] (idx : Nat) (elem : T) (failure : Option RayError)
  | push (T : Type) [VecElem T] (elem : T) (failure : Option RayError)
  | setNull (idx : Nat) (isNull : Bool) (e : Nat)

def Handle.apply (core : Core) (h : Handle kind) : Mutation → Handle kind
  | @Mutation.set _ _ idx elem failure => (h.set core idx elem failure).2
  | @Mutation.push _ _ elem failure => (h.push elem failure).2
  | .setNull idx isNull e => (h.setNull idx isNull e).2

/-- The handle after a history of mutations. -/
def Handle.after (core : Core) (h : Handle kind) (history : List Mutation) : Handle kind :=
  history.foldl (Handle.apply core) h

end Rayforce.Raw
