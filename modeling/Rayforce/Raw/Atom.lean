import Rayforce.Lib.Binary

/-! The fields and constructors of the core's atoms (`raw.rs`, `scalars.rs`). -/

namespace Rayforce.Raw

/-- The element types, from `RAY_BOOL` to `RAY_STR`, and `RAY_TIMESPAN`. -/
inductive Kind
  | bool | u8 | i16 | i32 | i64 | f32 | f64 | date | time | timestamp | guid | sym | str | timespan
  deriving DecidableEq, Repr

/-- The type's number; atoms carry its negative. -/
def Kind.code : Kind → Int
  | .bool => 1
  | .u8 => 2
  | .i16 => 3
  | .i32 => 4
  | .i64 => 5
  | .f32 => 6
  | .f64 => 7
  | .date => 8
  | .time => 9
  | .timestamp => 10
  | .guid => 11
  | .sym => 12
  | .str => 13
  | .timespan => 16

/-- A float is its bits. -/
structure F32 where
  bits : BitVec 32
  deriving DecidableEq, Repr

structure F64 where
  bits : BitVec 64
  deriving DecidableEq, Repr

def F32.isNan (x : F32) : Bool := Binary.isNan32 x.bits

def F64.isNan (x : F64) : Bool := Binary.isNan64 x.bits

/-- What is no number, as conversions leave it. -/
def F32.quiet (x : F32) : F32 := ⟨Binary.quiet x.bits⟩

def F32.toF64 (x : F32) : F64 := ⟨Binary.widen x.bits⟩

def F64.toF32 (x : F64) : F32 := ⟨Binary.narrow x.bits⟩

@[ext] structure Guid where
  bytes : List UInt8
  length : bytes.length = 16
  deriving DecidableEq, Repr

def Guid.zero : Guid := ⟨List.replicate 16 0, rfl⟩

/-- An atom's payload: the eight bytes of the value union, the child block of a GUID, or the bytes of
a string. -/
inductive Payload
  | word (bits : BitVec 64)
  | guid (child : Option Guid)
  | str (bytes : List UInt8)
  deriving DecidableEq, Repr

structure Atom where
  kind : Kind
  payload : Payload
  /-- The low bit of `aux[0]`, which `ray_typed_null` sets. -/
  aux : Bool
  deriving DecidableEq, Repr

def Atom.typeCode (a : Atom) : Int := -a.kind.code

/-! ### Fields -/

def Atom.val (a : Atom) : BitVec 64 :=
  match a.payload with
  | .word bits => bits
  | _ => 0

def Atom.asI64 (a : Atom) : Int64 := Int64.ofBitVec a.val

def Atom.asI32 (a : Atom) : Int32 := Int32.ofBitVec (a.val.setWidth 32)

def Atom.asI16 (a : Atom) : Int16 := Int16.ofBitVec (a.val.setWidth 16)

def Atom.asU8 (a : Atom) : UInt8 := UInt8.ofBitVec (a.val.setWidth 8)

def Atom.asB8 (a : Atom) : Bool := a.asU8 != 0

def Atom.asF64 (a : Atom) : F64 := ⟨a.val⟩

def Atom.guidBytes (a : Atom) : Option Guid :=
  match a.payload with
  | .guid child => child
  | _ => none

def Atom.strBytes (a : Atom) : List UInt8 :=
  match a.payload with
  | .str bytes => bytes
  | _ => []

/-- `raw::atom_is_null`, past its test for the null singleton. -/
def Atom.isNull (a : Atom) : Bool :=
  match a.kind with
  | .f64 => a.asF64.isNan
  | .f32 => a.asF64.toF32.isNan
  | .i64 | .timestamp => a.asI64 == Int64.minValue
  | .i32 | .date | .time => a.asI32 == Int32.minValue
  | .i16 => a.asI16 == Int16.minValue
  | .sym => a.asI64 == 0
  | .str => a.strBytes.isEmpty
  | .guid =>
    match a.guidBytes with
    | none => true
    | some b => b.bytes.all (· == 0)
  | .bool | .u8 | .timespan => a.aux

/-! ### Constructors -/

def Atom.ofWord (kind : Kind) (bits : BitVec 64) : Atom := ⟨kind, .word bits, false⟩

def Atom.bool (v : Bool) : Atom := .ofWord .bool (if v then 1 else 0)

def Atom.u8 (v : UInt8) : Atom := .ofWord .u8 (v.toBitVec.setWidth 64)

def Atom.i16 (v : Int16) : Atom := .ofWord .i16 (v.toBitVec.setWidth 64)

def Atom.i32 (v : Int32) : Atom := .ofWord .i32 (v.toBitVec.setWidth 64)

def Atom.i64 (v : Int64) : Atom := .ofWord .i64 v.toBitVec

/-- The core keeps a 32-bit float as the 64-bit one of the same value. -/
def Atom.f32 (v : F32) : Atom := .ofWord .f32 v.toF64.bits

def Atom.f64 (v : F64) : Atom := .ofWord .f64 v.bits

def Atom.sym (id : Int64) : Atom := .ofWord .sym id.toBitVec

def Atom.string (bytes : List UInt8) : Atom := ⟨.str, .str bytes, false⟩

def Atom.dateDays (days : Int32) : Atom := .ofWord .date (days.toBitVec.setWidth 64)

def Atom.timeMillis (ms : Int32) : Atom := .ofWord .time (ms.toBitVec.setWidth 64)

def Atom.timestampNanos (ns : Int64) : Atom := .ofWord .timestamp ns.toBitVec

def Atom.guid (bytes : Guid) : Atom := ⟨.guid, .guid (some bytes), false⟩

/-! ### What the constructors store -/

@[simp] theorem Atom.asB8_bool (v : Bool) : (Atom.bool v).asB8 = v := by
  cases v <;> rfl

@[simp] theorem Atom.asU8_u8 (v : UInt8) : (Atom.u8 v).asU8 = v := by
  simp [u8, ofWord, asU8, val]

@[simp] theorem Atom.asI16_i16 (v : Int16) : (Atom.i16 v).asI16 = v := by
  simp [i16, ofWord, asI16, val]

@[simp] theorem Atom.asI32_i32 (v : Int32) : (Atom.i32 v).asI32 = v := by
  simp [i32, ofWord, asI32, val]

@[simp] theorem Atom.asI32_dateDays (v : Int32) : (Atom.dateDays v).asI32 = v := asI32_i32 v

@[simp] theorem Atom.asI32_timeMillis (v : Int32) : (Atom.timeMillis v).asI32 = v := asI32_i32 v

theorem F32.toF32_toF64_eq_quiet (v : F32) : v.toF64.toF32 = v.quiet :=
  congrArg F32.mk (Binary.narrow_widen v.bits)

theorem F32.toF32_toF64 {v : F32} (number : v.isNan = false) : v.toF64.toF32 = v :=
  v.toF32_toF64_eq_quiet.trans (congrArg F32.mk (Binary.quiet_of_number number))

theorem F32.isNan_toF32_toF64 (v : F32) : v.toF64.toF32.isNan = v.isNan := by
  rw [toF32_toF64_eq_quiet]
  exact Binary.isNan32_quiet v.bits

theorem Guid.all_zero (v : Guid) : v.bytes.all (· == 0) = (v == .zero) := by
  have zero : v = .zero ↔ v.bytes = List.replicate 16 0 := by
    rw [Guid.zero, Guid.ext_iff]
  rw [Bool.eq_iff_iff, List.all_eq_true, beq_iff_eq, zero, List.eq_replicate_iff]
  simp only [v.length, beq_iff_eq, true_and]

end Rayforce.Raw
