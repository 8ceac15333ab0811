import Mathlib.Data.List.GetD
import Rayforce.Raw.Object

/-! Memory holds the cells: what is read at a computed offset, through any chain of slices, is the
cell with that index. -/

namespace Rayforce.Raw

variable {core : Core} {kind : Kind} {n : Nat}

/-! ### Cells in memory -/

theorem length_bytesOf {w : Nat} (width : Nat) (b : BitVec w) : (bytesOf width b).length = width :=
  Bytes.length_encode width _

theorem bitsOf_bytesOf {w width : Nat} (fits : 2 ^ w ≤ 256 ^ width) (b : BitVec w) :
    bitsOf w (bytesOf width b) = b := by
  rw [bitsOf, bytesOf, Bytes.decode_encode_of_lt (Nat.lt_of_lt_of_le b.isLt fits), BitVec.ofNat_toNat,
    BitVec.setWidth_eq]

theorem Cell.length_bytes (c : Cell kind) : (Cell.bytes kind c).length = kind.width := by
  cases kind with
  | bool | u8 | sym | str => rfl
  | guid => exact Guid.length c
  | _ => exact length_bytesOf _ _

theorem u8In_singleton (v : UInt8) : u8In [v] = v := by
  have whole : bitsOf 8 [v] = v.toBitVec := by
    simp [bitsOf, Bytes.decode]
  rw [u8In, whole]

theorem i16In_bytes (v : Int16) : i16In (Cell.bytes .i16 v) = v :=
  congrArg Int16.ofBitVec (bitsOf_bytesOf (by decide) v.toBitVec)

theorem i32In_bytes (v : Int32) : i32In (Cell.bytes .i32 v) = v :=
  congrArg Int32.ofBitVec (bitsOf_bytesOf (by decide) v.toBitVec)

theorem i64In_bytes (v : Int64) : i64In (Cell.bytes .i64 v) = v :=
  congrArg Int64.ofBitVec (bitsOf_bytesOf (by decide) v.toBitVec)

theorem f32In_bytes (v : F32) : f32In (Cell.bytes .f32 v) = v :=
  congrArg F32.mk (bitsOf_bytesOf (by decide) v.bits)

theorem f64In_bytes (v : F64) : f64In (Cell.bytes .f64 v) = v :=
  congrArg F64.mk (bitsOf_bytesOf (by decide) v.bits)

theorem guidIn_bytes (v : Guid) : guidIn (Cell.bytes .guid v) = v := dif_pos v.length

theorem boolIn_bytes (v : Bool) : boolIn (Cell.bytes .bool v) = v := by
  cases v <;> rfl

/-! ### Cells of a vector -/

theorem Vec.cell_slice {parent : Vec kind n} {offset len : Nat} {fits : offset + len ≤ n} (i : Fin len) :
    (Vec.slice parent offset len fits).cell i = parent.cell ⟨offset + i, by omega⟩ := by
  simp only [cell, cells, List.get_eq_getElem, List.getElem_take, List.getElem_drop]
  rfl

/-- A cell's row in memory. -/
theorem Vec.row_data (v : Vec kind n) (i : Fin n) :
    Bytes.row v.data kind.width i = Cell.bytes kind (v.cell i) := by
  induction v with
  | root r => exact Bytes.row_flatMap (fun c _ => Cell.length_bytes c) i.isLt
  | slice parent offset len fits ih =>
    have shifted : Bytes.row (slice parent offset len fits).data kind.width i =
        Bytes.row parent.data kind.width (offset + i) := by
      unfold Bytes.row
      rw [data, List.drop_drop, ← Nat.add_mul]
    rw [shifted, cell_slice, ← ih]

theorem Vec.map_cells {α : Type} (v : Vec kind n) (f : Cell kind → α) (g : Nat → α)
    (reads : ∀ i : Fin n, g i = f (v.cell i)) : (List.range n).map g = v.cells.map f := by
  apply List.ext_getElem
  · rw [List.length_map, List.length_range, List.length_map, v.length_cells]
  · intro i lt _
    rw [List.length_map, List.length_range] at lt
    rw [List.getElem_map, List.getElem_map, List.getElem_range, reads ⟨i, lt⟩]
    rfl

theorem Vec.getD_cells (v : Vec kind n) (i : Fin n) (d : Cell kind) : v.cells.getD i d = v.cell i := by
  rw [List.getD_eq_getElem?_getD, v.getElem?_cells]
  rfl

/-! ### Objects that are vectors -/

theorem coreIsNull_gated (v : Vec kind n) (gated : kind ≠ .sym ∧ kind ≠ .str) (i : Fin n) :
    v.coreIsNull core i = (v.hasNulls && Cell.isSentinel kind (v.cell i)) := by
  have cell := v.getElem?_cells i
  cases kind with
  | sym => exact absurd rfl gated.1
  | str => exact absurd rfl gated.2
  | _ => simp only [Vec.coreIsNull, cell, Option.any_some]

theorem isVec_iff (v : Vec kind n) : (Object.vec v).isVec core = true ↔ kind ≠ .timespan := by
  cases kind <;> simp [Object.isVec, Object.typeCode, Kind.code]

theorem len_vec (v : Vec kind n) (vec : kind ≠ .timespan) : (Object.vec v).len core = n := by
  unfold Object.len
  rw [(isVec_iff v).mpr vec, Bool.true_or, if_pos rfl]
  rfl

theorem absType_vec (v : Vec kind n) : (Object.vec v).absType core = kind.code := by
  cases kind <;> rfl

/-- Read in place, a vector is its cells. -/
theorem rawSlice_vec {T : Type} {ofBytes : List UInt8 → T} (vec : kind ≠ .timespan) (v : Vec kind n) :
    (Object.vec v).rawSlice core kind ofBytes =
      .ok (v.cells.map fun c => ofBytes (Cell.bytes kind c)) := by
  unfold Object.rawSlice
  simp only [(isVec_iff v).mpr vec, absType_vec, Bool.not_true, Bool.false_eq_true, if_false, ne_eq,
    not_true_eq_false]
  congr 1
  apply v.map_cells
  intro i
  rw [v.row_data]

theorem asSlice_vec {T : Type} [elem : VecElem T] (vec : elem.kind ≠ .timespan) (v : Vec elem.kind n) :
    (Object.vec v).asSlice core T =
      .ok (v.cells.map fun c => VecElem.ofBytes (Cell.bytes elem.kind c)) :=
  rawSlice_vec vec v

theorem isNullAt_vec (v : Vec kind n) (vec : kind ≠ .timespan) (i : Fin n) :
    (Object.vec v).isNullAt core i = v.coreIsNull core i := by
  unfold Object.isNullAt
  simp only [(isVec_iff v).mpr vec, len_vec v vec, Bool.not_true, Bool.false_or, decide_eq_true_eq]
  exact if_neg (Nat.not_le.mpr i.isLt)

/-- Within its bounds, `get` is a null or a boxed cell. -/
theorem get_vec (v : Vec kind n) (vec : kind ≠ .timespan) (i : Fin n) :
    (Object.vec v).get core i =
      if kind ≠ .sym ∧ kind ≠ .str ∧ v.coreIsNull core i then .ok .null else v.box core i := by
  unfold Object.get
  simp only [(isVec_iff v).mpr vec, len_vec v vec, isNullAt_vec v vec, Bool.not_true, Bool.false_and,
    Bool.false_eq_true, if_false, if_neg (Nat.not_le.mpr i.isLt)]

/-- The atom of a cell that is read from memory. -/
def Cell.atom : (kind : Kind) → Cell kind → Option Atom
  | .bool, v => some (.bool v)
  | .u8, v => some (.u8 v)
  | .i16, v => some (.i16 v)
  | .i32, v => some (.i32 v)
  | .i64, v => some (.i64 v)
  | .f32, v => some (.f32 v)
  | .f64, v => some (.f64 v)
  | .date, v => some (.dateDays v)
  | .time, v => some (.timeMillis v)
  | .timestamp, v => some (.timestampNanos v)
  | .guid, v => some (.guid v)
  | .sym, _ | .str, _ | .timespan, _ => none

theorem Vec.box_row {α : Type} (v : Vec kind n) (i : Fin n) (make : α → Atom) {read : List UInt8 → α}
    {c : α} (reads : read (Cell.bytes kind (v.cell i)) = c) :
    (.ok (.atom (make (read (Bytes.row v.data kind.width i)))) : Except RayError Object) =
      .ok (.atom (make c)) := by
  rw [v.row_data, reads]

theorem Vec.box_atom (v : Vec kind n) (i : Fin n) {a : Atom} (atom : Cell.atom kind (v.cell i) = some a) :
    v.box core i = .ok (.atom a) := by
  cases kind <;> cases atom
  case bool => exact v.box_row i Atom.bool (boolIn_bytes _)
  case u8 => exact v.box_row i Atom.u8 (u8In_singleton _)
  case i16 => exact v.box_row i Atom.i16 (i16In_bytes _)
  case i32 => exact v.box_row i Atom.i32 (i32In_bytes _)
  case i64 => exact v.box_row i Atom.i64 (i64In_bytes _)
  case f32 => exact v.box_row i Atom.f32 (f32In_bytes _)
  case f64 => exact v.box_row i Atom.f64 (f64In_bytes _)
  case date => exact v.box_row i Atom.dateDays (i32In_bytes _)
  case time => exact v.box_row i Atom.timeMillis (i32In_bytes _)
  case timestamp => exact v.box_row i Atom.timestampNanos (i64In_bytes _)
  case guid => exact v.box_row i Atom.guid (guidIn_bytes _)

end Rayforce.Raw
