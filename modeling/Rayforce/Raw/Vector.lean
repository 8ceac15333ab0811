import Rayforce.Lib.Bytes
import Rayforce.Raw.Atom

/-! The core's vectors: a block of cells, or a slice of another vector.  Cells of a fixed width lie in
memory one after the other; those of symbol and string vectors are read by the core. -/

namespace Rayforce.Raw

/-- The content of a cell.  A symbol's is its position in the vector's domain. -/
@[reducible] def Cell : Kind → Type
  | .bool => Bool
  | .u8 => UInt8
  | .i16 => Int16
  | .i32 => Int32
  | .i64 => Int64
  | .f32 => F32
  | .f64 => F64
  | .date => Int32
  | .time => Int32
  | .timestamp => Int64
  | .guid => Guid
  | .sym => Nat
  | .str => List UInt8
  | .timespan => Int64

/-- The width of a cell in memory, 0 where it is not fixed. -/
def Kind.width : Kind → Nat
  | .bool | .u8 => 1
  | .i16 => 2
  | .i32 | .f32 | .date | .time => 4
  | .i64 | .f64 | .timestamp | .timespan => 8
  | .guid => 16
  | .sym | .str => 0

def bytesOf {w : Nat} (width : Nat) (b : BitVec w) : List UInt8 := Bytes.encode width b.toNat

def bitsOf (w : Nat) (image : List UInt8) : BitVec w := BitVec.ofNat w (Bytes.decode image)

/-- A cell in memory. -/
def Cell.bytes : (kind : Kind) → Cell kind → List UInt8
  | .bool, v => [if v then 1 else 0]
  | .u8, v => [v]
  | .i16, v => bytesOf 2 v.toBitVec
  | .i32, v | .date, v | .time, v => bytesOf 4 v.toBitVec
  | .i64, v | .timestamp, v | .timespan, v => bytesOf 8 v.toBitVec
  | .f32, v => bytesOf 4 v.bits
  | .f64, v => bytesOf 8 v.bits
  | .guid, v => Guid.bytes v
  | .sym, _ | .str, _ => []

/-- The cell holds its type's null.  Types without one have none, and symbols and strings have the
empty one, which is not a sentinel. -/
def Cell.isSentinel : (kind : Kind) → Cell kind → Bool
  | .i16, v => v == Int16.minValue
  | .i32, v | .date, v | .time, v => v == Int32.minValue
  | .i64, v | .timestamp, v | .timespan, v => v == Int64.minValue
  | .f32, v => v.isNan
  | .f64, v => v.isNan
  | .guid, v => v == .zero
  | .bool, _ | .u8, _ | .sym, _ | .str, _ => false

/-! ### The core -/

/-- Where a symbol vector looks its positions up: among the interned symbols, or among those of a
file. -/
inductive Domain
  | runtime
  | file (symbols : List (List UInt8))

def idIn (symbols : List (List UInt8)) (symbol : List UInt8) : Int64 :=
  Int64.ofNat (symbols.idxOf symbol)

/-- What the core keeps outside its vectors: the interned symbols, of which the one at place `i` has
the id `i`, and the tag of the null singleton. -/
structure Core where
  symbols : List (List UInt8)
  nodup : symbols.Nodup
  /-- `ray_sym_str`, null where there is none. -/
  symStr : Int64 → Option (List UInt8)
  symStr_id : symbols.length ≤ 2 ^ 63 → ∀ symbol ∈ symbols, symStr (idIn symbols symbol) = some symbol
  /-- `ray_sym_domain_runtime_lut`, null for the runtime domain, of which positions are ids. -/
  runtimeLut : Domain → Option (List Int64)
  runtimeLut_runtime : runtimeLut .runtime = none
  runtimeLut_file : ∀ (file : List (List UInt8)) (pos : Nat) symbol, file[pos]? = some symbol →
    ∃ lut, runtimeLut (.file file) = some lut ∧ lut[pos]? = some (idIn symbols symbol)
  nullTag : Int
  nullTag_high : 100 ≤ nullTag

def Core.symId (core : Core) (symbol : List UInt8) : Int64 := idIn core.symbols symbol

/-- The symbol at a position. -/
def Domain.symbol (core : Core) : Domain → Nat → Option (List UInt8)
  | .runtime, pos => core.symbols[pos]?
  | .file symbols, pos => symbols[pos]?

/-- The id of a position, as `get` looks it up. -/
def Domain.runtimeId (core : Core) (domain : Domain) (pos : Nat) : Int64 :=
  match core.runtimeLut domain with
  | none => Int64.ofNat pos
  | some lut => lut.getD pos 0

theorem symbol_at_id {symbols : List (List UInt8)} {symbol : List UInt8}
    (few : symbols.length ≤ 2 ^ 63) (mem : symbol ∈ symbols) :
    (if idIn symbols symbol < 0 then none else symbols[(idIn symbols symbol).toNatClampNeg]?) =
      some symbol := by
  have lt := List.idxOf_lt_length_of_mem mem
  have nonneg : ¬ idIn symbols symbol < 0 := by
    rw [Int64.lt_iff_toInt_lt, idIn, Int64.toInt_ofNat_of_lt (lt.trans_le few)]
    exact Int.not_lt.mpr (Int.natCast_nonneg _)
  rw [if_neg nonneg, idIn, Int64.toNatClampNeg_ofNat_of_lt (lt.trans_le few),
    List.getElem?_eq_getElem lt, List.getElem_idxOf]

/-- A core that answers from a list of symbols. -/
def Core.ofSymbols (symbols : List (List UInt8)) (nodup : symbols.Nodup) : Core where
  symbols
  nodup
  symStr id := if id < 0 then none else symbols[id.toNatClampNeg]?
  symStr_id few _ mem := symbol_at_id few mem
  runtimeLut
    | .runtime => none
    | .file file => some (file.map (idIn symbols))
  runtimeLut_runtime := rfl
  runtimeLut_file file pos symbol found :=
    ⟨file.map (idIn symbols), rfl, by rw [List.getElem?_map, found, Option.map_some]⟩
  nullTag := 126
  nullTag_high := by decide

/-! ### Vectors -/

structure Root (kind : Kind) where
  hasNulls : Bool
  symDomain : Option Domain
  cells : List (Cell kind)

/-- A vector of a number of cells. -/
inductive Vec (kind : Kind) : Nat → Type
  | root (r : Root kind) : Vec kind r.cells.length
  | slice {n : Nat} (parent : Vec kind n) (offset len : Nat) (fits : offset + len ≤ n) : Vec kind len

variable {kind : Kind} {n : Nat}

def Vec.cells : {n : Nat} → Vec kind n → List (Cell kind)
  | _, .root r => r.cells
  | _, .slice parent offset len _ => (parent.cells.drop offset).take len

theorem Vec.length_cells (v : Vec kind n) : v.cells.length = n := by
  induction v with
  | root r => rfl
  | slice parent offset len fits ih =>
    rw [cells, List.length_take, List.length_drop, ih]
    omega

/-- A cell in range. -/
def Vec.cell (v : Vec kind n) (i : Fin n) : Cell kind := v.cells.get (i.cast v.length_cells.symm)

theorem Vec.getElem?_cells (v : Vec kind n) (i : Fin n) : v.cells[i.val]? = some (v.cell i) :=
  List.getElem?_eq_getElem (i.cast v.length_cells.symm).isLt

/-- The memory from the pointer that `raw::data` gives. -/
def Vec.data : {n : Nat} → Vec kind n → List UInt8
  | _, .root r => r.cells.flatMap (Cell.bytes kind)
  | _, .slice parent offset _ _ => parent.data.drop (offset * kind.width)

/-- A slice asks its parent. -/
def Vec.hasNulls : {n : Nat} → Vec kind n → Bool
  | _, .root r => r.hasNulls
  | _, .slice parent _ _ _ => parent.hasNulls

/-- `raw::sym_domain`. -/
def Vec.symDomain : {n : Nat} → Vec kind n → Domain
  | _, .root r => r.symDomain.getD .runtime
  | _, .slice parent _ _ _ => parent.symDomain

/-- `ray_vec_is_null`: past the `HAS_NULLS` gate, a cell that holds the sentinel; without it, the
empty symbol and the empty string. -/
def Vec.coreIsNull (core : Core) : {kind : Kind} → Vec kind n → Nat → Bool
  | .sym, v, idx => v.cells[idx]?.any fun pos => v.symDomain.symbol core pos == some []
  | .str, v, idx => v.cells[idx]?.any List.isEmpty
  | kind, v, idx => v.hasNulls && v.cells[idx]?.any (Cell.isSentinel kind)

end Rayforce.Raw
