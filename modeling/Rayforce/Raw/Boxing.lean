import Rayforce.Raw.Layout

/-! `get` boxes the cell that is stored: its value, or the id of its symbol.  Only a string that is
not UTF-8 comes out as another. -/

namespace Rayforce.Raw

open Utf8

variable {core : Core} {kind : Kind} {n : Nat}

/-- The vector at the end of a chain of slices. -/
def Vec.base : {n : Nat} → Vec kind n → Root kind
  | _, .root r => r
  | _, .slice parent _ _ _ => parent.base

/-- An atom carries a cell.  Of a symbol's it is the id of what the domain has at the position. -/
def Carries (core : Core) (domain : Domain) : (kind : Kind) → Cell kind → Atom → Prop
  | .bool, c, a => a.kind = .bool ∧ a.asB8 = c
  | .u8, c, a => a.kind = .u8 ∧ a.asU8 = c
  | .i16, c, a => a.kind = .i16 ∧ a.asI16 = c
  | .i32, c, a => a.kind = .i32 ∧ a.asI32 = c
  | .i64, c, a => a.kind = .i64 ∧ a.asI64 = c
  | .f32, c, a => a.kind = .f32 ∧ a.asF64 = F32.toF64 c ∧ a.asF64.toF32 = c
  | .f64, c, a => a.kind = .f64 ∧ a.asF64 = c
  | .date, c, a => a.kind = .date ∧ a.asI32 = c
  | .time, c, a => a.kind = .time ∧ a.asI32 = c
  | .timestamp, c, a => a.kind = .timestamp ∧ a.asI64 = c
  | .guid, c, a => a.kind = .guid ∧ a.guidBytes = some c
  | .sym, pos, a =>
    a.kind = .sym ∧ ∀ symbol, domain.symbol core pos = some symbol → a.asI64 = core.symId symbol
  | .str, c, a => a.kind = .str ∧ a.strBytes = c
  | .timespan, c, a => a.kind = .timespan ∧ a.asI64 = c

/-- `get` returns an atom that carries the cell. -/
def BoxesExactly (core : Core) (v : Vec kind n) (i : Fin n) : Prop :=
  ∃ a, (Object.vec v).get core i = .ok (.atom a) ∧
    Carries core (v.base.symDomain.getD .runtime) kind (v.cell i) a

/-- The cell is no string, or one in UTF-8. -/
def Cell.Text : (kind : Kind) → Cell kind → Prop
  | .str, bytes => Valid bytes
  | _, _ => True

theorem Vec.symDomain_base (v : Vec kind n) : v.symDomain = v.base.symDomain.getD .runtime := by
  induction v with
  | root r => rfl
  | slice parent offset len fits ih => exact ih

theorem coreIsNull_of_not_sentinel (v : Vec kind n) (i : Fin n)
    (stored : Cell.isSentinel kind (v.cell i) = false) (gated : kind ≠ .sym ∧ kind ≠ .str) :
    v.coreIsNull core i = false := by
  rw [coreIsNull_gated v gated, stored, Bool.and_false]

/-- The id that is looked up is that of the symbol, whichever table the position is from. -/
theorem runtimeId_symbol {domain : Domain} {pos : Nat} {symbol : List UInt8}
    (found : domain.symbol core pos = some symbol) :
    domain.runtimeId core pos = core.symId symbol := by
  unfold Domain.runtimeId
  cases domain with
  | runtime =>
    obtain ⟨lt, rfl⟩ := List.getElem?_eq_some_iff.mp found
    rw [core.runtimeLut_runtime]
    exact congrArg Int64.ofNat (core.nodup.idxOf_getElem pos lt).symm
  | file symbols =>
    obtain ⟨lut, there, id⟩ := core.runtimeLut_file symbols pos symbol found
    rw [there]
    change lut.getD pos 0 = core.symId symbol
    rw [List.getD_eq_getElem?_getD, id]
    rfl

/-- What is read from memory is carried whole. -/
theorem carries_atom {domain : Domain} {c : Cell kind} {a : Atom} (atom : Cell.atom kind c = some a)
    (stored : Cell.isSentinel kind c = false) : Carries core domain kind c a := by
  cases kind <;> cases atom
  case bool => exact ⟨rfl, Atom.asB8_bool c⟩
  case u8 => exact ⟨rfl, Atom.asU8_u8 c⟩
  case i16 => exact ⟨rfl, Atom.asI16_i16 c⟩
  case i32 => exact ⟨rfl, Atom.asI32_i32 c⟩
  case f32 => exact ⟨rfl, rfl, F32.toF32_toF64 stored⟩
  case date => exact ⟨rfl, Atom.asI32_dateDays c⟩
  case time => exact ⟨rfl, Atom.asI32_timeMillis c⟩
  all_goals exact ⟨rfl, rfl⟩

theorem get_atom (v : Vec kind n) (i : Fin n) (stored : Cell.isSentinel kind (v.cell i) = false)
    {a : Atom} (atom : Cell.atom kind (v.cell i) = some a) :
    (Object.vec v).get core i = .ok (.atom a) := by
  have vec : kind ≠ .timespan := by
    rintro rfl
    cases atom
  rw [get_vec v vec, if_neg, v.box_atom i atom]
  rintro ⟨sym, str, null⟩
  rw [coreIsNull_of_not_sentinel v i stored ⟨sym, str⟩] at null
  cases null

theorem get_sym (v : Vec .sym n) (i : Fin n) :
    (Object.vec v).get core i = .ok (.atom (.sym (v.symDomain.runtimeId core (v.cell i)))) := by
  rw [get_vec v (by decide), if_neg (fun gated => gated.1 rfl), Vec.box, v.getD_cells]

theorem get_str (v : Vec .str n) (i : Fin n) :
    (Object.vec v).get core i = .ok (.atom (.string (fromUtf8Lossy (v.cell i)))) := by
  rw [get_vec v (by decide), if_neg (fun gated => gated.2.1 rfl), Vec.box, v.getD_cells]

/-- Through any chain of slices, and for either kind of domain. -/
theorem boxesExactly_sym (v : Vec .sym n) (i : Fin n) : BoxesExactly core v i := by
  refine ⟨_, get_sym v i, rfl, fun symbol found => ?_⟩
  rw [← v.symDomain_base] at found
  exact runtimeId_symbol found

theorem boxesExactly_str_iff (v : Vec .str n) (i : Fin n) :
    BoxesExactly core v i ↔ Valid (v.cell i) := by
  rw [← fromUtf8Lossy_eq_self_iff]
  constructor
  · rintro ⟨a, got, -, carried⟩
    rw [get_str] at got
    cases got
    exact carried
  · intro same
    exact ⟨_, get_str v i, rfl, same⟩

/-- The atom carries the cell exactly when the cell is text, if it is a string. -/
theorem boxesExactly_iff (v : Vec kind n) (i : Fin n) (supported : kind ≠ .timespan)
    (stored : Cell.isSentinel kind (v.cell i) = false) :
    BoxesExactly core v i ↔ Cell.Text kind (v.cell i) := by
  cases kind with
  | sym => exact iff_of_true (boxesExactly_sym v i) trivial
  | str => exact boxesExactly_str_iff v i
  | timespan => exact absurd rfl supported
  | _ => exact iff_of_true ⟨_, get_atom v i stored rfl, carries_atom rfl stored⟩ trivial

/-- A slice of a slice of a file's symbols. -/
theorem boxesExactly_iff_sliced :
    Kind.sym ≠ .timespan ∧
      BoxesExactly (.ofSymbols [[], [97], [98]] (by decide))
        (.slice (.slice (.root ⟨false, some (.file [[98], [], [97]]), [0, 1, 2]⟩) 1 2 (by decide)) 1 1
          (by decide) : Vec .sym 1) 0 :=
  ⟨by decide, (boxesExactly_iff _ 0 (by decide) rfl).mpr trivial⟩

/-- A byte of Latin-1 is replaced. -/
theorem not_boxesExactly_latin1 :
    ¬ BoxesExactly (.ofSymbols [] .nil)
      (.root ⟨false, none, [[0x63, 0xE9]]⟩ : Vec .str 1) 0 := by
  rintro ⟨a, got, -, carried⟩
  rw [get_str] at got
  cases got
  exact absurd carried (by decide)

end Rayforce.Raw
