import Rayforce.Raw.Boxing
import Rayforce.Raw.Nulls

/-! Views of a vector's memory, one for each type of a fixed width (`vector.rs`).  What a view shows in
place, the type's reader gives of the boxed cells. -/

namespace Rayforce.Raw

def Object.guidSlice (core : Core) : Object → Except RayError (List Guid) := asSlice core Guid

/-- Bytes that are 0 or 1. -/
def Object.boolSlice (core : Core) : Object → Except RayError (List UInt8) := rawSlice core .bool u8In

def Object.dateDaysSlice (core : Core) : Object → Except RayError (List Int32) :=
  rawSlice core .date i32In

def Object.timeMillisSlice (core : Core) : Object → Except RayError (List Int32) :=
  rawSlice core .time i32In

def Object.timestampNanosSlice (core : Core) : Object → Except RayError (List Int64) :=
  rawSlice core .timestamp i64In

variable {core : Core} {kind : Kind} {n : Nat} {α T : Type}

/-- A view shows the cells of vectors of its type, each as the reader's value is stored, and refuses
everything else. -/
structure Views (core : Core) (kind : Kind) (view : Object → Except RayError (List T))
    (read : Object → Except RayError α) (stored : α → T) : Prop where
  shows : ∀ {n : Nat} (v : Vec kind n), ∃ elems, view (.vec v) = .ok elems ∧ elems.length = n ∧
    ∀ i : Fin n, Cell.isSentinel kind (v.cell i) = false →
      ∃ o x, (Object.vec v).get core i = .ok o ∧ read o = .ok x ∧ elems[i.val]? = some (stored x)
  other : ∀ {kind' : Kind} {n : Nat} (v : Vec kind' n), kind' ≠ kind → kind' ≠ .timespan →
    let actual := kind'.code
    let expected := kind.code
    view (.vec v) = .error (.binding s!"slice: vector element type {actual} != expected {expected}")
  noVec : ∀ o : Object, o.isVec core = false →
    view o = .error (.binding "slice: value is not a vector")

theorem code_inj {kind' : Kind} (same : kind'.code = kind.code) : kind' = kind := by
  cases kind <;> cases kind' <;> first | rfl | cases same

/-- One type: the atom of a cell holds what lies in memory. -/
theorem views {ofBytes : List UInt8 → T} {field : Atom → α} {stored : α → T}
    (vec : kind ≠ .timespan) (gated : kind ≠ .sym ∧ kind ≠ .str)
    (boxed : ∀ c : Cell kind, Cell.isSentinel kind c = false → ∃ a, Cell.atom kind c = some a ∧
      a.kind = kind ∧ ofBytes (Cell.bytes kind c) = stored (field a)) :
    Views core kind (Object.rawSlice core kind ofBytes) (Object.read core kind field) stored where
  shows v := by
    refine ⟨_, rawSlice_vec vec v, by rw [List.length_map, v.length_cells], fun i number => ?_⟩
    obtain ⟨a, atom, rfl, same⟩ := boxed (v.cell i) number
    refine ⟨.atom a, field a, ?_, read_atom core field a, ?_⟩
    · rw [get_vec v vec i, coreIsNull_of_not_sentinel v i number gated, v.box_atom i atom]
      simp
    · rw [List.getElem?_map, v.getElem?_cells, Option.map_some, same]
  other v different vec' := by
    have codes : ¬ _ = kind.code := fun same => different (code_inj same)
    simp only [Object.rawSlice, (isVec_iff v).mpr vec', absType_vec, Bool.not_true, Bool.false_eq_true,
      if_false, ne_eq, codes, not_false_eq_true, if_true]
  noVec o no_vec := by
    cases o <;> simp [Object.rawSlice, no_vec]

/-- Whatever the vector's history, its nulls and the chain of slices. -/
theorem views_agree (core : Core) :
    Views core .u8 (Object.asSlice core UInt8) (Object.asU8 core) id ∧
    Views core .i16 (Object.asSlice core Int16) (Object.asI16 core) id ∧
    Views core .i32 (Object.asSlice core Int32) (Object.asI32 core) id ∧
    Views core .i64 (Object.asSlice core Int64) (Object.asI64 core) id ∧
    Views core .f32 (Object.asSlice core F32) (Object.asF32 core) id ∧
    Views core .f64 (Object.asSlice core F64) (Object.asF64 core) id ∧
    Views core .guid (Object.guidSlice core) (Object.asGuid core) id ∧
    Views core .bool (Object.boolSlice core) (Object.asBool core) (fun b => if b then 1 else 0) ∧
    Views core .date (Object.dateDaysSlice core) (Object.asDateDays core) id ∧
    Views core .time (Object.timeMillisSlice core) (Object.asTimeMillis core) id ∧
    Views core .timestamp (Object.timestampNanosSlice core) (Object.asTimestampNanos core) id := by
  refine ⟨views (by decide) (by decide) fun c _ => ⟨.u8 c, rfl, rfl, ?_⟩,
    views (by decide) (by decide) fun c _ => ⟨.i16 c, rfl, rfl, ?_⟩,
    views (by decide) (by decide) fun c _ => ⟨.i32 c, rfl, rfl, ?_⟩,
    views (by decide) (by decide) fun c _ => ⟨.i64 c, rfl, rfl, i64In_bytes c⟩,
    views (by decide) (by decide) fun c number => ⟨.f32 c, rfl, rfl, ?_⟩,
    views (by decide) (by decide) fun c _ => ⟨.f64 c, rfl, rfl, f64In_bytes c⟩,
    views (by decide) (by decide) fun c _ => ⟨.guid c, rfl, rfl, guidIn_bytes c⟩,
    views (by decide) (by decide) fun c _ => ⟨.bool c, rfl, rfl, ?_⟩,
    views (by decide) (by decide) fun c _ => ⟨.dateDays c, rfl, rfl, ?_⟩,
    views (by decide) (by decide) fun c _ => ⟨.timeMillis c, rfl, rfl, ?_⟩,
    views (by decide) (by decide) fun c _ => ⟨.timestampNanos c, rfl, rfl, i64In_bytes c⟩⟩
  · exact (u8In_singleton c).trans (Atom.asU8_u8 c).symm
  · exact (i16In_bytes c).trans (Atom.asI16_i16 c).symm
  · exact (i32In_bytes c).trans (Atom.asI32_i32 c).symm
  -- the atom holds the float widened
  · exact (f32In_bytes c).trans (F32.toF32_toF64 number).symm
  · rw [Atom.asB8_bool]
    exact u8In_singleton _
  · exact (i32In_bytes c).trans (Atom.asI32_dateDays c).symm
  · exact (i32In_bytes c).trans (Atom.asI32_timeMillis c).symm

end Rayforce.Raw
