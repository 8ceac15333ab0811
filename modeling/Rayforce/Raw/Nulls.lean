import Rayforce.Raw.Layout

/-! Nulls read alike in place and boxed.  `get` has three tests for a null: that of the vector, which
`HAS_NULLS` gates, that for the null singleton, and that of an atom. -/

namespace Rayforce.Raw

variable {core : Core} {kind : Kind} {n : Nat}

/-- An element type with a null among its values. -/
class Sentinel (T : Type) where
  isSentinel : T → Bool

export Sentinel (isSentinel)

instance : Sentinel Int16 := ⟨(· == Int16.minValue)⟩
instance : Sentinel Int32 := ⟨(· == Int32.minValue)⟩
instance : Sentinel Int64 := ⟨(· == Int64.minValue)⟩
instance : Sentinel F32 := ⟨F32.isNan⟩
instance : Sentinel F64 := ⟨F64.isNan⟩
instance : Sentinel Guid := ⟨(· == .zero)⟩

/-- An element, if it is no null. -/
def nullable {T : Type} [Sentinel T] (elem : T) : Option T := if isSentinel elem then none else some elem

/-- An element type of which the vector's null test, the atom's and the reader agree. -/
structure Agrees (T : Type) [elem : VecElem T] [FromValue T] [Sentinel T] : Prop where
  gated : elem.kind ≠ .sym ∧ elem.kind ≠ .str
  vec : elem.kind ≠ .timespan
  cell : ∀ c : Cell elem.kind, ∃ v : T, VecElem.toCell v = c
  inPlace : ∀ v : T, VecElem.ofBytes (Cell.bytes elem.kind (VecElem.toCell v)) = v
  sentinel : ∀ v : T, Cell.isSentinel elem.kind (VecElem.toCell v) = isSentinel v
  boxed : ∀ (core : Core) (v : T), ∃ a, Cell.atom elem.kind (VecElem.toCell v) = some a ∧
    fromValue core (.atom a) = .ok (nullable v)

/-- Every element boxed and unboxed, with the nulls as `None`. -/
def ReadsAgree (core : Core) (T : Type) [VecElem T] [FromValue T] [Sentinel T] (o : Object) : Prop :=
  ∃ elems : List T, o.asSlice core T = .ok elems ∧ o.toVec core (Option T) = .ok (elems.map nullable)

/-! ### One type after the other -/

theorem fromValue_atom {T : Type} [Sentinel T] [FromValue T] {a : Atom} {v : T}
    (null : a.isNull = isSentinel v) (read : isSentinel v = false → fromValue core (.atom a) = .ok v) :
    fromValue core (.atom a) = .ok (nullable v) := by
  change (if (false || a.isNull) = true then _ else _) = _
  rw [Bool.false_or, null, nullable]
  cases sentinel : isSentinel v with
  | true => rfl
  | false =>
    rw [read sentinel]
    rfl

theorem read_atom {α : Type} (core : Core) (field : Atom → α) (a : Atom) :
    Object.read core a.kind field (.atom a) = .ok (field a) :=
  if_pos rfl

theorem agrees_i16 : Agrees Int16 where
  gated := by decide
  vec := by decide
  cell c := ⟨c, rfl⟩
  inPlace := i16In_bytes
  sentinel _ := rfl
  boxed core v := by
    refine ⟨.i16 v, rfl, fromValue_atom ?_ fun _ => ?_⟩
    · exact congrArg (· == Int16.minValue) (Atom.asI16_i16 v)
    · exact (read_atom core Atom.asI16 (.i16 v)).trans (congrArg _ (Atom.asI16_i16 v))

theorem agrees_i32 : Agrees Int32 where
  gated := by decide
  vec := by decide
  cell c := ⟨c, rfl⟩
  inPlace := i32In_bytes
  sentinel _ := rfl
  boxed core v := by
    refine ⟨.i32 v, rfl, fromValue_atom ?_ fun _ => ?_⟩
    · exact congrArg (· == Int32.minValue) (Atom.asI32_i32 v)
    · exact (read_atom core Atom.asI32 (.i32 v)).trans (congrArg _ (Atom.asI32_i32 v))

theorem agrees_i64 : Agrees Int64 where
  gated := by decide
  vec := by decide
  cell c := ⟨c, rfl⟩
  inPlace := i64In_bytes
  sentinel _ := rfl
  boxed core v := ⟨.i64 v, rfl, fromValue_atom rfl fun _ => read_atom core Atom.asI64 (.i64 v)⟩

/-- The atom holds a 32-bit float widened, and narrows it for its null test and its reader. -/
theorem agrees_f32 : Agrees F32 where
  gated := by decide
  vec := by decide
  cell c := ⟨c, rfl⟩
  inPlace := f32In_bytes
  sentinel _ := rfl
  boxed core v := by
    refine ⟨.f32 v, rfl, fromValue_atom (F32.isNan_toF32_toF64 v) fun number => ?_⟩
    exact (read_atom core (fun a => a.asF64.toF32) (.f32 v)).trans (congrArg _ (F32.toF32_toF64 number))

theorem agrees_f64 : Agrees F64 where
  gated := by decide
  vec := by decide
  cell c := ⟨c, rfl⟩
  inPlace := f64In_bytes
  sentinel _ := rfl
  boxed core v := ⟨.f64 v, rfl, fromValue_atom rfl fun _ => read_atom core Atom.asF64 (.f64 v)⟩

theorem agrees_guid : Agrees Guid where
  gated := by decide
  vec := by decide
  cell c := ⟨c, rfl⟩
  inPlace := guidIn_bytes
  sentinel _ := rfl
  boxed core v := by
    refine ⟨.guid v, rfl, fromValue_atom v.all_zero fun _ => ?_⟩
    exact read_atom core (fun a => a.guidBytes.getD .zero) (.guid v)

/-! ### Vectors -/

theorem mapM_ok {ε α β : Type} {f : α → Except ε β} {g : α → β} {l : List α}
    (each : ∀ a ∈ l, f a = .ok (g a)) : l.mapM f = .ok (l.map g) := by
  induction l with
  | nil => rfl
  | cons a l ih =>
    have rest := ih fun b mem => each b (List.mem_cons_of_mem a mem)
    rw [List.mapM_cons, each a List.mem_cons_self, rest]
    rfl

section

variable {T : Type} [elem : VecElem T] [FromValue T] [Sentinel T]

/-- One element: a null of the vector is the null singleton, and any other is an atom. -/
theorem Agrees.get (agrees : Agrees T) (core : Core) (v : Vec elem.kind n) (i : Fin n) :
    (do let o ← (Object.vec v).get core i
        fromValue core o : Except RayError (Option T)) =
      .ok (nullable (VecElem.ofBytes (Cell.bytes elem.kind (v.cell i)))) := by
  obtain ⟨t, cell⟩ := agrees.cell (v.cell i)
  rw [get_vec v agrees.vec, coreIsNull_gated v agrees.gated, ← cell, agrees.sentinel, agrees.inPlace]
  split
  · next null =>
    have sentinel : isSentinel t = true := (Bool.and_eq_true_iff.mp null.2.2).2
    rw [nullable, if_pos sentinel]
    rfl
  · obtain ⟨a, atom, boxed⟩ := agrees.boxed core t
    rw [cell] at atom
    rw [v.box_atom i atom]
    exact boxed

/-- Whatever the flag and however the vector was sliced. -/
theorem Agrees.reads (agrees : Agrees T) (core : Core) (v : Vec elem.kind n) :
    ReadsAgree core T (.vec v) := by
  refine ⟨_, asSlice_vec agrees.vec v, ?_⟩
  unfold Object.toVec
  rw [len_vec v agrees.vec, List.map_map,
    ← v.map_cells _ (fun i => nullable (VecElem.ofBytes (Bytes.row v.data elem.kind.width i)))]
  · apply mapM_ok
    intro i mem
    rw [agrees.get core v ⟨i, List.mem_range.mp mem⟩, v.row_data ⟨i, List.mem_range.mp mem⟩]
  · intro i
    rw [v.row_data]
    rfl

end

/-! ### Histories -/

/-- After any history of mutations the vector, with either value of the flag, reads alike. -/
def AlwaysAgree (core : Core) (T : Type) [elem : VecElem T] [FromValue T] [Sentinel T] : Prop :=
  ∀ (data : List T) (history : List Mutation) (r : Root elem.kind) (hasNulls : Bool),
    (Handle.new data).after core history = .vec r →
      ReadsAgree core T (.vec (.root { r with hasNulls }))

theorem boxed_reads_agree (core : Core) :
    AlwaysAgree core Int16 ∧ AlwaysAgree core Int32 ∧ AlwaysAgree core Int64 ∧
      AlwaysAgree core F32 ∧ AlwaysAgree core F64 ∧ AlwaysAgree core Guid :=
  ⟨fun _ _ _ _ _ => agrees_i16.reads core _, fun _ _ _ _ _ => agrees_i32.reads core _,
    fun _ _ _ _ _ => agrees_i64.reads core _, fun _ _ _ _ _ => agrees_f32.reads core _,
    fun _ _ _ _ _ => agrees_f64.reads core _, fun _ _ _ _ _ => agrees_guid.reads core _⟩

end Rayforce.Raw
