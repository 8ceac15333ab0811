import Rayforce.Raw.Nulls

/-! Rust values to core values and back (`convert.rs`).  An atom has one null among its values, and a
missing value becomes the null singleton. -/

namespace Rayforce.Raw

class ToValue (T : Type) where
  toValue : T → Object

export ToValue (toValue)

/-- A type of the atoms' constructors and readers. -/
class Scalar (T : Type) where
  kind : Kind
  atom : T → Atom
  field : Atom → T
  /-- The value that the type's atoms have for their null. -/
  isNull : T → Bool

instance : Scalar Bool := ⟨.bool, Atom.bool, Atom.asB8, fun _ => false⟩
instance : Scalar UInt8 := ⟨.u8, Atom.u8, Atom.asU8, fun _ => false⟩
instance : Scalar Int16 := ⟨.i16, Atom.i16, Atom.asI16, isSentinel⟩
instance : Scalar Int32 := ⟨.i32, Atom.i32, Atom.asI32, isSentinel⟩
instance : Scalar Int64 := ⟨.i64, Atom.i64, Atom.asI64, isSentinel⟩
instance : Scalar F32 := ⟨.f32, Atom.f32, fun a => a.asF64.toF32, isSentinel⟩
instance : Scalar F64 := ⟨.f64, Atom.f64, Atom.asF64, isSentinel⟩
instance : Scalar Guid := ⟨.guid, Atom.guid, fun a => a.guidBytes.getD .zero, isSentinel⟩

instance : ToValue Object := ⟨id⟩
instance {T : Type} [Scalar T] : ToValue T := ⟨fun v => .atom (Scalar.atom v)⟩
instance {T : Type} [ToValue T] : ToValue (Option T) := ⟨fun o => o.elim .null toValue⟩

/-- The reader takes the constructor's atoms, by their type alone, and gives back their value. -/
class LawfulScalar (T : Type) [scalar : Scalar T] [FromValue T] : Prop where
  reader : ∀ (core : Core) (o : Object), (fromValue core o : Except RayError T) =
    o.read core scalar.kind Scalar.field
  kind : ∀ v : T, (Scalar.atom v).kind = scalar.kind
  null : ∀ v : T, (Scalar.atom v).isNull = Scalar.isNull v
  field : ∀ v : T, Scalar.isNull v = false → Scalar.field (Scalar.atom v) = v

instance : LawfulScalar Bool where
  reader _ _ := rfl
  kind _ := rfl
  null _ := rfl
  field v _ := Atom.asB8_bool v

instance : LawfulScalar UInt8 where
  reader _ _ := rfl
  kind _ := rfl
  null _ := rfl
  field v _ := Atom.asU8_u8 v

instance : LawfulScalar Int16 where
  reader _ _ := rfl
  kind _ := rfl
  null v := congrArg (· == Int16.minValue) (Atom.asI16_i16 v)
  field v _ := Atom.asI16_i16 v

instance : LawfulScalar Int32 where
  reader _ _ := rfl
  kind _ := rfl
  null v := congrArg (· == Int32.minValue) (Atom.asI32_i32 v)
  field v _ := Atom.asI32_i32 v

instance : LawfulScalar Int64 where
  reader _ _ := rfl
  kind _ := rfl
  null _ := rfl
  field _ _ := rfl

/-- A 32-bit float is stored widened; what is no number is another after the way back. -/
instance : LawfulScalar F32 where
  reader _ _ := rfl
  kind _ := rfl
  null v := F32.isNan_toF32_toF64 v
  field _ number := F32.toF32_toF64 number

instance : LawfulScalar F64 where
  reader _ _ := rfl
  kind _ := rfl
  null _ := rfl
  field _ _ := rfl

instance : LawfulScalar Guid where
  reader _ _ := rfl
  kind _ := rfl
  null v := v.all_zero
  field _ _ := rfl

/-! ### Back from a value -/

variable {core : Core} {T U : Type}

/-- Values come back as themselves, except that those that are null are missing. -/
structure ComesBack (core : Core) (T : Type) [ToValue T] [FromValue T] (isNull : T → Bool) : Prop where
  null : ∀ v : T, ((toValue v).isNull || (toValue v).isAtomNull) = isNull v
  back : ∀ v : T, isNull v = false → fromValue core (toValue v) = .ok v

theorem fromValue_atom_scalar [Scalar T] [FromValue T] [LawfulScalar T] (v : T) :
    (fromValue core (.atom (Scalar.atom v)) : Except RayError T) =
      .ok (Scalar.field (Scalar.atom v)) := by
  have kind : (Scalar.atom v).typeCode = -(Scalar.kind T).code := by
    rw [Atom.typeCode, LawfulScalar.kind]
  rw [LawfulScalar.reader]
  exact if_pos kind

theorem comesBack_scalar [Scalar T] [FromValue T] [LawfulScalar T] :
    ComesBack core T Scalar.isNull where
  null v := LawfulScalar.null v
  back v stored := by
    change fromValue core (.atom (Scalar.atom v)) = _
    rw [fromValue_atom_scalar, LawfulScalar.field v stored]

section

variable [ToValue T] [FromValue T] {isNull : T → Bool}

/-- Read as optional, a null is missing and everything else is there. -/
theorem ComesBack.option_read (h : ComesBack core T isNull) (o : Option T) :
    (fromValue core (toValue o) : Except RayError (Option T)) = .ok (o.filter (!isNull ·)) := by
  cases o with
  | none => rfl
  | some v =>
    change (if ((toValue v).isNull || (toValue v).isAtomNull) = true then Except.ok none
      else some <$> fromValue core (toValue v)) = .ok (if (!isNull v) = true then some v else none)
    rw [h.null]
    cases null : isNull v with
    | true => rfl
    | false =>
      rw [h.back v null]
      rfl

theorem ComesBack.option (h : ComesBack core T isNull) :
    ComesBack core (Option T) (·.elim true isNull) where
  null o := by
    cases o with
    | none => rfl
    | some v => exact h.null v
  back o stored := by
    rw [h.option_read]
    cases o with
    | none => cases stored
    | some v =>
      have kept : isNull v = false := stored
      simp [Option.filter, kept]

end

theorem fromValue_option_scalar [Scalar T] [FromValue T] [LawfulScalar T] (marked : Bool) (t : T) :
    (fromValue core (if marked && Scalar.isNull t then .null else .atom (Scalar.atom t)) :
      Except RayError (Option T)) = .ok (if Scalar.isNull t then none else some t) := by
  split
  · next null =>
    rw [if_pos (Bool.and_eq_true_iff.mp null).2]
    rfl
  · have back : (fromValue core (Object.atom (Scalar.atom t)) : Except RayError (Option T)) = _ :=
      comesBack_scalar.option_read (some t)
    rw [back]
    cases null : Scalar.isNull t <;> simp [Option.filter, null]

/-- Read as another type, a value is refused, with both types named. -/
theorem fromValue_other [Scalar T] [FromValue T] [LawfulScalar T] [Scalar U] [FromValue U]
    [LawfulScalar U] (other : Scalar.kind U ≠ Scalar.kind T) (v : T) :
    (fromValue core (toValue v) : Except RayError U) =
      .error (mismatch (Scalar.kind U) (-(Scalar.kind T).code)) := by
  have kind : (Scalar.atom v).typeCode = -(Scalar.kind T).code := by
    rw [Atom.typeCode, LawfulScalar.kind]
  have apart : (Scalar.atom v).typeCode ≠ -(Scalar.kind U).code := by
    rw [kind]
    generalize Scalar.kind U = k at *
    generalize Scalar.kind T = k' at *
    revert other
    cases k <;> cases k' <;> decide
  rw [LawfulScalar.reader]
  change (if (Scalar.atom v).typeCode = -(Scalar.kind U).code then _ else _) = _
  rw [if_neg apart, kind]

/-- What becomes of the values of one type.  They are stored as `stored` has them. -/
structure Converts (core : Core) (T : Type) [Scalar T] [FromValue T] (stored : T → T) : Prop where
  plain : ∀ v : T, fromValue core (toValue v) = .ok (stored v)
  option : ∀ o : Option T, fromValue core (toValue o) = .ok (o.filter (!Scalar.isNull ·))
  nested : ∀ o : Option (Option T),
    fromValue core (toValue o) = .ok (o.filter (!·.elim true Scalar.isNull))
  /-- A null atom, as `Value::typed_null` makes one of each type. -/
  missing : ∀ a : Atom, a.isNull = true →
    (fromValue core (.atom a) : Except RayError (Option T)) = .ok none
  other : ∀ (U : Type) [Scalar U] [FromValue U] [LawfulScalar U], Scalar.kind U ≠ Scalar.kind T →
    ∀ v : T, (fromValue core (toValue v) : Except RayError U) =
      .error (mismatch (Scalar.kind U) (-(Scalar.kind T).code))

theorem converts [Scalar T] [FromValue T] [LawfulScalar T] {stored : T → T}
    (stores : ∀ v : T, Scalar.field (Scalar.atom v) = stored v) : Converts core T stored where
  plain v := (fromValue_atom_scalar v).trans (congrArg _ (stores v))
  option := comesBack_scalar.option_read
  nested := comesBack_scalar.option.option_read
  missing _ null := if_pos null
  other _ _ _ _ other := fromValue_other other

/-- Every type converts to values that are read as what they were, and as nothing else.  Of 32-bit
floats, what is no number becomes quiet. -/
theorem all_convert (core : Core) : Converts core Bool id ∧ Converts core UInt8 id ∧
    Converts core Int16 id ∧ Converts core Int32 id ∧ Converts core Int64 id ∧
    Converts core F32 F32.quiet ∧ Converts core F64 id ∧ Converts core Guid id :=
  ⟨converts Atom.asB8_bool, converts Atom.asU8_u8, converts Atom.asI16_i16, converts Atom.asI32_i32,
    converts fun _ => rfl, converts F32.toF32_toF64_eq_quiet, converts fun _ => rfl,
    converts fun _ => rfl⟩

end Rayforce.Raw
