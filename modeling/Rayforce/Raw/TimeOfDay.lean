import Rayforce.Raw.Object

/-! Times of day (`convert.rs`): milliseconds since midnight.  A leap second is a nanosecond field that
runs on past its second, so that the milliseconds run on into the next one, or past the day. -/

namespace Rayforce.Raw

/-- What the crate uses of `chrono`'s times of day. -/
structure TimeOfDay where
  NaiveTime : Type
  numSecondsFromMidnight : NaiveTime → UInt32
  /-- From a billion up in a leap second. -/
  nanosecond : NaiveTime → UInt32
  /-- `NaiveTime::from_num_seconds_from_midnight_opt`. -/
  fromSeconds : UInt32 → UInt32 → Option NaiveTime
  seconds_lt : ∀ t, (numSecondsFromMidnight t).toNat < 86400
  nanosecond_lt : ∀ t, (nanosecond t).toNat < 2000000000
  fromSeconds_some : ∀ secs nano, secs.toNat < 86400 → nano.toNat < 1000000000 →
    ∃ t, fromSeconds secs nano = some t ∧ numSecondsFromMidnight t = secs ∧ nanosecond t = nano
  fromSeconds_none : ∀ secs nano, 86400 ≤ secs.toNat → fromSeconds secs nano = none

variable (chrono : TimeOfDay)

/-- The order of `NaiveTime`, which is that of its fields. -/
def TimeOfDay.le (t u : chrono.NaiveTime) : Prop :=
  chrono.numSecondsFromMidnight t < chrono.numSecondsFromMidnight u ∨
    chrono.numSecondsFromMidnight t = chrono.numSecondsFromMidnight u ∧
      chrono.nanosecond t ≤ chrono.nanosecond u

def UInt32.asI64 (n : UInt32) : Int64 := n.toUInt64.toInt64

/-- The milliseconds that `NaiveTime::to_value` stores. -/
def timeMillis (t : chrono.NaiveTime) : Int32 :=
  let ms := UInt32.asI64 (chrono.numSecondsFromMidnight t) * 1000 +
    UInt32.asI64 (chrono.nanosecond t) / 1000000
  ms.toInt32

/-- `NaiveTime::to_value`. -/
def timeToValue (t : chrono.NaiveTime) : Object := .atom (.timeMillis (timeMillis chrono t))

/-- A product of 32 bits, and nothing where it overflows. -/
def checkedMul (a b : UInt32) : Option UInt32 := if a.toNat * b.toNat < 2 ^ 32 then some (a * b) else none

/-- `NaiveTime::from_value`.  Nothing is a panic. -/
def timeFromValue (core : Core) (o : Object) : Option (Except RayError chrono.NaiveTime) :=
  match o.asTimeMillis core with
  | .error e => some (.error e)
  | .ok ms =>
    let ms := ms.toUInt32
    (checkedMul (ms % 1000) 1000000).map fun nano =>
      match chrono.fromSeconds (ms / 1000) nano with
      | some t => .ok t
      | none => .error (.binding "time out of range")

variable {chrono} {core : Core} {t u : chrono.NaiveTime} {ms : Int32}

/-! ### In unbounded integers -/

theorem toInt_asI64 (n : UInt32) : (UInt32.asI64 n).toInt = n.toNat := by
  have lt := n.toNat_lt
  change n.toUInt64.toBitVec.toInt = _
  rw [BitVec.toInt_eq_toNat_cond]
  change (if 2 * n.toUInt64.toNat < 2 ^ 64 then (n.toUInt64.toNat : Int)
    else (n.toUInt64.toNat : Int) - (2 ^ 64 : Nat)) = _
  rw [UInt32.toNat_toUInt64, if_pos (by omega)]

theorem toNat_toUInt32 (ms : Int32) :
    (ms.toUInt32.toNat : Int) = if ms.toInt < 0 then ms.toInt + 2 ^ 32 else ms.toInt := by
  have lt := ms.toBitVec.isLt
  change (ms.toBitVec.toNat : Int) = if ms.toBitVec.toInt < 0 then ms.toBitVec.toInt + 2 ^ 32
    else ms.toBitVec.toInt
  rw [BitVec.toInt_eq_toNat_cond ms.toBitVec]
  split <;> split <;> omega

/-- No step of the encoding wraps. -/
theorem toInt_timeMillis (t : chrono.NaiveTime) :
    (timeMillis chrono t).toInt = (chrono.numSecondsFromMidnight t).toNat * 1000 +
      ((chrono.nanosecond t).toNat / 1000000 : Nat) := by
  have seconds := chrono.seconds_lt t
  have nanosecond := chrono.nanosecond_lt t
  have thousand : (1000 : Int64).toInt = 1000 := by decide
  have million : (1000000 : Int64).toInt = 1000000 := by decide
  have millis : (UInt32.asI64 (chrono.nanosecond t) / 1000000).toInt =
      ((chrono.nanosecond t).toNat / 1000000 : Nat) := by
    rw [Int64.toInt_div, toInt_asI64, million, Int.tdiv_eq_ediv_of_nonneg (by omega), Int.bmod_eq_of_le]
    · omega
    · omega
    · omega
  have whole : (UInt32.asI64 (chrono.numSecondsFromMidnight t) * 1000).toInt =
      (chrono.numSecondsFromMidnight t).toNat * 1000 := by
    rw [Int64.toInt_mul, toInt_asI64, thousand, Int.bmod_eq_of_le]
    · omega
    · omega
  unfold timeMillis
  dsimp only
  rw [Int64.toInt_toInt32, Int64.toInt_add, whole, millis, Int.bmod_eq_of_le, Int.bmod_eq_of_le]
  · omega
  · omega
  · rw [Int.bmod_eq_of_le] <;> omega
  · rw [Int.bmod_eq_of_le] <;> omega

/-! ### Reading back -/

/-- A stored time is read exactly within the day, as whole seconds and milliseconds. -/
theorem timeFromValue_atom (chrono : TimeOfDay) (core : Core) (ms : Int32) :
    (0 ≤ ms.toInt ∧ ms.toInt < 86400000 ∧
      ∃ t, timeFromValue chrono core (.atom (.timeMillis ms)) = some (.ok t) ∧
        ((chrono.numSecondsFromMidnight t).toNat : Int) = ms.toInt / 1000 ∧
        ((chrono.nanosecond t).toNat : Int) = ms.toInt % 1000 * 1000000) ∨
    (¬(0 ≤ ms.toInt ∧ ms.toInt < 86400000) ∧
      timeFromValue chrono core (.atom (.timeMillis ms)) =
        some (.error (.binding "time out of range"))) := by
  have cast := toNat_toUInt32 ms
  have low := ms.le_toInt
  have high := ms.toInt_lt
  have field : (Atom.timeMillis ms).asI32 = ms := Atom.asI32_timeMillis ms
  have seconds : (ms.toUInt32 / 1000).toNat = ms.toUInt32.toNat / 1000 := UInt32.toNat_div ..
  have rest : (ms.toUInt32 % 1000).toNat = ms.toUInt32.toNat % 1000 := UInt32.toNat_mod ..
  have fits : (ms.toUInt32 % 1000).toNat * (1000000 : UInt32).toNat < 2 ^ 32 := by
    change (ms.toUInt32 % 1000).toNat * 1000000 < 2 ^ 32
    omega
  have nano : (ms.toUInt32 % 1000 * 1000000).toNat = ms.toUInt32.toNat % 1000 * 1000000 := by
    rw [UInt32.toNat_mul, Nat.mod_eq_of_lt fits, rest]
    rfl
  have read : timeFromValue chrono core (.atom (.timeMillis ms)) =
      some (match chrono.fromSeconds (ms.toUInt32 / 1000) (ms.toUInt32 % 1000 * 1000000) with
        | some t => .ok t
        | none => .error (.binding "time out of range")) := by
    change (checkedMul ((Atom.timeMillis ms).asI32.toUInt32 % 1000) 1000000).map _ = _
    rw [field, checkedMul, if_pos fits]
    rfl
  by_cases day : ms.toUInt32.toNat < 86400000
  · obtain ⟨t, found, secs, nanos⟩ := chrono.fromSeconds_some (ms.toUInt32 / 1000)
      (ms.toUInt32 % 1000 * 1000000) (by omega) (by omega)
    refine .inl ⟨by omega, by omega, t, ?_, ?_, ?_⟩
    · rw [read, found]
    · rw [secs]
      omega
    · rw [nanos]
      omega
  · refine .inr ⟨by omega, ?_⟩
    rw [read, chrono.fromSeconds_none _ _ (by omega)]

/-- A time is stored within the day, and read back, to the millisecond where it is in no leap
second. -/
structure Readable (core : Core) (t : chrono.NaiveTime) : Prop where
  stored : 0 ≤ (timeMillis chrono t).toInt ∧ (timeMillis chrono t).toInt ≤ 86399999
  reads : ∃ u, timeFromValue chrono core (timeToValue chrono t) = some (.ok u)
  truncated : (chrono.nanosecond t).toNat < 1000000000 →
    ∃ u, timeFromValue chrono core (timeToValue chrono t) = some (.ok u) ∧
      chrono.numSecondsFromMidnight u = chrono.numSecondsFromMidnight t ∧
      (chrono.nanosecond u).toNat = (chrono.nanosecond t).toNat / 1000000 * 1000000

/-- The order of two times is that of their encodings. -/
def Kept (t u : chrono.NaiveTime) : Prop := chrono.le t u → timeMillis chrono t ≤ timeMillis chrono u

/-- A leap second at the end of the day. -/
def Past (t : chrono.NaiveTime) : Prop :=
  (chrono.numSecondsFromMidnight t).toNat = 86399 ∧ 1000000000 ≤ (chrono.nanosecond t).toNat

/-- A leap second that runs past a time of the second after it. -/
def Overtakes (t u : chrono.NaiveTime) : Prop :=
  (chrono.numSecondsFromMidnight u).toNat = (chrono.numSecondsFromMidnight t).toNat + 1 ∧
    (chrono.nanosecond u).toNat / 1000000 + 1000 < (chrono.nanosecond t).toNat / 1000000

theorem readable_iff : Readable core t ↔ ¬ Past t := by
  have seconds := chrono.seconds_lt t
  have nanosecond := chrono.nanosecond_lt t
  have value := toInt_timeMillis t
  unfold Past
  constructor
  · intro readable
    have stored := readable.stored.2
    omega
  · intro within
    rcases timeFromValue_atom chrono core (timeMillis chrono t) with
      ⟨low, high, u, read, secs, nanos⟩ | ⟨outside, -⟩
    · refine ⟨⟨low, by omega⟩, ⟨u, read⟩, fun plain => ⟨u, read, ?_, ?_⟩⟩
      · rw [← UInt32.toNat_inj]
        omega
      · omega
    · exact absurd ⟨by omega, by omega⟩ outside

theorem kept_iff : Kept t u ↔ ¬ Overtakes t u := by
  have nanosecond := chrono.nanosecond_lt t
  have value := toInt_timeMillis t
  have value' := toInt_timeMillis u
  unfold Kept Overtakes TimeOfDay.le
  rw [Int32.le_iff_toInt_le, UInt32.lt_iff_toNat_lt, ← UInt32.toNat_inj, UInt32.le_iff_toNat_le]
  constructor
  · rintro kept ⟨next, past⟩
    have := kept (.inl (by omega))
    omega
  · rintro apart (before | ⟨same, before⟩)
    · omega
    · omega

/-- For any two times: both are readable and in their order exactly when neither is a leap second at
the day's end, and neither is one that runs past the other. -/
theorem readable_iff_within (core : Core) (t u : chrono.NaiveTime) :
    (Readable core t ∧ Readable core u ∧ Kept t u ∧ Kept u t) ↔
      (¬ Past t ∧ ¬ Past u ∧ ¬ Overtakes t u ∧ ¬ Overtakes u t) := by
  rw [readable_iff, readable_iff, kept_iff, kept_iff]

/-- Every time there is. -/
def TimeOfDay.all : TimeOfDay where
  NaiveTime := { t : UInt32 × UInt32 // t.1.toNat < 86400 ∧ t.2.toNat < 2000000000 }
  numSecondsFromMidnight t := t.val.1
  nanosecond t := t.val.2
  fromSeconds secs nano :=
    if within : secs.toNat < 86400 ∧ nano.toNat < 2000000000 then
      if nano.toNat < 1000000000 ∨ secs.toNat % 60 = 59 then some ⟨(secs, nano), within⟩ else none
    else none
  seconds_lt t := t.property.1
  nanosecond_lt t := t.property.2
  fromSeconds_some secs nano low high := by
    have within : secs.toNat < 86400 ∧ nano.toNat < 2000000000 := ⟨low, by omega⟩
    refine ⟨⟨(secs, nano), within⟩, ?_, rfl, rfl⟩
    rw [dif_pos within, if_pos (.inl high)]
  fromSeconds_none secs nano past := dif_neg fun within => absurd within.1 (by omega)

/-- 23:59:60 is stored as a whole day, which is refused. -/
theorem leap_second_refused :
    ¬ ∃ core : Core, ∀ t : TimeOfDay.all.NaiveTime, Readable core t := by
  rintro ⟨core, readable⟩
  have last := readable ⟨(86399, 1000000000), by decide⟩
  exact readable_iff.mp last ⟨rfl, by decide⟩

end Rayforce.Raw
