import Rayforce.Raw.TimeOfDay
import Rayforce.Raw.Timestamp

/-! Dates (`convert.rs`), days since 2000-01-01, and what the three temporal codecs share: what a
payload is read as is written back as that payload. -/

namespace Rayforce.Raw

/-- A payload is read without a panic, as a value exactly where it stands for one, and the value is
written as the payload. -/
structure Reencodes {P X : Type} (payload : P → Object) (fromValue : Object → Option (Except RayError X))
    (toValue : X → Object) (represents : P → Prop) : Prop where
  returns : ∀ p, ∃ r, fromValue (payload p) = some r
  accepts : ∀ p, (∃ x, fromValue (payload p) = some (.ok x)) ↔ represents p
  back : ∀ p x, fromValue (payload p) = some (.ok x) → toValue x = payload p

/-- A day, in nanoseconds. -/
def dayNanos : Int := 86400000000000

/-- What the crate uses of `chrono`'s dates.  A duration is its nanoseconds. -/
structure Calendar where
  NaiveDate : Type
  /-- `Duration::days`, and nothing where it panics. -/
  days : Int64 → Option Int
  numDays : Int → Int64
  /-- `date.signed_duration_since(date_epoch())`. -/
  sinceEpoch : NaiveDate → Int
  /-- `date_epoch().checked_add_signed`. -/
  checkedAdd : Int → Option NaiveDate
  /-- A duration is bounded by 64 bits of milliseconds. -/
  days_fits : ∀ n : Int64, -(2 ^ 63 - 1) ≤ n.toInt * 86400000 → n.toInt * 86400000 ≤ 2 ^ 63 - 1 →
    days n = some (n.toInt * dayNanos)
  numDays_whole : ∀ n : Int, -2 ^ 31 ≤ n → n < 2 ^ 31 → numDays (n * dayNanos) = Int64.ofInt n
  checkedAdd_iff : ∀ (n : Int) (t : NaiveDate),
    checkedAdd (n * dayNanos) = some t ↔ sinceEpoch t = n * dayNanos
  inside : ∀ t, ∃ n : Int, -2 ^ 31 ≤ n ∧ n < 2 ^ 31 ∧ sinceEpoch t = n * dayNanos

/-- `chrono`'s instants, whose arithmetic is exact and reaches every 64-bit distance. -/
structure ExactChrono extends Chrono where
  sinceEpoch_checkedAdd : ∀ d t, checkedAdd d = some t → sinceEpoch t = d
  reaches : ∀ d, -2 ^ 63 ≤ d → d < 2 ^ 63 → ∃ t, checkedAdd d = some t

section

variable (chrono : Calendar)

/-- The days that `NaiveDate::to_value` stores. -/
def dateDays (t : chrono.NaiveDate) : Int32 := (chrono.numDays (chrono.sinceEpoch t)).toInt32

/-- `NaiveDate::to_value`. -/
def dateToValue (t : chrono.NaiveDate) : Object := .atom (.dateDays (dateDays chrono t))

/-- `NaiveDate::from_value`.  Nothing is a panic. -/
def dateFromValue (core : Core) (o : Object) : Option (Except RayError chrono.NaiveDate) :=
  match o.asDateDays core with
  | .error e => some (.error e)
  | .ok days =>
    (chrono.days days.toInt64).map fun duration =>
      match chrono.checkedAdd duration with
      | some t => .ok t
      | none => .error (.binding "date out of range")

/-- A day count is that of some date. -/
def Calendar.Represents (days : Int32) : Prop := ∃ t, chrono.sinceEpoch t = days.toInt * dayNanos

end

variable {core : Core}

theorem dateFromValue_atom (chrono : Calendar) (days : Int32) :
    dateFromValue chrono core (.atom (.dateDays days)) =
      some (match chrono.checkedAdd (days.toInt * dayNanos) with
        | some t => .ok t
        | none => .error (.binding "date out of range")) := by
  have low := days.le_toInt
  have high := days.toInt_lt
  have field : (Atom.dateDays days).asI32 = days := Atom.asI32_dateDays days
  have wide : days.toInt64.toInt = days.toInt := Int32.toInt_toInt64 days
  have duration := chrono.days_fits days.toInt64 (by omega) (by omega)
  change (chrono.days (Atom.dateDays days).asI32.toInt64).map _ = _
  rw [field, duration, wide]
  rfl

theorem dateDays_of_sinceEpoch {chrono : Calendar} {t : chrono.NaiveDate} {days : Int32}
    (since : chrono.sinceEpoch t = days.toInt * dayNanos) : dateDays chrono t = days := by
  have low := days.le_toInt
  have high := days.toInt_lt
  unfold dateDays
  rw [since, chrono.numDays_whole _ (by omega) (by omega), ← Int32.toInt_inj, Int64.toInt_toInt32,
    Int64.toInt_ofInt_of_le (by omega) (by omega), Int.bmod_eq_of_le]
  · omega
  · omega

theorem reencodes_date (core : Core) (chrono : Calendar) :
    Reencodes (fun days => .atom (.dateDays days)) (dateFromValue chrono core) (dateToValue chrono)
      chrono.Represents where
  returns days := ⟨_, dateFromValue_atom chrono days⟩
  accepts days := by
    rw [dateFromValue_atom]
    constructor
    · rintro ⟨t, accepted⟩
      split at accepted
      · next t' found => exact ⟨t', (chrono.checkedAdd_iff _ _).mp found⟩
      · cases accepted
    · rintro ⟨t, since⟩
      refine ⟨t, ?_⟩
      rw [(chrono.checkedAdd_iff _ _).mpr since]
  back days t accepted := by
    rw [dateFromValue_atom] at accepted
    split at accepted
    · next t' found =>
      cases accepted
      unfold dateToValue
      rw [dateDays_of_sinceEpoch ((chrono.checkedAdd_iff _ _).mp found)]
    · cases accepted

theorem reencodes_time (core : Core) (chrono : TimeOfDay) :
    Reencodes (fun ms => .atom (.timeMillis ms)) (timeFromValue chrono core) (timeToValue chrono)
      fun ms => 0 ≤ ms.toInt ∧ ms.toInt < 86400000 where
  returns ms := by
    rcases timeFromValue_atom chrono core ms with ⟨-, -, t, read, -⟩ | ⟨-, read⟩
    · exact ⟨_, read⟩
    · exact ⟨_, read⟩
  accepts ms := by
    rcases timeFromValue_atom chrono core ms with ⟨low, high, t, read, -⟩ | ⟨outside, read⟩
    · exact iff_of_true ⟨t, read⟩ ⟨low, high⟩
    · refine iff_of_false ?_ outside
      rintro ⟨t, accepted⟩
      cases read.symm.trans accepted
  back ms t accepted := by
    rcases timeFromValue_atom chrono core ms with
      ⟨low, high, t', read, seconds, nanos⟩ | ⟨-, read⟩
    · cases read.symm.trans accepted
      have value := toInt_timeMillis t
      have stored : timeMillis chrono t = ms := by
        rw [← Int32.toInt_inj]
        omega
      unfold timeToValue
      rw [stored]
    · cases read.symm.trans accepted

theorem timestampFromValue_atom (chrono : Chrono) (core : Core) (ns : Int64) :
    timestampFromValue chrono core (.atom (.timestampNanos ns)) =
      match chrono.checkedAdd ns.toInt with
      | some t => .ok t
      | none => .error (.binding "timestamp out of range") := rfl

/-- `Duration::nanoseconds` takes every count, so that nothing here can panic. -/
theorem reencodes_timestamp (core : Core) (chrono : ExactChrono) :
    Reencodes (fun ns => .atom (.timestampNanos ns))
      (fun o => some (timestampFromValue chrono.toChrono core o)) (timestampToValue chrono.toChrono)
      fun _ => True where
  returns ns := ⟨_, rfl⟩
  accepts ns := by
    refine iff_of_true ?_ trivial
    obtain ⟨t, reached⟩ := chrono.reaches ns.toInt ns.le_toInt ns.toInt_lt
    refine ⟨t, ?_⟩
    rw [timestampFromValue_atom, reached]
  back ns t accepted := by
    rw [timestampFromValue_atom] at accepted
    split at accepted
    · next t' found =>
      cases accepted
      have since := chrono.sinceEpoch_checkedAdd _ _ found
      have low := ns.le_toInt
      have high := ns.toInt_lt
      have stored : timestampNanos chrono.toChrono t = ns := by
        rw [← Int64.toInt_inj, timestampNanos_fits (by omega) (by omega), since]
      unfold timestampToValue
      rw [stored]
    · cases accepted

/-- For every payload of a date, a time or a timestamp atom: it is read without a panic, exactly where
it stands for a date, within the day, or always, and written back as it was. -/
theorem reencodes (core : Core) (dates : Calendar) (times : TimeOfDay) (instants : ExactChrono) :
    Reencodes (fun days => .atom (.dateDays days)) (dateFromValue dates core) (dateToValue dates)
        dates.Represents ∧
      Reencodes (fun ms => .atom (.timeMillis ms)) (timeFromValue times core) (timeToValue times)
        (fun ms => 0 ≤ ms.toInt ∧ ms.toInt < 86400000) ∧
      Reencodes (fun ns => .atom (.timestampNanos ns))
        (fun o => some (timestampFromValue instants.toChrono core o))
        (timestampToValue instants.toChrono) fun _ => True :=
  ⟨reencodes_date core dates, reencodes_time core times, reencodes_timestamp core instants⟩

/-! ### Dates and instants within bounds -/

/-- The dates from one day to another. -/
def Calendar.within (first last : Int) (low : -2 ^ 31 ≤ first) (high : last < 2 ^ 31) : Calendar where
  NaiveDate := { n : Int // first ≤ n ∧ n ≤ last }
  days n :=
    if -(2 ^ 63 - 1) ≤ n.toInt * 86400000 ∧ n.toInt * 86400000 ≤ 2 ^ 63 - 1 then
      some (n.toInt * dayNanos)
    else none
  numDays d := Int64.ofInt (d.tdiv dayNanos)
  sinceEpoch t := t.val * dayNanos
  checkedAdd d :=
    if inside : first ≤ d.tdiv dayNanos ∧ d.tdiv dayNanos ≤ last then some ⟨d.tdiv dayNanos, inside⟩
    else none
  days_fits n low high := if_pos ⟨low, high⟩
  numDays_whole n _ _ := by rw [Int.mul_tdiv_cancel _ (by decide)]
  checkedAdd_iff n t := by
    have cancel : (n * dayNanos).tdiv dayNanos = n := Int.mul_tdiv_cancel _ (by decide)
    simp only [cancel, Option.dite_none_right_eq_some, Option.some.injEq, Subtype.ext_iff]
    constructor
    · rintro ⟨-, rfl⟩
      rfl
    · intro since
      have same : t.val = n := Int.eq_of_mul_eq_mul_right (by decide) since
      exact ⟨same ▸ t.property, same.symm⟩
  inside t := ⟨t.val, by have := t.property; omega, by have := t.property; omega, rfl⟩

/-- The instants within `first` and `last` nanoseconds. -/
def ExactChrono.within (first last : Int) (low : first ≤ -2 ^ 63) (high : 2 ^ 63 - 1 ≤ last) :
    ExactChrono where
  toChrono := Chrono.within first last
  sinceEpoch_checkedAdd d t found := by
    obtain ⟨inside, same⟩ := Option.dite_none_right_eq_some.mp found
    rw [← Option.some.inj same]
    rfl
  reaches d below above := by
    have inside : first ≤ d ∧ d ≤ last := by omega
    exact ⟨⟨d, inside⟩, dif_pos inside⟩

/-- 2024-02-29, noon, and the nanosecond before 2000. -/
theorem reencodes_within :
    let core : Core := .ofSymbols [] .nil
    let dates := Calendar.within (-96465658) 95026236 (by decide) (by decide)
    let instants := ExactChrono.within (-2 ^ 63) (2 ^ 63 - 1) (Int.le_refl _) (Int.le_refl _)
    (∃ t, dateFromValue dates core (.atom (.dateDays 8825)) = some (.ok t) ∧
        dateToValue dates t = .atom (.dateDays 8825)) ∧
      (∃ t, timeFromValue TimeOfDay.all core (.atom (.timeMillis 43200000)) = some (.ok t) ∧
        timeToValue TimeOfDay.all t = .atom (.timeMillis 43200000)) ∧
      ∃ t, timestampFromValue instants.toChrono core (.atom (.timestampNanos (-1))) = .ok t ∧
        timestampToValue instants.toChrono t = .atom (.timestampNanos (-1)) := by
  intro core dates instants
  obtain ⟨date, time, instant⟩ := reencodes core dates TimeOfDay.all instants
  obtain ⟨t, day⟩ := (date.accepts 8825).mpr ⟨⟨8825, by decide⟩, rfl⟩
  obtain ⟨u, noon⟩ := (time.accepts 43200000).mpr ⟨by decide, by decide⟩
  obtain ⟨v, last⟩ := (instant.accepts (-1)).mpr trivial
  exact ⟨⟨t, day, date.back _ _ day⟩, ⟨u, noon, time.back _ _ noon⟩, v, Option.some.inj last,
    instant.back _ _ last⟩

/-- 2024-02-29 is stored as its day, and the null's payload is no date. -/
example (core : Core) :
    let dates := Calendar.within (-96465658) 95026236 (by decide) (by decide)
    (dateFromValue dates core (.atom (.dateDays 8825))).map (·.map (dateDays dates)) = some (.ok 8825) ∧
      dateFromValue dates core (.atom (.dateDays Int32.minValue)) =
        some (.error (.binding "date out of range")) := ⟨rfl, rfl⟩

end Rayforce.Raw
