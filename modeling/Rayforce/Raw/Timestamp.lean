import Rayforce.Raw.Object

/-! Instants as timestamps (`convert.rs`): signed nanoseconds from 2000-01-01T00:00:00Z, saturated
where they leave 64 bits. -/

namespace Rayforce.Raw

/-- What the crate uses of `chrono`.  An instant is no leap-second reading, and a difference of
instants is its nanoseconds. -/
structure Chrono where
  DateTime : Type
  /-- `t.signed_duration_since(epoch)`. -/
  sinceEpoch : DateTime → Int
  /-- `epoch.checked_add_signed`. -/
  checkedAdd : Int → Option DateTime
  numNanoseconds : Int → Option Int64
  numSeconds : Int → Int
  checkedAdd_sinceEpoch : ∀ t, checkedAdd (sinceEpoch t) = some t
  numNanoseconds_fits : ∀ d, -2 ^ 63 ≤ d → d < 2 ^ 63 → numNanoseconds d = some (Int64.ofInt d)
  numNanoseconds_none : ∀ d, d < -2 ^ 63 ∨ 2 ^ 63 ≤ d → numNanoseconds d = none
  /-- Whole seconds, rounded toward zero. -/
  numSeconds_eq : ∀ d, numSeconds d = d.tdiv 1000000000

variable (chrono : Chrono)

def timestampNanos (t : chrono.DateTime) : Int64 :=
  let delta := chrono.sinceEpoch t
  (chrono.numNanoseconds delta).getD
    (if chrono.numSeconds delta < 0 then Int64.minValue + 1 else Int64.maxValue)

/-- `DateTime<Utc>::to_value`. -/
def timestampToValue (t : chrono.DateTime) : Object := .atom (.timestampNanos (timestampNanos chrono t))

/-- `DateTime<Utc>::from_value`. -/
def timestampFromValue (core : Core) (o : Object) : Except RayError chrono.DateTime := do
  let ns ← o.asTimestampNanos core
  match chrono.checkedAdd ns.toInt with
  | some t => .ok t
  | none => .error (.binding "timestamp out of range")

/-- One instant is encoded exactly, or saturated, and never as the null. -/
structure Encodes (core : Core) (t : chrono.DateTime) : Prop where
  notNull : (timestampToValue chrono t).isAtomNull = false
  exact : -2 ^ 63 < chrono.sinceEpoch t → chrono.sinceEpoch t < 2 ^ 63 →
    (timestampNanos chrono t).toInt = chrono.sinceEpoch t
  below : chrono.sinceEpoch t ≤ -2 ^ 63 → timestampNanos chrono t = Int64.minValue + 1
  above : 2 ^ 63 ≤ chrono.sinceEpoch t → timestampNanos chrono t = Int64.maxValue
  back : -2 ^ 63 < chrono.sinceEpoch t → chrono.sinceEpoch t < 2 ^ 63 →
    timestampFromValue chrono core (timestampToValue chrono t) = .ok t

/-- The order of two instants is that of their encodings. -/
def Ordered (t u : chrono.DateTime) : Prop :=
  chrono.sinceEpoch t ≤ chrono.sinceEpoch u → timestampNanos chrono t ≤ timestampNanos chrono u

variable {chrono} {core : Core} {t u : chrono.DateTime}

theorem toInt_minValue_succ : (Int64.minValue + 1).toInt = -2 ^ 63 + 1 := by decide

theorem timestampNanos_fits (low : -2 ^ 63 ≤ chrono.sinceEpoch t) (high : chrono.sinceEpoch t < 2 ^ 63) :
    (timestampNanos chrono t).toInt = chrono.sinceEpoch t := by
  unfold timestampNanos
  dsimp only
  rw [chrono.numNanoseconds_fits _ low high, Option.getD_some, Int64.toInt_ofInt_of_le low high]

theorem timestampNanos_below (below : chrono.sinceEpoch t < -2 ^ 63) :
    timestampNanos chrono t = Int64.minValue + 1 := by
  have flip : (chrono.sinceEpoch t).tdiv 1000000000 = -(-chrono.sinceEpoch t / 1000000000) := by
    rw [← Int.tdiv_eq_ediv_of_nonneg (by omega), Int.neg_tdiv, Int.neg_neg]
  have seconds : (chrono.sinceEpoch t).tdiv 1000000000 < 0 := by omega
  unfold timestampNanos
  dsimp only
  rw [chrono.numNanoseconds_none _ (.inl below), Option.getD_none, chrono.numSeconds_eq, if_pos seconds]

theorem timestampNanos_above (above : 2 ^ 63 ≤ chrono.sinceEpoch t) :
    timestampNanos chrono t = Int64.maxValue := by
  have seconds : ¬ (chrono.sinceEpoch t).tdiv 1000000000 < 0 := by
    rw [Int.tdiv_eq_ediv_of_nonneg (by omega)]
    omega
  unfold timestampNanos
  dsimp only
  rw [chrono.numNanoseconds_none _ (.inr above), Option.getD_none, chrono.numSeconds_eq, if_neg seconds]

/-- Anywhere but at the null's own instant, the distance is clamped to the values past the null. -/
theorem toInt_timestampNanos (real : chrono.sinceEpoch t ≠ -2 ^ 63) :
    (timestampNanos chrono t).toInt = max (-2 ^ 63 + 1) (min (chrono.sinceEpoch t) (2 ^ 63 - 1)) := by
  rcases Int.lt_or_le (chrono.sinceEpoch t) (-2 ^ 63) with below | low
  · rw [timestampNanos_below below, toInt_minValue_succ]
    omega
  · rcases Int.lt_or_le (chrono.sinceEpoch t) (2 ^ 63) with high | above
    · rw [timestampNanos_fits low high]
      omega
    · rw [timestampNanos_above above, Int64.toInt_maxValue]
      omega

theorem isAtomNull_timestampToValue :
    (timestampToValue chrono t).isAtomNull = true ↔ timestampNanos chrono t = Int64.minValue :=
  beq_iff_eq

theorem timestampFromValue_toValue (low : -2 ^ 63 ≤ chrono.sinceEpoch t)
    (high : chrono.sinceEpoch t < 2 ^ 63) :
    timestampFromValue chrono core (timestampToValue chrono t) = .ok t := by
  change (match chrono.checkedAdd (timestampNanos chrono t).toInt with
    | some t => Except.ok t
    | none => _) = _
  rw [timestampNanos_fits low high, chrono.checkedAdd_sinceEpoch]

theorem encodes_of_real (real : chrono.sinceEpoch t ≠ -2 ^ 63) : Encodes chrono core t where
  notNull := by
    apply Bool.eq_false_iff.mpr
    intro null
    have value := toInt_timestampNanos real
    rw [isAtomNull_timestampToValue.mp null, Int64.toInt_minValue] at value
    omega
  exact low high := timestampNanos_fits (Int.le_of_lt low) high
  below low := timestampNanos_below (by omega)
  above high := timestampNanos_above high
  back low high := timestampFromValue_toValue (Int.le_of_lt low) high

theorem ordered_of_real (real : chrono.sinceEpoch t ≠ -2 ^ 63) (real' : chrono.sinceEpoch u ≠ -2 ^ 63) :
    Ordered chrono t u := by
  intro le
  rw [Int64.le_iff_toInt_le, toInt_timestampNanos real, toInt_timestampNanos real']
  omega

/-- The null's own distance fits 64 bits, so that it is stored. -/
theorem not_encodes_of_null (null : chrono.sinceEpoch t = -2 ^ 63) : ¬ Encodes chrono core t := by
  intro encodes
  have value := timestampNanos_fits (t := t) (by omega) (by omega)
  have stored : timestampNanos chrono t = Int64.minValue := by
    rw [← Int64.toInt_inj, value, null, Int64.toInt_minValue]
  exact Bool.eq_false_iff.mp encodes.notNull (isAtomNull_timestampToValue.mpr stored)

/-- For any two instants: both are encoded as they should be, and in their order, exactly when neither
is the one that lies `2^63` nanoseconds before the epoch. -/
theorem encodes_iff (core : Core) (t u : chrono.DateTime) :
    (Encodes chrono core t ∧ Encodes chrono core u ∧ Ordered chrono t u ∧ Ordered chrono u t) ↔
      chrono.sinceEpoch t ≠ -2 ^ 63 ∧ chrono.sinceEpoch u ≠ -2 ^ 63 := by
  constructor
  · rintro ⟨encodesT, encodesU, -, -⟩
    exact ⟨fun null => not_encodes_of_null null encodesT, fun null => not_encodes_of_null null encodesU⟩
  · rintro ⟨realT, realU⟩
    exact ⟨encodes_of_real realT, encodes_of_real realU, ordered_of_real realT realU,
      ordered_of_real realU realT⟩

/-- Instants within a range of nanoseconds. -/
def Chrono.within (first last : Int) : Chrono where
  DateTime := { ns : Int // first ≤ ns ∧ ns ≤ last }
  sinceEpoch t := t.val
  checkedAdd ns := if inside : first ≤ ns ∧ ns ≤ last then some ⟨ns, inside⟩ else none
  numNanoseconds d := if -2 ^ 63 ≤ d ∧ d < 2 ^ 63 then some (Int64.ofInt d) else none
  numSeconds d := d.tdiv 1000000000
  checkedAdd_sinceEpoch t := dif_pos t.property
  numNanoseconds_fits _ low high := if_pos ⟨low, high⟩
  numNanoseconds_none _ outside := if_neg (by omega)
  numSeconds_eq _ := rfl

/-- 1707-09-22T00:12:43.145224192Z is stored as the null, and below the instant before it. -/
theorem null_instant :
    let year : Int := 31556952 * 1000000000
    let t : (Chrono.within (-262143 * year) (262142 * year)).DateTime := ⟨-2 ^ 63, by decide⟩
    let before : (Chrono.within (-262143 * year) (262142 * year)).DateTime := ⟨-2 ^ 63 - 1, by decide⟩
    (timestampToValue _ t).isAtomNull = true ∧ ¬ Ordered _ before t := by
  refine ⟨by decide, fun ordered => ?_⟩
  exact absurd (ordered (by decide)) (by decide)

end Rayforce.Raw
