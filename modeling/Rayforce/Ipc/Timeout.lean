import Rayforce.Ipc.Client

/-! The timeout of a send (`ipc.rs`) in the code's own integers: a duration's nanoseconds in 128 bits,
rounded up to milliseconds, narrowed to 64 and capped. -/

namespace Rayforce.Ipc

/-- `std::time::Duration`. -/
structure Duration where
  secs : UInt64
  nanos : UInt32
  below : nanos.toNat < 1000000000
  deriving DecidableEq

def Duration.isZero (d : Duration) : Bool := d.secs == 0 && d.nanos == 0

/-- The order that is derived from the fields. -/
instance : LE Duration := ⟨fun d d' => d.secs < d'.secs ∨ d.secs = d'.secs ∧ d.nanos ≤ d'.nanos⟩

def Duration.asNanos (d : Duration) : BitVec 128 :=
  d.secs.toBitVec.setWidth 128 * 1000000000 + d.nanos.toBitVec.setWidth 128

/-- `u128::div_ceil`. -/
def divCeil (n d : BitVec 128) : BitVec 128 :=
  let q := n / d
  let r := n % d
  if 0 < r then q + 1 else q

/-- `MAX_TIMEOUT_MS`. -/
def maxTimeout : Int64 := Int64.maxValue / 2

/-- `timeout_ms`. -/
def Duration.timeoutMs (timeout : Duration) : Except RayError Int64 :=
  if timeout.isZero then
    .error (.binding "TcpClient: a send timeout must be greater than zero")
  else
    let ms := divCeil timeout.asNanos 1000000
    .ok (if ms.toNat < 2 ^ 63 then min (Int64.ofNat ms.toNat) maxTimeout else maxTimeout)

/-- `TcpClient::send_timeout`. -/
def State.sendTimeout (s : State) (j : Nat) (c : Client) (timeout : Duration) :
    Except RayError (Int × State) := do
  let ms ← timeout.timeoutMs
  s.roundTrip j c ms.toInt

/-- A duration's length. -/
def Duration.length (d : Duration) : Nat := d.secs.toNat * 1000000000 + d.nanos.toNat

variable {d d' : Duration} {m : Int64}

/-! ### In unbounded integers -/

theorem Duration.length_lt (d : Duration) : d.length < 2 ^ 64 * 1000000000 := by
  have secs := d.secs.toNat_lt
  have nanos := d.below
  unfold length
  omega

/-- Nothing is lost in 128 bits. -/
theorem Duration.toNat_asNanos (d : Duration) : d.asNanos.toNat = d.length := by
  have lt := d.length_lt
  have secs : (d.secs.toBitVec.setWidth 128).toNat = d.secs.toNat :=
    BitVec.toNat_setWidth_of_le (by decide)
  have nanos : (d.nanos.toBitVec.setWidth 128).toNat = d.nanos.toNat :=
    BitVec.toNat_setWidth_of_le (by decide)
  unfold length at lt ⊢
  rw [asNanos, BitVec.toNat_add, BitVec.toNat_mul, secs, nanos]
  change (d.secs.toNat * 1000000000 % 2 ^ 128 + d.nanos.toNat) % 2 ^ 128 = _
  omega

theorem toNat_divCeil (n d : BitVec 128) (positive : 1 < d.toNat) :
    (divCeil n d).toNat = (n.toNat + (d.toNat - 1)) / d.toNat := by
  have fits : n.toNat / d.toNat + 1 < 2 ^ 128 := by
    have half : n.toNat / d.toNat ≤ n.toNat / 2 := Nat.div_le_div_left positive (by decide)
    have lt := n.isLt
    omega
  have split := Nat.div_add_mod n.toNat d.toNat
  have rest := Nat.mod_lt n.toNat (show 0 < d.toNat by omega)
  unfold divCeil
  dsimp only
  by_cases exact : 0 < n % d
  · have more : 0 < n.toNat % d.toNat := by simpa [BitVec.lt_def] using exact
    have one : (1 : BitVec 128).toNat = 1 := rfl
    rw [if_pos exact, BitVec.toNat_add, BitVec.toNat_udiv, one, Nat.mod_eq_of_lt fits]
    symm
    apply Nat.div_eq_of_lt_le
    · rw [Nat.add_mul, Nat.mul_comm _ d.toNat]
      omega
    · rw [Nat.add_mul, Nat.add_mul, Nat.mul_comm _ d.toNat]
      omega
  · have none : n.toNat % d.toNat = 0 := by
      have := BitVec.not_lt.mp exact
      simpa [BitVec.le_def] using this
    rw [if_neg exact, BitVec.toNat_udiv]
    symm
    apply Nat.div_eq_of_lt_le
    · rw [Nat.mul_comm _ d.toNat]
      omega
    · rw [Nat.add_mul, Nat.mul_comm _ d.toNat]
      omega

theorem Duration.isZero_iff : d.isZero = true ↔ d.length = 0 := by
  unfold isZero length
  rw [Bool.and_eq_true, beq_iff_eq, beq_iff_eq, ← UInt64.toNat_inj, ← UInt32.toNat_inj]
  simp only [UInt64.toNat_zero, UInt32.toNat_zero]
  omega

theorem Duration.le_iff : d ≤ d' ↔ d.length ≤ d'.length := by
  have below := d.below
  have below' := d'.below
  change d.secs < d'.secs ∨ d.secs = d'.secs ∧ d.nanos ≤ d'.nanos ↔ _
  unfold length
  rw [UInt64.lt_iff_toNat_lt, ← UInt64.toNat_inj, UInt32.le_iff_toNat_le]
  omega

theorem toInt_maxTimeout : maxTimeout.toInt = 4611686018427387903 := by decide

theorem toInt_min (a b : Int64) : (min a b).toInt = min a.toInt b.toInt := by
  change (if a ≤ b then a else b).toInt = _
  split
  · next le =>
    rw [Int64.le_iff_toInt_le] at le
    omega
  · next lt =>
    rw [Int64.le_iff_toInt_le] at lt
    omega

/-- What `timeout_ms` gives, in milliseconds rounded up and capped. -/
theorem Duration.timeoutMs_eq_ok (positive : d.length ≠ 0) :
    ∃ m, d.timeoutMs = .ok m ∧ m.toInt = min ((d.length + 999999) / 1000000) 4611686018427387903 := by
  have running : d.isZero = false := Bool.eq_false_iff.mpr fun zero => positive (isZero_iff.mp zero)
  have rounded : (divCeil d.asNanos 1000000).toNat = (d.length + 999999) / 1000000 := by
    rw [toNat_divCeil _ _ (by decide), toNat_asNanos]
    rfl
  unfold timeoutMs
  rw [running]
  refine ⟨_, rfl, ?_⟩
  simp only [rounded]
  split
  · next fits =>
    rw [toInt_min, Int64.toInt_ofNat_of_lt fits, toInt_maxTimeout]
    omega
  · rw [toInt_maxTimeout]
    omega

/-- It is `timeout_ms` of the nanoseconds. -/
theorem Duration.timeoutMs_toInt (d : Duration) :
    d.timeoutMs.map Int64.toInt = Ipc.timeoutMs d.length := by
  by_cases zero : d.length = 0
  · have refused : d.isZero = true := isZero_iff.mpr zero
    unfold timeoutMs Ipc.timeoutMs
    rw [refused, zero]
    rfl
  · obtain ⟨m, passed, value⟩ := timeoutMs_eq_ok zero
    unfold Ipc.timeoutMs
    rw [passed, if_neg zero]
    change Except.ok m.toInt = _
    rw [value]
    unfold maxTimeoutMs
    dsimp only
    congr 1
    split <;> omega

theorem State.sendTimeout_eq_send (s : State) (j : Nat) (c : Client) (d : Duration) :
    s.sendTimeout j c d = s.send j c (some d.length) := by
  have same := d.timeoutMs_toInt
  unfold sendTimeout send
  dsimp only
  rw [← same]
  cases d.timeoutMs <;> rfl

/-! ### What is passed on -/

/-- The milliseconds are those of the duration rounded up, or the cap, and the core's deadline fits. -/
structure Finite (d : Duration) (m : Int64) : Prop where
  positive : 1 ≤ m
  capped : m ≤ maxTimeout
  notLong : (m.toInt - 1) * 1000000 < d.length
  notShort : d.length ≤ m.toInt * 1000000 ∨ m = maxTimeout
  deadline : ∀ now : Int64, 0 ≤ now → now ≤ maxTimeout → (now + m).toInt = now.toInt + m.toInt

theorem finite_of_timeoutMs (positive : d.length ≠ 0)
    (value : m.toInt = min ((d.length + 999999) / 1000000) 4611686018427387903) : Finite d m := by
  have bounds : 1 ≤ m.toInt ∧ m.toInt ≤ 4611686018427387903 := by omega
  have one : (1 : Int64).toInt = 1 := by decide
  have zero : (0 : Int64).toInt = 0 := by decide
  constructor
  · rw [Int64.le_iff_toInt_le, one]
    exact bounds.1
  · rw [Int64.le_iff_toInt_le, toInt_maxTimeout]
    exact bounds.2
  · omega
  · rw [← Int64.toInt_inj, toInt_maxTimeout]
    omega
  · intro now low high
    rw [Int64.le_iff_toInt_le, zero] at low
    rw [Int64.le_iff_toInt_le, toInt_maxTimeout] at high
    rw [Int64.toInt_add, Int.bmod_eq_of_le]
    · omega
    · omega

/-- For every duration: a zero one is refused and nothing sent; any other goes on to the exchange as
the milliseconds it takes, which a longer one never shortens.  Either way it is the client's send of
the duration's nanoseconds. -/
theorem sendTimeout_finite (d : Duration) :
    (d.isZero = true → ∀ s j c, State.sendTimeout s j c d =
      .error (.binding "TcpClient: a send timeout must be greater than zero")) ∧
    (d.isZero = false → ∃ m, Finite d m ∧
      (∀ s j c, State.sendTimeout s j c d = s.roundTrip j c m.toInt) ∧
      ∀ d' m', d ≤ d' → d'.timeoutMs = .ok m' → m ≤ m') ∧
    ∀ s j c, State.sendTimeout s j c d = s.send j c (some d.length) := by
  refine ⟨?_, ?_, fun s j c => s.sendTimeout_eq_send j c d⟩
  · intro zero s j c
    unfold State.sendTimeout Duration.timeoutMs
    rw [zero]
    rfl
  · intro running
    have positive : d.length ≠ 0 := fun zero => by
      rw [Duration.isZero_iff.mpr zero] at running
      cases running
    obtain ⟨m, passed, value⟩ := Duration.timeoutMs_eq_ok positive
    refine ⟨m, finite_of_timeoutMs positive value, fun s j c => ?_, fun d' m' le passed' => ?_⟩
    · unfold State.sendTimeout
      rw [passed]
      rfl
    · rw [Duration.le_iff] at le
      obtain ⟨m'', passed'', value'⟩ := Duration.timeoutMs_eq_ok (d := d') (by omega)
      cases passed''.symm.trans passed'
      rw [Int64.le_iff_toInt_le, value, value']
      omega

/-- The largest duration waits for the cap, and a nanosecond for a millisecond. -/
example : Duration.timeoutMs ⟨UInt64.ofNat (2 ^ 64 - 1), 999999999, by decide⟩ = .ok maxTimeout ∧
    Duration.timeoutMs ⟨0, 1, by decide⟩ = .ok 1 := by decide

end Rayforce.Ipc
