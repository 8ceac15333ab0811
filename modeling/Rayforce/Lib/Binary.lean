import Mathlib.Data.Nat.Log
import Mathlib.Tactic.Ring

/-! The binary floating-point formats of 32 and of 64 bits as bit patterns, and the conversions
between them: `widen` is exact, and `narrow` rounds to the nearest, on a tie to the even one.  Both
make quiet what is no number. -/

namespace Binary

/-- The bits below the sign are the magnitude: an exponent above a fraction. -/
def singleInf : Nat := 255 * 2 ^ 23

def doubleInf : Nat := 2047 * 2 ^ 52

/-- A magnitude above the infinity is none. -/
def isNan32 (b : BitVec 32) : Bool := singleInf < b.toNat % 2 ^ 31

def isNan64 (b : BitVec 64) : Bool := doubleInf < b.toNat % 2 ^ 63

/-- The first bit of the fraction is set, where there is no number. -/
def quiet (b : BitVec 32) : BitVec 32 := if isNan32 b ∧ b.toNat % 2 ^ 23 < 2 ^ 22 then b + 0x400000#32 else b

def widenMagnitude (n : Nat) : Nat :=
  let e := n / 2 ^ 23
  let m := n % 2 ^ 23
  if e = 255 then if m = 0 then doubleInf else doubleInf + (2 ^ 22 + m % 2 ^ 22) * 2 ^ 29
  else if e = 0 then
    -- a subnormal is normal in the wider format
    if m = 0 then 0 else (Nat.log2 m + 874) * 2 ^ 52 + (m - 2 ^ Nat.log2 m) * 2 ^ (52 - Nat.log2 m)
  else (e + 896) * 2 ^ 52 + m * 2 ^ 29

def widen (b : BitVec 32) : BitVec 64 :=
  BitVec.ofNat 64 (b.toNat / 2 ^ 31 * 2 ^ 63 + widenMagnitude (b.toNat % 2 ^ 31))

/-- `m` over a power of two, to the nearest, on a tie to the even one. -/
def shiftRound (m shift : Nat) : Nat :=
  let q := m / 2 ^ shift
  let r := m % 2 ^ shift
  if 2 ^ shift < 2 * r ∨ (2 * r = 2 ^ shift ∧ q % 2 = 1) then q + 1 else q

def narrowMagnitude (n : Nat) : Nat :=
  let e := n / 2 ^ 52
  let m := n % 2 ^ 52
  if doubleInf < n then singleInf + 2 ^ 22 + m / 2 ^ 29 % 2 ^ 22
  else
    let significand := if e = 0 then m else 2 ^ 52 + m
    -- a carry out of the fraction is one into the exponent
    min singleInf ((e - 897) * 2 ^ 23 + shiftRound significand (max 29 (926 - max e 1)))

def narrow (b : BitVec 64) : BitVec 32 :=
  BitVec.ofNat 32 (b.toNat / 2 ^ 63 * 2 ^ 31 + narrowMagnitude (b.toNat % 2 ^ 63))

/-! ### An exact quotient -/

theorem shiftRound_mul (m shift : Nat) : shiftRound (m * 2 ^ shift) shift = m := by
  have positive : 0 < 2 ^ shift := Nat.two_pow_pos shift
  simp only [shiftRound, Nat.mul_div_cancel m positive, Nat.mul_mod_left]
  rw [if_neg]
  omega

theorem narrow_widen_normal {e m : Nat} (pos : 0 < e) (lt : e < 255) (frac : m < 2 ^ 23) :
    narrowMagnitude ((e + 896) * 2 ^ 52 + m * 2 ^ 29) = e * 2 ^ 23 + m := by
  have low : m * 2 ^ 29 < 2 ^ 52 := by omega
  have exponent : ((e + 896) * 2 ^ 52 + m * 2 ^ 29) / 2 ^ 52 = e + 896 := by omega
  have fraction : ((e + 896) * 2 ^ 52 + m * 2 ^ 29) % 2 ^ 52 = m * 2 ^ 29 := by omega
  have finite : ¬ doubleInf < (e + 896) * 2 ^ 52 + m * 2 ^ 29 := by unfold doubleInf; omega
  have shift : max 29 (926 - max (e + 896) 1) = 29 := by omega
  have significand : 2 ^ 52 + m * 2 ^ 29 = (2 ^ 23 + m) * 2 ^ 29 := by ring
  unfold narrowMagnitude
  simp only [exponent, fraction, if_neg finite, shift, if_neg (show e + 896 ≠ 0 by omega), significand,
    shiftRound_mul]
  unfold singleInf
  omega

/-- A subnormal's significand is normal in the wider format. -/
theorem subnormal_bounds {m : Nat} (pos : 0 < m) (frac : m < 2 ^ 23) :
    Nat.log2 m ≤ 22 ∧ (m - 2 ^ Nat.log2 m) * 2 ^ (52 - Nat.log2 m) < 2 ^ 52 ∧
      2 ^ 52 + (m - 2 ^ Nat.log2 m) * 2 ^ (52 - Nat.log2 m) = m * 2 ^ (52 - Nat.log2 m) := by
  have nonzero : m ≠ 0 := Nat.ne_of_gt pos
  have small : Nat.log2 m < 23 := (Nat.log2_lt nonzero).mpr frac
  have below : 2 ^ Nat.log2 m ≤ m := Nat.log2_self_le nonzero
  have above : m < 2 ^ (Nat.log2 m + 1) := Nat.lt_log2_self
  have whole : 2 ^ Nat.log2 m * 2 ^ (52 - Nat.log2 m) = 2 ^ 52 := by
    rw [← Nat.pow_add, Nat.add_sub_of_le (by omega)]
  refine ⟨by omega, ?_, ?_⟩
  · have part : m - 2 ^ Nat.log2 m < 2 ^ Nat.log2 m := by
      rw [Nat.pow_succ] at above
      omega
    calc (m - 2 ^ Nat.log2 m) * 2 ^ (52 - Nat.log2 m)
        < 2 ^ Nat.log2 m * 2 ^ (52 - Nat.log2 m) := Nat.mul_lt_mul_of_pos_right part (Nat.two_pow_pos _)
      _ = 2 ^ 52 := whole
  · rw [← whole, ← Nat.add_mul, Nat.add_sub_of_le below]

theorem narrow_widen_subnormal {m : Nat} (pos : 0 < m) (frac : m < 2 ^ 23) :
    narrowMagnitude ((Nat.log2 m + 874) * 2 ^ 52 + (m - 2 ^ Nat.log2 m) * 2 ^ (52 - Nat.log2 m)) = m := by
  obtain ⟨small, low, significand⟩ := subnormal_bounds pos frac
  generalize (m - 2 ^ Nat.log2 m) * 2 ^ (52 - Nat.log2 m) = f at low significand
  generalize Nat.log2 m = k at small significand
  have exponent : ((k + 874) * 2 ^ 52 + f) / 2 ^ 52 = k + 874 := by omega
  have fraction : ((k + 874) * 2 ^ 52 + f) % 2 ^ 52 = f := by omega
  have finite : ¬ doubleInf < (k + 874) * 2 ^ 52 + f := by unfold doubleInf; omega
  have shift : max 29 (926 - max (k + 874) 1) = 52 - k := by omega
  unfold narrowMagnitude
  simp only [exponent, fraction, if_neg finite, shift, if_neg (show k + 874 ≠ 0 by omega), significand,
    shiftRound_mul]
  unfold singleInf
  omega

theorem narrowMagnitude_doubleInf : narrowMagnitude doubleInf = singleInf := by decide

theorem narrowMagnitude_zero : narrowMagnitude 0 = 0 := by
  have zero : shiftRound 0 (max 29 (926 - max 0 1)) = 0 := by simpa using shiftRound_mul 0 _
  have finite : ¬ doubleInf < 0 := Nat.not_lt_zero _
  unfold narrowMagnitude
  simp only [Nat.zero_div, Nat.zero_mod, if_neg finite, if_true, zero]
  exact Nat.min_zero _

theorem narrow_widenMagnitude {n : Nat} (le : n ≤ singleInf) :
    narrowMagnitude (widenMagnitude n) = n := by
  have split : n = n / 2 ^ 23 * 2 ^ 23 + n % 2 ^ 23 := (Nat.div_add_mod' n (2 ^ 23)).symm
  have frac : n % 2 ^ 23 < 2 ^ 23 := Nat.mod_lt n (by decide)
  unfold singleInf at le
  unfold widenMagnitude
  dsimp only
  by_cases top : n / 2 ^ 23 = 255
  · have whole : n % 2 ^ 23 = 0 := by omega
    rw [if_pos top, if_pos whole, narrowMagnitude_doubleInf]
    unfold singleInf
    omega
  · rw [if_neg top]
    by_cases low : n / 2 ^ 23 = 0
    · rw [if_pos low]
      by_cases zero : n % 2 ^ 23 = 0
      · rw [if_pos zero]
        rw [narrowMagnitude_zero]
        omega
      · rw [if_neg zero, narrow_widen_subnormal (Nat.pos_of_ne_zero zero) frac]
        omega
    · rw [if_neg low, narrow_widen_normal (Nat.pos_of_ne_zero low) (by omega) frac]
      exact split.symm

theorem widenMagnitude_lt {n : Nat} (lt : n < 2 ^ 31) : widenMagnitude n < 2 ^ 63 := by
  have frac : n % 2 ^ 23 < 2 ^ 23 := Nat.mod_lt n (by decide)
  unfold widenMagnitude doubleInf
  dsimp only
  split
  · split <;> omega
  · split
    · split
      · decide
      · next zero =>
        obtain ⟨small, low, -⟩ := subnormal_bounds (Nat.pos_of_ne_zero zero) frac
        omega
    · omega

/-- What is above the infinity stays there, with its fraction's first bit set. -/
theorem nan_narrow_widen {n : Nat} (lt : n < 2 ^ 31) (nan : singleInf < n) :
    narrowMagnitude (widenMagnitude n) = singleInf + 2 ^ 22 + n % 2 ^ 22 := by
  unfold singleInf at nan
  have top : n / 2 ^ 23 = 255 := by omega
  have part : n % 2 ^ 23 ≠ 0 := by omega
  have wide : widenMagnitude n = doubleInf + (2 ^ 22 + n % 2 ^ 23 % 2 ^ 22) * 2 ^ 29 :=
    (if_pos top).trans (if_neg part)
  have above : doubleInf < doubleInf + (2 ^ 22 + n % 2 ^ 23 % 2 ^ 22) * 2 ^ 29 := by omega
  rw [wide]
  unfold narrowMagnitude
  dsimp only
  rw [if_pos above]
  unfold singleInf doubleInf
  omega

/-! ### Bit patterns -/

theorem toNat_widen (b : BitVec 32) :
    (widen b).toNat / 2 ^ 63 = b.toNat / 2 ^ 31 ∧
      (widen b).toNat % 2 ^ 63 = widenMagnitude (b.toNat % 2 ^ 31) := by
  have bits := b.isLt
  have magnitude := widenMagnitude_lt (Nat.mod_lt b.toNat (show 0 < 2 ^ 31 by decide))
  have whole : (widen b).toNat = b.toNat / 2 ^ 31 * 2 ^ 63 + widenMagnitude (b.toNat % 2 ^ 31) := by
    rw [widen, BitVec.toNat_ofNat, Nat.mod_eq_of_lt]
    omega
  rw [whole]
  omega

theorem quiet_of_number {b : BitVec 32} (number : isNan32 b = false) : quiet b = b := by
  rw [quiet, number]
  exact if_neg fun loud => Bool.false_ne_true loud.1

/-- Narrowed again, what was widened is what it was, made quiet. -/
theorem narrow_widen (b : BitVec 32) : narrow (widen b) = quiet b := by
  obtain ⟨sign, magnitude⟩ := toNat_widen b
  rw [narrow, sign, magnitude]
  cases number : isNan32 b with
  | false =>
    have le : b.toNat % 2 ^ 31 ≤ singleInf := by simpa [isNan32] using number
    rw [quiet_of_number number, narrow_widenMagnitude le, Nat.div_add_mod', BitVec.ofNat_toNat,
      BitVec.setWidth_eq]
  | true =>
    have bits := b.isLt
    have nan : singleInf < b.toNat % 2 ^ 31 := by simpa [isNan32] using number
    rw [nan_narrow_widen (Nat.mod_lt _ (by decide)) nan, quiet, number]
    unfold singleInf at nan ⊢
    apply BitVec.eq_of_toNat_eq
    rw [BitVec.toNat_ofNat]
    split
    · next loud =>
      rw [BitVec.toNat_add, show (0x400000#32).toNat = 2 ^ 22 from rfl]
      omega
    · next soft =>
      have set : 2 ^ 22 ≤ b.toNat % 2 ^ 23 := Nat.le_of_not_lt fun loud => soft ⟨rfl, loud⟩
      omega

theorem isNan32_quiet (b : BitVec 32) : isNan32 (quiet b) = isNan32 b := by
  unfold quiet
  split
  · next loud =>
    obtain ⟨nan, loud⟩ := loud
    have bits := b.isLt
    rw [nan]
    unfold isNan32 singleInf at nan ⊢
    rw [decide_eq_true_eq] at nan ⊢
    rw [BitVec.toNat_add, show (0x400000#32).toNat = 2 ^ 22 from rfl]
    omega
  · rfl

end Binary
