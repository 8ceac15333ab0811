import Mathlib.Algebra.Ring.Nat
import Mathlib.Tactic.Ring

/-! Numbers as little-endian bytes, and the rows of a memory image whose rows have one width. -/

namespace Bytes

/-- The low `width` bytes of a number, least significant first. -/
def encode : Nat → Nat → List UInt8
  | 0, _ => []
  | width + 1, n => UInt8.ofNat n :: encode width (n / 256)

def decode : List UInt8 → Nat
  | [] => 0
  | b :: bs => b.toNat + 256 * decode bs

/-- Row `i` of an image with rows of `width` bytes. -/
def row (image : List UInt8) (width i : Nat) : List UInt8 := (image.drop (i * width)).take width

@[simp] theorem length_encode (width n : Nat) : (encode width n).length = width := by
  induction width generalizing n with
  | zero => rfl
  | succ width ih => rw [encode, List.length_cons, ih]

theorem decode_encode (width n : Nat) : decode (encode width n) = n % 256 ^ width := by
  induction width generalizing n with
  | zero => simp [encode, decode, Nat.mod_one]
  | succ width ih =>
    have low : (UInt8.ofNat n).toNat = n % 256 := UInt8.toNat_ofNat'
    rw [encode, decode, ih, low, pow_succ', Nat.mod_mul]

theorem decode_encode_of_lt {width n : Nat} (lt : n < 256 ^ width) : decode (encode width n) = n := by
  rw [decode_encode, Nat.mod_eq_of_lt lt]

theorem decode_lt (bytes : List UInt8) : decode bytes < 256 ^ bytes.length := by
  induction bytes with
  | nil => simp [decode]
  | cons b bs ih =>
    have low := b.toNat_lt
    rw [decode, List.length_cons, pow_succ']
    omega

theorem encode_decode (bytes : List UInt8) : encode bytes.length (decode bytes) = bytes := by
  induction bytes with
  | nil => rfl
  | cons b bs ih =>
    have low := b.toNat_lt
    have first : UInt8.ofNat (b.toNat + 256 * decode bs) = b := by
      apply UInt8.toNat_inj.mp
      rw [UInt8.toNat_ofNat']
      omega
    have rest : (b.toNat + 256 * decode bs) / 256 = decode bs := by omega
    rw [decode, List.length_cons, encode, first, rest, ih]

variable {α : Type*} {f : α → List UInt8} {l : List α} {width : Nat}

theorem drop_flatMap (rows : ∀ a ∈ l, (f a).length = width) (i : Nat) :
    (l.flatMap f).drop (i * width) = (l.drop i).flatMap f := by
  induction i generalizing l with
  | zero => simp
  | succ i ih =>
    cases l with
    | nil => simp
    | cons a l =>
      have first := rows a List.mem_cons_self
      have rest := ih fun b mem => rows b (List.mem_cons_of_mem a mem)
      rw [List.flatMap_cons, List.drop_succ_cons, Nat.succ_mul, Nat.add_comm, ← List.drop_drop,
        List.drop_left' first, rest]

/-- A row read at its offset is the row that was laid there. -/
theorem row_flatMap (rows : ∀ a ∈ l, (f a).length = width) {i : Nat} (lt : i < l.length) :
    row (l.flatMap f) width i = f l[i] := by
  unfold row
  rw [drop_flatMap rows, List.drop_eq_getElem_cons lt, List.flatMap_cons]
  exact List.take_left' (rows _ (List.getElem_mem lt))

end Bytes
