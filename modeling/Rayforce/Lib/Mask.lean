import Mathlib.Algebra.BigOperators.Group.List.Basic
import Mathlib.Algebra.Ring.Int.Defs

/-! Lists under a mask of booleans: the elements a mask keeps, and the choice it makes between two
lists. -/

namespace Mask

variable {α : Type*}

def keep : List α → List Bool → List α
  | x :: xs, true :: mask => x :: keep xs mask
  | _ :: xs, false :: mask => keep xs mask
  | _, _ => []

/-- The first list's elements where the mask is true, the second's where it is not. -/
def pick : List Bool → List α → List α → List α
  | b :: mask, x :: xs, y :: ys => (if b then x else y) :: pick mask xs ys
  | _, _, _ => []

/-- Adding what a mask keeps is adding everything with the rest replaced by zero. -/
theorem sum_keep [AddMonoid α] (xs : List α) (mask : List Bool) (same : xs.length = mask.length) :
    (keep xs mask).sum = (pick mask xs (List.replicate mask.length 0)).sum := by
  induction mask generalizing xs with
  | nil =>
    obtain rfl := List.length_eq_zero_iff.mp same
    rfl
  | cons b mask ih =>
    cases xs with
    | nil => cases same
    | cons x xs =>
      have rest := ih xs (Nat.succ.inj same)
      cases b with
      | true => simp [keep, pick, List.replicate_succ, rest]
      | false => simp [keep, pick, List.replicate_succ, rest]

theorem length_keep (xs : List α) (mask : List Bool) (same : xs.length = mask.length) :
    ((keep xs mask).length : ℤ) =
      (pick mask (List.replicate mask.length 1) (List.replicate mask.length 0)).sum := by
  induction mask generalizing xs with
  | nil =>
    obtain rfl := List.length_eq_zero_iff.mp same
    rfl
  | cons b mask ih =>
    cases xs with
    | nil => cases same
    | cons x xs =>
      have rest := ih xs (Nat.succ.inj same)
      cases b with
      | true =>
        simp only [keep, pick, List.replicate_succ, List.length_cons, List.sum_cons, if_true,
          ← rest]
        omega
      | false => simp [keep, pick, List.replicate_succ, rest]

/-! ### Conjunctions -/

/-- Over `n` rows, the rows that every mask keeps. -/
def every (n : Nat) (masks : List (List Bool)) : List Bool :=
  (List.range n).map fun i => masks.all fun mask => mask.getD i false

/-- The masks combined pairwise, from the left. -/
def conjoin (first : List Bool) (rest : List (List Bool)) : List Bool :=
  rest.foldl (List.zipWith (· && ·)) first

theorem getD_zipWith_and (a b : List Bool) (i : Nat) :
    (List.zipWith (· && ·) a b).getD i false = (a.getD i false && b.getD i false) := by
  simp only [List.getD_eq_getElem?_getD, List.getElem?_zipWith]
  cases a[i]? <;> cases b[i]? <;> simp

theorem getD_conjoin (first : List Bool) (rest : List (List Bool)) (i : Nat) :
    (conjoin first rest).getD i false =
      (first.getD i false && rest.all fun mask => mask.getD i false) := by
  unfold conjoin
  induction rest generalizing first with
  | nil => simp
  | cons mask rest ih =>
    rw [List.foldl_cons, ih, getD_zipWith_and, List.all_cons, Bool.and_assoc]

theorem length_conjoin {n : Nat} {first : List Bool} {rest : List (List Bool)}
    (same : first.length = n) (others : ∀ mask ∈ rest, mask.length = n) :
    (conjoin first rest).length = n := by
  unfold conjoin
  induction rest generalizing first with
  | nil => exact same
  | cons mask rest ih =>
    refine ih ?_ fun mask mem => others mask (List.mem_cons_of_mem _ mem)
    rw [List.length_zipWith, same, others mask (List.mem_cons_self ..), Nat.min_self]

/-- Masks of one length, combined pairwise, keep what every one of them keeps. -/
theorem conjoin_eq_every {n : Nat} {first : List Bool} {rest : List (List Bool)}
    (same : first.length = n) (others : ∀ mask ∈ rest, mask.length = n) :
    conjoin first rest = every n (first :: rest) := by
  have length := length_conjoin same others
  refine List.ext_getElem (by simp [every, length]) fun i low _ => ?_
  have row := getD_conjoin first rest i
  rw [List.getD_eq_getElem?_getD, List.getElem?_eq_getElem low, Option.getD_some] at row
  simp [every, row]

@[simp] theorem length_every (n : Nat) (masks : List (List Bool)) : (every n masks).length = n := by
  simp [every]

theorem every_singleton {n : Nat} {mask : List Bool} (same : mask.length = n) :
    every n [mask] = mask := by
  refine List.ext_getElem (by simp [same]) fun i _ low => ?_
  simp [every, low]

theorem every_append (n : Nat) (masks masks' : List (List Bool)) :
    every n (masks ++ masks') = List.zipWith (· && ·) (every n masks) (every n masks') := by
  refine List.ext_getElem (by simp) fun i _ _ => ?_
  simp [every, List.all_append]

theorem every_perm (n : Nat) {masks masks' : List (List Bool)} (perm : masks.Perm masks') :
    every n masks = every n masks' := by
  unfold every
  exact List.map_congr_left fun i _ => perm.all_eq

end Mask
