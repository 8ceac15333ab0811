import Mathlib.Algebra.Order.Ring.Nat

/-! A table of slots that are handed out again: a new entry takes the first slot that is free. -/

abbrev Slots (α : Type*) := List (Option α)

namespace Slots

variable {α : Type*}

def at? (s : Slots α) (i : Nat) : Option α := (s[i]?).join

/-- The first slot with nothing in it. -/
def free (s : Slots α) : Nat := s.findIdx Option.isNone

def put (s : Slots α) (i : Nat) (a : α) : Slots α :=
  if i < s.length then s.set i (some a) else s ++ [some a]

def register (s : Slots α) (a : α) : Slots α := put s (free s) a

def release (s : Slots α) (i : Nat) : Slots α := s.set i none

theorem free_le (s : Slots α) : free s ≤ s.length := List.findIdx_le_length

theorem at?_free (s : Slots α) : at? s (free s) = none := by
  unfold at?
  by_cases lt : free s < s.length
  · have empty : s[free s].isNone = true := List.findIdx_getElem
    rw [List.getElem?_eq_getElem lt, Option.join_some]
    exact Option.isNone_iff_eq_none.mp empty
  · rw [List.getElem?_eq_none (Nat.not_lt.mp lt)]
    rfl

theorem at?_put (s : Slots α) {i : Nat} (le : i ≤ s.length) (a : α) (j : Nat) :
    at? (put s i a) j = if j = i then some a else at? s j := by
  unfold put at?
  by_cases lt : i < s.length
  · rw [if_pos lt]
    by_cases same : j = i
    · subst same
      simp [List.getElem?_set_self lt]
    · rw [List.getElem?_set_ne (Ne.symm same), if_neg same]
  · obtain rfl : i = s.length := Nat.le_antisymm le (Nat.not_lt.mp lt)
    rw [if_neg lt]
    by_cases same : j = s.length
    · subst same
      simp
    · rw [if_neg same]
      by_cases before : j < s.length
      · rw [List.getElem?_append_left before]
      · have past : s.length < j := Nat.lt_of_le_of_ne (Nat.not_lt.mp before) (Ne.symm same)
        rw [List.getElem?_eq_none (Nat.not_lt.mp before), List.getElem?_eq_none]
        rw [List.length_append]
        exact past

theorem at?_register (s : Slots α) (a : α) (i : Nat) :
    at? (register s a) i = if i = free s then some a else at? s i :=
  at?_put s (free_le s) a i

theorem at?_release (s : Slots α) (i j : Nat) :
    at? (release s i) j = if j = i then none else at? s j := by
  unfold release at?
  by_cases same : j = i
  · subst same
    rw [if_pos rfl, List.getElem?_set]
    simp only [if_true]
    split <;> rfl
  · rw [List.getElem?_set_ne (Ne.symm same), if_neg same]

theorem at?_release_eq_some {s : Slots α} {i j : Nat} {a : α} (h : at? (release s i) j = some a) :
    at? s j = some a := by
  rw [at?_release] at h
  split at h
  · cases h
  · exact h

theorem lt_of_at?_eq_some {s : Slots α} {i : Nat} {a : α} (h : at? s i = some a) : i < s.length := by
  apply Nat.lt_of_not_le
  intro past
  rw [at?, List.getElem?_eq_none past] at h
  cases h

/-! ### Sums over the table -/

theorem sum_map_set {γ : Type*} (f : γ → Nat) (l : List γ) {i : Nat} (lt : i < l.length) (c : γ) :
    ((l.set i c).map f).sum + f l[i] = (l.map f).sum + f c := by
  induction l generalizing i with
  | nil => cases lt
  | cons d l ih =>
    cases i with
    | zero =>
      simp only [List.set_cons_zero, List.map_cons, List.sum_cons, List.getElem_cons_zero]
      omega
    | succ i =>
      have rest := ih (Nat.lt_of_succ_lt_succ lt)
      simp only [List.set_cons_succ, List.map_cons, List.sum_cons, List.getElem_cons_succ]
      omega

theorem sum_map_put {f : Option α → Nat} (empty : f none = 0) (s : Slots α) (i : Nat)
    (a : α) :
    ((put s i a).map f).sum + f (at? s i) = (s.map f).sum + f (some a) := by
  unfold put
  by_cases lt : i < s.length
  · rw [if_pos lt, at?, List.getElem?_eq_getElem lt, Option.join_some]
    exact sum_map_set f s lt (some a)
  · rw [if_neg lt, at?, List.getElem?_eq_none (Nat.not_lt.mp lt)]
    simp [empty]

theorem sum_map_release (f : Option α → Nat) (s : Slots α) (i : Nat) :
    ((release s i).map f).sum + f (at? s i) = (s.map f).sum + f none := by
  unfold release
  by_cases lt : i < s.length
  · rw [at?, List.getElem?_eq_getElem lt, Option.join_some]
    exact sum_map_set f s lt none
  · rw [List.set_eq_of_length_le (Nat.not_lt.mp lt), at?, List.getElem?_eq_none (Nat.not_lt.mp lt)]
    rfl

theorem flatMap_set_perm {γ δ : Type*} {f : γ → List δ} {l : List γ} {i : Nat} {c d : γ}
    (at_i : l[i]? = some c) (empty : f d = []) : (l.flatMap f).Perm (f c ++ (l.set i d).flatMap f) := by
  induction l generalizing i with
  | nil => cases at_i
  | cons x l ih =>
    cases i with
    | zero =>
      obtain rfl := Option.some.inj at_i
      rw [List.set_cons_zero, List.flatMap_cons, List.flatMap_cons, empty, List.nil_append]
    | succ i =>
      rw [List.set_cons_succ, List.flatMap_cons, List.flatMap_cons]
      apply ((ih at_i).append_left (f x)).trans
      rw [← List.append_assoc, ← List.append_assoc]
      exact List.perm_append_comm.append_right _

/-! ### Lists whose entries are numbered as they come, each until it is retired -/

variable {l m : List α} {live : α → Bool} {i j : Nat} {a c : α}

theorem entry_append (found : (l ++ m)[j]?.filter live = some c) :
    l[j]?.filter live = some c ∨ ∃ k, j = l.length + k ∧ m[k]? = some c := by
  obtain ⟨at_j, kept⟩ := Option.filter_eq_some_iff.mp found
  by_cases lt : j < l.length
  · rw [List.getElem?_append_left lt] at at_j
    exact .inl (Option.filter_eq_some_iff.mpr ⟨at_j, kept⟩)
  · rw [List.getElem?_append_right (Nat.not_lt.mp lt)] at at_j
    exact .inr ⟨j - l.length, by omega, at_j⟩

theorem entry_grown (m : List α) (found : l[j]?.filter live = some c) :
    (l ++ m)[j]?.filter live = some c := by
  have at_j := (Option.filter_eq_some_iff.mp found).1
  rw [List.getElem?_append_left (List.getElem?_eq_some_iff.mp at_j).1]
  exact found

/-- An entry is replaced, and retired where the new one is not in force. -/
theorem entry_set (found : (l.set i a)[j]?.filter live = some c) :
    (j = i ∧ c = a ∧ live a = true) ∨ (j ≠ i ∧ l[j]?.filter live = some c) := by
  by_cases same : i = j
  · subst same
    obtain ⟨at_i, kept⟩ := Option.filter_eq_some_iff.mp found
    rw [List.getElem?_set, if_pos rfl] at at_i
    split at at_i
    · cases at_i
      exact .inl ⟨rfl, rfl, kept⟩
    · cases at_i
  · rw [List.getElem?_set_ne same] at found
    exact .inr ⟨Ne.symm same, found⟩

end Slots
