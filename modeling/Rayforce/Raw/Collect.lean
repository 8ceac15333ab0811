import Rayforce.Raw.Layout

/-! What a vector's length, its iterator and `to_vec` make of its elements.  They ask `is_vec`, whose
range of types ends before timespans. -/

namespace Rayforce.Raw

variable {core : Core} {kind : Kind} {n : Nat}

/-- The length, the iterator and every successful conversion account for all `n` elements. -/
structure Accounts (core : Core) (v : Vec kind n) : Prop where
  len : (Object.vec v).len core = n
  iter : (((Object.vec v).iter core).items core).length = n
  toVec : ∀ (T : Type) [FromValue T] (elems : List T),
    (Object.vec v).toVec core T = .ok elems → elems.length = n

theorem Iter.length_items (it : Iter) : (it.items core).length = it.len - it.idx := by
  fun_induction Iter.items core it with
  | case1 it stop =>
    unfold next at stop
    split at stop
    · simp only [List.length_nil]
      omega
    · cases stop
  | case2 it item rest step lt ih =>
    unfold next at step
    split at step
    · cases step
    · cases step
      rw [List.length_cons, ih]
      dsimp only
      omega

theorem length_of_mapM_ok {ε α β : Type} {f : α → Except ε β} {l : List α} {bs : List β}
    (ok : l.mapM f = .ok bs) : bs.length = l.length := by
  induction l generalizing bs with
  | nil =>
    cases ok
    rfl
  | cons a l ih =>
    rw [List.mapM_cons] at ok
    obtain ⟨b, -, ok⟩ := bind_eq_ok.mp ok
    obtain ⟨bs', rest, ok⟩ := bind_eq_ok.mp ok
    cases ok
    rw [List.length_cons, List.length_cons, ih rest]

/-- The three agree on the length that `len` reads. -/
theorem accounts_of_len {v : Vec kind n} (len : (Object.vec v).len core = n) : Accounts core v where
  len := len
  iter := by
    rw [Iter.length_items]
    exact len
  toVec T _ elems ok := by
    rw [length_of_mapM_ok ok, List.length_range, len]

theorem len_timespan (v : Vec .timespan n) : (Object.vec v).len core = 0 := rfl

theorem accounts_iff (v : Vec kind n) : Accounts core v ↔ kind ≠ .timespan ∨ n = 0 := by
  constructor
  · intro accounts
    by_cases timespan : kind = .timespan
    · subst timespan
      exact Or.inr ((len_timespan v).symm.trans accounts.len).symm
    · exact Or.inl timespan
  · rintro (vec | rfl)
    · exact accounts_of_len (len_vec v vec)
    · by_cases timespan : kind = .timespan
      · subst timespan
        exact accounts_of_len (len_timespan v)
      · exact accounts_of_len (len_vec v timespan)

/-- Three timespans are collected into none, without an error. -/
theorem not_accounts_timespans :
    ¬ Accounts (.ofSymbols [] .nil) (.root ⟨false, none, [1, 2, 3]⟩ : Vec .timespan 3) := by
  intro accounts
  have none : (0 : Nat) = 3 := accounts.toVec Object [] rfl
  cases none

end Rayforce.Raw
