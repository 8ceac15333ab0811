import Mathlib.Data.List.Forall2

/-! Computations that may be undefined, and may fail where they are defined.  One is below another
that answers alike wherever the first is defined. -/

namespace Defined

variable {ε α β γ : Type}

abbrev Comp (ε α : Type) := ExceptT ε Option α

/-- What is defined does not fail. -/
def given (x : Option α) : Comp ε α := ExceptT.lift x

/-- What is defined, and fails or not. -/
def outcome (r : Except ε α) : Comp ε α := ExceptT.mk (some r)

@[simp] theorem outcome_ok (a : α) : (outcome (.ok a) : Comp ε α) = pure a := rfl

def Below (x y : Comp ε α) : Prop := ∀ r, x.run = some r → y.run = some r

theorem Below.refl (x : Comp ε α) : Below x x := fun _ eq => eq

theorem Below.trans {x y z : Comp ε α} (first : Below x y) (second : Below y z) : Below x z :=
  fun r eq => second r (first r eq)

theorem Below.given {x y : Option α} (below : ∀ a, x = some a → y = some a) :
    Below (ε := ε) (given x) (given y) := by
  intro r eq
  obtain ⟨a, answered, rfl⟩ := Option.map_eq_some_iff.mp eq
  exact Option.map_eq_some_iff.mpr ⟨a, below a answered, rfl⟩

theorem Below.bind {x y : Comp ε α} {f g : α → Comp ε β} (first : Below x y)
    (rest : ∀ a, Below (f a) (g a)) : Below (x >>= f) (y >>= g) := by
  intro r eq
  rw [ExceptT.run_bind] at eq ⊢
  obtain ⟨a, answered, after⟩ := Option.bind_eq_some_iff.mp eq
  refine Option.bind_eq_some_iff.mpr ⟨a, first a answered, ?_⟩
  cases a with
  | ok a => exact rest a r after
  | error e => exact after

theorem mapM_eq_some_iff {f : α → Option β} {as : List α} {bs : List β} :
    as.mapM f = some bs ↔ List.Forall₂ (fun a b => f a = some b) as bs := by
  constructor
  · intro eq
    induction as generalizing bs with
    | nil =>
      cases eq
      exact .nil
    | cons a as ih =>
      rw [List.mapM_cons] at eq
      obtain ⟨b, first, eq⟩ := Option.bind_eq_some_iff.mp eq
      obtain ⟨bs, rest, eq⟩ := Option.bind_eq_some_iff.mp eq
      cases eq
      exact .cons first (ih rest)
  · intro each
    induction each with
    | nil => rfl
    | cons first _ ih =>
      rw [List.mapM_cons, first, ih]
      rfl

end Defined
