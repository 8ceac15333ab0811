import Rayforce.Query.Lambda

/-! A literal reaches the function it is an operand of as itself exactly when it is neither a name nor
a list. -/

namespace Rayforce.Query

/-- The literals evaluate to themselves, and none compiles to what another node compiles to. -/
structure Hygienic (e : Expr) : Prop where
  literal : CompilesLiterally e
  apart : ∀ v ∈ e.literals, ∀ e' : Expr, (∀ w, e' ≠ .lit w) → e'.compile ≠ (Expr.lit v).compile

/-- A call passes its arguments as they are. -/
def PassesExactly (f : Fn) (args : List Value) : Prop :=
  ∀ (m : Type → Type) [Monad m] [LawfulMonad m] (ev : Evaluator m), f.call ev args = ev.apply f.value args

/-- An evaluator whose results tell what was applied to what, and what was looked up. -/
def recording : Evaluator Id where
  apply head args := .dict head (.list args)
  lookup name := .dict (.nameRef name) (.i64 0)
  headless := .i64 0

theorem inert_of_eval {v : Value} (same : v.eval recording = v) : v.Inert := by
  cases v with
  | nameRef name =>
    rw [Value.eval] at same
    cases same
  | list items =>
    cases items with
    | nil =>
      rw [Value.eval] at same
      cases same
    | cons head rest =>
      rw [Value.eval] at same
      cases same
  | _ => trivial

theorem inert_of_evalAll {vs : List Value} (same : evalAll recording vs = vs) : ∀ v ∈ vs, v.Inert := by
  induction vs with
  | nil => exact fun _ mem => nomatch mem
  | cons v vs ih =>
    rw [evalAll] at same
    obtain ⟨head, tail⟩ := List.cons.inj same
    rintro w (_ | ⟨_, mem⟩)
    · exact inert_of_eval head
    · exact ih tail w mem

mutual

theorem inert_of_execute :
    (e : Expr) → e.execute recording = e.run recording → ∀ v ∈ e.literals, v.Inert
  | .col name, _ => fun _ mem => nomatch mem
  | .lit v, same => by
    rw [Expr.execute, Expr.compile, Expr.run] at same
    intro w mem
    rw [List.mem_singleton.mp mem]
    exact inert_of_eval same
  | .op operation operands, same => by
    rw [Expr.execute, Expr.compile, Value.eval, Expr.run] at same
    exact inert_of_executeAll operands (Value.list.inj (Value.dict.inj same).2)
  | .call name operands, same => by
    rw [Expr.execute, Expr.compile, Value.eval, Expr.run] at same
    exact inert_of_executeAll operands (Value.list.inj (Value.dict.inj same).2)

theorem inert_of_executeAll :
    (es : List Expr) → evalAll recording (compileAll es) = runAll recording es →
      ∀ v ∈ literalsAll es, v.Inert
  | [], _ => fun _ mem => nomatch mem
  | e :: es, same => by
    rw [compileAll, evalAll, runAll] at same
    obtain ⟨head, tail⟩ := List.cons.inj same
    intro v mem
    rcases List.mem_append.mp mem with first | later
    · exact inert_of_execute e head v first
    · exact inert_of_executeAll es tail v later

end

/-- Every other node compiles to a name or to a list. -/
theorem not_inert_compile {e : Expr} (other : ∀ w, e ≠ .lit w) : ¬ e.compile.Inert := by
  cases e with
  | lit v => exact absurd rfl (other v)
  | _ => simp [Expr.compile, Value.Inert]

theorem hygienic_iff (e : Expr) : Hygienic e ↔ ∀ v ∈ e.literals, v.Inert := by
  constructor
  · intro hygienic
    exact inert_of_execute e (hygienic.literal Id recording)
  · intro inert
    constructor
    · intro m _ _ ev
      exact execute_of_inert ev e inert
    · intro v mem e' other same
      rw [Expr.compile] at same
      exact not_inert_compile other (same ▸ inert v mem)

theorem passesExactly_iff (f : Fn) (args : List Value) :
    PassesExactly f args ↔ ∀ v ∈ args, v.Inert := by
  constructor
  · intro exactly
    have same : (Value.list (f.value :: args)).eval recording = .dict f.value (.list args) :=
      exactly Id recording
    rw [Value.eval] at same
    exact inert_of_evalAll (Value.list.inj (Value.dict.inj same).2)
  · intro inert m _ _ ev
    rw [Fn.call, Value.eval, evalAll_of_inert inert, pure_bind]

/-- For every expression, and for every call. -/
theorem literals_reach_iff (e : Expr) (f : Fn) (args : List Value) :
    (Hygienic e ↔ ∀ v ∈ e.literals, v.Inert) ∧ (PassesExactly f args ↔ ∀ v ∈ args, v.Inert) :=
  ⟨hygienic_iff e, passesExactly_iff f args⟩

/-- The list of the name `f` and 1 is applied where it was to be counted, and so is an argument. -/
theorem not_literal_list :
    let v := Value.list [.nameRef "f", .i64 1]
    ¬ Hygienic (.op .count [.lit v]) ∧ ¬ PassesExactly ⟨.object 0, none⟩ [v] := by
  intro v
  constructor
  · intro hygienic
    exact (hygienic_iff _).mp hygienic v (List.mem_singleton_self v)
  · intro exactly
    exact (passesExactly_iff _ _).mp exactly v (List.mem_singleton_self v)

end Rayforce.Query
