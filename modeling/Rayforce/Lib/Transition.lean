import Mathlib.Data.List.Induction

/-! Labelled transition relations: runs, the states they reach, and the rules by which what one
step preserves holds along a whole run. -/

namespace Transition

variable {σ ε : Type*} {step : σ → ε → σ → Prop} {s t u : σ} {e : ε} {es fs : List ε}

/-- The events, in order, lead from the first state to the second. -/
inductive Run (step : σ → ε → σ → Prop) : σ → List ε → σ → Prop
  | nil (s : σ) : Run step s [] s
  | cons {s t u : σ} {e : ε} {es : List ε} :
      step s e t → Run step t es u → Run step s (e :: es) u

/-- Some run leads from `start` to `s`. -/
def Reachable (step : σ → ε → σ → Prop) (start s : σ) : Prop :=
  ∃ es, Run step start es s

/-- The steps of `step` whose event `ok` admits in the state before it. -/
def Guarded (step : σ → ε → σ → Prop) (ok : σ → ε → Prop) (s : σ) (e : ε) (t : σ) : Prop :=
  step s e t ∧ ok s e

theorem Run.append (h : Run step s es t) (h' : Run step t fs u) : Run step s (es ++ fs) u := by
  induction h with
  | nil => exact h'
  | cons first _ ih => exact .cons first (ih h')

theorem Run.single (h : step s e t) : Run step s [e] t := .cons h (.nil t)

theorem Run.mono {step' : σ → ε → σ → Prop} (weaker : ∀ s e t, step s e t → step' s e t)
    (h : Run step s es t) : Run step' s es t := by
  induction h with
  | nil => exact .nil _
  | cons first _ ih => exact .cons (weaker _ _ _ first) ih

/-- A run of a part, as a run of the whole. -/
theorem Run.map {τ δ : Type*} {whole : τ → δ → τ → Prop} (into : σ → τ) (event : ε → δ)
    (steps : ∀ s e t, step s e t → whole (into s) (event e) (into t)) (h : Run step s es t) :
    Run whole (into s) (es.map event) (into t) := by
  induction h with
  | nil => exact .nil _
  | cons first _ ih => exact .cons (steps _ _ _ first) ih

theorem run_append_iff :
    Run step s (es ++ fs) u ↔ ∃ t, Run step s es t ∧ Run step t fs u := by
  constructor
  · intro h
    induction es generalizing s with
    | nil => exact ⟨s, .nil s, h⟩
    | cons e es ih =>
      cases h with
      | cons first rest =>
        obtain ⟨t, before, after⟩ := ih rest
        exact ⟨t, .cons first before, after⟩
  · rintro ⟨t, before, after⟩
    exact before.append after

theorem run_cons_iff : Run step s (e :: es) u ↔ ∃ t, step s e t ∧ Run step t es u := by
  constructor
  · rintro ⟨⟩
    exact ⟨_, ‹_›, ‹_›⟩
  · rintro ⟨t, first, rest⟩
    exact .cons first rest

theorem Run.invariant {P : σ → Prop} (keeps : ∀ s e t, P s → step s e t → P t)
    (h : Run step s es t) (start : P s) : P t := by
  induction h with
  | nil => exact start
  | cons first _ ih => exact ih (keeps _ _ _ start first)

/-- Where a guard says which steps keep a property, given what all steps keep: after a guarded run it
holds, and the next step keeps it exactly where that is guarded. -/
theorem Run.guarded_iff {P Q : σ → Prop} {ok : σ → ε → Prop}
    (keeps : ∀ s e t, P s → Q s → step s e t → Q t ∧ (P t ↔ ok s e))
    (h : Run (Guarded step ok) s es t) (start : P s) (start' : Q s) (last : step t e u) :
    P t ∧ (P u ↔ ok t e) := by
  have kept : P t ∧ Q t := by
    apply h.invariant (P := fun s => P s ∧ Q s)
    · rintro s e t ⟨holds, besides⟩ ⟨next, guarded⟩
      obtain ⟨besides', exact⟩ := keeps s e t holds besides next
      exact ⟨exact.mpr guarded, besides'⟩
    · exact ⟨start, start'⟩
  exact ⟨kept.1, (keeps t e u kept.1 kept.2 last).2⟩

/-- A relation between the events of a run and the state after them, kept as the run grows. -/
theorem Run.history {P : List ε → σ → Prop} (start : P [] s)
    (grows : ∀ es t e u, Run step s es t → P es t → step t e u → P (es ++ [e]) u)
    (h : Run step s es t) : P es t := by
  induction es using List.reverseRecOn generalizing t with
  | nil => cases h; exact start
  | append_singleton es e ih =>
    obtain ⟨m, before, last⟩ := run_append_iff.mp h
    obtain ⟨_, last, ⟨⟩⟩ := run_cons_iff.mp last
    exact grows es m e t before (ih before) last

/-- A run seen through a view of the states and of the events: what the events stand for is a run of
the steps seen, where an event moves the view by what it stands for, and not if that is nothing. -/
theorem Run.view {τ δ : Type*} {part : τ → δ → τ → Prop} {P : σ → Prop} (view : σ → τ)
    (sees : ε → Option δ) (keeps : ∀ s e t, P s → step s e t → P t)
    (moves : ∀ s e t d, P s → step s e t → sees e = some d → part (view s) d (view t))
    (stays : ∀ s e t, P s → step s e t → sees e = none → view t = view s)
    (h : Run step s es t) (start : P s) : Run part (view s) (es.filterMap sees) (view t) := by
  induction h with
  | nil => exact .nil _
  | @cons s m _ e es first _ ih =>
    have rest := ih (keeps s e m start first)
    cases seen : sees e with
    | some d =>
      rw [List.filterMap_cons_some seen]
      exact .cons (moves s e m d start first seen) rest
    | none =>
      rw [List.filterMap_cons_none seen, ← stays s e m start first seen]
      exact rest

/-- A run seen from one part of the state: the events of that part form a run of its own steps,
where each of them moves the part so and no other event moves it. -/
theorem Run.project {τ : Type*} {part : τ → ε → τ → Prop} {P : σ → Prop} (view : σ → τ)
    (mine : ε → Bool) (keeps : ∀ s e t, P s → step s e t → P t)
    (moves : ∀ s e t, P s → step s e t → mine e = true → part (view s) e (view t))
    (stays : ∀ s e t, P s → step s e t → mine e = false → view t = view s)
    (h : Run step s es t) (start : P s) : Run part (view s) (es.filter mine) (view t) := by
  rw [← List.filterMap_eq_filter]
  refine h.view view _ keeps (fun s e t d holds step seen => ?_) (fun s e t holds step seen => ?_) start
  · obtain ⟨rfl, own⟩ := Option.guard_eq_some_iff.mp seen
    exact moves s e t holds step own
  · exact stays s e t holds step (Option.guard_eq_none_iff.mp seen)

/-- Each step raises the rank, so a run is no longer than the ranks of its ends are apart. -/
theorem Run.length_le (rank : σ → Nat) (rises : ∀ s e t, step s e t → rank s < rank t)
    (h : Run step s es t) : rank s + es.length ≤ rank t := by
  induction h with
  | nil => exact Nat.le_refl _
  | cons first _ ih =>
    have := rises _ _ _ first
    simp only [List.length_cons]
    omega

theorem Reachable.refl (s : σ) : Reachable step s s := ⟨[], .nil s⟩

theorem Reachable.tail (h : Reachable step s t) (last : step t e u) : Reachable step s u :=
  let ⟨_, before⟩ := h
  ⟨_, before.append (.single last)⟩

theorem Reachable.run (h : Reachable step s t) (after : Run step t es u) : Reachable step s u :=
  let ⟨_, before⟩ := h
  ⟨_, before.append after⟩

theorem Reachable.invariant {P : σ → Prop} (keeps : ∀ s e t, P s → step s e t → P t)
    (h : Reachable step s t) (start : P s) : P t :=
  let ⟨_, run⟩ := h
  run.invariant keeps start

/-! ### Machines given by a function -/

/-- The steps of a machine whose next state is computed, and absent where the event cannot
happen. -/
def Steps (next : σ → ε → Option σ) (s : σ) (e : ε) (t : σ) : Prop := next s e = some t

/-- The state after a list of events. -/
def exec (next : σ → ε → Option σ) : σ → List ε → Option σ
  | s, [] => some s
  | s, e :: es => (next s e).bind fun t => exec next t es

theorem exec_eq_some_iff {next : σ → ε → Option σ} :
    exec next s es = some t ↔ Run (Steps next) s es t := by
  induction es generalizing s with
  | nil =>
    constructor
    · rintro ⟨⟩
      exact .nil _
    · rintro ⟨⟩
      rfl
  | cons e es ih =>
    rw [exec, Option.bind_eq_some_iff, run_cons_iff]
    exact exists_congr fun m => and_congr_right fun _ => ih

/-- Where one machine can do what another can, and what they do stays related, each guarded run of one
is a run of the other. -/
theorem Run.followed {τ : Type*} {next : σ → ε → Option σ} {next' : τ → ε → Option τ}
    {R : σ → τ → Prop} {ok : σ → ε → Prop} {s' : τ}
    (follows : ∀ s s' e, R s s' → ok s e → Option.Rel R (next s e) (next' s' e))
    (h : Run (Guarded (Steps next) ok) s es t) (start : R s s') :
    ∃ t', exec next' s' es = some t' ∧ R t t' := by
  induction es generalizing s s' with
  | nil =>
    cases h
    exact ⟨s', rfl, start⟩
  | cons e es ih =>
    obtain ⟨m, ⟨first, guarded⟩, rest⟩ := run_cons_iff.mp h
    have related := follows s s' e start guarded
    rw [show next s e = some m from first] at related
    generalize reached : next' s' e = m' at related
    cases related with
    | some related =>
      obtain ⟨t', after, related'⟩ := ih rest related
      exact ⟨t', by rw [exec, reached, Option.bind_some, after], related'⟩

end Transition
