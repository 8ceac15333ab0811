import Rayforce.Serve.Registration

/-! An interrupt of the watcher stays inside the request it was raised for: while one is pending a
request is registered, marked as stopped, and some frame below on the stack is the call of the guard
that will unregister it. -/

namespace Rayforce.Serve

open Transition

/-- The event starts an evaluation on the loop's thread. -/
def Event.evaluates : Event → Bool
  | .push | .ask _ | .evaluate _ _ => true
  | _ => false

/-- Every interrupt of the watcher that is pending belongs to a registered, stopped request. -/
def Confined (s : State) : Prop :=
  s.interrupt.watcher = true →
    ∃ run, s.shared.running = some run ∧ run.stoppedBy.isSome = true

variable {s t : State} {e : Event} {budget : Option Duration}

theorem Confined.step (h : Confined s) (step : Step s e t) : Confined t := by
  cases step with
  | begin fd now top =>
    intro pending
    obtain ⟨run, running, stopped⟩ := h pending
    refine ⟨run, ?_, stopped⟩
    simp only [Shared.begin, running]
  | take top =>
    intro pending
    cases pending
  | check now closed checking running fresh =>
    intro pending
    simp only [Shared.check_running running fresh] at pending ⊢
    cases reason : stopper s.shared.budget _ now closed with
    | some b => exact ⟨_, rfl, rfl⟩
    | none =>
      simp only [reason] at pending
      obtain ⟨run, running', stopped⟩ := h pending
      obtain rfl := Option.some.inj (running.symm.trans running')
      simp [fresh] at stopped
  | _ => exact h

theorem confined_reachable (h : Reachable Step (initial budget) s) : Confined s :=
  h.invariant (fun _ _ _ => Confined.step) (fun pending => nomatch pending)

/-- In every interleaving a pending interrupt of the watcher belongs to a request that is registered
and stopped, so an evaluation that starts outside a registered request starts without one. -/
theorem interrupt_confined (h : Reachable Step (initial budget) s) :
    (s.interrupt.watcher = true →
      ∃ run, s.shared.running = some run ∧ run.stoppedBy.isSome = true) ∧
    ∀ e t, Step s e t → e.evaluates = true → (∀ f ∈ s.stack, f.registered = false) →
      s.interrupt.watcher = false := by
  refine ⟨confined_reachable h, ?_⟩
  intro e t _ _ outside
  have none := running_none_of_unregistered (registered_reachable h) outside
  cases pending : s.interrupt.watcher with
  | false => rfl
  | true =>
    obtain ⟨run, running, _⟩ := confined_reachable h pending
    rw [none] at running
    cases running

/-- A check past the budget of five finds the request of call 0 running, and an interrupt is then
pending in a reachable state. -/
theorem interrupt_confined_past_budget :
    ∃ s, Reachable Step (initial (some 5)) s ∧ s.interrupt.watcher = true ∧
      (s.interrupt.watcher = true →
        ∃ run, s.shared.running = some run ∧ run.stoppedBy.isSome = true) ∧
      ∀ e t, Step s e t → e.evaluates = true → (∀ f ∈ s.stack, f.registered = false) →
        s.interrupt.watcher = false := by
  have reached : Reachable Step (initial (some 5)) _ :=
    ⟨_, .cons (.call (.object 0 []) (by decide)) <| .cons (.ask rfl) <| .cons (.begin 4 0 rfl) <|
      .cons (.evaluate rfl) <| .cons (.watch rfl) <| .cons (.check 9 false rfl rfl rfl) <| .nil _⟩
  exact ⟨_, reached, rfl, interrupt_confined reached⟩

end Rayforce.Serve
