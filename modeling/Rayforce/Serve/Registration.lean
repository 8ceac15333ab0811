import Mathlib.Data.List.Count
import Rayforce.Serve.Machine

/-! The registration of a request.  The slot that `begin` fills and `finish` empties is full exactly
while one call on the stack, the outermost of the guard's that found it empty, holds it. -/

namespace Rayforce.Serve

open Transition

/-- The call holds the registration, from `begin` to the critical section of `finish`. -/
def Phase.registered : Phase → Bool
  | .ready registered | .evaluating registered | .answered registered _ => registered
  | _ => false

def Frame.registered : Frame → Bool
  | .call _ _ phase => phase.registered
  | _ => false

/-- A request is registered exactly while one frame holds the registration. -/
def Registered (s : State) : Prop :=
  s.stack.countP Frame.registered = if s.shared.running.isSome then 1 else 0

variable {s t : State} {e : Event} {payload : Payload} {answer : Answer} {k : Nat}
  {rest : List Frame} {budget : Option Duration}

theorem Shared.check_running {s : Shared} {run : Running} (h : s.running = some run)
    (fresh : run.stoppedBy = none) (i : Interrupt) (now : Instant) (closed : Bool) :
    s.check i now closed =
      match stopper s.budget run now closed with
      | some b => ({ s with running := some { run with stoppedBy := some b } }, i.request)
      | none => (s, i) := by
  obtain ⟨fd, timeStarted, stoppedBy⟩ := run
  obtain rfl : stoppedBy = none := fresh
  cases stop : stopper s.budget ⟨fd, timeStarted, none⟩ now closed with
  | none => simp [Shared.check, h, stop]
  | some b => simp [Shared.check, h, stop]

theorem registered_afterTake (answer : Answer) (run : Option Running) :
    (afterTake answer run).registered = false := by
  cases run <;> rfl

theorem check_running_isSome (s : Shared) (i : Interrupt) (now : Instant) (closed : Bool) :
    (s.check i now closed).1.running.isSome = s.running.isSome := by
  obtain ⟨budget, running, ends, stop⟩ := s
  rcases running with _ | ⟨fd, timeStarted, _ | b⟩
  · rfl
  · simp only [Shared.check]
    split <;> rfl
  · rfl

theorem Registered.step (h : Registered s) (step : Step s e t) : Registered t := by
  unfold Registered at h ⊢
  cases step with
  | begin fd now top =>
    simp only [top, List.countP_cons] at h ⊢
    cases running : s.shared.running with
    | some run =>
      rw [running] at h
      simp only [Shared.begin, running]
      exact h
    | none =>
      rw [running] at h
      simp only [Shared.begin, running]
      exact congrArg (· + 1) h
  | take top =>
    simp only [top, List.countP_cons] at h
    have others : ∀ n : Nat, n + 1 = (if s.shared.running.isSome then 1 else 0) → n = 0 := by
      intro n eq
      split at eq <;> omega
    simp [Shared.take, Frame.registered, registered_afterTake, others _ h]
  | check now closed checking running fresh =>
    simp only [check_running_isSome]
    exact h
  | drain | watch | idle | cancel => exact h
  | push | call | stop =>
    simp only [List.countP_cons]
    exact h
  | pop top | ask top | evaluateUninstalled top | evaluate top | answer raw top | record now top
  | retUnregistered top | ret top | join top | uninstall top =>
    simp only [top, List.countP_cons] at h ⊢
    exact h

theorem registered_reachable (h : Reachable Step (initial budget) s) : Registered s :=
  h.invariant (fun _ _ _ => Registered.step) rfl

theorem running_none_of_unregistered (h : Registered s)
    (outside : ∀ f ∈ s.stack, f.registered = false) : s.shared.running = none := by
  have zero : s.stack.countP Frame.registered = 0 := by
    rw [List.countP_eq_zero]
    intro f mem
    simp [outside f mem]
  unfold Registered at h
  rw [zero] at h
  cases running : s.shared.running with
  | none => rfl
  | some run => simp [running] at h

/-- A call that holds the registration finds it when it takes it. -/
theorem Registered.running (h : Registered s)
    (top : s.stack = .call k payload (.answered true answer) :: rest) :
    ∃ run, s.shared.running = some run := by
  unfold Registered at h
  rw [top, List.countP_cons_of_pos rfl] at h
  cases running : s.shared.running with
  | none => simp [running] at h
  | some run => exact ⟨run, rfl⟩

end Rayforce.Serve
