import Rayforce.Serve.Alone

/-! The core has one interrupt flag for all servers of a process.  What one server's watcher raises stays
inside the requests, whichever servers come after it. -/

namespace Rayforce.Serve.Servers

open Transition

/-- The registration that a call holds. -/
def Frame.held : Frame → Option Nat
  | .call o _ _ phase => if phase.registered then o else none
  | _ => none

/-- The event starts an evaluation on the loop's thread. -/
def Event.evaluates : Event → Bool
  | .push | .start _ _ _ | .own _ (.ask _) | .own _ (.evaluate _ _) | .own _ .uninstall => true
  | _ => false

/-- A watcher's interrupt that is pending has a request registered that it has stopped. -/
def Answerable (s : State) : Prop :=
  s.interrupt.watcher = true → ∃ n shared run, s.shared? n = some shared ∧
    shared.running = some run ∧ run.stoppedBy.isSome = true

variable {s t : State} {e : Event} {n : Nat} {v : Serve.State}

theorem Answerable.same (h : Answerable s)
    (interrupt : t.interrupt.watcher = true → s.interrupt.watcher = true)
    (kept : ∀ n shared run, s.shared? n = some shared → shared.running = some run →
      ∃ shared', t.shared? n = some shared' ∧ shared'.running = some run) : Answerable t := by
  intro pending
  obtain ⟨n, shared, run, found, running, stopped⟩ := h (interrupt pending)
  obtain ⟨shared', found', running'⟩ := kept n shared run found running
  exact ⟨n, shared', run, found', running', stopped⟩

/-- A `Shared` changes that keeps its request, and no other does. -/
theorem kept_of_set {m : Nat} {x y : Shared} (found : s.shared? m = some x)
    (keeps : ∀ run, x.running = some run → y.running = some run) :
    ∀ n shared run, s.shared? n = some shared → shared.running = some run →
      ∃ shared', (s.setShared m y).shared? n = some shared' ∧ shared'.running = some run := by
  intro n shared run found' running
  by_cases own : m = n
  · subst own
    obtain rfl := Option.some.inj (found.symm.trans found')
    exact ⟨y, shared?_setShared_self found y, keeps run running⟩
  · exact ⟨shared, (shared?_setShared_ne own y).trans found', running⟩

theorem running_begin {shared : Shared} {run : Running} (running : shared.running = some run) (fd : Int)
    (now : Instant) : (shared.begin fd now).2.running = some run := by
  simp [Shared.begin, running]

theorem getElem?_start {shared : Shared} (found : s.shared? n = some shared) (ipc : ServeIpc)
    (a : Answers) : (s.process.start ipc a).2.arcs[n]? = some shared := by
  have started := start_started s.process ipc a
  generalize (s.process.start ipc a).1 = out at started
  generalize (s.process.start ipc a).2 = p at started ⊢
  cases started with
  | panicked text => exact found
  | early why p early _ same =>
    rcases same with rfl | rfl
    · exact found
    · exact getElem?_allocate found
  | undone | served => exact getElem?_allocate found

theorem Answerable.step (h : Answerable s) (step : Step s e t) : Answerable t := by
  cases step with
  | begin fd now top found =>
    exact h.same id (kept_of_set found fun run running => running_begin running fd now)
  | take top found =>
    intro pending
    cases pending
  | record now top found | drain mem opened found =>
    exact h.same id (kept_of_set found fun run running => running)
  | @stop server shared mem opened found =>
    exact h.same id (kept_of_set (y := { shared with stop := true }) found fun run running => running)
  | start ipc a =>
    exact h.same id fun n shared run found running => ⟨shared, getElem?_start found ipc a, running⟩
  | @uninstall server rest a top =>
    exact h.same id fun n shared run found running =>
      ⟨shared, (shared?_uninstall s n server.thread a rest).trans found, running⟩
  | @check m shared run now closed mem checking found running fresh =>
    rw [Shared.check_running running fresh]
    cases reason : stopper shared.budget run now closed with
    | some b => exact fun _ => ⟨m, _, _, shared?_setShared_self found _, rfl, rfl⟩
    | none => exact h.same id (kept_of_set found fun run running => running)
  | _ => exact h.same id fun n shared run found running => ⟨shared, found, running⟩

theorem answerable_reachable (h : Reachable Step initial s) : Answerable s :=
  h.invariant (fun _ _ _ => Answerable.step) fun pending => by cases pending

theorem seen_or_fresh (h : Reachable Step initial s) (n : Nat) :
    Fresh n s ∨ ∃ budget v, Reachable Serve.Step (Serve.initial budget) v ∧ Seen n s v := by
  have invariant : Owned s ∧ (Fresh n s ∨
      ∃ budget v, Reachable Serve.Step (Serve.initial budget) v ∧ Seen n s v) := by
    apply h.invariant (P := fun s => Owned s ∧ (Fresh n s ∨
      ∃ budget v, Reachable Serve.Step (Serve.initial budget) v ∧ Seen n s v))
    · rintro s e t ⟨owned, fresh | ⟨budget, v, reached, seen⟩⟩ step
      · refine ⟨owned.step step, ?_⟩
        obtain ⟨_, kept | ⟨ipc, a, server, rfl, rfl⟩⟩ := fresh.step owned step
        · exact .inl kept
        · obtain ⟨fs, v, born, seen, _⟩ := fresh.served step
          exact .inr ⟨ipc.budget, v, ⟨fs, born⟩, seen⟩
      · obtain ⟨fs, w, moved, seen', _⟩ := seen.step owned step
        exact ⟨owned.step step, .inr ⟨budget, w, reached.run moved, seen'⟩⟩
    · exact ⟨.idle rfl rfl rfl rfl, .inl (fresh_initial n)⟩
  exact invariant.2

theorem held_of_seen {f : Frame} (registered : (f.seen n).registered = true) : f.held = some n := by
  cases f with
  | push => cases registered
  | call o k payload phase =>
    by_cases own : o = some n
    · subst own
      rw [seen_call] at registered
      exact if_pos registered
    · rw [seen_call_ne own] at registered
      cases registered
  | drop server joined =>
    by_cases own : server.shared = n
    · subst own
      rw [seen_drop] at registered
      cases registered
    · rw [seen_drop_ne own] at registered
      cases registered

/-- A registration is held by a call that is under way. -/
theorem held_of_running (h : Reachable Step initial s) {shared : Shared} {run : Running}
    (found : s.shared? n = some shared) (running : shared.running = some run) :
    ∃ f ∈ s.stack, f.held = some n := by
  obtain fresh | ⟨budget, v, reached, seen⟩ := seen_or_fresh h n
  · rw [fresh.idle shared found] at running
    cases running
  · obtain rfl := seen.shared_eq found rfl
    have one : v.stack.countP Serve.Frame.registered = 1 := by
      have registered := registered_reachable reached
      rw [Registered, running] at registered
      exact registered
    obtain ⟨f, mem, registered⟩ := List.countP_pos_iff.mp (one ▸ Nat.one_pos)
    rw [seen.stack] at mem
    obtain ⟨f', mem', rfl⟩ := List.mem_map.mp mem
    exact ⟨f', mem', held_of_seen registered⟩

/-- However servers follow each other, also one started inside a request of another that was dropped
there: a watcher's interrupt that is pending belongs to a request that it has stopped and whose call is
still under way, so that nothing outside of requests begins with one. -/
theorem servers_confined (h : Reachable Step initial s) :
    (s.interrupt.watcher = true → ∃ n shared run, s.shared? n = some shared ∧
      shared.running = some run ∧ run.stoppedBy.isSome = true ∧ ∃ f ∈ s.stack, f.held = some n) ∧
    ∀ e t, Step s e t → e.evaluates = true → (∀ f ∈ s.stack, f.held = none) →
      s.interrupt.watcher = false := by
  have confined (pending : s.interrupt.watcher = true) : ∃ n shared run, s.shared? n = some shared ∧
      shared.running = some run ∧ run.stoppedBy.isSome = true ∧ ∃ f ∈ s.stack, f.held = some n := by
    obtain ⟨n, shared, run, found, running, stopped⟩ := answerable_reachable h pending
    exact ⟨n, shared, run, found, running, stopped, held_of_running h found running⟩
  refine ⟨confined, fun e t _ _ outside => ?_⟩
  cases pending : s.interrupt.watcher with
  | false => rfl
  | true =>
    obtain ⟨n, _, _, _, _, _, f, mem, held⟩ := confined pending
    rw [outside f mem] at held
    cases held

/-- A request is past its budget of five when its watcher looks. -/
theorem servers_confined_past_budget : ∃ s : State, s.interrupt.watcher = true ∧
    ∃ n shared run, s.shared? n = some shared ∧ shared.running = some run ∧
      run.stoppedBy.isSome = true ∧ ∃ f ∈ s.stack, f.held = some n := by
  have reached : Reachable Step initial _ :=
    ⟨_, scope_opens.append <|
      .cons (.start { onPort with budget := some 5 } accepting (by decide)) <|
      .cons (.call (.object 0 []) (by decide)) <| .cons (.ask rfl) <| .cons (.begin 4 0 rfl rfl) <|
      .cons (.evaluate rfl) <| .cons (.watch (.head _) rfl rfl) <|
      .cons (.check 9 false (.head _) rfl rfl rfl rfl) <| .nil _⟩
  exact ⟨_, rfl, (servers_confined reached).1 rfl⟩

end Rayforce.Serve.Servers
