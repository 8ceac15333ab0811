import Rayforce.Serve.Servers

/-! The drop of a server (`serve.rs`): the loop's thread waits for the watcher's, which looks at its flag
once a round. -/

namespace Rayforce.Serve.Servers

open Transition

/-- The rounds, and parts of one, that a watcher makes before it looks at its flag and ends. -/
def remaining : Watcher → Nat
  | .checking => 2
  | .testing => 1
  | .exited => 0

/-- A step of some watcher's thread. -/
def Event.watches : Event → Bool
  | .own _ (.watch _) | .own _ (.check _ _) | .own _ .idle => true
  | _ => false

/-- The loop's thread is joining the watcher of this server. -/
structure Waiting (server : IpcServer) (rest : List Frame) (s : State) : Prop where
  stack : s.stack = .drop server false :: rest
  told : ∃ shared, s.shared? server.shared = some shared ∧ shared.stop = true
  servers : s.process.servers = []
  watchers : s.process.watchers = [server.shared]

variable {s t u : State} {e : Event} {n : Nat} {server : IpcServer} {rest : List Frame}
  {fs : List Event}

theorem stop_check (s : Shared) (i : Interrupt) (now : Instant) (closed : Bool) :
    (s.check i now closed).1.stop = s.stop := by
  obtain ⟨budget, running, ends, stop⟩ := s
  rcases running with _ | ⟨fd, timeStarted, _ | b⟩
  · rfl
  · simp only [Shared.check]
    split <;> rfl
  · rfl

theorem shared?_setShared_self {shared : Shared} (found : s.shared? n = some shared) (x : Shared) :
    (s.setShared n x).shared? n = some x :=
  List.getElem?_set_self (List.getElem?_eq_some_iff.mp found).1

theorem shared?_setShared_ne {m : Nat} (other : m ≠ n) (x : Shared) :
    (s.setShared m x).shared? n = s.shared? n :=
  List.getElem?_set_ne other

theorem Waiting.shut (h : Waiting server rest s) : ¬s.Open := by
  intro opened
  have isOpen := opened (.drop server false) (by rw [h.stack]; rfl)
  cases isOpen

/-- A join that has not come yet keeps everything else of the loop's thread waiting, and the watcher
comes nearer to its end. -/
theorem Waiting.step (h : Waiting server rest s) (step : Step s e t)
    (waits : e ≠ .own (some server.shared) .join) : Waiting server rest t ∧
      remaining (t.watching server.shared) + (if e.watches then 1 else 0) ≤
        remaining (s.watching server.shared) := by
  have mine {m : Nat} (mem : m ∈ s.process.watchers) : m = server.shared := by
    rw [h.watchers] at mem
    exact List.mem_singleton.mp mem
  cases step with
  | push opened | call _ opened | drain _ opened | start _ _ opened | stop _ opened =>
    exact absurd opened h.shut
  | pop top | ask top | evaluateUninstalled top | evaluate top | answer _ top | retUnregistered top
  | ret top | begin _ _ top | take top | record _ top | uninstall _ top =>
    rw [h.stack] at top
    cases top
  | join top =>
    rw [h.stack] at top
    cases top
    exact absurd rfl waits
  | cancel | runtime | bind => exact ⟨⟨h.stack, h.told, h.servers, h.watchers⟩, Nat.le_refl _⟩
  | watch mem testing found =>
    obtain rfl := mine mem
    obtain ⟨shared, told, stop⟩ := h.told
    obtain rfl := Option.some.inj (found.symm.trans told)
    refine ⟨⟨h.stack, h.told, h.servers, h.watchers⟩, ?_⟩
    simp [testing, stop, remaining, Event.watches]
  | idle mem checking found =>
    obtain rfl := mine mem
    refine ⟨⟨h.stack, h.told, h.servers, h.watchers⟩, ?_⟩
    simp [checking, remaining, Event.watches]
  | check now closed mem checking found =>
    obtain rfl := mine mem
    obtain ⟨shared, told, stop⟩ := h.told
    obtain rfl := Option.some.inj (found.symm.trans told)
    refine ⟨⟨h.stack, ?_, h.servers, h.watchers⟩, ?_⟩
    · exact ⟨_, shared?_setShared_self found _, (stop_check ..).trans stop⟩
    · simp [checking, remaining, Event.watches]

theorem Waiting.run (h : Waiting server rest s) (run : Run Step s fs t)
    (waits : .own (some server.shared) .join ∉ fs) : Waiting server rest t ∧
      remaining (t.watching server.shared) + fs.countP Event.watches ≤
        remaining (s.watching server.shared) := by
  induction run with
  | nil s => exact ⟨h, Nat.le_refl _⟩
  | cons first _ ih =>
    obtain ⟨h', once⟩ := h.step first fun same => waits (same ▸ List.mem_cons_self)
    obtain ⟨h'', rounds⟩ := ih h' fun mem => waits (List.mem_cons_of_mem _ mem)
    refine ⟨h'', ?_⟩
    rw [List.countP_cons]
    omega

/-- The drop goes to its end from where the watcher has ended. -/
theorem Waiting.joins (h : Waiting server rest s) (exited : s.watching server.shared = .exited) :
    ∃ gs t, gs.length = 2 ∧ Run Step s gs t ∧ t.stack = rest ∧ t.process.servers = [] ∧
      t.process.installed = none ∧ t.process.watchers = [] := by
  obtain ⟨freed, servers, watchers⟩ := uninstallHooks_servers
    { s.process with watchers := s.process.watchers.erase server.shared } server.thread accepting
  refine ⟨_, _, ?_, .cons (.join h.stack exited) (.single (.uninstall accepting rfl)), rfl,
    servers.trans h.servers, freed, watchers.trans ?_⟩
  · rfl
  · rw [h.watchers]
    simp

theorem Waiting.mem (h : Waiting server rest s) : server.shared ∈ s.process.watchers := by
  rw [h.watchers]
  exact List.mem_singleton_self _

/-- The watcher can make its next step, which brings it nearer to its end. -/
theorem Waiting.nearer (h : Waiting server rest s) {k : Nat}
    (left : remaining (s.watching server.shared) = k + 1) :
    ∃ e t, Step s e t ∧ e.watches = true ∧ remaining (t.watching server.shared) = k := by
  obtain ⟨shared, found, stop⟩ := h.told
  cases at_ : s.watching server.shared with
  | exited =>
    rw [at_] at left
    cases left
  | testing =>
    rw [at_] at left
    obtain rfl : 0 = k := Nat.succ.inj left
    refine ⟨_, _, .watch h.mem at_ found, rfl, ?_⟩
    simp [stop, remaining]
  | checking =>
    rw [at_] at left
    obtain rfl : 1 = k := Nat.succ.inj left
    by_cases idle : ∀ run ∈ shared.running, run.stoppedBy ≠ none
    · exact ⟨_, _, .idle h.mem at_ found idle, rfl, by simp [remaining]⟩
    · simp only [not_forall, not_not] at idle
      obtain ⟨run, running, fresh⟩ := idle
      exact ⟨_, _, .check 0 false h.mem at_ found running fresh, rfl, by simp [remaining]⟩

theorem Waiting.ends (h : Waiting server rest s) :
    ∃ gs t, gs.length = remaining (s.watching server.shared) + 2 ∧ Run Step s gs t ∧ t.stack = rest ∧
      t.process.servers = [] ∧ t.process.installed = none ∧ t.process.watchers = [] := by
  -- by how far the watcher is from its end
  generalize left : remaining (s.watching server.shared) = k
  induction k generalizing s with
  | zero =>
    have exited : s.watching server.shared = .exited := by
      cases at_ : s.watching server.shared with
      | exited => rfl
      | testing | checking =>
        rw [at_] at left
        cases left
    exact h.joins exited
  | succ k ih =>
    obtain ⟨e, t, step, watches, nearer⟩ := h.nearer left
    have waits : e ≠ .own (some server.shared) .join := by
      rintro rfl
      cases watches
    obtain ⟨gs, u, length, run, after⟩ := ih (h.step step waits).1 nearer
    exact ⟨e :: gs, u, by rw [List.length_cons, length], .cons step run, after⟩

/-- On the first thread, with globals that bind no hook. -/
theorem scope_opens : Run Step initial ((Runtime.initial.opening 0).map .runtime)
    { initial with process.runtime := Runtime.initial.inScope 0 } :=
  (Runtime.scope_opens (Runtime.idle_initial 0) rfl).map
    (fun r => { initial with process.runtime := r }) Event.runtime
    fun _ _ _ step => .runtime (fun _ => none) step

end Rayforce.Serve.Servers
