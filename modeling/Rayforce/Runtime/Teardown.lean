import Rayforce.Runtime.Ownership

/-! The order of a teardown.  Every runtime and every loop that was ever created still exists or was
destroyed once, and a runtime's loop went down before it. -/

namespace Rayforce.Runtime

open Transition

variable {s s' : State} {t : Thread} {e : Event} {c : Core}

/-- A runtime with this number exists. -/
def Core.Has (c : Core) (r : Nat) : Prop := ∃ x ∈ c.runtimes, x.id = r

/-- A loop with this number exists. -/
def Core.HasLoop (c : Core) (p : Nat) : Prop := ∃ x ∈ c.loops, x.id = p

instance (c : Core) (r : Nat) : Decidable (c.Has r) :=
  inferInstanceAs (Decidable (∃ x ∈ c.runtimes, x.id = r))

instance (c : Core) (p : Nat) : Decidable (c.HasLoop p) :=
  inferInstanceAs (Decidable (∃ x ∈ c.loops, x.id = p))

/-- What the log of the core's calls says of everything created so far. -/
structure Settled (c : Core) : Prop where
  runtime_created : ∀ r, c.log.count (.runtimeCreate r) = if r < c.nextRuntime then 1 else 0
  runtime_destroyed : ∀ r, c.log.count (.runtimeDestroy r) =
    if r < c.nextRuntime ∧ ¬c.Has r then 1 else 0
  poll_destroyed : ∀ p, c.log.count (.pollDestroy p) =
    if p < c.nextLoop ∧ ¬c.HasLoop p then 1 else 0
  has_lt : ∀ r, c.Has r → r < c.nextRuntime
  hasLoop_lt : ∀ p, c.HasLoop p → p < c.nextLoop
  poll_created : ∀ r p, .pollCreate r p ∈ c.log → p < c.nextLoop
  poll_first : ∀ r p, .pollCreate r p ∈ c.log → .runtimeDestroy r ∈ c.log →
    [.pollDestroy p, .runtimeDestroy r].Sublist c.log

theorem Settled.destroyed_iff (h : Settled c) (r : Nat) :
    .runtimeDestroy r ∈ c.log ↔ r < c.nextRuntime ∧ ¬c.Has r := by
  rw [← List.count_pos_iff, h.runtime_destroyed r]
  split <;> simp_all

theorem Settled.poll_destroyed_iff (h : Settled c) (p : Nat) :
    .pollDestroy p ∈ c.log ↔ p < c.nextLoop ∧ ¬c.HasLoop p := by
  rw [← List.count_pos_iff, h.poll_destroyed p]
  split <;> simp_all

theorem settled_initial : Settled initial.core := by
  constructor <;> simp [initial, Core.Has, Core.HasLoop]

/-- The next number is not one of those that are gone. -/
theorem gone_succ_iff {n next : Nat} {there : Prop} :
    n < next + 1 ∧ ¬(next = n ∨ there) ↔ n < next ∧ ¬there := by
  constructor
  · rintro ⟨lt, no⟩
    exact ⟨by omega, fun h => no (.inr h)⟩
  · rintro ⟨lt, no⟩
    refine ⟨by omega, ?_⟩
    rintro (eq | h)
    · omega
    · exact no h

theorem exists_other_iff {α : Type} {xs : List α} {id : α → Nat} {n gone : Nat} :
    (∃ x, (x ∈ xs ∧ id x ≠ gone) ∧ id x = n) ↔ (∃ x ∈ xs, id x = n) ∧ n ≠ gone := by
  constructor
  · rintro ⟨x, ⟨mem, ne⟩, rfl⟩
    exact ⟨⟨x, mem, rfl⟩, ne⟩
  · rintro ⟨⟨x, mem, rfl⟩, ne⟩
    exact ⟨x, ⟨mem, ne⟩, rfl⟩

theorem Settled.runtimeCreate (h : Settled c) (t : Thread) : Settled (c.runtimeCreate t) := by
  have has : ∀ r, (c.runtimeCreate t).Has r ↔ c.nextRuntime = r ∨ c.Has r := by
    simp [Core.Has, Core.runtimeCreate]
  have loop : ∀ p, (c.runtimeCreate t).HasLoop p ↔ c.HasLoop p := fun p => Iff.rfl
  have log : (c.runtimeCreate t).log = c.log ++ [.runtimeCreate c.nextRuntime] := rfl
  have next : (c.runtimeCreate t).nextRuntime = c.nextRuntime + 1 := rfl
  have nextLoop : (c.runtimeCreate t).nextLoop = c.nextLoop := rfl
  constructor
  · intro r
    rw [log, next, List.count_append, h.runtime_created r]
    by_cases new : c.nextRuntime = r
    · subst new
      simp
    · have same : r < c.nextRuntime + 1 ↔ r < c.nextRuntime := by omega
      simp [new, same]
  · intro r
    rw [log, next, List.count_append, h.runtime_destroyed r]
    simp only [has, gone_succ_iff]
    simp
  · intro p
    rw [log, nextLoop, List.count_append, h.poll_destroyed p]
    simp [loop]
  · intro r mem
    rw [next]
    rcases (has r).mp mem with eq | old
    · omega
    · exact Nat.lt_succ_of_lt (h.has_lt r old)
  · exact h.hasLoop_lt
  · intro r p mem
    rw [log] at mem
    exact h.poll_created r p (by simpa using mem)
  · intro r p made gone
    rw [log] at made gone ⊢
    exact (h.poll_first r p (by simpa using made) (by simpa using gone)).trans
      (List.sublist_append_left ..)

theorem has_setPoll (c : Core) (poll : Option Loop) (r : Nat) :
    (c.setPoll poll).Has r ↔ c.Has r := by
  unfold Core.Has Core.setPoll
  cases c.runtimes <;> simp

theorem Settled.setPoll (h : Settled c) (poll : Option Loop) : Settled (c.setPoll poll) := by
  have has := has_setPoll c poll
  refine ⟨h.runtime_created, ?_, h.poll_destroyed, ?_, h.hasLoop_lt, h.poll_created, h.poll_first⟩
  · intro r
    simp only [has]
    exact h.runtime_destroyed r
  · intro r mem
    exact h.has_lt r ((has r).mp mem)

theorem Settled.pollCreate {r₀ : Nat} (h : Settled c) (current : c.current = some r₀)
    (address : Address) : Settled (c.pollCreate address) := by
  have has : ∀ r, (c.pollCreate address).Has r ↔ c.Has r := has_setPoll c _
  have loop : ∀ p, (c.pollCreate address).HasLoop p ↔ c.nextLoop = p ∨ c.HasLoop p := by
    simp [Core.HasLoop, Core.pollCreate]
  have log : (c.pollCreate address).log = c.log ++ [.pollCreate r₀ c.nextLoop] := by
    simp [Core.pollCreate, current]
  have next : (c.pollCreate address).nextRuntime = c.nextRuntime := rfl
  have nextLoop : (c.pollCreate address).nextLoop = c.nextLoop + 1 := rfl
  have there : c.Has r₀ := by
    obtain ⟨x, first, id⟩ := Option.map_eq_some_iff.mp current
    exact ⟨x, List.mem_of_mem_head? first, id⟩
  constructor
  · intro r
    rw [log, next, List.count_append, h.runtime_created r]
    simp
  · intro r
    rw [log, next, List.count_append, h.runtime_destroyed r]
    simp [has]
  · intro p
    rw [log, nextLoop, List.count_append, h.poll_destroyed p]
    simp only [loop, gone_succ_iff]
    simp
  · intro r mem
    exact h.has_lt r ((has r).mp mem)
  · intro p mem
    rw [nextLoop]
    rcases (loop p).mp mem with eq | old
    · omega
    · exact Nat.lt_succ_of_lt (h.hasLoop_lt p old)
  · intro r p mem
    rw [log, List.mem_append] at mem
    rw [nextLoop]
    rcases mem with old | new
    · exact Nat.lt_succ_of_lt (h.poll_created r p old)
    · obtain ⟨_, rfl⟩ : r = r₀ ∧ p = c.nextLoop := by simpa using new
      exact Nat.lt_succ_self _
  · intro r p made gone
    rw [log] at made gone ⊢
    have down : .runtimeDestroy r ∈ c.log := by simpa using gone
    rcases List.mem_append.mp made with old | new
    · exact (h.poll_first r p old down).trans (List.sublist_append_left ..)
    · obtain ⟨rfl, _⟩ : r = r₀ ∧ p = c.nextLoop := by simpa using new
      exact absurd there ((h.destroyed_iff r).mp down).2

theorem Settled.pollDestroy {p₀ : Loop} (h : Settled c) (mem : p₀ ∈ c.loops) :
    Settled (c.pollDestroy p₀) := by
  have loop : ∀ p, (c.pollDestroy p₀).HasLoop p ↔ c.HasLoop p ∧ p ≠ p₀.id := by
    intro p
    simp only [Core.HasLoop, Core.pollDestroy, List.mem_filter, decide_eq_true_eq]
    exact exists_other_iff
  have log : (c.pollDestroy p₀).log = c.log ++ [.pollDestroy p₀.id] := rfl
  have nextLoop : (c.pollDestroy p₀).nextLoop = c.nextLoop := rfl
  have there : c.HasLoop p₀.id := ⟨p₀, mem, rfl⟩
  refine ⟨?_, ?_, ?_, h.has_lt, ?_, ?_, ?_⟩
  · intro r
    rw [log, List.count_append, h.runtime_created r]
    simp [Core.pollDestroy]
  · intro r
    rw [log, List.count_append, h.runtime_destroyed r]
    simp [Core.pollDestroy, Core.Has]
  · intro p
    rw [log, nextLoop, List.count_append, h.poll_destroyed p]
    by_cases same : p = p₀.id
    · subst same
      simp [there, loop, h.hasLoop_lt _ there]
    · have ne : p₀.id ≠ p := fun eq => same eq.symm
      simp [loop, same, ne]
  · intro p mem
    exact h.hasLoop_lt p ((loop p).mp mem).1
  · intro r p made
    exact h.poll_created r p (by simpa [log] using made)
  · intro r p made gone
    rw [log] at made gone ⊢
    exact (h.poll_first r p (by simpa using made) (by simpa using gone)).trans
      (List.sublist_append_left ..)

theorem Settled.runtimeDestroy {r₀ : Nat} (h : Settled c) (there : c.Has r₀)
    (loops : c.loops = []) : Settled (c.runtimeDestroy r₀) := by
  have has : ∀ r, (c.runtimeDestroy r₀).Has r ↔ c.Has r ∧ r ≠ r₀ := by
    intro r
    simp only [Core.Has, Core.runtimeDestroy, List.mem_filter, decide_eq_true_eq]
    exact exists_other_iff
  have log : (c.runtimeDestroy r₀).log = c.log ++ [.runtimeDestroy r₀] := rfl
  have next : (c.runtimeDestroy r₀).nextRuntime = c.nextRuntime := rfl
  refine ⟨?_, ?_, ?_, ?_, h.hasLoop_lt, ?_, ?_⟩
  · intro r
    rw [log, List.count_append, h.runtime_created r]
    simp [Core.runtimeDestroy]
  · intro r
    rw [log, next, List.count_append, h.runtime_destroyed r]
    by_cases same : r = r₀
    · subst same
      simp [there, has, h.has_lt _ there]
    · have ne : r₀ ≠ r := fun eq => same eq.symm
      simp [has, same, ne]
  · intro p
    rw [log, List.count_append, h.poll_destroyed p]
    simp [Core.runtimeDestroy, Core.HasLoop]
  · intro r mem
    exact h.has_lt r ((has r).mp mem).1
  · intro r p made
    exact h.poll_created r p (by simpa [log] using made)
  · intro r p made gone
    rw [log] at made gone ⊢
    have up : .pollCreate r p ∈ c.log := by simpa using made
    rcases List.mem_append.mp gone with old | new
    · exact (h.poll_first r p up old).trans (List.sublist_append_left ..)
    · obtain rfl : r = r₀ := by simpa using new
      -- the loop is gone already, since none is left
      have down : .pollDestroy p ∈ c.log := by
        rw [h.poll_destroyed_iff]
        refine ⟨h.poll_created r p up, ?_⟩
        simp [Core.HasLoop, loops]
      exact (List.singleton_sublist.mpr down).append (List.Sublist.refl _)

theorem Settled.step (h : Settled s.core) (owned : Owned s) (step : Step s e s') :
    Settled s'.core := by
  cases step with
  | enter | exchange | exchangeLost | refuse | createFailed | reset | own | finish | getPoll
  | disown | vacate => exact h
  | create top => exact h.runtimeCreate _
  | unsetPoll top => exact h.setPoll none
  | destroyPoll top =>
    obtain ⟨_, loops, _⟩ := (owned.held top rfl).1.holding
    exact h.pollDestroy (by simp [loops])
  | destroy top =>
    obtain ⟨runtimes, loops, _⟩ := (owned.held top rfl).1.holding
    exact h.runtimeDestroy ⟨_, runtimes ▸ List.mem_singleton_self _, rfl⟩ loops
  | @install t made idle fresh =>
    rcases install_cases s t made with ⟨polls, eq⟩ | ⟨address, polls, _, owns, _, eq⟩
    · rw [eq]
      exact h
    · obtain ⟨rt, held⟩ := owned.body idle owns
      obtain ⟨⟨poll, runtimes, _⟩, _⟩ := held.holding
      have current : s.core.current = some rt := by simp [Core.current, runtimes]
      rw [eq]
      exact h.pollCreate current address
  | @connect t made idle ok fresh =>
    obtain ⟨rt, held⟩ := owned.body idle (owns_of_assert ok)
    obtain ⟨⟨poll, runtimes, _⟩, _⟩ := held.holding
    have current : s.core.current = some rt := by simp [Core.current, runtimes]
    rcases ensurePoll_cases s made with eq | ⟨_, eq | ⟨address, _, eq⟩⟩
    · rw [eq]
      exact h
    · rw [eq]
      exact h.setPoll none
    · rw [eq]
      exact h.pollCreate current address

theorem settled_reachable (h : Reachable Step initial s) : Settled s.core := by
  have both : Owned s ∧ Settled s.core :=
    Reachable.invariant (P := fun s => Owned s ∧ Settled s.core)
      (fun _ _ _ inv step => ⟨inv.1.step step, inv.2.step inv.1 step⟩) h
      ⟨owned_initial, settled_initial⟩
  exact both.2

/-! ### Uniqueness and ownership -/

theorem Owned.length_le (h : Owned s) : s.core.runtimes.length ≤ 1 := by
  rcases h with free | ⟨t, f, held⟩
  · simp [free.runtimes]
  · have holding := held.holding
    cases f <;> simp only [Holding] at holding <;> grind

/-- Every runtime that exists was created by the thread past the compare-exchange. -/
theorem Held.creator {f : Scope} {r : CoreRuntime} (h : Held s t f) (mem : r ∈ s.core.runtimes) :
    r.creator = t := by
  have holding := h.holding
  cases f <;> simp only [Holding] at holding <;> grind

theorem Owned.owns_iff (h : Owned s) (idle : s.Idle t) :
    s.owns t = true ↔ ∃ r ∈ s.core.runtimes, r.creator = t := by
  constructor
  · intro owns
    obtain ⟨rt, held⟩ := h.body idle owns
    obtain ⟨⟨poll, runtimes, _⟩, _⟩ := held.holding
    exact ⟨_, runtimes ▸ List.mem_singleton_self _, rfl⟩
  · rintro ⟨r, mem, created⟩
    rcases h with free | ⟨t₀, f₀, held⟩
    · rw [free.runtimes] at mem
      cases mem
    · obtain rfl : t = t₀ := created.symm.trans (held.creator mem)
      have loud := held.loud
      cases stack : s.stack t with
      | nil => simp [State.loud, stack] at loud
      | cons f rest =>
        obtain ⟨rt, rfl⟩ := idle f (by simp [stack])
        exact (Owned.held (.inr ⟨t, f₀, held⟩) stack rfl).1.holding.2

/-- While some thread owns the runtime, no step of `Runtime::new` on any thread changes what it
relies on. -/
theorem Owned.new_unchanged (h : Owned s) (owns : s.owns t = true) (step : Step s e s')
    (new : e.new = true) :
    s'.live = s.live ∧ s'.core = s.core ∧ s'.owns = s.owns ∧ s'.loud t = s.loud t := by
  have same : ∀ {t' : Thread} {scopes : List Scope},
      scopes.filter (!·.quiet) = s.loud t' → (s.goto t' scopes).loud t = s.loud t := by
    intro t' scopes eq
    by_cases own : t = t'
    · subst own
      rw [loud_goto_self, eq]
    · exact loud_goto_of_ne s scopes own
  -- past the compare-exchange, `new` has not set the flag yet
  have unset : ∀ {t' : Thread} {f : Scope} {rest : List Scope}, s.stack t' = f :: rest →
      f.quiet = false → (Holding t' s.core (s.owns t') f → s.owns t' = false) → False := by
    intro t' f rest top won off
    have held := (h.held top won).1
    by_cases own : t = t'
    · subst own
      rw [off held.holding] at owns
      cases owns
    · rw [held.owns t own] at owns
      cases owns
  cases step with
  | enter idle => exact ⟨rfl, rfl, rfl, same rfl⟩
  | exchangeLost top live => exact ⟨rfl, rfl, rfl, same (loud_of_top top).symm⟩
  | refuse top => exact ⟨rfl, rfl, rfl, same (loud_of_top top).symm⟩
  | exchange top free =>
    rcases h with nobody | ⟨t₀, f₀, held⟩
    · rw [nobody.owns t] at owns
      cases owns
    · rw [held.live] at free
      cases free
  | create top | createFailed top | reset top | own top =>
    exact (unset top rfl (fun holding => holding.2.2)).elim
  | _ => cases new

/-- Where every thread's attempts are still to win, the flag is down. -/
theorem Owned.live_eq_false (h : Owned s)
    (outside : ∀ t, ∀ f ∈ s.stack t, f.quiet = true) : s.live = false := by
  rcases h with free | ⟨t, f, held⟩
  · exact free.live
  · have none : s.loud t = [] := by
      rw [State.loud, List.filter_eq_nil_iff]
      intro f mem
      simp [outside t f mem]
    rw [held.loud] at none
    cases none

theorem Owned.empty (h : Owned s) (live : s.live = false) :
    s.core.runtimes = [] ∧ s.core.loops = [] := by
  rcases h with free | ⟨t, f, held⟩
  · exact ⟨free.runtimes, free.loops⟩
  · rw [held.live] at live
    cases live

theorem scope_starts (live : s.live = false) (idle : s.Idle t) :
    ∃ s', Run Step s [.enter t, .exchange t true] s' := by
  have top : (s.goto t (.entering :: s.stack t)).stack t = .entering :: s.stack t := by
    simp [State.goto]
  exact ⟨_, .cons (.enter idle) (.single (.exchange top live))⟩

/-- In every interleaving of threads that enter and leave scopes: there is at most one runtime; a
thread that runs its own code has its flag set exactly when that runtime is its own; an attempt
changes nothing for the thread that owns it; every runtime and loop created still exists or went down
exactly once, the loop first; and with no thread inside a scope all are gone and a new scope starts. -/
theorem runtime_unique (h : Reachable Step initial s) :
    s.core.runtimes.length ≤ 1 ∧
    (∀ t, s.Idle t → (s.owns t = true ↔ ∃ r ∈ s.core.runtimes, r.creator = t) ∧
      ∀ what, (s.assertOnRuntimeThread t what).isOk = s.owns t) ∧
    (∀ t e s', s.owns t = true → Step s e s' → e.new = true →
      s'.live = s.live ∧ s'.core = s.core ∧ s'.owns = s.owns ∧ s'.loud t = s.loud t) ∧
    Settled s.core ∧
    ((∀ t, ∀ f ∈ s.stack t, f.quiet = true) →
      s.live = false ∧ s.core.runtimes = [] ∧ s.core.loops = [] ∧
        ∀ t, s.Idle t → ∃ s', Run Step s [.enter t, .exchange t true] s') := by
  have owned := owned_reachable h
  refine ⟨owned.length_le, ?_, ?_, settled_reachable h, ?_⟩
  · refine fun t idle => ⟨owned.owns_iff idle, fun what => ?_⟩
    unfold State.assertOnRuntimeThread State.onRuntimeThread
    cases s.owns t <;> cases s.live <;> rfl
  · exact fun t e s' owns step new => owned.new_unchanged owns step new
  · intro outside
    have live := owned.live_eq_false outside
    obtain ⟨runtimes, loops⟩ := owned.empty live
    exact ⟨live, runtimes, loops, fun t idle => scope_starts live idle⟩

/-- In the body of a scope of thread 0. -/
theorem runtime_unique_inside : ∃ s, Reachable Step initial s ∧ s.owns 0 = true ∧
    ∃ r ∈ s.core.runtimes, r.creator = 0 := by
  have reached : Reachable Step initial _ :=
    ⟨_, scope_opens (idle_initial 0) rfl⟩
  refine ⟨_, reached, rfl, ((runtime_unique reached).2.1 0 ?_).1.mp rfl⟩
  exact fun f mem => ⟨0, (Option.mem_some.mp mem).symm⟩

end Rayforce.Runtime
