import Rayforce.Runtime.Machine

/-! At most one thread is past the compare-exchange.  What `LIVE`, `OWNS_RUNTIME` and the core hold
follows from where that thread stands, and every other thread has only attempts that are, or will be,
refused. -/

namespace Rayforce.Runtime

open Transition

variable {s s' : State} {t t' : Thread} {e : Event} {f f' : Scope} {rest : List Scope}

/-- The scopes of a thread that have won the compare-exchange. -/
def State.loud (s : State) (t : Thread) : List Scope := (s.stack t).filter (!·.quiet)

/-- What the core and the thread's flag hold while the thread's scope stands here. -/
def Holding (t : Thread) (c : Core) (owns : Bool) : Scope → Prop
  | .entering | .refused => False
  | .creating | .failed | .disowned => c.runtimes = [] ∧ c.loops = [] ∧ owns = false
  | .destroyed => c.runtimes = [] ∧ c.loops = [] ∧ owns = true
  | .created rt => c.runtimes = [⟨rt, t, none⟩] ∧ c.loops = [] ∧ owns = false
  | .inside rt | .dropping rt =>
    (∃ poll : Option Loop, c.runtimes = [⟨rt, t, poll⟩] ∧ c.loops = poll.toList) ∧ owns = true
  | .polled rt poll => c.runtimes = [⟨rt, t, some poll⟩] ∧ c.loops = [poll] ∧ owns = true
  | .unset rt poll => c.runtimes = [⟨rt, t, none⟩] ∧ c.loops = [poll] ∧ owns = true
  | .bare rt => c.runtimes = [⟨rt, t, none⟩] ∧ c.loops = [] ∧ owns = true

/-- No thread is past the compare-exchange. -/
structure Free (s : State) : Prop where
  live : s.live = false
  quiet : ∀ t, s.loud t = []
  owns : ∀ t, s.owns t = false
  runtimes : s.core.runtimes = []
  loops : s.core.loops = []

/-- Thread `t` is, with this scope, and it is the only one. -/
structure Held (s : State) (t : Thread) (f : Scope) : Prop where
  live : s.live = true
  loud : s.loud t = [f]
  quiet : ∀ t', t' ≠ t → s.loud t' = []
  owns : ∀ t', t' ≠ t → s.owns t' = false
  holding : Holding t s.core (s.owns t) f

def Owned (s : State) : Prop := Free s ∨ ∃ t f, Held s t f

@[simp] theorem loud_goto_self (s : State) (t : Thread) (scopes : List Scope) :
    (s.goto t scopes).loud t = scopes.filter (!·.quiet) := by
  simp [State.loud, State.goto]

theorem loud_goto_of_ne (s : State) (scopes : List Scope) (ne : t' ≠ t) :
    (s.goto t scopes).loud t' = s.loud t' := by
  simp [State.loud, State.goto, ne]

theorem loud_of_top (top : s.stack t = f :: rest) :
    s.loud t = (if f.quiet then [] else [f]) ++ rest.filter (!·.quiet) := by
  cases quiet : f.quiet <;> simp [State.loud, top, quiet]

theorem owned_initial : Owned initial :=
  .inl ⟨rfl, fun _ => rfl, fun _ => rfl, rfl, rfl⟩

/-- A thread whose innermost scope has won the compare-exchange is the one, and has no other. -/
theorem Owned.held (h : Owned s) (top : s.stack t = f :: rest) (won : f.quiet = false) :
    Held s t f ∧ rest.filter (!·.quiet) = [] := by
  have loud := loud_of_top top
  rw [won] at loud
  rcases h with free | ⟨t₀, f₀, held⟩
  · rw [free.quiet t] at loud
    cases loud
  · have same : t = t₀ := by
      by_contra ne
      rw [held.quiet t ne] at loud
      cases loud
    subst same
    rw [held.loud] at loud
    obtain ⟨rfl, none⟩ := List.cons.inj loud
    exact ⟨held, none.symm⟩

theorem Held.move (h : Held s t f) (below : rest.filter (!·.quiet) = []) (won : f'.quiet = false)
    (live : s'.live = s.live) (stack : s'.stack = (s.goto t (f' :: rest)).stack)
    (owns : ∀ t', t' ≠ t → s'.owns t' = s.owns t')
    (holding : Holding t s'.core (s'.owns t) f') : Held s' t f' := by
  have same : ∀ t', s'.loud t' = (s.goto t (f' :: rest)).loud t' := fun t' => by
    simp only [State.loud, stack]
  refine ⟨live.trans h.live, ?_, ?_, ?_, holding⟩
  · rw [same, loud_goto_self, List.filter_cons_of_pos (by simp [won]), below]
  · intro t' ne
    rw [same, loud_goto_of_ne s _ ne, h.quiet t' ne]
  · intro t' ne
    rw [owns t' ne, h.owns t' ne]

theorem Held.leave {scopes : List Scope} (h : Held s t f) (loud : scopes.filter (!·.quiet) = [])
    (empty : s.core.runtimes = [] ∧ s.core.loops = [] ∧ s.owns t = false) :
    Free { s.goto t scopes with live := false } := by
  refine ⟨rfl, ?_, ?_, empty.1, empty.2.1⟩
  · intro t'
    by_cases same : t' = t
    · subst same
      exact (loud_goto_self s t' scopes).trans loud
    · exact (loud_goto_of_ne s scopes same).trans (h.quiet t' same)
  · intro t'
    by_cases same : t' = t
    · subst same
      exact empty.2.2
    · exact h.owns t' same

/-- An attempt that moves without winning leaves everything as it was. -/
theorem Owned.attempt {scopes : List Scope} (h : Owned s)
    (same : scopes.filter (!·.quiet) = s.loud t) : Owned (s.goto t scopes) := by
  have loud : ∀ t', (s.goto t scopes).loud t' = s.loud t' := by
    intro t'
    by_cases eq : t' = t
    · subst eq
      rw [loud_goto_self, same]
    · exact loud_goto_of_ne s scopes eq
  rcases h with free | ⟨t₀, f₀, held⟩
  · exact .inl ⟨free.live, fun t' => (loud t').trans (free.quiet t'), free.owns, free.runtimes,
      free.loops⟩
  · exact .inr ⟨t₀, f₀, held.live, (loud t₀).trans held.loud,
      fun t' ne => (loud t').trans (held.quiet t' ne), held.owns, held.holding⟩

theorem Holding.pollCreate {c : Core} {owns : Bool} {rt : Nat} (address : Address)
    (h : Holding t c owns (.inside rt)) (none : c.getPoll = none) :
    Holding t (c.pollCreate address) owns (.inside rt) := by
  obtain ⟨⟨poll, runtimes, loops⟩, owned⟩ := h
  have empty : poll = Option.none := by simpa [Core.getPoll, runtimes] using none
  subst empty
  refine ⟨⟨some ⟨c.nextLoop, address⟩, ?_, ?_⟩, owned⟩
  · simp [Core.pollCreate, Core.setPoll, runtimes]
  · simp [Core.pollCreate, loops]

/-- The thread that has its flag set is in the body of a scope whenever it runs code of its own. -/
theorem Owned.body (h : Owned s) (idle : s.Idle t) (owns : s.owns t = true) :
    ∃ rt, Held s t (.inside rt) := by
  rcases h with free | ⟨t₀, f₀, held⟩
  · rw [free.owns t] at owns
    cases owns
  have same : t = t₀ := by
    by_contra ne
    rw [held.owns t ne] at owns
    cases owns
  subst same
  have loud := held.loud
  cases stack : s.stack t with
  | nil => simp [State.loud, stack] at loud
  | cons f rest =>
    obtain ⟨rt, rfl⟩ := idle f (by simp [stack])
    exact ⟨rt, (Owned.held (.inr ⟨t, f₀, held⟩) stack rfl).1⟩

/-- A change of the core that keeps what the holder relies on. -/
theorem Held.core {c : Core} {polls : List Poll} (h : Held s t f)
    (holding : Holding t c (s.owns t) f) : Held { s with core := c, polls := polls } t f :=
  ⟨h.live, h.loud, h.quiet, h.owns, holding⟩

theorem Owned.polls (h : Owned s) (polls : List Poll) : Owned { s with polls := polls } := by
  rcases h with free | ⟨t, f, held⟩
  · exact .inl ⟨free.live, free.quiet, free.owns, free.runtimes, free.loops⟩
  · exact .inr ⟨t, f, held.core held.holding⟩

/-- `Poll::install` creates a loop at most where the thread's flag is set and there is none. -/
theorem install_cases (s : State) (t : Thread) (made : Option Address) :
    (∃ polls, (s.install t made).2 = { s with polls := polls }) ∨
    ∃ address polls, made = some address ∧ s.owns t = true ∧ s.core.getPoll = none ∧
      (s.install t made).2 = { s with core := s.core.pollCreate address, polls := polls } := by
  unfold State.install State.onRuntimeThread
  cases owns : s.owns t with
  | false => exact .inl ⟨s.polls, rfl⟩
  | true =>
    cases poll : s.core.getPoll with
    | some existing => exact .inl ⟨_, rfl⟩
    | none =>
      cases made with
      | none => exact .inl ⟨s.polls, rfl⟩
      | some address => exact .inr ⟨address, _, rfl, rfl, rfl, rfl⟩

theorem ensurePoll_cases (s : State) (made : Option Address) :
    s.ensurePoll made = s ∨ s.core.getPoll = none ∧
      (s.ensurePoll made = { s with core := s.core.setPoll none } ∨
        ∃ address, made = some address ∧
          s.ensurePoll made = { s with core := s.core.pollCreate address }) := by
  unfold State.ensurePoll
  cases poll : s.core.getPoll with
  | some existing => exact .inl rfl
  | none =>
    cases made with
    | none => exact .inr ⟨rfl, .inl rfl⟩
    | some address => exact .inr ⟨rfl, .inr ⟨address, rfl, rfl⟩⟩

theorem owns_of_assert {what : String}
    (ok : (s.assertOnRuntimeThread t what).isOk = true) : s.owns t = true := by
  unfold State.assertOnRuntimeThread State.onRuntimeThread at ok
  cases owns : s.owns t with
  | true => rfl
  | false =>
    rw [owns] at ok
    cases live : s.live <;> simp [live, Except.isOk, Except.toBool] at ok

theorem Owned.step (h : Owned s) (step : Step s e s') : Owned s' := by
  cases step with
  | enter idle => exact h.attempt rfl
  | exchangeLost top taken => exact h.attempt (loud_of_top top).symm
  | refuse top => exact h.attempt (loud_of_top top).symm
  | @exchange t rest top open' =>
    rcases h with free | ⟨t₀, f₀, held⟩
    · have below : rest.filter (!·.quiet) = [] := by
        have loud := loud_of_top top
        rw [free.quiet t] at loud
        exact loud.symm
      refine .inr ⟨t, .creating, rfl, ?_, ?_, fun t' _ => free.owns t', free.runtimes, free.loops,
        free.owns t⟩
      · refine (loud_goto_self s t _).trans ?_
        rw [List.filter_cons_of_pos rfl, below]
      · intro t' ne
        exact (loud_goto_of_ne s _ ne).trans (free.quiet t')
    · rw [held.live] at open'
      cases open'
  | @create t rest top =>
    obtain ⟨held, below⟩ := h.held top rfl
    obtain ⟨runtimes, loops, owns⟩ := held.holding
    refine .inr ⟨t, _, held.move below rfl rfl rfl (fun _ _ => rfl) ?_⟩
    exact ⟨by simp [Core.runtimeCreate, runtimes], loops, owns⟩
  | @createFailed t rest top =>
    obtain ⟨held, below⟩ := h.held top rfl
    exact .inr ⟨t, _, held.move below rfl rfl rfl (fun _ _ => rfl)
      held.holding⟩
  | reset top =>
    obtain ⟨held, below⟩ := h.held top rfl
    exact .inl (held.leave below held.holding)
  | @own t rt rest top =>
    obtain ⟨held, below⟩ := h.held top rfl
    obtain ⟨runtimes, loops, _⟩ := held.holding
    refine .inr ⟨t, .inside rt, held.move below rfl rfl rfl
      (fun t' ne => Function.update_of_ne ne _ _) ?_⟩
    exact ⟨⟨none, runtimes, loops⟩, Function.update_self ..⟩
  | @finish t rt rest outcome top =>
    obtain ⟨held, below⟩ := h.held top rfl
    exact .inr ⟨t, .dropping rt, held.move below rfl rfl rfl (fun _ _ => rfl)
      held.holding⟩
  | @getPoll t rt rest top =>
    obtain ⟨held, below⟩ := h.held top rfl
    obtain ⟨⟨poll, runtimes, loops⟩, owns⟩ := held.holding
    have got : s.core.getPoll = poll := by simp [Core.getPoll, runtimes]
    rw [got]
    cases poll with
    | none => exact .inr ⟨t, .bare rt, held.move below rfl rfl rfl
        (fun _ _ => rfl) ⟨runtimes, loops, owns⟩⟩
    | some p => exact .inr ⟨t, .polled rt p, held.move below rfl rfl rfl
        (fun _ _ => rfl) ⟨runtimes, loops, owns⟩⟩
  | @unsetPoll t rt poll rest top =>
    obtain ⟨held, below⟩ := h.held top rfl
    obtain ⟨runtimes, loops, owns⟩ := held.holding
    refine .inr ⟨t, _, held.move below rfl rfl rfl (fun _ _ => rfl) ?_⟩
    exact ⟨by simp [Core.setPoll, runtimes], loops, owns⟩
  | @destroyPoll t rt poll rest top =>
    obtain ⟨held, below⟩ := h.held top rfl
    obtain ⟨runtimes, loops, owns⟩ := held.holding
    refine .inr ⟨t, _, held.move below rfl rfl rfl (fun _ _ => rfl) ?_⟩
    exact ⟨runtimes, by simp [Core.pollDestroy, loops], owns⟩
  | @destroy t rt rest top =>
    obtain ⟨held, below⟩ := h.held top rfl
    obtain ⟨runtimes, loops, owns⟩ := held.holding
    refine .inr ⟨t, _, held.move below rfl rfl rfl (fun _ _ => rfl) ?_⟩
    exact ⟨by simp [Core.runtimeDestroy, runtimes], loops, owns⟩
  | @disown t rest top =>
    obtain ⟨held, below⟩ := h.held top rfl
    obtain ⟨runtimes, loops, _⟩ := held.holding
    refine .inr ⟨t, .disowned, held.move below rfl rfl rfl
      (fun t' ne => Function.update_of_ne ne _ _) ?_⟩
    exact ⟨runtimes, loops, Function.update_self ..⟩
  | vacate top =>
    obtain ⟨held, below⟩ := h.held top rfl
    exact .inl (held.leave below held.holding)
  | @install t made idle fresh =>
    rcases install_cases s t made with ⟨polls, eq⟩ | ⟨address, polls, _, owns, none, eq⟩
    · rw [eq]
      exact h.polls polls
    · obtain ⟨rt, held⟩ := h.body idle owns
      rw [eq]
      exact .inr ⟨t, .inside rt, held.core (held.holding.pollCreate address none)⟩
  | @connect t made idle ok fresh =>
    obtain ⟨rt, held⟩ := h.body idle (owns_of_assert ok)
    rcases ensurePoll_cases s made with eq | ⟨none, eq | ⟨address, _, eq⟩⟩
    · rw [eq]
      exact h
    · rw [eq]
      obtain ⟨⟨poll, runtimes, loops⟩, owns⟩ := held.holding
      obtain rfl : poll = Option.none := by simpa [Core.getPoll, runtimes] using none
      exact .inr ⟨t, .inside rt, held.core ⟨⟨_, by simp [Core.setPoll, runtimes], loops⟩, owns⟩⟩
    · rw [eq]
      exact .inr ⟨t, .inside rt, held.core (held.holding.pollCreate address none)⟩

theorem owned_reachable (h : Reachable Step initial s) : Owned s :=
  h.invariant (fun _ _ _ => Owned.step) owned_initial

end Rayforce.Runtime
