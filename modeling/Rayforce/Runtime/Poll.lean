import Rayforce.Runtime.Teardown

/-! Handles on the event loop that outlive their scope (`poll.rs`).  A handle asks only whether its
thread owns a runtime, not whether that runtime is the one it was installed in. -/

namespace Rayforce.Runtime

open Transition

variable {s s' : State} {t : Thread} {e : Event} {p : Poll} {f f' : Scope} {rest : List Scope}

/-- What a method does with the handle's pointer: it refuses, or it hands the pointer to the core
and reads the result off what the core finds there. -/
inductive Access (β α : Type)
  | refuse (result : α)
  | touch (ptr : Address) (result : β → α)

def Poll.isCurrent (p : Poll) (s : State) : Bool := s.onRuntimeThread p.thread

def Poll.checkCurrent (p : Poll) (s : State) : Except String Unit :=
  if p.isCurrent s then .ok () else .error "this Poll outlived the Runtime that installed it"

def Poll.runFor (p : Poll) (s : State) : Access Int (Except String Int) :=
  match p.checkCurrent s with
  | .error error => .refuse (.error error)
  | .ok () => .touch p.ptr fun rc =>
    if rc < 0 then .error "ray_poll_run_for failed" else .ok rc

/-- A method that touches the pointer where the handle is current. -/
def Poll.checked {β α : Type} (p : Poll) (s : State) (refusal : α) (result : β → α) : Access β α :=
  if p.isCurrent s then .touch p.ptr result else .refuse refusal

def Poll.exit (p : Poll) (s : State) : Access Unit Unit := p.checked s () id

/-- `Poll::holds`: the core finds a selector's data, or no selector. -/
def Poll.holds (p : Poll) (s : State) (data : Address) : Access (Option Address) Bool :=
  p.checked s false fun sel => sel == some data

def Poll.selectorData (p : Poll) (s : State) : Access (Option Address) (Option Address) :=
  p.checked s none id

/-- The access refuses with this result, or what it touches is the loop of the runtime that
exists. -/
def Access.Sound {β α : Type} (a : Access β α) (refusal : α) (s : State) : Prop :=
  a = .refuse refusal ∨
    ∃ ptr result, a = .touch ptr result ∧ ∃ l, s.core.getPoll = some l ∧ l.address = ptr

/-- No method of the handle touches anything but the loop of the runtime that exists. -/
structure Poll.Inert (p : Poll) (s : State) : Prop where
  runFor : (p.runFor s).Sound (.error "this Poll outlived the Runtime that installed it") s
  exit : (p.exit s).Sound () s
  holds : ∀ data, (p.holds s data).Sound false s
  selectorData : (p.selectorData s).Sound none s

theorem runFor_eq_checked (p : Poll) (s : State) :
    p.runFor s = p.checked s (.error "this Poll outlived the Runtime that installed it")
      fun rc => if rc < 0 then .error "ray_poll_run_for failed" else .ok rc := by
  unfold Poll.runFor Poll.checkCurrent Poll.checked
  cases p.isCurrent s <;> rfl

/-- A method refuses off the runtime's thread, and touches the pointer on it. -/
theorem checked_sound_iff {β α : Type} (p : Poll) (s : State) (refusal : α) (result : β → α) :
    (p.checked s refusal result).Sound refusal s ↔
      s.owns p.thread = false ∨ ∃ l, s.core.getPoll = some l ∧ l.address = p.ptr := by
  unfold Poll.checked Poll.isCurrent State.onRuntimeThread
  cases owns : s.owns p.thread with
  | false => simp [Access.Sound]
  | true =>
    constructor
    · rintro (refused | ⟨ptr, _, touched, l, poll, address⟩)
      · cases refused
      · cases touched
        exact .inr ⟨l, poll, address⟩
    · rintro (impossible | found)
      · cases impossible
      · exact .inr ⟨p.ptr, result, rfl, found⟩

theorem inert_iff (p : Poll) (s : State) :
    p.Inert s ↔ s.owns p.thread = false ∨ ∃ l, s.core.getPoll = some l ∧ l.address = p.ptr := by
  constructor
  · intro inert
    exact (checked_sound_iff p s () id).mp inert.exit
  · intro found
    refine ⟨?_, ?_, fun data => ?_, ?_⟩
    · rw [runFor_eq_checked]
      exact (checked_sound_iff ..).mpr found
    · exact (checked_sound_iff ..).mpr found
    · exact (checked_sound_iff ..).mpr found
    · exact (checked_sound_iff ..).mpr found

/-- Every handle knows the runtime it was installed in, and while the body of that runtime's scope
runs it has the address of its loop. -/
def Kept (s : State) : Prop :=
  ∀ p ∈ s.polls, ∃ rt, p.runtime = some rt ∧ rt < s.core.nextRuntime ∧
    ∀ t, .created rt ∉ s.loud t ∧
      (.inside rt ∈ s.loud t → ∃ l, s.core.getPoll = some l ∧ l.address = p.ptr)

theorem mem_loud_goto {f₀ : Scope} (top : s.stack t = f₀ :: rest) {t' : Thread}
    (mem : f ∈ (s.goto t (f' :: rest)).loud t') : f = f' ∨ f ∈ s.loud t' := by
  by_cases same : t' = t
  · subst same
    rw [loud_goto_self, List.mem_filter] at mem
    rcases List.mem_cons.mp mem.1 with eq | old
    · exact .inl eq
    · refine .inr (List.mem_filter.mpr ⟨?_, mem.2⟩)
      rw [top]
      exact List.mem_cons_of_mem _ old
  · rw [loud_goto_of_ne s _ same] at mem
    exact .inr mem

theorem mem_loud_pop {f₀ : Scope} (top : s.stack t = f₀ :: rest) {t' : Thread}
    (mem : f ∈ (s.goto t rest).loud t') : f ∈ s.loud t' := by
  by_cases same : t' = t
  · subst same
    rw [loud_goto_self] at mem
    rw [loud_of_top top]
    exact List.mem_append_right _ mem
  · rwa [loud_goto_of_ne s _ same] at mem

theorem kept_initial : Kept initial := fun _ mem => nomatch mem

/-- A step that leaves the core and the handles alone, and makes no scope's body run. -/
theorem Kept.same (h : Kept s) (core : s'.core = s.core) (polls : s'.polls = s.polls)
    (loud : ∀ t f, f ∈ s'.loud t →
      f ∈ s.loud t ∨ ∀ rt, f ≠ .created rt ∧ f ≠ .inside rt) : Kept s' := by
  intro p mem
  rw [polls] at mem
  obtain ⟨rt, eq, lt, own⟩ := h p mem
  refine ⟨rt, eq, core ▸ lt, fun t => ⟨fun new => ?_, fun body => ?_⟩⟩
  · rcases loud t _ new with old | other
    · exact (own t).1 old
    · exact (other rt).1 rfl
  · rcases loud t _ body with old | other
    · rw [core]
      exact (own t).2 old
    · exact ((other rt).2 rfl).elim

/-- A step of the only thread past the compare-exchange, outside the body of its scope. -/
theorem Kept.outside {f₀ : Scope} (h : Kept s) (held : Held s t f₀)
    (top : s.stack t = f₀ :: rest) (stack : s'.stack = (s.goto t (f' :: rest)).stack)
    (polls : s'.polls = s.polls) (next : s.core.nextRuntime ≤ s'.core.nextRuntime)
    (before : ∀ rt, f₀ ≠ .created rt ∧ f₀ ≠ .inside rt)
    (after : ∀ rt, f' = .created rt ∨ f' = .inside rt → s.core.nextRuntime ≤ rt) : Kept s' := by
  intro p mem
  rw [polls] at mem
  obtain ⟨rt, eq, lt, _⟩ := h p mem
  have absent : ∀ t' f, f = .created rt ∨ f = .inside rt → f ∉ s'.loud t' := by
    intro t' f kind mem
    have moved : f ∈ (s.goto t (f' :: rest)).loud t' := by
      simpa only [State.loud, stack] using mem
    rcases mem_loud_goto top moved with rfl | old
    · have := after rt kind
      omega
    · by_cases same : t' = t
      · subst same
        rw [held.loud, List.mem_singleton] at old
        subst old
        rcases kind with eq | eq
        · exact (before rt).1 eq
        · exact (before rt).2 eq
      · rw [held.quiet t' same] at old
        cases old
  refine ⟨rt, eq, by omega, fun t' => ⟨absent t' _ (.inl rfl), fun body => ?_⟩⟩
  exact (absent t' _ (.inr rfl) body).elim

theorem Kept.install {rt : Nat} {c : Core} {polls : List Poll} (h : Kept s)
    (held : Held s t (.inside rt)) (next : c.nextRuntime = s.core.nextRuntime)
    (loop : ∀ l, s.core.getPoll = some l → c.getPoll = some l)
    (added : ∀ p ∈ polls, p ∈ s.polls ∨ p.runtime = some rt ∧ rt < s.core.nextRuntime ∧
      ∃ l, c.getPoll = some l ∧ l.address = p.ptr) :
    Kept { s with core := c, polls := polls } := by
  intro p mem
  rcases added p mem with old | ⟨eq, lt, found⟩
  · obtain ⟨rt', eq, lt, own⟩ := h p old
    refine ⟨rt', eq, next ▸ lt, fun t' => ⟨(own t').1, fun body => ?_⟩⟩
    obtain ⟨l, poll, address⟩ := (own t').2 body
    exact ⟨l, loop l poll, address⟩
  · refine ⟨rt, eq, next ▸ lt, fun t' => ⟨fun created => ?_, fun _ => found⟩⟩
    by_cases same : t' = t
    · subst same
      have mem : Scope.created rt ∈ s.loud t' := created
      rw [held.loud] at mem
      simp at mem
    · have mem : Scope.created rt ∈ s.loud t' := created
      rw [held.quiet t' same] at mem
      cases mem

theorem Kept.step (h : Kept s) (owned : Owned s) (settled : Settled s.core)
    (step : Step s e s') : Kept s' := by
  cases step with
  | @enter t idle =>
    refine h.same rfl rfl fun t' f mem => ?_
    by_cases same : t' = t
    · subst same
      rw [loud_goto_self] at mem
      exact .inl mem
    · rw [loud_goto_of_ne s _ same] at mem
      exact .inl mem
  | exchange top free =>
    exact h.same rfl rfl fun t' f mem => (mem_loud_goto top mem).symm.imp_right
      (by rintro rfl; simp)
  | exchangeLost top taken | createFailed top | finish outcome top | disown top =>
    exact h.same rfl rfl fun t' f mem => (mem_loud_goto top mem).symm.imp_right
      (by rintro rfl; simp)
  | getPoll top =>
    refine h.same rfl rfl fun t' f mem => (mem_loud_goto top mem).symm.imp_right ?_
    rintro rfl
    cases s.core.getPoll <;> simp
  | refuse top | reset top | vacate top =>
    exact h.same rfl rfl fun t' f mem => .inl (mem_loud_pop top mem)
  | create top =>
    refine h.outside (owned.held top rfl).1 top rfl rfl (Nat.le_succ _) (by simp) ?_
    intro rt kind
    simp at kind
    omega
  | unsetPoll top | destroyPoll top | destroy top =>
    exact h.outside (owned.held top rfl).1 top rfl rfl (Nat.le_refl _) (by simp) (by simp)
  | @own t rt rest top =>
    intro p mem
    obtain ⟨rt', eq, lt, own⟩ := h p mem
    have fresh : rt' ≠ rt := by
      rintro rfl
      refine (own t).1 ?_
      rw [loud_of_top top]
      exact List.mem_cons_self ..
    refine ⟨rt', eq, lt, fun t' => ⟨fun created => ?_, fun body => ?_⟩⟩
    · rcases mem_loud_goto top created with eq | old
      · cases eq
      · exact (own t').1 old
    · rcases mem_loud_goto top body with eq | old
      · cases eq
        exact absurd rfl fresh
      · exact (own t').2 old
  | @install t made idle fresh =>
    cases owns : s.owns t with
    | false =>
      simp only [State.install, State.onRuntimeThread, owns]
      exact h
    | true =>
      obtain ⟨rt, held⟩ := owned.body idle owns
      obtain ⟨⟨poll, runtimes, _⟩, _⟩ := held.holding
      have current : s.core.current = some rt := by simp [Core.current, runtimes]
      have lt : rt < s.core.nextRuntime := settled.has_lt rt ⟨⟨rt, t, poll⟩, by simp [runtimes], rfl⟩
      have got : s.core.getPoll = poll := by simp [Core.getPoll, runtimes]
      simp only [State.install, State.onRuntimeThread, owns, if_true, got]
      cases poll with
      | some existing =>
        refine h.install held rfl (fun _ found => found) fun p mem => ?_
        rcases List.mem_cons.mp mem with rfl | old
        · exact .inr ⟨current, lt, existing, got, rfl⟩
        · exact .inl old
      | none =>
        cases made with
        | none => exact h
        | some address =>
          refine h.install held rfl (by simp [got]) fun p mem => ?_
          rcases List.mem_cons.mp mem with rfl | old
          · exact .inr ⟨current, lt, ⟨s.core.nextLoop, address⟩,
              by simp [Core.getPoll, Core.pollCreate, Core.setPoll, runtimes], rfl⟩
          · exact .inl old
  | @connect t made idle ok fresh =>
    obtain ⟨rt, held⟩ := owned.body idle (owns_of_assert ok)
    rcases ensurePoll_cases s made with eq | ⟨none, eq | ⟨address, _, eq⟩⟩
    · rw [eq]
      exact h
    · rw [eq]
      exact h.install held rfl (by simp [none]) fun p mem => .inl mem
    · rw [eq]
      exact h.install held rfl (by simp [none]) fun p mem => .inl mem

theorem kept_reachable (h : Reachable Step initial s) : Kept s := by
  have all : Owned s ∧ Settled s.core ∧ Kept s :=
    Reachable.invariant (P := fun s => Owned s ∧ Settled s.core ∧ Kept s)
      (fun _ _ _ inv step => ⟨inv.1.step step, inv.2.1.step inv.1 step,
        inv.2.2.step inv.1 inv.2.1 step⟩) h ⟨owned_initial, settled_initial, kept_initial⟩
  exact all.2.2

/-- However many scopes a thread has entered and left, a handle it kept is inert exactly outside
every scope, in the scope the handle is of, and in a scope whose loop was given the handle's
address. -/
theorem poll_inert_iff (h : Reachable Step initial s) (mem : p ∈ s.polls)
    (idle : s.Idle p.thread) :
    p.Inert s ↔ s.stack p.thread = [] ∨ p.runtime = s.core.current ∨
      ∃ l, s.core.getPoll = some l ∧ l.address = p.ptr := by
  have owned := owned_reachable h
  rw [inert_iff]
  constructor
  · rintro (off | found)
    · left
      cases stack : s.stack p.thread with
      | nil => rfl
      | cons f rest =>
        obtain ⟨rt, rfl⟩ := idle f (by simp [stack])
        have on := (owned.held stack rfl).1.holding.2
        rw [off] at on
        cases on
    · exact .inr (.inr found)
  · rintro (outside | own | found)
    · left
      by_contra on
      obtain ⟨rt, held⟩ := owned.body idle (by simpa using on)
      have loud := held.loud
      simp [State.loud, outside] at loud
    · by_cases on : s.owns p.thread = true
      · obtain ⟨rt, held⟩ := owned.body idle on
        obtain ⟨rt', eq, _, body⟩ := kept_reachable h p mem
        obtain ⟨⟨poll, runtimes, _⟩, _⟩ := held.holding
        have same : rt' = rt := by simpa [eq, Core.current, runtimes] using own
        refine .inr ((body p.thread).2 ?_)
        rw [held.loud, same]
        exact List.mem_singleton_self _
      · exact .inl (by simpa using on)
    · exact .inr found

/-- The handle of thread 0 in the scope it was installed in. -/
theorem poll_inert_own_scope : ∃ s p, Reachable Step initial s ∧ p ∈ s.polls ∧ p.Inert s := by
  have reached : Reachable Step initial _ :=
    ⟨_, (scope_opens (idle_initial 0) rfl).append <|
      .cons (.install (t := 0) (some 7) (fun f mem => ⟨0, (Option.mem_some.mp mem).symm⟩)
        (fun _ _ _ mem => nomatch mem)) <| .nil _⟩
  refine ⟨_, ⟨7, some 0, 0⟩, reached, List.mem_cons_self .., ?_⟩
  refine (poll_inert_iff reached (List.mem_cons_self ..) ?_).mpr (.inr (.inl rfl))
  exact fun f mem => ⟨0, (Option.mem_some.mp mem).symm⟩

/-- A handle on the loop of a first scope, used in a second one that has no loop. -/
theorem poll_not_inert : ¬∀ s p, Reachable Step initial s → p ∈ s.polls → s.Idle p.thread →
    p.Inert s := by
  intro inert
  have reached : Reachable Step initial _ :=
    ⟨_, (scope_opens (idle_initial 0) rfl).append <|
      .cons (.install (t := 0) (some 7) (fun f mem => ⟨0, (Option.mem_some.mp mem).symm⟩)
        (fun _ _ _ mem => nomatch mem)) <|
      .cons (.finish (t := 0) .ok rfl) <| .cons (.getPoll (t := 0) rfl) <|
      .cons (.unsetPoll (t := 0) rfl) <| .cons (.destroyPoll (t := 0) rfl) <|
      .cons (.destroy (t := 0) rfl) <| .cons (.disown (t := 0) rfl) <|
      .cons (.vacate (t := 0) rfl) <| scope_opens (t := 0) (fun f mem => by cases mem) rfl⟩
  have bad := inert _ ⟨7, some 0, 0⟩ reached (List.mem_cons_self ..)
    (fun f mem => ⟨1, (Option.mem_some.mp mem).symm⟩)
  rcases (inert_iff _ _).mp bad with off | ⟨l, found, _⟩
  · cases off
  · cases found

end Rayforce.Runtime
