import Mathlib.Data.List.Pairwise
import Rayforce.Serve.Call

/-! To whom the end of a request is attributed.  Between its `begin` and its `finish` a request's
registration says which check stopped it first, and the end recorded reads the registration and the
answer together. -/

namespace Rayforce.Serve

open Transition

/-- Why a check stops a request that began at `t₀` on `fd`, if none has stopped it before. -/
def Event.stops (budget : Option Duration) (fd : Int) (t₀ : Instant) : Event → Option By
  | .check now closed => stopper budget ⟨fd, t₀, none⟩ now closed
  | _ => none

/-- The reason of the first check that finds the request past its budget or its client gone. -/
def firstStop (budget : Option Duration) (fd : Int) (t₀ : Instant) (es : List Event) : Option By :=
  es.findSome? (Event.stops budget fd t₀)

/-- What an event reads from the clock. -/
def Event.reading : Event → Option Instant
  | .begin _ _ now true | .check now _ | .record _ now _ => some now
  | _ => none

/-- The state of a request's registration after the events since its `begin`, when `n` interrupts
had been requested. -/
structure Watched (budget : Option Duration) (fd : Int) (t₀ : Instant) (n : Nat)
    (es : List Event) (s : State) : Prop where
  budget_eq : s.shared.budget = budget
  running : s.shared.running = some ⟨fd, t₀, firstStop budget fd t₀ es⟩
  requests : s.interrupt.requests = n + if (firstStop budget fd t₀ es).isSome then 1 else 0

variable {s t s₀ s₁ s₂ s₃ s₄ s₅ : State} {e : Event} {es mid after : List Event} {k n : Nat}
  {budget : Option Duration} {fd : Int} {t₀ now : Instant} {payload : Payload} {phase : Phase}

/-! ### The verdict -/

theorem endedOf_eq_cancelled_iff (answer : Answer) (stoppedBy : Option By) (b : By) :
    endedOf answer stoppedBy = .cancelled b ↔
      answer.code = some .cancel ∧ b = stoppedBy.getD .client := by
  rcases code : answer.code with _ | c
  · simp [endedOf, code]
  · cases c <;> cases stoppedBy <;> simp [endedOf, code, eq_comm]

theorem endedOf_eq_failed_iff (answer : Answer) (stoppedBy : Option By) (c : ErrorCode) :
    endedOf answer stoppedBy = .failed c ↔ answer.code = some c ∧ c ≠ .cancel := by
  rcases code : answer.code with _ | c'
  · simp [endedOf, code]
  · cases c' <;> cases stoppedBy <;> cases c <;> simp [endedOf, code]

theorem endedOf_eq_answered_iff (answer : Answer) (stoppedBy : Option By) :
    endedOf answer stoppedBy = .answered ↔ answer.code = none := by
  rcases code : answer.code with _ | c
  · simp [endedOf, code]
  · cases c <;> cases stoppedBy <;> simp [endedOf, code]

theorem stopper_isSome_iff (budget : Option Duration) (run : Running) (now : Instant)
    (closed : Bool) :
    (stopper budget run now closed).isSome = true ↔
      (∃ b, budget = some b ∧ b ≤ now.saturatingDurationSince run.timeStarted) ∨
        peerGone run.fd closed = true := by
  unfold stopper
  cases budget with
  | none => cases peerGone run.fd closed <;> simp
  | some b =>
    by_cases past : b ≤ now.saturatingDurationSince run.timeStarted
    · simp [past]
    · cases peerGone run.fd closed <;> simp [past]

theorem stopper_eq_budget {run : Running} {closed : Bool}
    (h : stopper budget run now closed = some .budget) :
    ∃ b, budget = some b ∧ b ≤ now.saturatingDurationSince run.timeStarted := by
  unfold stopper at h
  split at h
  · next past => simpa [Option.any_eq_true] using past
  · split at h <;> cases h

/-! ### The registration of one request -/

theorem firstStop_append (e : Event) :
    firstStop budget fd t₀ (es ++ [e]) =
      (firstStop budget fd t₀ es).or (e.stops budget fd t₀) := by
  simp [firstStop, List.findSome?_append]

theorem step_budget (step : Step s e t) : t.shared.budget = s.shared.budget := by
  cases step with
  | begin fd now top =>
    unfold Shared.begin
    split <;> rfl
  | check now closed checking running fresh =>
    simp only [Shared.check_running running fresh]
    split <;> rfl
  | _ => rfl

theorem budget_reachable (h : Reachable Step (initial budget) s) : s.shared.budget = budget :=
  Reachable.invariant (P := fun s => s.shared.budget = budget)
    (fun _ _ _ same step => (step_budget step).trans same) h rfl

theorem Watched.same (h : Watched budget fd t₀ n es s) (quiet : e.stops budget fd t₀ = none)
    (shared : t.shared.budget = s.shared.budget) (running : t.shared.running = s.shared.running)
    (requests : t.interrupt.requests = s.interrupt.requests) :
    Watched budget fd t₀ n (es ++ [e]) t := by
  have same : firstStop budget fd t₀ (es ++ [e]) = firstStop budget fd t₀ es := by
    rw [firstStop_append, quiet, Option.or_none]
  exact ⟨shared.trans h.budget_eq, by rw [running, same, h.running],
    by rw [requests, same, h.requests]⟩

theorem Watched.step (h : Watched budget fd t₀ n es s) (step : Step s e t)
    (untaken : ∀ j, e ≠ .take j) : Watched budget fd t₀ n (es ++ [e]) t := by
  cases step with
  | take top => exact absurd rfl (untaken _)
  | begin fd' now top =>
    have kept : s.shared.begin fd' now = (false, s.shared) := by
      simp only [Shared.begin, h.running]
    exact h.same rfl (by rw [kept]) (by rw [kept]) rfl
  | check now closed checking running fresh =>
    obtain rfl := Option.some.inj (h.running.symm.trans running)
    have unstopped : firstStop budget fd t₀ es = none := fresh
    have first : firstStop budget fd t₀ (es ++ [.check now closed]) =
        stopper budget ⟨fd, t₀, none⟩ now closed := by
      rw [firstStop_append, unstopped, Option.none_or, Event.stops]
    have requests := h.requests
    rw [unstopped] at running requests
    have checked := Shared.check_running running rfl s.interrupt now closed
    rw [h.budget_eq] at checked
    cases reason : stopper budget ⟨fd, t₀, none⟩ now closed with
    | none =>
      rw [reason] at checked first
      refine ⟨?_, ?_, ?_⟩
      · rw [checked]
        exact h.budget_eq
      · rw [checked, first]
        exact running
      · rw [checked, first]
        exact requests
    | some b =>
      rw [reason] at checked first
      refine ⟨?_, ?_, ?_⟩
      · rw [checked]
      · rw [checked, first]
      · rw [checked, first]
        exact congrArg (· + 1) requests
  | _ => exact h.same rfl rfl rfl rfl

theorem mem_of_life (h : s.life k = .live payload phase) : .call k payload phase ∈ s.stack := by
  unfold State.life at h
  split at h
  · cases h
  split at h
  · next found =>
    cases h
    obtain ⟨f, mem, own⟩ := List.exists_of_findSome?_eq_some found
    cases f with
    | call j payload' phase' =>
      simp only [Frame.of] at own
      split at own
      · next same =>
        cases own
        exact same ▸ mem
      · cases own
    | push => cases own
    | drop joined => cases own
  · cases h

/-- Only the call that holds the registration takes one. -/
theorem take_own {j : Nat} (registered : Registered s) (life : s.life k = .live payload phase)
    (holds : phase.registered = true) (step : Step s (.take j) t) : j = k := by
  have mem := mem_of_life life
  unfold Registered at registered
  cases step with
  | take top =>
    rw [top] at mem registered
    rcases List.mem_cons.mp mem with same | below
    · cases same
      rfl
    · have more : 0 < List.countP Frame.registered _ := List.countP_pos_iff.mpr ⟨_, below, holds⟩
      rw [List.countP_cons_of_pos rfl] at registered
      split at registered <;> omega

/-- Along a request, from its `begin` to its `finish`, the registration is its own. -/
theorem watched_run (reached : Reachable Step (initial budget) s₁)
    (watched : Watched budget fd t₀ n [] s₁) (life : s₁.life k = .live payload (.ready true))
    (run : Run Step s₁ mid s₂) (untaken : .take k ∉ mid) : Watched budget fd t₀ n mid s₂ := by
  refine Run.history (P := fun es s => .take k ∉ es → Watched budget fd t₀ n es s)
    (fun _ => watched) ?_ run untaken
  intro es s e t before ih step untaken
  have earlier : .take k ∉ es := fun mem => untaken (List.mem_append_left _ mem)
  have seen := life_run reached before k
  rw [life] at seen
  obtain ⟨phase, live, holds⟩ := life_run_registered seen rfl
    (fun mem => earlier (List.mem_filter.mp mem).1)
  refine (ih earlier).step step ?_
  rintro j rfl
  obtain rfl := take_own (registered_reachable (reached.run before)) live holds step
  exact untaken (List.mem_append_right _ (List.mem_cons_self ..))

/-! ### From `begin` to the end recorded -/

theorem begin_cases {registered : Bool} (step : Step s (.begin k fd now registered) t) :
    ∃ payload rest, s.stack = .call k payload .asking :: rest ∧
      registered = (s.shared.begin fd now).1 ∧ t.shared = (s.shared.begin fd now).2 ∧
      t.interrupt = s.interrupt ∧ t.calls = s.calls ∧
      t.stack = .call k payload (.ready registered) :: rest := by
  cases step with
  | begin fd now top => exact ⟨_, _, top, rfl, rfl, rfl, rfl, rfl⟩

theorem take_cases (step : Step s (.take k) t) :
    ∃ payload answer rest, s.stack = .call k payload (.answered true answer) :: rest ∧
      t.calls = s.calls ∧
      t.stack = .call k payload (afterTake answer s.shared.running) :: rest := by
  cases step with
  | take top => exact ⟨_, _, _, top, rfl, rfl⟩

theorem record_cases {ended : RequestEnd} (step : Step s (.record k now ended) t) :
    ∃ payload answer run rest, s.stack = .call k payload (.taken answer run) :: rest ∧
      ended = requestEnd run (textOf payload) answer now ∧
      t.shared.ends = s.shared.ends ++ [ended] := by
  cases step with
  | record now top => exact ⟨_, _, _, _, top, rfl, rfl⟩

theorem watched_begin (reached : Reachable Step (initial budget) s)
    (step : Step s (.begin k fd t₀ true) t) :
    Watched budget fd t₀ t.interrupt.requests [] t ∧
      ∃ payload, t.life k = .live payload (.ready true) := by
  obtain ⟨payload, rest, top, began, shared, _, calls, stack⟩ := begin_cases step
  have fresh : s.shared.running = none := by
    cases running : s.shared.running with
    | none => rfl
    | some run => simp [Shared.begin, running] at began
  have registered : t.shared.running = some ⟨fd, t₀, none⟩ := by
    rw [shared]
    simp only [Shared.begin, fresh]
  have lt : k < t.calls := calls ▸ (named_reachable reached).top_lt top
  exact ⟨⟨budget_reachable (reached.tail step), registered, rfl⟩, payload, life_of_top lt stack⟩

/-- The end a registered request records is made of its own answer and of its own registration. -/
theorem recorded_end {ended : RequestEnd} (reached : Reachable Step (initial budget) s₁)
    (live : s₁.life k = .live payload (.ready true)) (run : Run Step s₁ mid s₂)
    (finish : Step s₂ (.take k) s₃) (rest : Run Step s₃ after s₄)
    (record : Step s₄ (.record k now ended) s₅) {r : Running}
    (running : s₂.shared.running = some r) :
    ∃ raw, mid.filter (Event.about k) = [.evaluate k (evaluate payload), .answer k raw] ∧
      ended = requestEnd r (textOf payload) (owned raw) now := by
  have reached₃ := (reached.run run).tail finish
  have named₂ := named_reachable (reached.run run)
  have named₄ := named_reachable (reached₃.run rest)
  obtain ⟨payload₂, answer, below, top₂, calls, stack⟩ := take_cases finish
  obtain ⟨payload₄, answer₄, run₄, below₄, top₄, eq, -⟩ := record_cases record
  have evaluation := life_run reached run k
  rw [live, life_of_top (named₂.top_lt top₂) top₂] at evaluation
  obtain ⟨rfl, raw, events, rfl⟩ := life_run_evaluation evaluation
  have waiting := life_run reached₃ rest k
  rw [running] at stack
  rw [life_of_top (calls ▸ named₂.top_lt top₂) stack, life_of_top (named₄.top_lt top₄) top₄]
    at waiting
  have same := (life_run_nil waiting (Nat.le_refl _)).2
  simp only [Life.live.injEq, afterTake, Phase.taken.injEq] at same
  obtain ⟨rfl, rfl, rfl⟩ := same
  exact ⟨raw, events, eq⟩

theorem firstStop_isSome_iff :
    (firstStop budget fd t₀ es).isSome = true ↔
      ∃ now closed, .check now closed ∈ es ∧
        ((∃ b, budget = some b ∧ b ≤ now.saturatingDurationSince t₀) ∨
          peerGone fd closed = true) := by
  unfold firstStop
  rw [List.findSome?_isSome_iff]
  constructor
  · rintro ⟨e, mem, stops⟩
    cases e with
    | check now closed => exact ⟨now, closed, mem, (stopper_isSome_iff ..).mp stops⟩
    | _ => cases stops
  · rintro ⟨now, closed, mem, why⟩
    exact ⟨_, mem, (stopper_isSome_iff _ ⟨fd, t₀, none⟩ now closed).mpr why⟩

theorem firstStop_eq_budget (h : firstStop budget fd t₀ es = some .budget) :
    ∃ now closed b, .check now closed ∈ es ∧ budget = some b ∧
      b ≤ now.saturatingDurationSince t₀ := by
  obtain ⟨e, mem, stops⟩ := List.exists_of_findSome?_eq_some h
  cases e with
  | check now closed =>
    obtain ⟨b, eq, past⟩ := stopper_eq_budget stops
    exact ⟨now, closed, b, mem, eq, past⟩
  | _ => cases stops

/-- Whatever the watcher checks while a registered request runs, at most one interrupt is requested,
exactly when some check finds the request past its budget or its client gone; and the end that joins
the recorded ones says of the request's answer who stopped it. -/
theorem request_attributed {ended : RequestEnd} (reached : Reachable Step (initial budget) s₀)
    (begins : Step s₀ (.begin k fd t₀ true) s₁) (run : Run Step s₁ mid s₂)
    (untaken : .take k ∉ mid) (finish : Step s₂ (.take k) s₃) (rest : Run Step s₃ after s₄)
    (record : Step s₄ (.record k now ended) s₅) :
    s₂.interrupt.requests ≤ s₁.interrupt.requests + 1 ∧
    (s₂.interrupt.requests = s₁.interrupt.requests + 1 ↔
      ∃ now closed, .check now closed ∈ mid ∧
        ((∃ b, budget = some b ∧ b ≤ now.saturatingDurationSince t₀) ∨
          peerGone fd closed = true)) ∧
    s₅.shared.ends = s₄.shared.ends ++ [ended] ∧
    ∃ raw, (∀ raw', .answer k raw' ∈ mid ↔ raw' = raw) ∧
      (∀ b, ended.ended = .cancelled b ↔
        (owned raw).code = some .cancel ∧ b = (firstStop budget fd t₀ mid).getD .client) ∧
      (∀ code, ended.ended = .failed code ↔ (owned raw).code = some code ∧ code ≠ .cancel) ∧
      (ended.ended = .answered ↔ (owned raw).code = none) ∧
      (((.begin k fd t₀ true :: (mid ++ .take k :: (after ++ [.record k now ended]))).filterMap
          Event.reading).Pairwise (· ≤ ·) →
        ended.ended = .cancelled .budget → ∃ b, budget = some b ∧ b ≤ ended.duration) := by
  obtain ⟨watched, payload, live⟩ := watched_begin reached begins
  have reached₁ := reached.tail begins
  obtain ⟨_, running, requests⟩ := watched_run reached₁ watched live run untaken
  obtain ⟨_, _, _, _, _, _, kept⟩ := record_cases record
  obtain ⟨raw, events, rfl⟩ := recorded_end reached₁ live run finish rest record running
  refine ⟨?_, ?_, kept, raw, ?_, fun b => endedOf_eq_cancelled_iff _ _ b,
    fun c => endedOf_eq_failed_iff _ _ c, endedOf_eq_answered_iff _ _, ?_⟩
  · rw [requests]
    split <;> omega
  · rw [← firstStop_isSome_iff, requests]
    cases (firstStop budget fd t₀ mid).isSome <;> simp
  · intro raw'
    have own : Event.answer k raw' ∈ mid ↔
        Event.answer k raw' ∈ mid.filter (Event.about k) := by
      simp [Event.about]
    rw [own, events]
    simp
  · intro ordered cancelled
    obtain ⟨_, blame⟩ := (endedOf_eq_cancelled_iff _ _ _).mp cancelled
    have stopped : firstStop budget fd t₀ mid = some .budget := by
      cases stop : firstStop budget fd t₀ mid with
      | none => simp [stop] at blame
      | some b => simpa [stop] using blame.symm
    obtain ⟨now', closed, b, mem, eq, past⟩ := firstStop_eq_budget stopped
    have later : now' ≤ now := by
      rw [← List.cons_append, List.filterMap_append, List.pairwise_append] at ordered
      refine ordered.2.2 now' ?_ now ?_
      · exact List.mem_filterMap.mpr ⟨_, List.mem_cons_of_mem _ mem, rfl⟩
      · exact List.mem_filterMap.mpr
          ⟨_, List.mem_cons_of_mem _ (List.mem_append_right _ (List.mem_singleton.mpr rfl)), rfl⟩
    have longer : now'.saturatingDurationSince t₀ ≤ now.saturatingDurationSince t₀ :=
      Nat.sub_le_sub_right later t₀
    exact ⟨b, eq, Nat.le_trans past longer⟩

/-- A request on socket 4 is found past its budget of five, then answers with a cancel error. -/
theorem request_attributed_past_budget :
    ∃ s₀ s₁ s₂ s₃ s₅, ∃ ended : RequestEnd,
      Reachable Step (initial (some 5)) s₀ ∧ Step s₀ (.begin 0 4 0 true) s₁ ∧
      Run Step s₁ [.evaluate 0 (evaluate (.object 7 [])), .watch false, .check 9 false,
        .answer 0 (some (.error 1 .cancel))] s₂ ∧ Step s₂ (.take 0) s₃ ∧ Step s₃ (.record 0 10 ended) s₅ ∧
      s₂.interrupt.requests = s₁.interrupt.requests + 1 ∧ ended.ended = .cancelled .budget ∧
      ∃ b, some 5 = some b ∧ b ≤ ended.duration := by
  have reached : Reachable Step (initial (some 5)) _ :=
    ⟨_, .cons (.call (.object 7 []) (by decide)) <| .cons (.ask rfl) <| .nil _⟩
  have begins := Step.begin (s := { initial (some 5) with
    stack := [.call 0 (.object 7 []) .asking], calls := 1 }) 4 0 rfl
  have run : Run Step
      ⟨⟨some 5, some ⟨4, 0, none⟩, [], false⟩, true, true, ⟨false, false, 0⟩,
        [.call 0 (.object 7 []) (.ready true)], .testing, 1⟩
      [.evaluate 0 (evaluate (.object 7 [])), .watch false, .check 9 false,
        .answer 0 (some (.error 1 .cancel))]
      ⟨⟨some 5, some ⟨4, 0, some .budget⟩, [], false⟩, true, true, ⟨true, false, 1⟩,
        [.call 0 (.object 7 []) (.answered true (.error 1 .cancel))], .testing, 1⟩ := by
    refine .cons (.evaluate rfl) ?_
    refine .cons (.watch rfl) ?_
    refine .cons (.check 9 false rfl rfl rfl) ?_
    refine .cons (.answer (some (.error 1 .cancel)) rfl) ?_
    exact .nil _
  have finish : Step _ (.take 0) _ := .take (s := ⟨⟨some 5, some ⟨4, 0, some .budget⟩, [], false⟩,
    true, true, ⟨true, false, 1⟩, [.call 0 (.object 7 []) (.answered true (.error 1 .cancel))],
    .testing, 1⟩) rfl
  have record : Step _ (.record 0 10 _) _ := .record (s := ⟨⟨some 5, none, [], false⟩, true, true,
    ⟨false, false, 1⟩, [.call 0 (.object 7 []) (.taken (.error 1 .cancel) ⟨4, 0, some .budget⟩)],
    .testing, 1⟩) 10 rfl
  obtain ⟨_, counted, _, raw, answers, cancelled, _, _, within⟩ :=
    request_attributed reached begins run (by decide) finish (.nil _) record
  have stopped : (requestEnd ⟨4, 0, some .budget⟩ [] (.error 1 .cancel) 10).ended =
      .cancelled .budget := rfl
  exact ⟨_, _, _, _, _, _, reached, begins, run, finish, record,
    counted.mpr ⟨9, false, by decide, .inl ⟨5, rfl, by decide⟩⟩, stopped,
    within (by decide) stopped⟩

end Rayforce.Serve
