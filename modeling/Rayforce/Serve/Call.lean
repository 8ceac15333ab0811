import Mathlib.Data.List.Nodup
import Rayforce.Serve.Registration

/-! The life of one call of the guard.  Seen from call k alone the machine is a sequence of phases:
every event about k moves its life one phase on, and no other event moves it. -/

namespace Rayforce.Serve

open Transition

/-- How far a call of the guard has come. -/
inductive Life
  | unborn
  | live (payload : Payload) (phase : Phase)
  | gone
  deriving DecidableEq, Repr

def Frame.of (k : Nat) : Frame → Option (Payload × Phase)
  | .call j payload phase => if j = k then some (payload, phase) else none
  | _ => none

def Frame.name : Frame → Option Nat
  | .call j _ _ => some j
  | _ => none

def State.life (s : State) (k : Nat) : Life :=
  if s.calls ≤ k then .unborn
  else match s.stack.findSome? (Frame.of k) with
    | some (payload, phase) => .live payload phase
    | none => .gone

def Event.about (k : Nat) : Event → Bool
  | .call j _ | .ask j | .begin j _ _ _ | .evaluate j _ | .answer j _ | .take j | .record j _ _
  | .ret j _ => j == k
  | _ => false

inductive Life.Step (k : Nat) : Life → Event → Life → Prop
  | call (payload : Payload) (installed : Bool) :
      Life.Step k .unborn (.call k payload) (.live payload (.entered installed))
  | ask {payload : Payload} :
      Life.Step k (.live payload (.entered true)) (.ask k) (.live payload .asking)
  | begin {payload : Payload} (fd : Int) (now : Instant) (registered : Bool) :
      Life.Step k (.live payload .asking) (.begin k fd now registered)
        (.live payload (.ready registered))
  | evaluateUninstalled {payload : Payload} :
      Life.Step k (.live payload (.entered false)) (.evaluate k (evaluate payload))
        (.live payload (.evaluating false))
  | evaluate {payload : Payload} {registered : Bool} :
      Life.Step k (.live payload (.ready registered)) (.evaluate k (evaluate payload))
        (.live payload (.evaluating registered))
  | answer {payload : Payload} {registered : Bool} (raw : Option Answer) :
      Life.Step k (.live payload (.evaluating registered)) (.answer k raw)
        (.live payload (.answered registered (owned raw)))
  | take {payload : Payload} {answer : Answer} (run : Running) :
      Life.Step k (.live payload (.answered true answer)) (.take k)
        (.live payload (.taken answer run))
  | record {payload : Payload} {answer : Answer} {run : Running} (now : Instant) :
      Life.Step k (.live payload (.taken answer run))
        (.record k now (requestEnd run (textOf payload) answer now))
        (.live payload (.returning answer))
  | retUnregistered {payload : Payload} {answer : Answer} :
      Life.Step k (.live payload (.answered false answer)) (.ret k answer) .gone
  | ret {payload : Payload} {answer : Answer} :
      Life.Step k (.live payload (.returning answer)) (.ret k answer) .gone

/-- Each call on the stack has a name of its own, already given out. -/
structure Named (s : State) : Prop where
  below : ∀ k ∈ s.stack.filterMap Frame.name, k < s.calls
  distinct : (s.stack.filterMap Frame.name).Nodup

variable {s t : State} {e : Event} {k : Nat} {payload : Payload} {phase : Phase}
  {rest : List Frame} {budget : Option Duration}

theorem named_initial (budget : Option Duration) : Named (initial budget) :=
  ⟨fun _ mem => (List.not_mem_nil mem).elim, List.nodup_nil⟩

theorem Named.step (h : Named s) (step : Step s e t) : Named t := by
  cases step with
  | call payload opened =>
    have names : (Frame.call s.calls payload (.entered s.installed) :: s.stack).filterMap
        Frame.name = s.calls :: s.stack.filterMap Frame.name := rfl
    refine ⟨?_, ?_⟩
    · rw [names]
      intro k mem
      rcases List.mem_cons.mp mem with rfl | mem
      · exact Nat.lt_succ_self _
      · exact Nat.lt_succ_of_lt (h.below k mem)
    · rw [names]
      exact List.nodup_cons.mpr ⟨fun mem => Nat.lt_irrefl _ (h.below _ mem), h.distinct⟩
  | push | stop | drain | watch | check | idle | cancel => exact ⟨h.below, h.distinct⟩
  | pop top | join top | uninstall top | ask top | begin fd now top | evaluateUninstalled top
  | evaluate top | answer raw top | take top | record now top =>
    obtain ⟨below, distinct⟩ := h
    rw [top] at below distinct
    exact ⟨below, distinct⟩
  | retUnregistered top | ret top =>
    obtain ⟨below, distinct⟩ := h
    rw [top] at below distinct
    exact ⟨fun k mem => below k (List.mem_cons_of_mem _ mem), (List.nodup_cons.mp distinct).2⟩

theorem named_reachable (h : Reachable Step (initial budget) s) : Named s :=
  h.invariant (fun _ _ _ => Named.step) (named_initial budget)

theorem Named.top_lt (h : Named s) (top : s.stack = .call k payload phase :: rest) :
    k < s.calls :=
  h.below k (by simp [top, Frame.name])

theorem life_of_top (lt : k < s.calls) (top : s.stack = .call k payload phase :: rest) :
    s.life k = .live payload phase := by
  simp [State.life, top, Frame.of, Nat.not_le.mpr lt]

theorem life_unborn : s.life s.calls = .unborn := by
  simp [State.life]

theorem findSome?_of_eq_none (h : k ∉ rest.filterMap Frame.name) :
    rest.findSome? (Frame.of k) = none := by
  rw [List.findSome?_eq_none_iff]
  intro f mem
  cases f with
  | push => rfl
  | drop joined => rfl
  | call j payload phase =>
    have ne : j ≠ k := by
      rintro rfl
      exact h (List.mem_filterMap.mpr ⟨_, mem, rfl⟩)
    exact if_neg ne

theorem life_advances {phase' : Phase} (h : Named s)
    (top : s.stack = .call k payload phase :: rest) (calls : t.calls = s.calls)
    (stack : t.stack = .call k payload phase' :: rest)
    (own : (Life.live payload phase).Step k e (.live payload phase')) :
    (s.life k).Step k e (t.life k) := by
  have lt := h.top_lt top
  rw [life_of_top lt top, life_of_top (calls ▸ lt) stack]
  exact own

theorem life_ends (h : Named s) (top : s.stack = .call k payload phase :: rest)
    (calls : t.calls = s.calls) (stack : t.stack = rest)
    (own : (Life.live payload phase).Step k e .gone) : (s.life k).Step k e (t.life k) := by
  have distinct := h.distinct
  rw [top] at distinct
  have absent := findSome?_of_eq_none (List.nodup_cons.mp distinct).1
  have lt := h.top_lt top
  have gone : t.life k = .gone := by
    simp [State.life, stack, absent, calls, lt]
  rw [life_of_top lt top, gone]
  exact own

theorem life_congr (calls : t.calls = s.calls)
    (stack : t.stack.findSome? (Frame.of k) = s.stack.findSome? (Frame.of k)) :
    t.life k = s.life k := by
  simp only [State.life, calls, stack]

theorem findSome?_of_other {j : Nat} (ne : j ≠ k) :
    (Frame.call j payload phase :: rest).findSome? (Frame.of k) =
      rest.findSome? (Frame.of k) := by
  simp [Frame.of, ne]

theorem life_moves (h : Named s) (registered : Registered s) (step : Step s e t)
    (own : e.about k = true) : (s.life k).Step k e (t.life k) := by
  cases step with
  | call payload opened =>
    obtain rfl : s.calls = k := by simpa [Event.about] using own
    rw [life_unborn, life_of_top (Nat.lt_succ_self _) rfl]
    exact .call payload s.installed
  | ask top =>
    obtain rfl := eq_of_beq own
    exact life_advances h top rfl rfl .ask
  | begin fd now top =>
    obtain rfl := eq_of_beq own
    exact life_advances h top rfl rfl (.begin fd now _)
  | evaluateUninstalled top =>
    obtain rfl := eq_of_beq own
    exact life_advances h top rfl rfl .evaluateUninstalled
  | evaluate top =>
    obtain rfl := eq_of_beq own
    exact life_advances h top rfl rfl .evaluate
  | answer raw top =>
    obtain rfl := eq_of_beq own
    exact life_advances h top rfl rfl (.answer raw)
  | take top =>
    obtain rfl := eq_of_beq own
    obtain ⟨run, running⟩ := registered.running top
    exact life_advances h top rfl (by rw [Shared.take, running]; rfl) (.take run)
  | record now top =>
    obtain rfl := eq_of_beq own
    exact life_advances h top rfl rfl (.record now)
  | retUnregistered top =>
    obtain rfl := eq_of_beq own
    exact life_ends h top rfl rfl .retUnregistered
  | ret top =>
    obtain rfl := eq_of_beq own
    exact life_ends h top rfl rfl .ret
  | push | pop | stop | join | uninstall | drain | watch | check | idle | cancel => cases own

theorem life_stays (step : Step s e t) (other : e.about k = false) : t.life k = s.life k := by
  cases step with
  | call payload opened =>
    have ne : s.calls ≠ k := by simpa [Event.about] using other
    have le : s.calls + 1 ≤ k ↔ s.calls ≤ k := by omega
    simp [State.life, Frame.of, ne, le]
  | drain | watch | check | idle | cancel => rfl
  | push | stop => rfl
  | pop top | join top | uninstall top =>
    refine life_congr rfl ?_
    rw [top]
    rfl
  | ask top | begin fd now top | evaluateUninstalled top | evaluate top | answer raw top
  | take top | record now top =>
    have ne := ne_of_beq_false other
    refine life_congr rfl ?_
    rw [top, findSome?_of_other ne, findSome?_of_other ne]
  | retUnregistered top | ret top =>
    have ne := ne_of_beq_false other
    refine life_congr rfl ?_
    rw [top, findSome?_of_other ne]

/-- The events about a call are a run of that call's own steps. -/
theorem life_run {es : List Event} (reached : Reachable Step (initial budget) s)
    (run : Run Step s es t) (k : Nat) :
    Run (Life.Step k) (s.life k) (es.filter (Event.about k)) (t.life k) :=
  run.project (State.life · k) (Event.about k) (fun _ _ _ => Reachable.tail)
    (fun _ _ _ reached => life_moves (named_reachable reached) (registered_reachable reached))
    (fun _ _ _ _ => life_stays) reached

/-! ### What one life shows -/

def Life.rank : Life → Nat
  | .unborn => 0
  | .live _ (.entered _) => 1
  | .live _ .asking => 2
  | .live _ (.ready _) => 3
  | .live _ (.evaluating _) => 4
  | .live _ (.answered _ _) => 5
  | .live _ (.taken _ _) => 6
  | .live _ (.returning _) => 7
  | .gone => 8

theorem Life.Step.rank_lt {l l' : Life} (step : l.Step k e l') : l.rank < l'.rank := by
  cases step <;> simp [Life.rank]

variable {l l' : Life} {es : List Event}

/-- A call is in each phase once, so a run between two ends of one rank is empty. -/
theorem life_run_nil (run : Run (Life.Step k) l es l') (same : l'.rank ≤ l.rank) :
    es = [] ∧ l' = l := by
  have longer := Run.length_le Life.rank (fun _ _ _ step => step.rank_lt) run
  obtain rfl : es = [] := List.length_eq_zero_iff.mp (by omega)
  cases run
  exact ⟨rfl, rfl⟩

/-- A call keeps its registration until it takes it. -/
theorem life_run_registered (run : Run (Life.Step k) (.live payload phase) es l)
    (registered : phase.registered = true) (untaken : .take k ∉ es) :
    ∃ phase', l = .live payload phase' ∧ phase'.registered = true := by
  generalize start : Life.live payload phase = l₀ at run
  induction run generalizing phase with
  | nil => exact ⟨phase, start.symm, registered⟩
  | cons first _ ih =>
    subst start
    have rest := fun mem => untaken (List.mem_cons_of_mem _ mem)
    cases first with
    | @evaluate _ held =>
      exact ih (show (Phase.evaluating held).registered = true from registered) rest rfl
    | @answer _ held raw =>
      exact ih (show (Phase.answered held (owned raw)).registered = true from registered) rest rfl
    | take run => exact absurd (List.mem_cons_self ..) untaken
    | _ => cases registered

/-- Between `begin` and the end of its evaluation a call shows the evaluation and its answer. -/
theorem life_run_evaluation {payload' : Payload} {registered registered' : Bool} {answer : Answer}
    (run : Run (Life.Step k) (.live payload (.ready registered)) es
      (.live payload' (.answered registered' answer))) :
    payload' = payload ∧
      ∃ raw, es = [.evaluate k (evaluate payload), .answer k raw] ∧ answer = owned raw := by
  cases run with
  | cons first run =>
    cases first with
    | evaluate =>
      cases run with
      | cons second run =>
        cases second with
        | answer raw =>
          obtain ⟨rfl, last⟩ := life_run_nil run (Nat.le_refl _)
          cases last
          exact ⟨rfl, raw, rfl, rfl⟩

end Rayforce.Serve
