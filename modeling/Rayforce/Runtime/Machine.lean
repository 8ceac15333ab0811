import Mathlib.Logic.Function.Basic
import Rayforce.Lib.Transition
import Rayforce.Runtime.Core

/-! Threads that enter and leave `Runtime::scope` (`runtime.rs`).  Every atomic access, core call and
thread-local write of `Runtime::new` and of the drop is a step of its own. -/

namespace Rayforce.Runtime

/-- Where one invocation of `Runtime::scope` stands. -/
inductive Scope
  /-- Before the compare-exchange of `LIVE`. -/
  | entering
  | refused
  | creating
  /-- `ray_runtime_create` gave null. -/
  | failed
  /-- It gave `rt`, and `OWNS_RUNTIME` is not set yet. -/
  | created (rt : Nat)
  /-- The body runs. -/
  | inside (rt : Nat)
  | dropping (rt : Nat)
  /-- The drop holds the loop that `ray_runtime_get_poll` gave. -/
  | polled (rt : Nat) (poll : Loop)
  | unset (rt : Nat) (poll : Loop)
  /-- No loop is left. -/
  | bare (rt : Nat)
  | destroyed
  | disowned
  deriving DecidableEq, Repr

/-- The attempt has not won the compare-exchange. -/
def Scope.quiet : Scope → Bool
  | .entering | .refused => true
  | _ => false

/-- How the body of a scope ends. -/
inductive Outcome
  | ok | err | panic
  deriving DecidableEq, Repr

/-- A handle on the event loop, with the runtime it was installed in and the thread it cannot
leave. -/
structure Poll where
  ptr : Address
  runtime : Option Nat
  thread : Thread
  deriving DecidableEq, Repr

structure State where
  live : Bool
  /-- `OWNS_RUNTIME` of each thread. -/
  owns : Thread → Bool
  /-- The scopes each thread is in, the innermost first. -/
  stack : Thread → List Scope
  core : Core
  /-- Every handle `Poll::install` has given out. -/
  polls : List Poll

def initial : State where
  live := false
  owns := fun _ => false
  stack := fun _ => []
  core := ⟨[], [], 0, 0, []⟩
  polls := []

def State.onRuntimeThread (s : State) (t : Thread) : Bool := s.owns t

/-- `assert_on_runtime_thread`, which panics with the text. -/
def State.assertOnRuntimeThread (s : State) (t : Thread) (what : String) : Except String Unit :=
  if s.onRuntimeThread t then .ok ()
  else if s.live then .error ("rayforce: " ++ what ++ " called off the runtime's thread")
  else .error ("rayforce: " ++ what ++ " requires a live Runtime")

/-- The thread runs code of its own: outside every scope, or in the body of its innermost one. -/
def State.Idle (s : State) (t : Thread) : Prop :=
  ∀ f ∈ (s.stack t).head?, ∃ rt, f = .inside rt

def State.goto (s : State) (t : Thread) (scopes : List Scope) : State :=
  { s with stack := Function.update s.stack t scopes }

inductive Event
  | enter (t : Thread)
  | exchange (t : Thread) (won : Bool)
  | refuse (t : Thread) (error : String)
  | create (t : Thread) (rt : Option Nat)
  | reset (t : Thread)
  | own (t : Thread)
  | finish (t : Thread) (outcome : Outcome)
  | getPoll (t : Thread) (poll : Option Loop)
  | unsetPoll (t : Thread)
  | destroyPoll (t : Thread) (poll : Loop)
  | destroy (t : Thread) (rt : Nat)
  | disown (t : Thread)
  | vacate (t : Thread)
  | install (t : Thread) (poll : Except String Poll)
  | connect (t : Thread)

/-- The event is a step of `Runtime::new`. -/
def Event.new : Event → Bool
  | .enter _ | .exchange _ _ | .refuse _ _ | .create _ _ | .reset _ | .own _ => true
  | _ => false

/-- The error of a scope that is refused. -/
def State.refusal (s : State) (t : Thread) : String :=
  if s.owns t then
    "a rayforce runtime is already live on this thread — Runtime::scope cannot be nested"
  else
    "a rayforce runtime is already live on another thread — the core permits one per process"

/-- `Poll::install`: `made` is what `ray_poll_create` gives, if it is called. -/
def State.install (s : State) (t : Thread) (made : Option Address) : Except String Poll × State :=
  if s.onRuntimeThread t then
    match s.core.getPoll with
    | some existing =>
      let poll := ⟨existing.address, s.core.current, t⟩
      (.ok poll, { s with polls := poll :: s.polls })
    | none =>
      match made with
      | none => (.error "ray_poll_create failed", s)
      | some address =>
        let poll := ⟨address, s.core.current, t⟩
        (.ok poll, { s with core := s.core.pollCreate address, polls := poll :: s.polls })
  else (.error "Poll::install requires a live rayforce runtime on this thread", s)

/-- The `ensure_poll` of `TcpClient::connect`, past its `assert_on_runtime_thread`. -/
def State.ensurePoll (s : State) (made : Option Address) : State :=
  match s.core.getPoll with
  | some _ => s
  | none =>
    match made with
    | some address => { s with core := s.core.pollCreate address }
    | none => { s with core := s.core.setPoll none }

inductive Step : State → Event → State → Prop
  | enter {s : State} {t : Thread} : s.Idle t →
      Step s (.enter t) (s.goto t (.entering :: s.stack t))
  | exchange {s : State} {t : Thread} {rest : List Scope} :
      s.stack t = .entering :: rest → s.live = false →
      Step s (.exchange t true) { s.goto t (.creating :: rest) with live := true }
  | exchangeLost {s : State} {t : Thread} {rest : List Scope} :
      s.stack t = .entering :: rest → s.live = true →
      Step s (.exchange t false) (s.goto t (.refused :: rest))
  | refuse {s : State} {t : Thread} {rest : List Scope} : s.stack t = .refused :: rest →
      Step s (.refuse t (s.refusal t)) (s.goto t rest)
  | create {s : State} {t : Thread} {rest : List Scope} : s.stack t = .creating :: rest →
      Step s (.create t (some s.core.nextRuntime))
        { s.goto t (.created s.core.nextRuntime :: rest) with core := s.core.runtimeCreate t }
  | createFailed {s : State} {t : Thread} {rest : List Scope} : s.stack t = .creating :: rest →
      Step s (.create t none) (s.goto t (.failed :: rest))
  | reset {s : State} {t : Thread} {rest : List Scope} : s.stack t = .failed :: rest →
      Step s (.reset t) { s.goto t rest with live := false }
  | own {s : State} {t : Thread} {rt : Nat} {rest : List Scope} :
      s.stack t = .created rt :: rest →
      Step s (.own t) { s.goto t (.inside rt :: rest) with owns := Function.update s.owns t true }
  | finish {s : State} {t : Thread} {rt : Nat} {rest : List Scope} (outcome : Outcome) :
      s.stack t = .inside rt :: rest →
      Step s (.finish t outcome) (s.goto t (.dropping rt :: rest))
  | getPoll {s : State} {t : Thread} {rt : Nat} {rest : List Scope} :
      s.stack t = .dropping rt :: rest →
      Step s (.getPoll t s.core.getPoll)
        (s.goto t ((s.core.getPoll.elim (.bare rt) (.polled rt)) :: rest))
  | unsetPoll {s : State} {t : Thread} {rt : Nat} {poll : Loop} {rest : List Scope} :
      s.stack t = .polled rt poll :: rest →
      Step s (.unsetPoll t)
        { s.goto t (.unset rt poll :: rest) with core := s.core.setPoll none }
  | destroyPoll {s : State} {t : Thread} {rt : Nat} {poll : Loop} {rest : List Scope} :
      s.stack t = .unset rt poll :: rest →
      Step s (.destroyPoll t poll)
        { s.goto t (.bare rt :: rest) with core := s.core.pollDestroy poll }
  | destroy {s : State} {t : Thread} {rt : Nat} {rest : List Scope} :
      s.stack t = .bare rt :: rest →
      Step s (.destroy t rt)
        { s.goto t (.destroyed :: rest) with core := s.core.runtimeDestroy rt }
  | disown {s : State} {t : Thread} {rest : List Scope} : s.stack t = .destroyed :: rest →
      Step s (.disown t)
        { s.goto t (.disowned :: rest) with owns := Function.update s.owns t false }
  | vacate {s : State} {t : Thread} {rest : List Scope} : s.stack t = .disowned :: rest →
      Step s (.vacate t) { s.goto t rest with live := false }
  | install {s : State} {t : Thread} (made : Option Address) : s.Idle t →
      (∀ address ∈ made, ∀ p ∈ s.core.loops, p.address ≠ address) →
      Step s (.install t (s.install t made).1) (s.install t made).2
  | connect {s : State} {t : Thread} (made : Option Address) : s.Idle t →
      (s.assertOnRuntimeThread t "TcpClient::connect").isOk = true →
      (∀ address ∈ made, ∀ p ∈ s.core.loops, p.address ≠ address) →
      Step s (.connect t) (s.ensurePoll made)

/-! ### A scope that opens -/

/-- The steps of `Runtime::new`, where the core gives a runtime. -/
def State.opening (s : State) (t : Thread) : List Event :=
  [.enter t, .exchange t true, .create t (some s.core.nextRuntime), .own t]

/-- After them. -/
def State.inScope (s : State) (t : Thread) : State :=
  let creating :=
    { (s.goto t (.entering :: s.stack t)).goto t (.creating :: s.stack t) with live := true }
  let created :=
    { creating.goto t (.created s.core.nextRuntime :: s.stack t) with core := s.core.runtimeCreate t }
  { created.goto t (.inside s.core.nextRuntime :: s.stack t) with
    owns := Function.update s.owns t true }

theorem scope_opens {s : State} {t : Thread} (idle : s.Idle t) (free : s.live = false) :
    Transition.Run Step s (s.opening t) (s.inScope t) := by
  have top (s : State) (scopes : List Scope) : (s.goto t scopes).stack t = scopes :=
    Function.update_self ..
  exact .cons (.enter idle) <| .cons (.exchange (top ..) free) <| .cons (.create (top ..)) <|
    .single (.own (top ..))

theorem idle_initial (t : Thread) : initial.Idle t := fun _ none => by cases none

end Rayforce.Runtime
