import Mathlib.Data.List.Basic
import Rayforce.Runtime.Poll
import Rayforce.Serve.Machine

/-! `ServeIpc::start` and the drop of what it hands back (`serve.rs`), on the statics of the process and
the two globals of the runtime that the core looks a request's hook up in. -/

namespace Rayforce.Serve

open Rayforce.Runtime (Poll Thread)

inductive Hook
  | sync | async
  deriving DecidableEq, Repr

def Hook.name : Hook → String
  | .sync => ".ipc.on.sync"
  | .async => ".ipc.on.async"

def Hook.all : List Hook := [.sync, .async]

/-- `GUARD` and `PAYLOAD`. -/
def guardName : String := ".serve.guard"
def payloadName : String := "servePayload"

/-- The lambda that hands a payload to the guard. -/
def guardLambda : String := s!"(fn [{payloadName}] ({guardName} {payloadName}))"

def setSource (hook : Hook) : String := s!"(set {hook.name} {guardLambda})"
def delSource (hook : Hook) : String := s!"(del {hook.name})"
def listenSource (port : UInt16) : String := s!"(.sys.listen {port})"

/-- What is outside the module and may refuse: the binding of the native guard, the evaluation of a
source, and the spawning of the watcher. -/
structure Answers where
  bindUnary : Except RayError Unit
  eval : String → Except RayError Unit
  spawn : Except String Unit

/-- The server that was handed out.  It cannot leave its thread, and its `Shared` is named by the order
in which those were allocated. -/
structure IpcServer where
  port : UInt16
  shared : Nat
  thread : Thread
  deriving DecidableEq, Repr

structure ServeIpc where
  poll : Poll
  port : UInt16
  budget : Option Duration

structure Process where
  runtime : Runtime.State
  /-- The source of the lambda that each global is bound to. -/
  hooks : Hook → Option String
  /-- Every `Shared` that was allocated. -/
  arcs : List Shared
  /-- `INSTALLED`. -/
  installed : Option Nat
  /-- The servers that have not been dropped. -/
  servers : List IpcServer
  /-- The `Shared` of each watcher's thread that runs. -/
  watchers : List Nat

/-- Why `start` gives an error. -/
inductive Refusal
  | stale
  | zeroBudget
  | zeroPort
  | serving
  | serve (error : RayError)
  | watcher (error : String)
  deriving DecidableEq, Repr

def Refusal.error : Refusal → RayError
  | .stale => .binding "IPC: the loop this was built on is gone"
  | .zeroBudget => .binding "IPC: a zero budget would cancel every request"
  | .zeroPort => .binding "IPC: port 0 is not a port to serve"
  | .serving => .binding "IPC: this process already serves IPC through serve_ipc"
  | .serve error => error
  | .watcher error => .binding s!"IPC: no watcher thread: {error}"

inductive Outcome
  | panicked (text : String)
  | refused (why : Refusal)
  | served (server : IpcServer)
  deriving DecidableEq, Repr

/-- The loop of `install_hooks`.  A `set` that is refused leaves its global as it was. -/
def Process.setHooks (a : Answers) : List Hook → Process → Except RayError Unit × Process
  | [], p => (.ok (), p)
  | hook :: hooks, p =>
    match a.eval (setSource hook) with
    | .error error => (.error error, p)
    | .ok () => setHooks a hooks { p with hooks := Function.update p.hooks hook (some guardLambda) }

def Process.installHooks (p : Process) (a : Answers) : Except RayError Unit × Process :=
  match a.bindUnary with
  | .error error => (.error error, p)
  | .ok () => p.setHooks a Hook.all

def listen (a : Answers) (port : UInt16) : Except RayError Unit := a.eval (listenSource port)

/-- `install_hooks().and_then(|()| listen(port))`. -/
def Process.installAndListen (p : Process) (a : Answers) (port : UInt16) :
    Except RayError Unit × Process :=
  match p.installHooks a with
  | (.error error, p) => (.error error, p)
  | (.ok (), p) => (listen a port, p)

/-- A `del` that is refused leaves its global as it was. -/
def Process.delHook (a : Answers) (p : Process) (hook : Hook) : Process :=
  match a.eval (delSource hook) with
  | .error _ => p
  | .ok () => { p with hooks := Function.update p.hooks hook none }

def Process.uninstallHooks (p : Process) (t : Thread) (a : Answers) : Process :=
  let p := if p.runtime.onRuntimeThread t then Hook.all.foldl (delHook a) p else p
  { p with installed := none }

/-- `start` once `INSTALLED` holds the `Shared` of this start. -/
def Process.serve (p : Process) (ipc : ServeIpc) (a : Answers) (shared : Nat) : Outcome × Process :=
  let t := ipc.poll.thread
  match p.installAndListen a ipc.port with
  | (.error error, p) => (.refused (.serve error), p.uninstallHooks t a)
  | (.ok (), p) =>
    match a.spawn with
    | .error error => (.refused (.watcher error), p.uninstallHooks t a)
    | .ok () =>
      let server := ⟨ipc.port, shared, t⟩
      (.served server, { p with servers := server :: p.servers, watchers := shared :: p.watchers })

/-- `start`, on the thread that the loop's handle cannot leave. -/
def Process.start (p : Process) (ipc : ServeIpc) (a : Answers) : Outcome × Process :=
  match p.runtime.assertOnRuntimeThread ipc.poll.thread "ServeIpc::start" with
  | .error text => (.panicked text, p)
  | .ok () =>
    if !ipc.poll.isCurrent p.runtime then (.refused .stale, p)
    else if ipc.budget = some 0 then (.refused .zeroBudget, p)
    else if ipc.port = 0 then (.refused .zeroPort, p)
    else
      let shared := p.arcs.length
      let p : Process := { p with arcs := p.arcs ++ [⟨ipc.budget, none, [], false⟩] }
      if p.installed.isSome then (.refused .serving, p)
      else { p with installed := some shared }.serve ipc a shared

/-- The drop of a server.  `join` returns when the watcher has seen the flag and its thread has ended. -/
def Process.drop (p : Process) (server : IpcServer) (a : Answers) : Process :=
  let p := { p with
    arcs := p.arcs.modify server.shared fun s => { s with stop := true }
    watchers := p.watchers.erase server.shared
    servers := p.servers.erase server }
  p.uninstallHooks server.thread a

def Process.initial : Process where
  runtime := Runtime.initial
  hooks := fun _ => none
  arcs := []
  installed := none
  servers := []
  watchers := []

/-! ### What a start can do -/

variable {p : Process} {ipc : ServeIpc} {a : Answers} {server : IpcServer} {t : Thread}

/-- The `set` of the hook is reached and accepted. -/
def Answers.sets (a : Answers) : Hook → Bool
  | .sync => a.bindUnary.isOk && (a.eval (setSource .sync)).isOk
  | .async =>
    a.bindUnary.isOk && (a.eval (setSource .sync)).isOk && (a.eval (setSource .async)).isOk

/-- The `del` of the hook is accepted. -/
def Answers.dels (a : Answers) (hook : Hook) : Bool := (a.eval (delSource hook)).isOk

structure Answers.Accept (a : Answers) (port : UInt16) : Prop where
  bound : a.bindUnary = .ok ()
  set : ∀ hook, a.eval (setSource hook) = .ok ()
  listening : a.eval (listenSource port) = .ok ()
  spawned : a.spawn = .ok ()

/-- The start is refused before it claims `INSTALLED`. -/
def ServeIpc.Early (ipc : ServeIpc) (p : Process) : Prop :=
  ipc.budget = some 0 ∨ ipc.port = 0 ∨ p.installed.isSome = true

/-- The `Shared` of this start, added to the others. -/
def Process.allocate (p : Process) (ipc : ServeIpc) : Process :=
  { p with arcs := p.arcs ++ [⟨ipc.budget, none, [], false⟩] }

def Process.guarded (p : Process) (a : Answers) : Process :=
  { p with hooks := fun hook => if a.sets hook then some guardLambda else p.hooks hook }

def Process.unguarded (p : Process) (a : Answers) : Process :=
  { p with
    hooks := fun hook => if a.dels hook then none else p.hooks hook
    installed := none }

inductive Started (p : Process) (ipc : ServeIpc) (a : Answers) : Outcome → Process → Prop
  | panicked (text : String) : Started p ipc a (.panicked text) p
  | early (why : Refusal) (p' : Process) : ipc.Early p → (why = .serving → p.installed.isSome = true) →
      p' = p ∨ p' = p.allocate ipc → Started p ipc a (.refused why) p'
  | undone (why : Refusal) : ¬ipc.Early p → why ≠ .serving →
      Started p ipc a (.refused why) (((p.allocate ipc).guarded a).unguarded a)
  | served : ¬ipc.Early p → a.Accept ipc.port →
      Started p ipc a (.served ⟨ipc.port, p.arcs.length, ipc.poll.thread⟩)
        { (p.allocate ipc).guarded a with
          installed := some p.arcs.length
          servers := ⟨ipc.port, p.arcs.length, ipc.poll.thread⟩ :: p.servers
          watchers := p.arcs.length :: p.watchers }

theorem delHook_eq (p : Process) (a : Answers) (hook : Hook) : Process.delHook a p hook =
    { p with hooks := if a.dels hook then Function.update p.hooks hook none else p.hooks } := by
  unfold Process.delHook Answers.dels
  cases a.eval (delSource hook) with
  | error error => rfl
  | ok => rfl

theorem uninstallHooks_eq (p : Process) (a : Answers) (on : p.runtime.onRuntimeThread t = true) :
    p.uninstallHooks t a = p.unguarded a := by
  unfold Process.uninstallHooks Process.unguarded
  simp only [on, if_true, Hook.all, List.foldl_cons, List.foldl_nil, delHook_eq]
  congr 1
  funext hook
  cases hook with
  | sync => cases a.dels .sync <;> cases a.dels .async <;> rfl
  | async => cases a.dels .sync <;> cases a.dels .async <;> rfl

theorem eq_guarded {f : Hook → Option String}
    (hooks : ∀ hook, f hook = if a.sets hook then some guardLambda else p.hooks hook) :
    { p with hooks := f } = p.guarded a :=
  congrArg (fun f => { p with hooks := f }) (funext hooks)

/-- The hooks of which the `set` was accepted point at the guard, also where a later step fails. -/
theorem installHooks_eq (p : Process) (a : Answers) :
    (p.installHooks a).2 = p.guarded a ∧ ((p.installHooks a).1 = .ok () →
      a.bindUnary = .ok () ∧ ∀ hook, a.eval (setSource hook) = .ok ()) := by
  unfold Process.installHooks
  cases bound : a.bindUnary with
  | error error =>
    refine ⟨eq_guarded (f := p.hooks) fun hook => ?_, fun accepted => ?_⟩
    · cases hook <;> simp [Answers.sets, bound, Except.isOk, Except.toBool]
    · cases accepted
  | ok =>
    dsimp only [Hook.all, Process.setHooks]
    cases sync : a.eval (setSource .sync) with
    | error error =>
      refine ⟨eq_guarded (f := p.hooks) fun hook => ?_, fun accepted => ?_⟩
      · cases hook <;> simp [Answers.sets, sync, Except.isOk, Except.toBool]
      · cases accepted
    | ok =>
      dsimp only
      cases async : a.eval (setSource .async) with
      | error error =>
        refine ⟨eq_guarded fun hook => ?_, fun accepted => ?_⟩
        · cases hook <;> simp [Answers.sets, bound, sync, async, Except.isOk, Except.toBool]
        · cases accepted
      | ok =>
        refine ⟨eq_guarded fun hook => ?_, fun _ => ⟨rfl, fun hook => ?_⟩⟩
        · cases hook <;> simp [Answers.sets, bound, sync, async, Except.isOk, Except.toBool]
        · cases hook with
          | sync => exact sync
          | async => exact async

theorem installAndListen_eq (p : Process) (a : Answers) (port : UInt16) :
    (p.installAndListen a port).2 = p.guarded a ∧ ((p.installAndListen a port).1 = .ok () →
      a.bindUnary = .ok () ∧ (∀ hook, a.eval (setSource hook) = .ok ()) ∧
      a.eval (listenSource port) = .ok ()) := by
  obtain ⟨after, accepted⟩ := installHooks_eq p a
  unfold Process.installAndListen
  rcases installed : p.installHooks a with ⟨_ | _, p'⟩
  · rw [installed] at after
    exact ⟨after, nofun⟩
  · rw [installed] at after accepted
    obtain ⟨bound, set⟩ := accepted rfl
    exact ⟨after, fun listening => ⟨bound, set, listening⟩⟩

theorem onRuntimeThread_of_assert {r : Runtime.State} {what : String}
    (on : r.assertOnRuntimeThread t what = .ok ()) : r.onRuntimeThread t = true := by
  unfold Runtime.State.assertOnRuntimeThread at on
  split at on
  · assumption
  · split at on
    · cases on
    · cases on

/-- Where a step fails after `INSTALLED` is claimed, the claim and both hooks are given up. -/
theorem serve_started (late : ¬ipc.Early p) (on : p.runtime.onRuntimeThread ipc.poll.thread = true) :
    Started p ipc a (({ p.allocate ipc with installed := some p.arcs.length }).serve ipc a p.arcs.length).1
      (({ p.allocate ipc with installed := some p.arcs.length }).serve ipc a p.arcs.length).2 := by
  obtain ⟨after, accepted⟩ := installAndListen_eq
    { p.allocate ipc with installed := some p.arcs.length } a ipc.port
  unfold Process.serve
  rcases installed : Process.installAndListen
    { p.allocate ipc with installed := some p.arcs.length } a ipc.port with ⟨error | _, q⟩
  · rw [installed] at after
    obtain rfl : q = _ := after
    dsimp only
    rw [uninstallHooks_eq _ a (by exact on)]
    exact .undone (.serve error) late nofun
  · rw [installed] at after accepted
    obtain rfl : q = _ := after
    obtain ⟨bound, set, listening⟩ := accepted rfl
    cases spawned : a.spawn with
    | error error =>
      dsimp only
      rw [uninstallHooks_eq _ a (by exact on)]
      exact .undone (.watcher error) late nofun
    | ok => exact .served late ⟨bound, set, listening, spawned⟩

theorem start_started (p : Process) (ipc : ServeIpc) (a : Answers) :
    Started p ipc a (p.start ipc a).1 (p.start ipc a).2 := by
  unfold Process.start
  cases asserted : p.runtime.assertOnRuntimeThread ipc.poll.thread "ServeIpc::start" with
  | error text => exact .panicked text
  | ok =>
    have on := onRuntimeThread_of_assert asserted
    dsimp only
    rw [if_neg (by simp [Poll.isCurrent, on])]
    split
    · next zero => exact .early .zeroBudget p (.inl zero) nofun (.inl rfl)
    · next budget =>
      split
      · next zero => exact .early .zeroPort p (.inr (.inl zero)) nofun (.inl rfl)
      · next port =>
        split
        · next serving => exact .early .serving _ (.inr (.inr serving)) (fun _ => serving) (.inr rfl)
        · next free =>
          have late : ¬ipc.Early p := by
            rintro (zero | zero | serving)
            · exact budget zero
            · exact port zero
            · exact free serving
          exact serve_started late on

/-- The server that is handed out begins as the machine of a guarded server does: its `Shared` is the one
`INSTALLED` names, and both hooks point at the guard. -/
theorem start_served (served : (p.start ipc a).1 = .served server) :
    (p.start ipc a).2.arcs[server.shared]? = some (Serve.initial ipc.budget).shared ∧
      (p.start ipc a).2.installed = some server.shared ∧
      ∀ hook, (p.start ipc a).2.hooks hook = some guardLambda := by
  have started := start_started p ipc a
  rw [served] at started
  generalize (p.start ipc a).2 = q at started ⊢
  cases started with
  | served _ accept =>
    refine ⟨List.getElem?_concat_length .., rfl, fun hook => if_pos ?_⟩
    unfold Answers.sets
    rw [accept.bound, accept.set, accept.set]
    cases hook <;> rfl

end Rayforce.Serve
