import Rayforce.Serve.Sole

/-! The servers of a process with all that they do (`serve.rs`).  One loop's thread starts and drops
them, also inside a request, each has a watcher's thread of its own, and the core has one interrupt
flag for all. -/

namespace Rayforce.Serve.Servers

open Transition

inductive Frame
  | push
  /-- A call of the guard, with the `Shared` that it cloned out of `INSTALLED`. -/
  | call (shared : Option Nat) (k : Nat) (payload : Payload) (phase : Phase)
  | drop (server : IpcServer) (joined : Bool)
  deriving DecidableEq, Repr

structure State where
  process : Process
  interrupt : Interrupt
  stack : List Frame
  /-- Where each watcher's thread stands, once it has been spawned. -/
  watching : Nat → Watcher
  /-- The number of calls so far that found this `Shared`, or none. -/
  calls : Option Nat → Nat

def initial : State where
  process := .initial
  interrupt := ⟨false, false, 0⟩
  stack := []
  watching := fun _ => .testing
  calls := fun _ => 0

def State.shared? (s : State) (n : Nat) : Option Shared := s.process.arcs[n]?

def State.setShared (s : State) (n : Nat) (shared : Shared) : State :=
  { s with process := { s.process with arcs := s.process.arcs.set n shared } }

def Frame.open : Frame → Bool
  | .push | .call _ _ _ .asking | .call _ _ _ (.evaluating _) | .drop _ true => true
  | _ => false

/-- An evaluation, a call of the guard, a start or a drop may begin. -/
def State.Open (s : State) : Prop := ∀ f ∈ s.stack.head?, f.open = true

instance (s : State) : Decidable s.Open :=
  inferInstanceAs (Decidable (∀ f ∈ s.stack.head?, f.open = true))

inductive Event
  | push
  | pop
  /-- What a call does that found this `Shared`, or the server that has it, or its watcher. -/
  | own (shared : Option Nat) (e : Serve.Event)
  | start (ipc : ServeIpc) (a : Answers) (out : Outcome)
  | cancel
  | runtime (e : Runtime.Event)
  | bind (hook : Hook) (source : Option String)

inductive Step : State → Event → State → Prop
  | push {s : State} : s.Open → Step s .push { s with stack := .push :: s.stack }
  | pop {s : State} {rest : List Frame} :
      s.stack = .push :: rest → Step s .pop { s with stack := rest }
  | call {s : State} (payload : Payload) : s.Open →
      Step s (.own s.process.installed (.call (s.calls s.process.installed) payload))
        { s with
          stack := .call s.process.installed (s.calls s.process.installed) payload
            (.entered s.process.installed.isSome) :: s.stack
          calls := Function.update s.calls s.process.installed (s.calls s.process.installed + 1) }
  | ask {s : State} {n k : Nat} {payload : Payload} {rest : List Frame} :
      s.stack = .call (some n) k payload (.entered true) :: rest →
      Step s (.own (some n) (.ask k)) { s with stack := .call (some n) k payload .asking :: rest }
  | begin {s : State} {n k : Nat} {payload : Payload} {shared : Shared} {rest : List Frame} (fd : Int)
      (now : Instant) :
      s.stack = .call (some n) k payload .asking :: rest → s.shared? n = some shared →
      Step s (.own (some n) (.begin k fd now (shared.begin fd now).1))
        { s.setShared n (shared.begin fd now).2 with
          stack := .call (some n) k payload (.ready (shared.begin fd now).1) :: rest }
  | evaluateUninstalled {s : State} {k : Nat} {payload : Payload} {rest : List Frame} :
      s.stack = .call none k payload (.entered false) :: rest →
      Step s (.own none (.evaluate k (evaluate payload)))
        { s with stack := .call none k payload (.evaluating false) :: rest }
  | evaluate {s : State} {o : Option Nat} {k : Nat} {payload : Payload} {registered : Bool}
      {rest : List Frame} :
      s.stack = .call o k payload (.ready registered) :: rest →
      Step s (.own o (.evaluate k (evaluate payload)))
        { s with stack := .call o k payload (.evaluating registered) :: rest }
  | answer {s : State} {o : Option Nat} {k : Nat} {payload : Payload} {registered : Bool}
      {rest : List Frame} (raw : Option Answer) :
      s.stack = .call o k payload (.evaluating registered) :: rest →
      Step s (.own o (.answer k raw))
        { s with stack := .call o k payload (.answered registered (owned raw)) :: rest }
  | take {s : State} {n k : Nat} {payload : Payload} {answer : Answer} {shared : Shared}
      {rest : List Frame} :
      s.stack = .call (some n) k payload (.answered true answer) :: rest → s.shared? n = some shared →
      Step s (.own (some n) (.take k))
        { s.setShared n (shared.take s.interrupt).2.1 with
          interrupt := (shared.take s.interrupt).2.2
          stack := .call (some n) k payload (afterTake answer (shared.take s.interrupt).1) :: rest }
  | record {s : State} {n k : Nat} {payload : Payload} {answer : Answer} {run : Running}
      {shared : Shared} {rest : List Frame} (now : Instant) :
      s.stack = .call (some n) k payload (.taken answer run) :: rest → s.shared? n = some shared →
      Step s (.own (some n) (.record k now (requestEnd run (textOf payload) answer now)))
        { s.setShared n (shared.record (requestEnd run (textOf payload) answer now)) with
          stack := .call (some n) k payload (.returning answer) :: rest }
  | retUnregistered {s : State} {o : Option Nat} {k : Nat} {payload : Payload} {answer : Answer}
      {rest : List Frame} :
      s.stack = .call o k payload (.answered false answer) :: rest →
      Step s (.own o (.ret k answer)) { s with stack := rest }
  | ret {s : State} {o : Option Nat} {k : Nat} {payload : Payload} {answer : Answer}
      {rest : List Frame} :
      s.stack = .call o k payload (.returning answer) :: rest →
      Step s (.own o (.ret k answer)) { s with stack := rest }
  | drain {s : State} {server : IpcServer} {shared : Shared} :
      server ∈ s.process.servers → s.Open → s.shared? server.shared = some shared →
      Step s (.own (some server.shared) (.drain shared.drain.1))
        (s.setShared server.shared shared.drain.2)
  | start {s : State} (ipc : ServeIpc) (a : Answers) : s.Open →
      Step s (.start ipc a (s.process.start ipc a).1) { s with process := (s.process.start ipc a).2 }
  | stop {s : State} {server : IpcServer} {shared : Shared} :
      server ∈ s.process.servers → s.Open → s.shared? server.shared = some shared →
      Step s (.own (some server.shared) .stop)
        { s with
          process :=
            { s.process with
              arcs := s.process.arcs.set server.shared { shared with stop := true }
              servers := s.process.servers.erase server }
          stack := .drop server false :: s.stack }
  | join {s : State} {server : IpcServer} {rest : List Frame} :
      s.stack = .drop server false :: rest → s.watching server.shared = .exited →
      Step s (.own (some server.shared) .join)
        { s with
          process := { s.process with watchers := s.process.watchers.erase server.shared }
          stack := .drop server true :: rest }
  | uninstall {s : State} {server : IpcServer} {rest : List Frame} (a : Answers) :
      s.stack = .drop server true :: rest →
      Step s (.own (some server.shared) .uninstall)
        { s with process := s.process.uninstallHooks server.thread a, stack := rest }
  | watch {s : State} {n : Nat} {shared : Shared} :
      n ∈ s.process.watchers → s.watching n = .testing → s.shared? n = some shared →
      Step s (.own (some n) (.watch shared.stop))
        { s with
          watching := Function.update s.watching n (if shared.stop then .exited else .checking) }
  | check {s : State} {n : Nat} {shared : Shared} {run : Running} (now : Instant) (closed : Bool) :
      n ∈ s.process.watchers → s.watching n = .checking → s.shared? n = some shared →
      shared.running = some run → run.stoppedBy = none →
      Step s (.own (some n) (.check now closed))
        { s.setShared n (shared.check s.interrupt now closed).1 with
          interrupt := (shared.check s.interrupt now closed).2
          watching := Function.update s.watching n .testing }
  | idle {s : State} {n : Nat} {shared : Shared} :
      n ∈ s.process.watchers → s.watching n = .checking → s.shared? n = some shared →
      (∀ run ∈ shared.running, run.stoppedBy ≠ none) →
      Step s (.own (some n) .idle) { s with watching := Function.update s.watching n .testing }
  | cancel {s : State} : Step s .cancel { s with interrupt := { s.interrupt with client := true } }
  /-- A runtime that is created has globals of its own. -/
  | runtime {s : State} {e : Runtime.Event} {r : Runtime.State} (hooks : Hook → Option String) :
      Runtime.Step s.process.runtime e r →
      Step s (.runtime e) { s with process := { s.process with runtime := r, hooks := hooks } }
  | bind {s : State} (hook : Hook) (source : Option String) :
      Step s (.bind hook source)
        { s with process := { s.process with hooks := Function.update s.process.hooks hook source } }

variable {s t : State} {e : Event}

/-! ### Who owns `INSTALLED` -/

def Frame.isDrop : Frame → Bool
  | .drop _ _ => true
  | _ => false

/-- `INSTALLED` names the one server that stands or is being dropped, and its watcher is the one that
has not been joined. -/
inductive Owned (s : State) : Prop
  | idle : s.stack.filter Frame.isDrop = [] → s.process.servers = [] → s.process.installed = none →
      s.process.watchers = [] → Owned s
  | serving (server : IpcServer) : s.stack.filter Frame.isDrop = [] → s.process.servers = [server] →
      s.process.installed = some server.shared → s.process.watchers = [server.shared] → Owned s
  | dropping (server : IpcServer) (joined : Bool) :
      s.stack.filter Frame.isDrop = [.drop server joined] → s.process.servers = [] →
      s.process.installed = some server.shared →
      s.process.watchers = (if joined then [] else [server.shared]) → Owned s

theorem Owned.same (h : Owned s) (drops : t.stack.filter Frame.isDrop = s.stack.filter Frame.isDrop)
    (servers : t.process.servers = s.process.servers)
    (installed : t.process.installed = s.process.installed)
    (watchers : t.process.watchers = s.process.watchers) : Owned t := by
  cases h with
  | idle quiet no free rest =>
    exact .idle (drops.trans quiet) (servers.trans no) (installed.trans free) (watchers.trans rest)
  | serving server quiet sole own watched =>
    exact .serving server (drops.trans quiet) (servers.trans sole) (installed.trans own)
      (watchers.trans watched)
  | dropping server joined one no own watched =>
    exact .dropping server joined (drops.trans one) (servers.trans no) (installed.trans own)
      (watchers.trans watched)

/-- A server that stands is the only one, and none is being dropped. -/
theorem Owned.stands (h : Owned s) {server : IpcServer} (mem : server ∈ s.process.servers) :
    s.stack.filter Frame.isDrop = [] ∧ s.process.servers = [server] ∧
      s.process.installed = some server.shared ∧ s.process.watchers = [server.shared] := by
  cases h with
  | idle _ no | dropping _ _ _ no =>
    rw [no] at mem
    cases mem
  | serving server' quiet sole own watched =>
    rw [sole] at mem
    obtain rfl := List.mem_singleton.mp mem
    exact ⟨quiet, sole, own, watched⟩

/-- A server that is being dropped is the only one. -/
theorem Owned.drops (h : Owned s) {server : IpcServer} {joined : Bool} {rest : List Frame}
    (top : s.stack = .drop server joined :: rest) :
    rest.filter Frame.isDrop = [] ∧ s.process.servers = [] ∧
      s.process.installed = some server.shared ∧
      s.process.watchers = (if joined then [] else [server.shared]) := by
  have found : s.stack.filter Frame.isDrop = .drop server joined :: rest.filter Frame.isDrop := by
    rw [top]
    rfl
  cases h with
  | idle quiet | serving _ quiet =>
    rw [quiet] at found
    cases found
  | dropping server' joined' one no own watched =>
    rw [one] at found
    obtain ⟨⟨rfl, rfl⟩, alone⟩ := List.cons.inj found |>.imp (fun eq => Frame.drop.inj eq) id
    exact ⟨alone.symm, no, own, watched⟩

theorem Owned.watched (h : Owned s) {n : Nat} (mem : n ∈ s.process.watchers) :
    s.process.installed = some n := by
  cases h with
  | idle _ _ _ watched =>
    rw [watched] at mem
    cases mem
  | serving _ _ _ own watched =>
    rw [watched] at mem
    rw [own, List.mem_singleton.mp mem]
  | dropping _ joined _ _ own watched =>
    rw [watched] at mem
    cases joined with
    | true => cases mem
    | false => rw [own, List.mem_singleton.mp mem]

/-- A start that claims `INSTALLED` finds no server. -/
theorem Owned.free (h : Owned s) {ipc : ServeIpc} (late : ¬ipc.Early s.process) :
    s.stack.filter Frame.isDrop = [] ∧ s.process.servers = [] ∧ s.process.installed = none ∧
      s.process.watchers = [] := by
  have unclaimed : s.process.installed.isSome ≠ true := fun claimed => late (.inr (.inr claimed))
  cases h with
  | idle quiet no free rest => exact ⟨quiet, no, free, rest⟩
  | serving _ _ _ own | dropping _ _ _ _ own =>
    rw [own] at unclaimed
    exact absurd rfl unclaimed

theorem Owned.started (h : Owned s) (ipc : ServeIpc) (a : Answers) :
    Owned { s with process := (s.process.start ipc a).2 } := by
  have started := start_started s.process ipc a
  generalize (s.process.start ipc a).1 = out at started
  generalize (s.process.start ipc a).2 = p at started ⊢
  cases started with
  | panicked text => exact h
  | early why p early _ same =>
    rcases same with rfl | rfl
    · exact h
    · exact h.same rfl rfl rfl rfl
  | undone why late =>
    obtain ⟨quiet, no, _, rest⟩ := h.free late
    exact .idle quiet no rfl rest
  | served late accept =>
    obtain ⟨quiet, no, _, rest⟩ := h.free late
    exact .serving _ quiet (congrArg (_ :: ·) no) rfl (congrArg (_ :: ·) rest)

theorem Owned.step (h : Owned s) (step : Step s e t) : Owned t := by
  cases step with
  | push | call | drain | watch | check | idle | cancel | runtime | bind => exact h.same rfl rfl rfl rfl
  | pop top | ask top | evaluateUninstalled top | evaluate top | answer _ top | retUnregistered top
  | ret top | begin _ _ top | take top | record _ top =>
    exact h.same (by rw [top]; rfl) rfl rfl rfl
  | start ipc a => exact h.started ipc a
  | stop mem =>
    obtain ⟨quiet, sole, own, watched⟩ := h.stands mem
    exact .dropping _ false (congrArg (_ :: ·) quiet) (by rw [sole]; simp) own watched
  | join top exited =>
    obtain ⟨quiet, no, own, watched⟩ := h.drops top
    exact .dropping _ true (congrArg (_ :: ·) quiet) no own (by rw [watched]; simp)
  | uninstall a top =>
    obtain ⟨quiet, no, own, watched⟩ := h.drops top
    obtain ⟨freed, servers, watchers⟩ := uninstallHooks_servers s.process _ a
    exact .idle quiet (servers.trans no) freed (watchers.trans watched)

theorem owned_reachable (h : Reachable Step initial s) : Owned s :=
  h.invariant (fun _ _ _ => Owned.step) (.idle rfl rfl rfl rfl)

end Rayforce.Serve.Servers
