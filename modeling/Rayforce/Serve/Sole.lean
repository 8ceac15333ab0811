import Rayforce.Serve.Undo

/-! The servers of a process over any number of scopes: no two at a time, and `INSTALLED` names the one
there is. -/

namespace Rayforce.Serve

open Transition

/-- What happens between the operations of the module, and the operations. -/
inductive ProcessEvent
  | runtime (e : Runtime.Event)
  /-- The embedding, or a client, binds a hook or deletes it. -/
  | bind (hook : Hook) (source : Option String)
  /-- A request of a server, or its watcher, is served a step. -/
  | serve (shared : Nat) (running : Option Running) (ends : List RequestEnd)
  | start (ipc : ServeIpc) (a : Answers) (out : Outcome)
  | drop (server : IpcServer) (a : Answers)

inductive ProcessStep : Process → ProcessEvent → Process → Prop
  /-- A runtime that is created has globals of its own. -/
  | runtime {p : Process} {e : Runtime.Event} {r : Runtime.State} (hooks : Hook → Option String) :
      Runtime.Step p.runtime e r → ProcessStep p (.runtime e) { p with runtime := r, hooks := hooks }
  | bind {p : Process} (hook : Hook) (source : Option String) :
      ProcessStep p (.bind hook source) { p with hooks := Function.update p.hooks hook source }
  | serve {p : Process} (shared : Nat) (running : Option Running) (ends : List RequestEnd) :
      ProcessStep p (.serve shared running ends)
        { p with arcs := p.arcs.modify shared fun s => { s with running := running, ends := ends } }
  | start {p : Process} (ipc : ServeIpc) (a : Answers) :
      ProcessStep p (.start ipc a (p.start ipc a).1) (p.start ipc a).2
  | drop {p : Process} {server : IpcServer} (a : Answers) : server ∈ p.servers →
      ProcessStep p (.drop server a) (p.drop server a)

variable {p q : Process} {e : ProcessEvent} {ipc : ServeIpc} {a : Answers} {server : IpcServer}

/-- The `Shared` was allocated, and nobody has told its watcher to stop. -/
def Process.Runs (p : Process) (shared : Nat) : Prop := ∃ s, p.arcs[shared]? = some s ∧ s.stop = false

/-- There is one server or none, which `INSTALLED` and the watchers that run go with. -/
inductive Sole (p : Process) : Prop
  | idle : p.servers = [] → p.installed = none → p.watchers = [] → Sole p
  | serving (server : IpcServer) : p.servers = [server] → p.installed = some server.shared →
      p.watchers = [server.shared] → p.Runs server.shared → Sole p

theorem Sole.same (h : Sole p) (servers : q.servers = p.servers) (installed : q.installed = p.installed)
    (watchers : q.watchers = p.watchers) (runs : ∀ shared, p.Runs shared → q.Runs shared) : Sole q := by
  cases h with
  | idle no free quiet => exact .idle (servers.trans no) (installed.trans free) (watchers.trans quiet)
  | serving server sole own watched running =>
    exact .serving server (servers.trans sole) (installed.trans own) (watchers.trans watched)
      (runs server.shared running)

theorem Process.Runs.allocate {shared : Nat} (h : p.Runs shared) : (p.allocate ipc).Runs shared := by
  obtain ⟨s, found, running⟩ := h
  exact ⟨s, getElem?_allocate found, running⟩

theorem runs_new (p : Process) (ipc : ServeIpc) : (p.allocate ipc).Runs p.arcs.length :=
  ⟨⟨ipc.budget, none, [], false⟩, List.getElem?_concat_length .., rfl⟩

theorem Process.Runs.modify {shared n : Nat} {f : Shared → Shared} (h : p.Runs shared)
    (keeps : ∀ s, (f s).stop = s.stop) : Process.Runs { p with arcs := p.arcs.modify n f } shared := by
  obtain ⟨s, found, running⟩ := h
  by_cases same : n = shared
  · refine ⟨f s, ?_, (keeps s).trans running⟩
    simp [found, same]
  · refine ⟨s, ?_, running⟩
    simp [found, same]

theorem Sole.free (h : Sole p) (late : ¬ipc.Early p) : p.servers = [] ∧ p.watchers = [] := by
  cases h with
  | idle no free quiet => exact ⟨no, quiet⟩
  | serving server sole own watched running =>
    exact absurd (.inr (.inr (by rw [own]; rfl))) late

/-- A start that goes wrong frees `INSTALLED` where it had claimed it, and only there. -/
theorem Sole.start (h : Sole p) : Sole (p.start ipc a).2 := by
  have started := start_started p ipc a
  generalize (p.start ipc a).1 = out at started
  generalize (p.start ipc a).2 = q at started ⊢
  cases started with
  | panicked text => exact h
  | early why q early _ same =>
    rcases same with rfl | rfl
    · exact h
    · exact h.same rfl rfl rfl fun _ => Process.Runs.allocate
  | undone why late =>
    obtain ⟨no, quiet⟩ := h.free late
    exact .idle no rfl quiet
  | served late accept =>
    obtain ⟨no, quiet⟩ := h.free late
    exact .serving ⟨ipc.port, p.arcs.length, ipc.poll.thread⟩ (congrArg (_ :: ·) no) rfl
      (congrArg (_ :: ·) quiet) (runs_new p ipc)

theorem uninstallHooks_servers (p : Process) (t : Runtime.Thread) (a : Answers) :
    (p.uninstallHooks t a).installed = none ∧ (p.uninstallHooks t a).servers = p.servers ∧
      (p.uninstallHooks t a).watchers = p.watchers := by
  by_cases on : p.runtime.onRuntimeThread t = true
  · rw [uninstallHooks_eq p a on]
    exact ⟨rfl, rfl, rfl⟩
  · unfold Process.uninstallHooks
    rw [if_neg on]
    exact ⟨rfl, rfl, rfl⟩

/-- A server that stands is the only one, so that its drop leaves none. -/
theorem Sole.dropped (h : Sole p) (mem : server ∈ p.servers) : (p.drop server a).servers = [] ∧
    (p.drop server a).installed = none ∧ (p.drop server a).watchers = [] := by
  obtain ⟨freed, servers, watchers⟩ := uninstallHooks_servers
    { p with
      arcs := p.arcs.modify server.shared fun s => { s with stop := true }
      watchers := p.watchers.erase server.shared
      servers := p.servers.erase server } server.thread a
  cases h with
  | idle no free quiet =>
    rw [no] at mem
    cases mem
  | serving server' sole own watched running =>
    rw [sole] at mem
    obtain rfl := List.mem_singleton.mp mem
    refine ⟨servers.trans ?_, freed, watchers.trans ?_⟩
    · simp [sole]
    · simp [watched]

theorem Sole.drop (h : Sole p) (mem : server ∈ p.servers) : Sole (p.drop server a) :=
  let ⟨no, free, quiet⟩ := h.dropped mem
  .idle no free quiet

theorem Sole.step (h : Sole p) (step : ProcessStep p e q) : Sole q := by
  cases step with
  | runtime hooks _ => exact h.same rfl rfl rfl fun _ running => running
  | bind hook source => exact h.same rfl rfl rfl fun _ running => running
  | serve shared running ends => exact h.same rfl rfl rfl fun _ h => h.modify fun _ => rfl
  | start ipc a => exact h.start
  | drop a mem => exact h.drop mem

theorem sole_reachable (h : Reachable ProcessStep Process.initial p) : Sole p :=
  h.invariant (fun _ _ _ => Sole.step) (.idle rfl rfl rfl)

/-- Nothing but a server that stands makes a start say that IPC is served already. -/
theorem Sole.not_serving (h : Sole p) (no : p.servers = []) : (p.start ipc a).1 ≠ .refused .serving := by
  have started := start_started p ipc a
  intro refused
  rw [refused] at started
  generalize (p.start ipc a).2 = q at started
  cases started with
  | early _ _ _ serving _ =>
    cases h with
    | idle _ free _ =>
      have claimed := serving rfl
      rw [free] at claimed
      cases claimed
    | serving server sole _ _ _ =>
      rw [no] at sole
      cases sole
  | undone _ _ other => exact other rfl

/-- The server that a start answers is the one that is listed then. -/
theorem Sole.served (h : Sole p) (served : (p.start ipc a).1 = .served server) :
    (p.start ipc a).2.servers = [server] := by
  have started := start_started p ipc a
  rw [served] at started
  generalize (p.start ipc a).2 = q at started ⊢
  cases started with
  | served late accept => exact congrArg (_ :: ·) (h.free late).1

/-- In every state between operations there is at most one server, `INSTALLED` holds that server's
`Shared` and no other, its watcher runs and no other, and only while there is one is a start refused as
already serving.  The server that a start answers is that one, and begins idle. -/
theorem sole_server (h : Reachable ProcessStep Process.initial p) :
    p.servers.length ≤ 1 ∧ p.installed = p.servers.head?.map (·.shared) ∧
      p.watchers = p.servers.map (·.shared) ∧ (∀ server ∈ p.servers, p.Runs server.shared) ∧
      (p.servers = [] → ∀ ipc a, (p.start ipc a).1 ≠ .refused .serving) ∧
      (∀ server ∈ p.servers, ∀ a ipc b, ((p.drop server a).start ipc b).1 ≠ .refused .serving) ∧
      ∀ ipc a server, (p.start ipc a).1 = .served server →
        (p.start ipc a).2.servers = [server] ∧ (p.start ipc a).2.installed = some server.shared ∧
          (p.start ipc a).2.arcs[server.shared]? = some (Serve.initial ipc.budget).shared := by
  have sole := sole_reachable h
  have begun : ∀ ipc a server, (p.start ipc a).1 = .served server →
      (p.start ipc a).2.servers = [server] ∧ (p.start ipc a).2.installed = some server.shared ∧
        (p.start ipc a).2.arcs[server.shared]? = some (Serve.initial ipc.budget).shared := by
    intro ipc a server served
    obtain ⟨idle, own, -⟩ := start_served served
    exact ⟨sole.served served, own, idle⟩
  have after : ∀ server ∈ p.servers, ∀ a ipc b,
      ((p.drop server a).start ipc b).1 ≠ .refused .serving := by
    intro server mem a ipc b
    exact (sole.drop mem).not_serving (sole.dropped mem).1
  have before : p.servers = [] → ∀ ipc a, (p.start ipc a).1 ≠ .refused .serving :=
    fun no ipc a => sole.not_serving no
  cases sole with
  | idle no free quiet =>
    refine ⟨?_, ?_, ?_, ?_, before, after, begun⟩
    · simp [no]
    · simp [no, free]
    · simp [no, quiet]
    · simp [no]
  | serving server sole own watched running =>
    refine ⟨?_, ?_, ?_, ?_, before, after, begun⟩
    · simp [sole]
    · simp [sole, own]
    · simp [sole, watched]
    · simpa [sole] using running

def accepting : Answers := ⟨.ok (), fun _ => .ok (), .ok ()⟩

/-- On the first thread, with globals that bind no hook. -/
theorem scope_opens : Run ProcessStep Process.initial ((Runtime.initial.opening 0).map .runtime)
    { Process.initial with runtime := Runtime.initial.inScope 0 } :=
  (Runtime.scope_opens (Runtime.idle_initial 0) rfl).map
    (fun r => { Process.initial with runtime := r }) ProcessEvent.runtime
    fun _ _ _ step => .runtime (fun _ => none) step

/-- A server that was started in a scope, and dropped. -/
theorem sole_server_again : ∃ p : Process, p.servers ≠ [] ∧ p.servers.length ≤ 1 ∧
    ∀ server ∈ p.servers, ((p.drop server accepting).start onPort accepting).1 ≠ .refused .serving := by
  have reached : Reachable ProcessStep Process.initial _ :=
    ⟨_, scope_opens.append (.single (.start onPort accepting))⟩
  obtain ⟨one, _, _, _, _, again, _⟩ := sole_server reached
  exact ⟨_, List.cons_ne_nil _ _, one, fun server mem => again server mem accepting onPort accepting⟩

end Rayforce.Serve
