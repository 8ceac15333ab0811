import Rayforce.Serve.Confinement
import Rayforce.Serve.Shutdown

/-! Each server of a process is the machine of one server: what belongs to the others are evaluations
that are none of its business. -/

namespace Rayforce.Serve.Servers

open Transition

def Frame.seen (n : Nat) : Frame → Serve.Frame
  | .push => .push
  | .call o k payload phase => if o = some n then .call k payload phase else .push
  | .drop server joined => if server.shared = n then .drop joined else .push

/-- What the server with this `Shared` sees of the process. -/
structure Seen (n : Nat) (s : State) (v : Serve.State) : Prop where
  shared : s.shared? n = some v.shared
  installed : v.installed = true ↔ s.process.installed = some n
  served : v.served = true ↔ ∃ server ∈ s.process.servers, server.shared = n
  stack : v.stack = s.stack.map (Frame.seen n)
  watcher : v.watcher = s.watching n
  calls : v.calls = s.calls (some n)

def Event.told (n : Nat) : Event → Option Serve.Event
  | .own o e => if o = some n then some e else none
  | _ => none

/-- The event is the server's own, and not an evaluation of somebody else's or a client's cancel. -/
def isOwn : Serve.Event → Bool
  | .push | .pop | .cancel => false
  | _ => true

variable {s t : State} {e : Event} {n : Nat} {v : Serve.State} {o : Option Nat} {k : Nat}
  {payload : Payload} {phase : Phase} {server : IpcServer} {joined : Bool} {rest : List Frame}
  {es : List Event} {ipc : ServeIpc} {a : Answers}

@[simp] theorem seen_call : (Frame.call (some n) k payload phase).seen n = .call k payload phase :=
  if_pos rfl

theorem seen_call_ne (other : o ≠ some n) : (Frame.call o k payload phase).seen n = .push :=
  if_neg other

@[simp] theorem seen_drop : (Frame.drop server joined).seen server.shared = .drop joined := if_pos rfl

theorem seen_drop_ne (other : server.shared ≠ n) : (Frame.drop server joined).seen n = .push :=
  if_neg other

@[simp] theorem told_own (e : Serve.Event) : (Event.own (some n) e).told n = some e := if_pos rfl

theorem told_ne (other : o ≠ some n) (e : Serve.Event) : (Event.own o e).told n = none := if_neg other

theorem open_seen (f : Frame) (opened : f.open = true) : (f.seen n).open = true := by
  cases f with
  | push => rfl
  | call o k payload phase =>
    by_cases own : o = some n
    · subst own
      rw [seen_call]
      cases phase <;> exact opened
    · rw [seen_call_ne own]
      rfl
  | drop server joined =>
    by_cases own : server.shared = n
    · subst own
      rw [seen_drop]
      cases joined <;> exact opened
    · rw [seen_drop_ne own]
      rfl

/-! ### Steps -/

theorem shared?_uninstall (s : State) (n : Nat) (t : Runtime.Thread) (a : Answers) (rest : List Frame) :
    State.shared? { s with process := s.process.uninstallHooks t a, stack := rest } n =
      s.shared? n := by
  unfold State.shared? Process.uninstallHooks
  dsimp only
  split
  · simp only [Hook.all, List.foldl_cons, List.foldl_nil, delHook_eq]
  · rfl

theorem Seen.opened (h : Seen n s v) (opened : s.Open) : v.Open := by
  intro f mem
  rw [h.stack, List.head?_map] at mem
  obtain ⟨f', mem', rfl⟩ := Option.map_eq_some_iff.mp mem
  exact open_seen f' (opened f' mem')

theorem Seen.same (h : Seen n s v) (shared : t.shared? n = s.shared? n)
    (installed : t.process.installed = s.process.installed)
    (servers : t.process.servers = s.process.servers)
    (stack : t.stack.map (Frame.seen n) = s.stack.map (Frame.seen n))
    (watching : t.watching n = s.watching n) (calls : t.calls (some n) = s.calls (some n)) :
    Seen n t v where
  shared := shared.trans h.shared
  installed := by rw [installed]; exact h.installed
  served := by rw [servers]; exact h.served
  stack := h.stack.trans stack.symm
  watcher := h.watcher.trans watching.symm
  calls := h.calls.trans calls.symm

theorem Seen.top (h : Seen n s v) {f : Frame} (top : s.stack = f :: rest) :
    v.stack = f.seen n :: rest.map (Frame.seen n) := by
  rw [h.stack, top, List.map_cons]

/-- A call of another server, or of none, goes on. -/
theorem Seen.elsewhere (h : Seen n s v) {x : State} {phase' : Phase} (other : o ≠ some n)
    (top : s.stack = .call o k payload phase :: rest) (stack : x.stack = .call o k payload phase' :: rest)
    (shared : x.shared? n = s.shared? n) (process : x.process.installed = s.process.installed)
    (servers : x.process.servers = s.process.servers) (watching : x.watching = s.watching)
    (calls : x.calls = s.calls) : Seen n x v := by
  refine h.same shared process servers ?_ (congrFun watching n) (congrFun calls _)
  rw [stack, top, List.map_cons, List.map_cons, seen_call_ne other, seen_call_ne other]

theorem check_fst (s : Shared) (i i' : Interrupt) (now : Instant) (closed : Bool) :
    (s.check i now closed).1 = (s.check i' now closed).1 := by
  obtain ⟨budget, running, ends, stop⟩ := s
  rcases running with _ | ⟨fd, timeStarted, _ | b⟩
  · rfl
  · simp only [Shared.check]
    split <;> rfl
  · rfl

/-- The server's machine makes what the server sees of the event. -/
def Follows (n : Nat) (v : Serve.State) (e : Event) (t : State) : Prop :=
  ∃ fs v', Run Serve.Step v fs v' ∧ Seen n t v' ∧ fs.filter isOwn = (e.told n).toList

theorem follows_own {v' : Serve.State} {f : Serve.Event} (step : Serve.Step v f v')
    (own : isOwn f = true) (h : Seen n t v') : Follows n v (.own (some n) f) t := by
  refine ⟨[f], v', .single step, h, ?_⟩
  rw [told_own, List.filter_cons_of_pos own]
  rfl

theorem follows_other {v' : Serve.State} {f : Serve.Event} (step : Serve.Step v f v')
    (other : isOwn f = false) (none : e.told n = none) (h : Seen n t v') : Follows n v e t := by
  refine ⟨[f], v', .single step, h, ?_⟩
  rw [none, List.filter_cons_of_neg (by rw [other]; exact Bool.false_ne_true)]
  rfl

theorem follows_apart (none : e.told n = none) (h : Seen n t v) : Follows n v e t :=
  ⟨[], v, .nil v, h, by rw [none]; rfl⟩

/-- An evaluation begins that is another's. -/
theorem Seen.push (h : Seen n s v) (opened : s.Open) (shared : t.shared? n = s.shared? n)
    (installed : t.process.installed = s.process.installed)
    (served : v.served = true ↔ ∃ server ∈ t.process.servers, server.shared = n) {f : Frame}
    (other : f.seen n = .push) (stack : t.stack = f :: s.stack) (watching : t.watching n = s.watching n)
    (calls : t.calls (some n) = s.calls (some n)) (none : e.told n = none) : Follows n v e t := by
  refine follows_other (.push (h.opened opened)) rfl none ⟨shared.trans h.shared, ?_, served, ?_,
    h.watcher.trans watching.symm, h.calls.trans calls.symm⟩
  · rw [installed]
    exact h.installed
  · rw [stack, List.map_cons, other, h.stack]

theorem Seen.pop (h : Seen n s v) {f : Frame} (other : f.seen n = .push) (top : s.stack = f :: rest)
    (none : e.told n = none) : Follows n v e { s with stack := rest } := by
  have stack := h.top top
  rw [other] at stack
  exact follows_other (.pop stack) rfl none
    ⟨h.shared, h.installed, h.served, rfl, h.watcher, h.calls⟩

theorem Seen.call (h : Seen n s v) (payload : Payload) (opened : s.Open) :
    Follows n v (.own s.process.installed (.call (s.calls s.process.installed) payload))
      { s with
        stack := .call s.process.installed (s.calls s.process.installed) payload
          (.entered s.process.installed.isSome) :: s.stack
        calls := Function.update s.calls s.process.installed (s.calls s.process.installed + 1) } := by
  by_cases own : s.process.installed = some n
  · rw [own, ← h.calls]
    refine follows_own (.call payload (h.opened opened)) rfl ⟨h.shared, ?_, h.served, ?_, h.watcher, ?_⟩
    · dsimp only
      rw [h.installed, own]
    · rw [List.map_cons, seen_call, h.stack, h.installed.mpr own]
      rfl
    · dsimp only
      rw [Function.update_self]
  · refine h.push opened rfl rfl h.served (seen_call_ne own) rfl rfl ?_ (told_ne own _)
    exact Function.update_of_ne (Ne.symm own) ..

theorem Seen.start (h : Seen n s v) (owned : Owned s) (ipc : ServeIpc) (a : Answers) :
    Seen n { s with process := (s.process.start ipc a).2 } v := by
  have started := start_started s.process ipc a
  generalize (s.process.start ipc a).1 = out at started
  generalize (s.process.start ipc a).2 = p at started ⊢
  have low : n < s.process.arcs.length := (List.getElem?_eq_some_iff.mp h.shared).1
  cases started with
  | panicked text => exact h
  | early why p early _ same =>
    rcases same with rfl | rfl
    · exact h
    · exact h.same (List.getElem?_append_left low) rfl rfl rfl rfl rfl
  | undone why late =>
    refine ⟨(List.getElem?_append_left low).trans h.shared, ?_, h.served, h.stack, h.watcher, h.calls⟩
    rw [h.installed, (owned.free late).2.2.1]
    rfl
  | served late accept =>
    refine ⟨(List.getElem?_append_left low).trans h.shared, ?_, ?_, h.stack, h.watcher, h.calls⟩
    · rw [h.installed, (owned.free late).2.2.1]
      simp
      omega
    · rw [h.served, (owned.free late).2.1]
      simp
      omega

theorem apart_some {m : Nat} (other : ¬m = n) : some m ≠ some n :=
  fun same => other (Option.some.inj same)

theorem Seen.shared_eq (h : Seen n s v) {shared : Shared} {m : Nat} (found : s.shared? m = some shared)
    (own : m = n) : v.shared = shared := Option.some.inj (h.shared.symm.trans (own ▸ found))

theorem Seen.stop (h : Seen n s v) (owned : Owned s) {shared : Shared}
    (mem : server ∈ s.process.servers) (opened : s.Open) (found : s.shared? server.shared = some shared) :
    Follows n v (.own (some server.shared) .stop)
      { s with
        process :=
          { s.process with
            arcs := s.process.arcs.set server.shared { shared with stop := true }
            servers := s.process.servers.erase server }
        stack := .drop server false :: s.stack } := by
  obtain ⟨_, sole, _, _⟩ := owned.stands mem
  by_cases own : server.shared = n
  · obtain rfl := h.shared_eq found own
    subst own
    refine follows_own (.stop (h.served.mpr ⟨server, mem, rfl⟩) (h.opened opened)) rfl
      ⟨shared?_setShared_self found _, h.installed, ?_, ?_, h.watcher, h.calls⟩
    · simp [sole]
    · rw [List.map_cons, seen_drop, h.stack]
  · have same := shared?_setShared_ne (s := s) own { shared with stop := true }
    refine h.push opened same rfl ?_ (seen_drop_ne own) rfl rfl rfl (told_ne (apart_some own) _)
    rw [h.served, sole]
    simp [own]

theorem Seen.uninstall (h : Seen n s v) (owned : Owned s) (a : Answers)
    (top : s.stack = .drop server true :: rest) :
    Follows n v (.own (some server.shared) .uninstall)
      { s with process := s.process.uninstallHooks server.thread a, stack := rest } := by
  obtain ⟨_, none, installed, _⟩ := owned.drops top
  obtain ⟨freed, servers, _⟩ := uninstallHooks_servers s.process server.thread a
  have shared := (shared?_uninstall s n server.thread a rest).trans h.shared
  have served : v.served = true ↔
      ∃ server' ∈ (s.process.uninstallHooks server.thread a).servers, server'.shared = n := by
    rw [servers]
    exact h.served
  by_cases own : server.shared = n
  · subst own
    refine follows_own (.uninstall (by rw [h.top top, seen_drop])) rfl
      ⟨shared, ?_, served, rfl, h.watcher, h.calls⟩
    simp [freed]
  · have top' := h.top top
    rw [seen_drop_ne own] at top'
    refine follows_other (.pop top') rfl (told_ne (apart_some own) _)
      ⟨shared, ?_, served, rfl, h.watcher, h.calls⟩
    simp [freed, h.installed, installed, own]

/-- A call goes on: the server's own as its machine does, another's unseen. -/
theorem Seen.goes {f : Serve.Event} {phase' : Phase} (h : Seen n s v)
    (top : s.stack = .call o k payload phase :: rest) (stack : t.stack = .call o k payload phase' :: rest)
    (installed : t.process.installed = s.process.installed)
    (servers : t.process.servers = s.process.servers) (watching : t.watching = s.watching)
    (calls : t.calls = s.calls) (known : isOwn f = true)
    (mine : o = some n → v.stack = .call k payload phase :: rest.map (Frame.seen n) →
      ∃ x i, t.shared? n = some x ∧ Serve.Step v f
        { v with shared := x, interrupt := i, stack := .call k payload phase' :: rest.map (Frame.seen n) })
    (others : o ≠ some n → t.shared? n = s.shared? n) : Follows n v (.own o f) t := by
  by_cases own : o = some n
  · have seen := h.top top
    subst own
    rw [seen_call] at seen
    obtain ⟨x, i, found, step⟩ := mine rfl seen
    refine follows_own step known ⟨found, ?_, ?_, ?_, ?_, ?_⟩
    · exact h.installed.trans (by rw [installed])
    · exact h.served.trans (by rw [servers])
    · rw [stack, List.map_cons, seen_call]
    · exact h.watcher.trans (congrFun watching n).symm
    · exact h.calls.trans (congrFun calls _).symm
  · exact follows_apart (told_ne own _)
      (h.elsewhere own top stack (others own) installed servers watching calls)

/-- A call returns. -/
theorem Seen.returns {f : Serve.Event} (h : Seen n s v) (top : s.stack = .call o k payload phase :: rest)
    (known : isOwn f = true) (mine : v.stack = .call k payload phase :: rest.map (Frame.seen n) →
      Serve.Step v f { v with stack := rest.map (Frame.seen n) }) :
    Follows n v (.own o f) { s with stack := rest } := by
  by_cases own : o = some n
  · have seen := h.top top
    subst own
    rw [seen_call] at seen
    exact follows_own (mine seen) known ⟨h.shared, h.installed, h.served, rfl, h.watcher, h.calls⟩
  · exact h.pop (seen_call_ne own) top (told_ne own _)

/-- A watcher goes on. -/
theorem Seen.looks {m : Nat} {f : Serve.Event} {w : Watcher} (h : Seen n s v) (stack : t.stack = s.stack)
    (process : t.process.installed = s.process.installed)
    (servers : t.process.servers = s.process.servers)
    (watching : t.watching = Function.update s.watching m w) (calls : t.calls = s.calls)
    (known : isOwn f = true)
    (mine : m = n → ∃ x i, t.shared? n = some x ∧
      Serve.Step v f { v with shared := x, interrupt := i, watcher := w })
    (others : m ≠ n → t.shared? n = s.shared? n) : Follows n v (.own (some m) f) t := by
  by_cases own : m = n
  · subst own
    obtain ⟨x, i, found, step⟩ := mine rfl
    refine follows_own step known ⟨found, ?_, ?_, ?_, ?_, ?_⟩
    · exact h.installed.trans (by rw [process])
    · exact h.served.trans (by rw [servers])
    · exact h.stack.trans (by rw [stack])
    · rw [watching, Function.update_self]
    · exact h.calls.trans (congrFun calls _).symm
  · refine follows_apart (told_ne (apart_some own) _)
      (h.same (others own) process servers (by rw [stack]) ?_ (congrFun calls _))
    rw [watching, Function.update_of_ne (Ne.symm own)]

theorem Seen.drain {shared : Shared} (h : Seen n s v) (mem : server ∈ s.process.servers) (opened : s.Open)
    (found : s.shared? server.shared = some shared) :
    Follows n v (.own (some server.shared) (.drain shared.drain.1))
      (s.setShared server.shared shared.drain.2) := by
  by_cases own : server.shared = n
  · obtain rfl := h.shared_eq found own
    subst own
    exact follows_own (.drain (h.served.mpr ⟨server, mem, rfl⟩) (h.opened opened)) rfl
      ⟨shared?_setShared_self found _, h.installed, h.served, h.stack, h.watcher, h.calls⟩
  · exact follows_apart (told_ne (apart_some own) _)
      (h.same (shared?_setShared_ne own _) rfl rfl rfl rfl rfl)

theorem Seen.join (h : Seen n s v) (top : s.stack = .drop server false :: rest)
    (exited : s.watching server.shared = .exited) :
    Follows n v (.own (some server.shared) .join)
      { s with
        process := { s.process with watchers := s.process.watchers.erase server.shared }
        stack := .drop server true :: rest } := by
  by_cases own : server.shared = n
  · subst own
    refine follows_own (.join (by rw [h.top top, seen_drop]) (h.watcher.trans exited)) rfl
      ⟨h.shared, h.installed, h.served, ?_, h.watcher, h.calls⟩
    rw [List.map_cons, seen_drop]
  · refine follows_apart (told_ne (apart_some own) _) (h.same rfl rfl rfl ?_ rfl rfl)
    rw [top, List.map_cons, List.map_cons, seen_drop_ne own, seen_drop_ne own]

theorem Seen.step (h : Seen n s v) (owned : Owned s) (step : Step s e t) : Follows n v e t := by
  -- what the server's machine reads and writes is the `Shared` with its number
  have mine {m : Nat} {shared : Shared} (found : s.shared? m = some shared) (own : some m = some n) :
      v.shared = shared ∧ ∀ x, (s.setShared m x).shared? n = some x := by
    obtain rfl := Option.some.inj own
    exact ⟨h.shared_eq found rfl, shared?_setShared_self found⟩
  have others {m : Nat} (x : Shared) (other : some m ≠ some n) :
      (s.setShared m x).shared? n = s.shared? n :=
    shared?_setShared_ne (fun same => other (congrArg some same)) x
  cases step with
  | push opened => exact h.push opened rfl rfl h.served rfl rfl rfl rfl rfl
  | pop top => exact h.pop rfl top rfl
  | call payload opened => exact h.call payload opened
  | ask top =>
    exact h.goes top rfl rfl rfl rfl rfl rfl (fun _ seen => ⟨_, _, h.shared, .ask seen⟩) fun _ => rfl
  | begin fd now top found =>
    refine h.goes top rfl rfl rfl rfl rfl rfl (fun own seen => ?_) (others _)
    obtain ⟨rfl, set⟩ := mine found own
    exact ⟨_, _, set _, .begin fd now seen⟩
  | evaluateUninstalled top =>
    have other : none ≠ some n := (Option.some_ne_none n).symm
    exact follows_apart (told_ne other _) (h.elsewhere other top rfl rfl rfl rfl rfl rfl)
  | evaluate top =>
    exact h.goes top rfl rfl rfl rfl rfl rfl (fun _ seen => ⟨_, _, h.shared, .evaluate seen⟩) fun _ => rfl
  | answer raw top =>
    exact h.goes top rfl rfl rfl rfl rfl rfl (fun _ seen => ⟨_, _, h.shared, .answer raw seen⟩)
      fun _ => rfl
  | take top found =>
    refine h.goes top rfl rfl rfl rfl rfl rfl (fun own seen => ?_) (others _)
    obtain ⟨rfl, set⟩ := mine found own
    exact ⟨_, _, set _, .take seen⟩
  | record now top found =>
    refine h.goes top rfl rfl rfl rfl rfl rfl (fun own seen => ?_) (others _)
    obtain ⟨rfl, set⟩ := mine found own
    exact ⟨_, _, set _, .record now seen⟩
  | retUnregistered top => exact h.returns top rfl .retUnregistered
  | ret top => exact h.returns top rfl .ret
  | drain mem opened found => exact h.drain mem opened found
  | start ipc a opened => exact follows_apart rfl (h.start owned ipc a)
  | stop mem opened found => exact h.stop owned mem opened found
  | join top exited => exact h.join top exited
  | uninstall a top => exact h.uninstall owned a top
  | watch mem testing found =>
    refine h.looks rfl rfl rfl rfl rfl rfl (fun own => ?_) fun _ => rfl
    obtain ⟨rfl, -⟩ := mine found (congrArg some own)
    exact ⟨_, _, h.shared, .watch (h.watcher.trans (own ▸ testing))⟩
  | check now closed mem checking found running fresh =>
    refine h.looks rfl rfl rfl rfl rfl rfl (fun own => ?_) fun own => shared?_setShared_ne own _
    obtain ⟨rfl, set⟩ := mine found (congrArg some own)
    refine ⟨_, _, ?_, .check now closed (h.watcher.trans (own ▸ checking)) running fresh⟩
    rw [check_fst v.shared v.interrupt s.interrupt]
    exact set _
  | idle mem checking found idle =>
    refine h.looks rfl rfl rfl rfl rfl rfl (fun own => ?_) fun _ => rfl
    obtain ⟨rfl, -⟩ := mine found (congrArg some own)
    exact ⟨_, _, h.shared, .idle (h.watcher.trans (own ▸ checking)) idle⟩
  | cancel =>
    exact follows_other .cancel rfl rfl
      ⟨h.shared, h.installed, h.served, h.stack, h.watcher, h.calls⟩
  | runtime hooks _ => exact follows_apart rfl (h.same rfl rfl rfl rfl rfl rfl)
  | bind hook source => exact follows_apart rfl (h.same rfl rfl rfl rfl rfl rfl)

theorem Seen.run (h : Seen n s v) (owned : Owned s) (run : Run Step s es t) :
    ∃ fs v', Run Serve.Step v fs v' ∧ Seen n t v' ∧ fs.filter isOwn = es.filterMap (Event.told n) := by
  induction run generalizing v with
  | nil => exact ⟨[], v, .nil v, h, rfl⟩
  | @cons s m _ e es first _ ih =>
    obtain ⟨fs, w, moved, seen, events⟩ := h.step owned first
    obtain ⟨gs, w', moved', seen', events'⟩ := ih seen (owned.step first)
    refine ⟨fs ++ gs, w', moved.append moved', seen', ?_⟩
    rw [List.filter_append, events, events', List.filterMap_cons]
    cases e.told n <;> rfl

/-! ### A server is started -/

/-- Nobody has been handed this `Shared`. -/
structure Fresh (n : Nat) (s : State) : Prop where
  frames : ∀ f ∈ s.stack, f.seen n = .push
  installed : s.process.installed ≠ some n
  servers : ∀ server ∈ s.process.servers, server.shared ≠ n
  watching : s.watching n = .testing
  calls : s.calls (some n) = 0
  idle : ∀ shared, s.shared? n = some shared → shared.running = none

theorem Fresh.same (h : Fresh n s) (frames : ∀ f ∈ t.stack, f.seen n = .push)
    (installed : t.process.installed = s.process.installed)
    (servers : t.process.servers = s.process.servers) (watching : t.watching n = s.watching n)
    (calls : t.calls (some n) = s.calls (some n)) (shared : t.shared? n = s.shared? n) : Fresh n t where
  frames := frames
  installed := by rw [installed]; exact h.installed
  servers := by rw [servers]; exact h.servers
  watching := watching.trans h.watching
  calls := calls.trans h.calls
  idle := by rw [shared]; exact h.idle

theorem Fresh.top (h : Fresh n s) {f : Frame} (top : s.stack = f :: rest) :
    f.seen n = .push ∧ ∀ f ∈ rest, f.seen n = .push := by
  refine ⟨h.frames f ?_, fun f mem => h.frames f ?_⟩
  · rw [top]
    exact List.mem_cons_self
  · rw [top]
    exact List.mem_cons_of_mem _ mem

theorem Fresh.call (h : Fresh n s) (top : s.stack = .call o k payload phase :: rest) : o ≠ some n := by
  rintro rfl
  have push := (h.top top).1
  rw [seen_call] at push
  cases push

theorem Fresh.drop (h : Fresh n s) (top : s.stack = .drop server joined :: rest) :
    server.shared ≠ n := by
  rintro rfl
  have push := (h.top top).1
  rw [seen_drop] at push
  cases push

theorem Fresh.cons (h : Fresh n s) {f : Frame} (push : f.seen n = .push) :
    ∀ f' ∈ f :: s.stack, f'.seen n = .push :=
  List.forall_mem_cons.mpr ⟨push, h.frames⟩

/-- The frame on top goes on. -/
theorem Fresh.on (h : Fresh n s) {f f' : Frame} (top : s.stack = f :: rest) (push : f'.seen n = .push) :
    ∀ g ∈ f' :: rest, g.seen n = .push :=
  List.forall_mem_cons.mpr ⟨push, (h.top top).2⟩

theorem Fresh.watched (h : Fresh n s) (owned : Owned s) {m : Nat} (mem : m ∈ s.process.watchers) :
    m ≠ n := by
  rintro rfl
  exact h.installed (owned.watched mem)

/-- A new `Shared` is idle. -/
theorem Fresh.allocate (h : Fresh n s) (ipc : ServeIpc) (shared : Shared)
    (found : (s.process.allocate ipc).arcs[n]? = some shared) : shared.running = none := by
  rcases Nat.lt_trichotomy n s.process.arcs.length with low | rfl | high
  · exact h.idle shared ((List.getElem?_append_left low).symm.trans found)
  · cases (List.getElem?_concat_length (l := s.process.arcs)).symm.trans found
    rfl
  · rw [Process.allocate, List.getElem?_eq_none (by simp; omega)] at found
    cases found

/-- Evaluations under way, none of them the server's. -/
theorem run_pushes (budget : Option Duration) {stack : List Serve.Frame}
    (pushes : ∀ f ∈ stack, f = .push) :
    ∃ fs, Run Serve.Step (Serve.initial budget) fs { Serve.initial budget with stack := stack } ∧
      fs.filter isOwn = [] := by
  induction stack with
  | nil => exact ⟨[], .nil _, rfl⟩
  | cons f stack ih =>
    obtain rfl := pushes f List.mem_cons_self
    obtain ⟨fs, run, others⟩ := ih fun f mem => pushes f (List.mem_cons_of_mem _ mem)
    have opened : Serve.State.Open { Serve.initial budget with stack := stack } := by
      intro f mem
      rw [pushes f (List.mem_cons_of_mem _ (List.mem_of_mem_head? mem))]
      rfl
    refine ⟨fs ++ [.push], run.append (.single (.push opened)), ?_⟩
    rw [List.filter_append, others]
    rfl

theorem start_cases {out : Outcome} (step : Step s (.start ipc a out) t) :
    out = (s.process.start ipc a).1 ∧ t = { s with process := (s.process.start ipc a).2 } := by
  cases step
  exact ⟨rfl, rfl⟩

theorem Fresh.served (fresh : Fresh server.shared s) (step : Step s (.start ipc a (.served server)) t) :
    ∃ fs v, Run Serve.Step (Serve.initial ipc.budget) fs v ∧ Seen server.shared t v ∧
      fs.filter isOwn = [] := by
  have pushes : ∀ f ∈ s.stack.map (Frame.seen server.shared), f = .push := by
    intro f mem
    obtain ⟨f', mem', rfl⟩ := List.mem_map.mp mem
    exact fresh.frames f' mem'
  obtain ⟨fs, run, others⟩ := run_pushes ipc.budget pushes
  obtain ⟨served, rfl⟩ := start_cases step
  have started := start_started s.process ipc a
  rw [← served] at started
  generalize (s.process.start ipc a).2 = p at started ⊢
  refine ⟨fs, _, run, ?_, others⟩
  cases started with
  | served late accept =>
    refine ⟨List.getElem?_concat_length .., ?_, ?_, rfl, fresh.watching.symm, fresh.calls.symm⟩
    · simp [Serve.initial]
    · simp [Serve.initial]

theorem Fresh.start (h : Fresh n s) (owned : Owned s) (ipc : ServeIpc) (a : Answers) :
    Fresh n { s with process := (s.process.start ipc a).2 } ∨
      ∃ server, server.shared = n ∧ (s.process.start ipc a).1 = .served server := by
  have started := start_started s.process ipc a
  generalize (s.process.start ipc a).1 = out at started ⊢
  generalize (s.process.start ipc a).2 = p at started ⊢
  cases started with
  | panicked text => exact .inl h
  | early why p early _ same =>
    rcases same with rfl | rfl
    · exact .inl h
    · exact .inl ⟨h.frames, h.installed, h.servers, h.watching, h.calls, h.allocate ipc⟩
  | undone why late =>
    exact .inl ⟨h.frames, (Option.some_ne_none n).symm, h.servers, h.watching, h.calls, h.allocate ipc⟩
  | served late accept =>
    by_cases own : s.process.arcs.length = n
    · exact .inr ⟨_, own, rfl⟩
    · have others := (owned.free late).2.1
      refine .inl ⟨h.frames, apart_some own, ?_, h.watching, h.calls, h.allocate ipc⟩
      simp [others, own]

theorem Fresh.step (h : Fresh n s) (owned : Owned s) (step : Step s e t) : e.told n = none ∧
    (Fresh n t ∨ ∃ ipc a server, e = .start ipc a (.served server) ∧ server.shared = n) := by
  cases step with
  | push => exact ⟨rfl, .inl (h.same (h.cons rfl) rfl rfl rfl rfl rfl)⟩
  | pop top => exact ⟨rfl, .inl (h.same (h.top top).2 rfl rfl rfl rfl rfl)⟩
  | call payload opened =>
    refine ⟨told_ne h.installed _, .inl (h.same (h.cons (seen_call_ne h.installed)) rfl rfl rfl ?_ rfl)⟩
    exact Function.update_of_ne h.installed.symm ..
  | ask top | evaluateUninstalled top | evaluate top | answer _ top =>
    have other := h.call top
    exact ⟨told_ne other _, .inl (h.same (h.on top (seen_call_ne other)) rfl rfl rfl rfl rfl)⟩
  | begin _ _ top | take top | record _ top =>
    have other := h.call top
    have same := shared?_setShared_ne (s := s) (fun same => other (congrArg some same))
    exact ⟨told_ne other _, .inl (h.same (h.on top (seen_call_ne other)) rfl rfl rfl rfl (same _))⟩
  | retUnregistered top | ret top =>
    exact ⟨told_ne (h.call top) _, .inl (h.same (h.top top).2 rfl rfl rfl rfl rfl)⟩
  | drain mem =>
    have other := h.servers _ mem
    exact ⟨told_ne (apart_some other) _,
      .inl (h.same h.frames rfl rfl rfl rfl (shared?_setShared_ne other _))⟩
  | start ipc a opened =>
    refine ⟨rfl, (h.start owned ipc a).imp_right fun ⟨server, own, served⟩ => ?_⟩
    exact ⟨ipc, a, server, by rw [served], own⟩
  | @stop server shared mem opened found =>
    have other := h.servers _ mem
    have same := shared?_setShared_ne (s := s) other { shared with stop := true }
    refine ⟨told_ne (apart_some other) _, .inl ⟨h.cons (seen_drop_ne other), h.installed, ?_, h.watching,
      h.calls, fun x found => h.idle x (same.symm.trans found)⟩⟩
    exact fun server' mem' => h.servers server' (List.mem_of_mem_erase mem')
  | join top =>
    have other := h.drop top
    exact ⟨told_ne (apart_some other) _,
      .inl (h.same (h.on top (seen_drop_ne other)) rfl rfl rfl rfl rfl)⟩
  | @uninstall server rest a top =>
    have other := h.drop top
    obtain ⟨freed, servers, _⟩ := uninstallHooks_servers s.process server.thread a
    have same := shared?_uninstall s n server.thread a rest
    refine ⟨told_ne (apart_some other) _, .inl ⟨(h.top top).2, ?_, ?_, h.watching, h.calls,
      fun x found => h.idle x (same.symm.trans found)⟩⟩
    · simp [freed]
    · simp only [servers]
      exact h.servers
  | watch mem | idle mem =>
    have other := h.watched owned mem
    exact ⟨told_ne (apart_some other) _,
      .inl (h.same h.frames rfl rfl (Function.update_of_ne other.symm ..) rfl rfl)⟩
  | check _ _ mem =>
    have other := h.watched owned mem
    exact ⟨told_ne (apart_some other) _, .inl (h.same h.frames rfl rfl
      (Function.update_of_ne other.symm ..) rfl (shared?_setShared_ne other _))⟩
  | cancel | runtime | bind => exact ⟨rfl, .inl (h.same h.frames rfl rfl rfl rfl rfl)⟩

/-! ### Whole runs -/

theorem arcs_le (step : Step s e t) : s.process.arcs.length ≤ t.process.arcs.length := by
  cases step with
  | start ipc a =>
    have started := start_started s.process ipc a
    generalize (s.process.start ipc a).1 = out at started
    dsimp only
    generalize (s.process.start ipc a).2 = p at started ⊢
    cases started with
    | panicked text => exact Nat.le_refl _
    | early why p early _ same =>
      rcases same with rfl | rfl
      · exact Nat.le_refl _
      · simp [Process.allocate]
    | undone | served => simp [Process.unguarded, Process.guarded, Process.allocate]
  | uninstall a top =>
    unfold Process.uninstallHooks
    dsimp only
    split
    · simp [Hook.all, delHook_eq]
    · exact Nat.le_refl _
  | begin | take | record | drain | check => exact Nat.le_of_eq (List.length_set ..).symm
  | stop => exact Nat.le_of_eq (List.length_set ..).symm
  | _ => exact Nat.le_refl _

theorem fresh_initial (n : Nat) : Fresh n initial where
  frames f mem := by cases mem
  installed := (Option.some_ne_none n).symm
  servers server mem := by cases mem
  watching := rfl
  calls := rfl
  idle shared found := by cases found

/-- What has not been allocated is not known to anybody. -/
theorem fresh_of_run (run : Run Step initial es s) : Owned s ∧ ∀ n, s.process.arcs.length ≤ n →
    Fresh n s ∧ es.filterMap (Event.told n) = [] := by
  apply run.history (P := fun es s => Owned s ∧ ∀ n, s.process.arcs.length ≤ n →
    Fresh n s ∧ es.filterMap (Event.told n) = [])
  · exact ⟨.idle rfl rfl rfl rfl, fun n _ => ⟨fresh_initial n, rfl⟩⟩
  · rintro es s e t _ ⟨owned, fresh⟩ step
    refine ⟨owned.step step, fun n high => ?_⟩
    obtain ⟨new, before⟩ := fresh n (Nat.le_trans (arcs_le step) high)
    obtain ⟨untold, kept | ⟨ipc, a, server, rfl, rfl⟩⟩ := new.step owned step
    · refine ⟨kept, ?_⟩
      rw [List.filterMap_append, before, List.filterMap_cons_none untold]
      rfl
    · obtain ⟨_, _, _, seen, _⟩ := new.served step
      have low := (List.getElem?_eq_some_iff.mp seen.shared).1
      omega

/-- Every server of a process is on its own: however servers are started and dropped one after another,
at the top or inside each other's requests, from its start on each goes through a run of the machine of
one server, with all of its own events in their order. -/
theorem servers_alone {before after : List Event}
    (run : Run Step initial (before ++ .start ipc a (.served server) :: after) s) :
    before.filterMap (Event.told server.shared) = [] ∧
      ∃ fs v, Run Serve.Step (Serve.initial ipc.budget) fs v ∧ Seen server.shared s v ∧
        fs.filter isOwn = after.filterMap (Event.told server.shared) := by
  obtain ⟨p, first, rest⟩ := run_append_iff.mp run
  obtain ⟨q, step, rest⟩ := run_cons_iff.mp rest
  obtain ⟨owned, fresh⟩ := fresh_of_run first
  have own : server.shared = p.process.arcs.length := by
    obtain ⟨served, _⟩ := start_cases step
    have started := start_started p.process ipc a
    rw [← served] at started
    generalize (p.process.start ipc a).2 = r at started
    cases started
    rfl
  obtain ⟨new, untold⟩ := fresh server.shared (Nat.le_of_eq own.symm)
  obtain ⟨fs, v, born, seen, others⟩ := new.served step
  obtain ⟨gs, w, after, seen', events⟩ := seen.run (owned.step step) rest
  refine ⟨untold, fs ++ gs, w, born.append after, seen', ?_⟩
  rw [List.filter_append, others, events]
  rfl

/-- A server is dropped, and another takes a request. -/
theorem servers_alone_second : ∃ (before : List Event) (s : State),
    Run Step initial
      (before ++ [.start onPort accepting (.served ⟨5011, 1, 0⟩),
        .own (some 1) (.call 0 (.object 0 []))]) s ∧
      before.filterMap (Event.told 0) = [.stop, .watch true, .join, .uninstall] ∧
      before.filterMap (Event.told 1) = [] ∧
      ∃ fs v, Run Serve.Step (Serve.initial onPort.budget) fs v ∧ Seen 1 s v ∧
        fs.filter isOwn = [.call 0 (.object 0 [])] := by
  have first : Run Step initial _ _ :=
    scope_opens.append <|
      .cons (.start onPort accepting (by decide)) <| .cons (.stop (.head _) (by decide) rfl) <|
      .cons (.watch (.head _) rfl rfl) <| .cons (.join rfl rfl) <|
      .cons (.uninstall accepting rfl) <| .nil _
  have both := first.append (.cons (.start onPort accepting (by decide))
    (.single (.call (.object 0 []) (by decide))))
  obtain ⟨untold, alone⟩ := servers_alone both
  exact ⟨_, _, both, rfl, untold, alone⟩

end Rayforce.Serve.Servers
