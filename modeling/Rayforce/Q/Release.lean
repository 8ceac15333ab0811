import Rayforce.Q.Identity
import Rayforce.Q.Socket

/-! Every socket is released once.  It is counted along: one release or one holder for each socket
that was opened, whoever hands it to whom. -/

namespace Rayforce.Q

open Slots Transition

variable {m m' : Machine} {e : SocketEvent} {es : List SocketEvent} {i fd id own : Nat} {sub : Subscription}

/-- How often a socket was released. -/
def Machine.releases (m : Machine) (fd : Nat) : Nat := (m.released.map Prod.fst).count fd

def one (fd : Nat) (found : Option Nat) : Nat := if found = some fd then 1 else 0

/-- How many handles and selectors hold a socket. -/
def Machine.holders (m : Machine) (fd : Nat) : Nat :=
  (m.handles.map (one fd)).sum + (m.loop.conns.map fun slot => one fd (m.socket slot)).sum

/-- Each socket was released once and is held no more, or is held once and was never released, and
`q_conn_close` was only called on selectors that resolve. -/
structure Released (m : Machine) : Prop where
  once : ∀ fd, m.releases fd + m.holders fd = if fd < m.opened then 1 else 0
  legal : ∀ resolved ∈ m.closes, resolved = true

/-- An attach finds the selector that `q_conn_attach` just gave it. -/
def Finds (m : Machine) : SocketEvent → Prop
  | .resolve => ∀ id own, m.attaching = some (id, own) → (at? m.loop.conns id).isSome = true
  | _ => True

/-- Connections are numbered as they are registered. -/
def Numbered (m : Machine) : Prop :=
  ∀ i conn, at? m.loop.conns i = some conn → conn.number < m.loop.registered

theorem one_none (fd : Nat) : one fd none = 0 := rfl

theorem count_append_toList (released : List (Nat × Releaser)) (found : Option Nat)
    (releaser : Releaser) (fd : Nat) :
    ((released ++ found.toList.map fun fd => (fd, releaser)).map Prod.fst).count fd =
      (released.map Prod.fst).count fd + one fd found := by
  cases found with
  | none => simp [one]
  | some fd' => simp [one, List.count_singleton]

/-! ### What the calls do to a socket -/

theorem holders_handle (m : Machine) (found : (m.handles[i]?).join = some fd) (other : Nat) :
    { m with handles := m.handles.set i none }.holders other + one other (some fd) = m.holders other := by
  obtain ⟨lt, value⟩ := List.getElem?_eq_some_iff.mp (Option.join_eq_some_iff.mp found)
  have sums := sum_map_set (one other) m.handles lt none
  rw [value, one_none] at sums
  unfold Machine.holders Machine.socket
  dsimp only
  omega

theorem releases_qClose (m : Machine) (fd other : Nat) :
    (m.qClose fd).releases other = m.releases other + one other (some fd) :=
  count_append_toList m.released (some fd) .qClose other

theorem releases_deregister (m : Machine) (id : Nat) (releaser : Releaser) (fd : Nat) :
    (m.deregister id releaser).releases fd = m.releases fd + one fd (m.socket (at? m.loop.conns id)) :=
  count_append_toList m.released _ releaser fd

theorem holders_deregister (m : Machine) (id : Nat) (releaser : Releaser) (fd : Nat) :
    (m.deregister id releaser).holders fd + one fd (m.socket (at? m.loop.conns id)) = m.holders fd := by
  have sums := sum_map_release (fun slot => one fd (m.socket slot)) m.loop.conns id
  have empty : one fd (m.socket none) = 0 := rfl
  rw [empty] at sums
  change (m.handles.map (one fd)).sum +
    ((release m.loop.conns id).map fun slot => one fd (m.socket slot)).sum + _ = _
  unfold Machine.holders
  omega

theorem mem_iff_at? {conns : Slots Conn} {conn : Conn} : some conn ∈ conns ↔ ∃ i, at? conns i = some conn := by
  rw [List.mem_iff_getElem?]
  exact exists_congr fun i => Option.join_eq_some_iff.symm

theorem holders_register (numbered : Numbered m) (data : Address) (found : Option Nat) (fd : Nat) :
    (m.register data found).holders fd = m.holders fd + one fd found := by
  have others : (m.loop.conns.map fun slot => one fd ((m.register data found).socket slot)) =
      m.loop.conns.map fun slot => one fd (m.socket slot) := by
    apply List.map_congr_left
    intro slot mem
    cases slot with
    | none => rfl
    | some conn =>
      obtain ⟨i, at_i⟩ := mem_iff_at?.mp mem
      have before : conn.number ≠ m.loop.registered := Nat.ne_of_lt (numbered i conn at_i)
      exact congrArg (one fd) (Function.update_of_ne before _ _)
  have sums := sum_map_put (f := fun slot => one fd ((m.register data found).socket slot)) rfl
    m.loop.conns (free m.loop.conns) ⟨m.loop.registered, data⟩
  have new : (m.register data found).socket (some ⟨m.loop.registered, data⟩) = found :=
    Function.update_self _ _ _
  rw [at?_free, new, others] at sums
  have empty : one fd ((m.register data found).socket none) = 0 := rfl
  rw [empty] at sums
  change (m.handles.map (one fd)).sum +
    ((put m.loop.conns (free m.loop.conns) ⟨m.loop.registered, data⟩).map fun slot =>
      one fd ((m.register data found).socket slot)).sum = _
  unfold Machine.holders
  omega

theorem count_filterMap (m : Machine) (slots : Slots Conn) (fd : Nat) :
    (slots.filterMap m.socket).count fd = (slots.map fun slot => one fd (m.socket slot)).sum := by
  induction slots with
  | nil => rfl
  | cons slot slots ih =>
    rw [List.map_cons, List.sum_cons, ← ih]
    cases found : m.socket slot with
    | none => rw [List.filterMap_cons_none found, one_none, Nat.zero_add]
    | some other =>
      rw [List.filterMap_cons_some found, List.count_cons]
      simp only [one, Option.some.injEq, beq_iff_eq]
      omega

/-! ### Steps -/

/-- Sockets change hands, or are released, and are not lost; what is opened is held. -/
structure Moves (m m' : Machine) : Prop where
  total : ∀ fd, m'.releases fd + m'.holders fd + (if fd < m.opened then 1 else 0) =
    m.releases fd + m.holders fd + if fd < m'.opened then 1 else 0
  numbered : Numbered m → Numbered m'

/-- The calls of `q_conn_close` that were added are on selectors that resolve, just where an attach
finds its own. -/
def Calls (m : Machine) (e : SocketEvent) (m' : Machine) : Prop :=
  ∃ calls, m'.closes = m.closes ++ calls ∧ ((∀ resolved ∈ calls, resolved = true) ↔ Finds m e)

theorem Calls.none (same : m'.closes = m.closes) (finds : Finds m e) : Calls m e m' :=
  ⟨[], by rw [same, List.append_nil], iff_of_true nofun finds⟩

theorem Moves.same (loop : m'.loop.conns = m.loop.conns) (registered : m'.loop.registered = m.loop.registered)
    (under : m'.under = m.under) (handles : m'.handles = m.handles) (released : m'.released = m.released)
    (opened : m'.opened = m.opened) : Moves m m' where
  total fd := by
    unfold Machine.releases Machine.holders Machine.socket
    rw [loop, under, handles, released, opened]
  numbered numbered := by
    unfold Numbered
    rw [loop, registered]
    exact numbered

theorem Moves.trans {m'' : Machine} (h : Moves m m') (h' : Moves m' m'') : Moves m m'' where
  total fd := by
    have first := h.total fd
    have second := h'.total fd
    omega
  numbered numbered := h'.numbered (h.numbered numbered)

theorem moves_deregister (m : Machine) (id : Nat) (releaser : Releaser) :
    Moves m (m.deregister id releaser) where
  total fd := by
    have released := releases_deregister m id releaser fd
    have held := holders_deregister m id releaser fd
    have opened : (m.deregister id releaser).opened = m.opened := rfl
    rw [opened]
    omega
  numbered numbered i conn found := numbered i conn (at?_release_eq_some found)

theorem moves_qConnClose (m : Machine) (id : Nat) : Moves m (m.qConnClose id) :=
  (moves_deregister m id .qConnClose).trans (.same rfl rfl rfl rfl rfl rfl)

theorem moves_dropHandle (found : (m.handles[i]?).join = some fd) : Moves m (m.dropHandle i fd) where
  total other := by
    have held := holders_handle m found other
    have released := releases_qClose { m with handles := m.handles.set i none } fd other
    have opened : (m.dropHandle i fd).opened = m.opened := rfl
    change (m.dropHandle i fd).releases other = m.releases other + _ at released
    change (m.dropHandle i fd).holders other + _ = _ at held
    rw [opened]
    omega
  numbered numbered := numbered

theorem moves_register (numbered : Numbered m) (data : Address) : Moves m (m.register data none) where
  total fd := by
    rw [holders_register numbered, one_none]
    rfl
  numbered _ i conn found := by
    change at? (Slots.register m.loop.conns _) i = some conn at found
    change conn.number < m.loop.registered + 1
    rw [at?_register] at found
    split at found
    · cases found
      exact Nat.lt_succ_self _
    · exact Nat.lt_succ_of_lt (numbered i conn found)

theorem moves_attach (numbered : Numbered m) (found : (m.handles[i]?).join = some fd)
    (answer : Option Address) : Moves m (m.attach i fd answer).2 := by
  cases answer with
  | none => exact moves_dropHandle found
  | some data =>
    have taken : Numbered { m with handles := m.handles.set i none } := numbered
    constructor
    · intro other
      have held := holders_handle m found other
      have gained := holders_register taken data (some fd) other
      change (m.attach i fd (some data)).2.holders other = _ at gained
      have released : (m.attach i fd (some data)).2.releases other = m.releases other := rfl
      have opened : (m.attach i fd (some data)).2.opened = m.opened := rfl
      rw [opened]
      omega
    · intro _
      exact (moves_register taken data).numbered taken

theorem resolve_cases (m : Machine) (id own : Nat) :
    ((at? m.loop.conns id).isSome = true ∧ Moves m (m.resolve id own).2 ∧
      (m.resolve id own).2.closes = m.closes) ∨
    ((at? m.loop.conns id).isSome = false ∧ Moves m (m.resolve id own).2 ∧
      (m.resolve id own).2.closes = m.closes ++ [false]) := by
  have forget : Moves m { m with attaching := none } := .same rfl rfl rfl rfl rfl rfl
  unfold Machine.resolve State.selectorData
  dsimp only
  cases found : at? m.loop.conns id with
  | none =>
    refine .inr ⟨rfl, forget.trans (moves_qConnClose _ id), ?_⟩
    change m.closes ++ [(at? m.loop.conns id).isSome] = _
    rw [found]
    rfl
  | some conn => exact .inl ⟨rfl, .same rfl rfl rfl rfl rfl rfl, rfl⟩

theorem moves_dropSub (m : Machine) (sub : Subscription) :
    Moves m (m.dropSub sub) ∧
      ((m.dropSub sub).closes = m.closes ∨ (m.dropSub sub).closes = m.closes ++ [true]) := by
  have gives (m : Machine) : Moves m { m with loop := m.loop.releaseSelector sub.id sub.token } := by
    unfold State.releaseSelector
    split <;> exact .same rfl rfl rfl rfl rfl rfl
  unfold Machine.dropSub
  dsimp only
  split
  · next alive =>
    obtain ⟨-, conn, found, -⟩ := isAlive_iff.mp alive
    have acts : Moves m { m with loop := m.loop.act sub } := .same rfl rfl rfl rfl rfl rfl
    refine ⟨(acts.trans (moves_qConnClose _ sub.id)).trans (gives _), .inr ?_⟩
    change m.closes ++ [(at? m.loop.conns sub.id).isSome] = _
    rw [found]
    rfl
  · exact ⟨gives m, .inl rfl⟩

theorem moves_destroy (m : Machine) : Moves m m.destroy where
  total fd := by
    have released : m.destroy.releases fd =
        m.releases fd + (m.loop.conns.map fun slot => one fd (m.socket slot)).sum := by
      unfold Machine.releases Machine.destroy
      rw [List.map_append, List.count_append, List.map_map, ← count_filterMap]
      congr 2
      exact List.map_id _
    have held : m.destroy.holders fd = (m.handles.map (one fd)).sum := rfl
    have opened : m.destroy.opened = m.opened := rfl
    rw [released, held, opened]
    unfold Machine.holders
    omega
  numbered _ i conn found := by
    cases found

theorem moves_connect (m : Machine) (host user password : String) (port : UInt16) (fd : Int) :
    Moves m (m.connectWith host user password port fd).2 ∧
      (m.connectWith host user password port fd).2.closes = m.closes := by
  rcases connectWith_cases m host user password port fd with same | made
  · rw [same]
    exact ⟨.same rfl rfl rfl rfl rfl rfl, rfl⟩
  · rw [made]
    refine ⟨⟨fun other => ?_, fun numbered => numbered⟩, rfl⟩
    unfold Machine.releases Machine.holders Machine.socket
    dsimp only
    rw [List.map_append, List.sum_append, List.map_singleton, List.sum_singleton]
    simp only [one, Option.some.injEq]
    split <;> split <;> split <;> omega

theorem moves_next (numbered : Numbered m) (step : m.next e = some m') : Moves m m' ∧ Calls m e m' := by
  unfold Machine.next at step
  split at step
  · cases step
  · cases e with
    | connect host user password port fd =>
      cases step
      obtain ⟨moves, same⟩ := moves_connect m host user password port fd
      exact ⟨moves, .none same trivial⟩
    | dropHandle i =>
      obtain ⟨fd, found, rfl⟩ := Option.map_eq_some_iff.mp step
      exact ⟨moves_dropHandle found, .none rfl trivial⟩
    | attach i answer =>
      simp only [Option.ite_none_left_eq_some, Option.map_eq_some_iff] at step
      obtain ⟨-, fd, found, rfl⟩ := step
      refine ⟨moves_attach numbered found answer, .none ?_ trivial⟩
      cases answer <;> rfl
    | resolve =>
      obtain ⟨⟨id, own⟩, attaching, rfl⟩ := Option.map_eq_some_iff.mp step
      have finds : Finds m .resolve ↔ (at? m.loop.conns id).isSome = true := by
        constructor
        · intro finds
          exact finds id own attaching
        · rintro found id' own' same
          cases attaching.symm.trans same
          exact found
      rcases resolve_cases m id own with ⟨found, moves, same⟩ | ⟨gone, moves, added⟩
      · exact ⟨moves, .none same (finds.mpr found)⟩
      · refine ⟨moves, [false], added, ?_⟩
        rw [finds, gone]
        simp
    | register data =>
      simp only [Option.ite_none_left_eq_some, Option.some.injEq] at step
      obtain ⟨-, rfl⟩ := step
      exact ⟨moves_register numbered data, .none rfl trivial⟩
    | disconnect id =>
      simp only [Option.ite_none_right_eq_some, Option.some.injEq] at step
      obtain ⟨-, rfl⟩ := step
      exact ⟨moves_deregister m id .core, .none rfl trivial⟩
    | send j =>
      obtain ⟨sub, found, rfl⟩ := Option.map_eq_some_iff.mp step
      unfold State.send
      split
      · next loop sent =>
        split at sent
        · cases sent
        · cases sent
          exact ⟨.same rfl rfl rfl rfl rfl rfl, .none rfl trivial⟩
      · exact ⟨.same rfl rfl rfl rfl rfl rfl, .none rfl trivial⟩
    | dropSub j =>
      obtain ⟨sub, found, rfl⟩ := Option.map_eq_some_iff.mp step
      obtain ⟨moves, calls⟩ := moves_dropSub m sub
      refine ⟨moves.trans (.same rfl rfl rfl rfl rfl rfl), ?_⟩
      rcases calls with same | added
      · exact .none same trivial
      · exact ⟨[true], added, iff_of_true (by simp) trivial⟩
    | destroy =>
      cases step
      exact ⟨moves_destroy m, .none rfl trivial⟩

theorem released_start : Released start where
  once _ := rfl
  legal := nofun

/-- One step keeps the sockets released once, and is legal exactly when an attach finds its selector. -/
theorem released_step (released : Released m) (moves : Moves m m') (calls : Calls m e m') :
    Released m' ↔ Finds m e := by
  obtain ⟨calls, added, legal⟩ := calls
  rw [← legal]
  constructor
  · intro after resolved mem
    apply after.legal
    rw [added]
    exact List.mem_append_right _ mem
  · intro resolve
    constructor
    · intro fd
      have before := released.once fd
      have total := moves.total fd
      omega
    · intro resolved mem
      rw [added] at mem
      rcases List.mem_append.mp mem with old | new
      · exact released.legal resolved old
      · exact resolve resolved new

/-- In a run in which every attach found its selector, each socket is released once and every
`q_conn_close` is legal, and the next step keeps it so exactly when an attach finds its own. -/
theorem released_iff_finds (run : Run (Guarded (Steps Machine.next) Finds) start es m)
    (step : m.next e = some m') : Released m ∧ (Released m' ↔ Finds m e) := by
  apply run.guarded_iff (P := Released) (Q := Numbered)
  · intro m e m' released numbered step
    obtain ⟨moves, calls⟩ := moves_next numbered step
    exact ⟨moves.numbered numbered, released_step released moves calls⟩
  · exact released_start
  · exact nofun
  · exact step

/-- An attach whose peer stays. -/
theorem released_iff_finds_attach :
    let m : Machine := ((start.connectWith "q" "" "" 5010 3).2.attach 0 0 (some 7)).2
    Released m ∧ (Released (m.resolve 0 0).2 ↔ Finds m .resolve) := by
  intro m
  have run : Run (Guarded (Steps Machine.next) Finds) start
      [.connect "q" "" "" 5010 3, .attach 0 (some 7)] m :=
    .cons ⟨rfl, trivial⟩ (.single ⟨rfl, trivial⟩)
  exact released_iff_finds run rfl

/-- The peer is gone when `q_conn_attach` returns: the core has released the socket, and
`q_conn_close` is called on a selector that does not resolve. -/
theorem not_released_gone : ¬ ∀ es m, Run (Steps Machine.next) start es m → Released m := by
  intro all
  have closed : (exec Machine.next start [.connect "q" "" "" 5010 3, .attach 0 (some 7), .disconnect 0,
      .resolve]).map (·.closes) = some [false] := by decide
  obtain ⟨m, run, closes⟩ := Option.map_eq_some_iff.mp closed
  have legal := (all _ m (exec_eq_some_iff.mp run)).legal false (by simp [closes])
  cases legal

end Rayforce.Q
