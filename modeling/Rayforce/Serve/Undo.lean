import Rayforce.Serve.Start

/-! What a start that fails leaves behind.  `uninstall_hooks` deletes both hooks whatever they were
bound to before the start. -/

namespace Rayforce.Serve

variable {p : Process} {ipc : ServeIpc} {a : Answers} {why : Refusal}

/-- `INSTALLED`, the hooks and every server with its watcher and its `Shared` are what they were. -/
structure LeftAsWas (p p' : Process) : Prop where
  installed : p'.installed = p.installed
  hooks : p'.hooks = p.hooks
  servers : p'.servers = p.servers
  watchers : p'.watchers = p.watchers
  shared : ∀ (n : Nat) (s : Shared), p.arcs[n]? = some s → p'.arcs[n]? = some s

/-- To delete the hooks is to give each back: one whose `del` is accepted was unbound, and one whose
`del` is refused was not changed. -/
def Answers.Undoes (a : Answers) (p : Process) : Prop :=
  ∀ hook, if a.dels hook then p.hooks hook = none
    else a.sets hook = true → p.hooks hook = some guardLambda

theorem getElem?_allocate {n : Nat} {s : Shared} (found : p.arcs[n]? = some s) :
    (p.allocate ipc).arcs[n]? = some s := by
  have lt := (List.getElem?_eq_some_iff.mp found).1
  exact (List.getElem?_append_left lt).trans found

theorem leftAsWas_allocate (p : Process) (ipc : ServeIpc) : LeftAsWas p (p.allocate ipc) :=
  ⟨rfl, rfl, rfl, rfl, fun _ _ => getElem?_allocate⟩

theorem hooks_undone_iff :
    (((p.allocate ipc).guarded a).unguarded a).hooks = p.hooks ↔ a.Undoes p := by
  rw [funext_iff]
  apply forall_congr'
  intro hook
  dsimp only [Process.unguarded, Process.guarded, Process.allocate]
  split
  · exact eq_comm
  · split
    · next set =>
      constructor
      · exact fun same _ => same.symm
      · exact fun same => (same set).symm
    · next unset => exact iff_of_true rfl fun set => absurd set unset

/-- Whatever was there before: a start that gives an error leaves all as it was exactly where it is
refused before it claims `INSTALLED`, or where deleting the hooks gives them back. -/
theorem start_leftAsWas_iff (failed : (p.start ipc a).1 = .refused why) :
    LeftAsWas p (p.start ipc a).2 ↔ ipc.Early p ∨ a.Undoes p := by
  have started := start_started p ipc a
  rw [failed] at started
  generalize (p.start ipc a).2 = p' at started ⊢
  cases started with
  | early why p' early _ same =>
    refine iff_of_true ?_ (.inl early)
    rcases same with rfl | rfl
    · exact ⟨rfl, rfl, rfl, rfl, fun _ _ found => found⟩
    · exact leftAsWas_allocate p ipc
  | undone why late =>
    have free : none = p.installed := by
      cases installed : p.installed with
      | none => rfl
      | some shared => exact absurd (.inr (.inr (by rw [installed]; rfl))) late
    constructor
    · intro same
      exact .inr (hooks_undone_iff.mp same.hooks)
    · rintro (early | undoes)
      · exact absurd early late
      · exact ⟨free, hooks_undone_iff.mpr undoes, rfl, rfl, fun _ _ => getElem?_allocate⟩

/-! ### Answers -/

/-- A scope is open on the thread, and the embedding may have hooks of its own. -/
def opened (hooks : Hook → Option String) : Process :=
  { Process.initial with
    runtime := { Runtime.initial with live := true, owns := fun _ => true }
    hooks := hooks }

def unbound : RayError := .binding "could not bind `.serve.guard` (rc 1, flat rc 1)"

/-- The native guard cannot be bound: the global table is full. -/
def unboundGuard : Answers where
  bindUnary := .error unbound
  eval := fun _ => .ok ()
  spawn := .ok ()

def onPort : ServeIpc := ⟨⟨0, none, 0⟩, 5011, none⟩

theorem start_leftAsWas_unbound :
    LeftAsWas (opened fun _ => none) ((opened fun _ => none).start onPort unboundGuard).2 := by
  have failed : ((opened fun _ => none).start onPort unboundGuard).1 = .refused (.serve unbound) := rfl
  exact (start_leftAsWas_iff failed).mpr (.inr fun _ => rfl)

/-- The embedding answers synchronous requests with a lambda of its own.  No `set` is reached, and the
lambda is deleted all the same. -/
theorem start_not_leftAsWas : ¬∀ p ipc a why, (Process.start p ipc a).1 = .refused why →
    LeftAsWas p (Process.start p ipc a).2 := by
  intro all
  have same := all (opened fun _ => some "(fn [x] x)") onPort unboundGuard (.serve unbound) rfl
  have deleted : (none : Option String) = some "(fn [x] x)" := congrFun same.hooks .sync
  cases deleted

end Rayforce.Serve
