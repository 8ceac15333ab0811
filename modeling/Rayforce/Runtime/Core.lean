import Mathlib.Data.List.Count

/-! What the crate relies on of the core's runtime and its event loop.  Nothing here refuses a second
runtime: `ray_runtime_create` overwrites the global one in silence. -/

namespace Rayforce.Runtime

abbrev Thread := Nat

/-- The address of an event loop. -/
abbrev Address := Nat

/-- An event loop, numbered apart from the address it happens to have. -/
structure Loop where
  id : Nat
  address : Address
  deriving DecidableEq, Repr

/-- A runtime that exists: who created it, and the loop installed in it. -/
structure CoreRuntime where
  id : Nat
  creator : Thread
  poll : Option Loop
  deriving DecidableEq, Repr

/-- The calls that create and destroy. -/
inductive Call
  | runtimeCreate (r : Nat)
  | pollCreate (r p : Nat)
  | pollDestroy (p : Nat)
  | runtimeDestroy (r : Nat)
  deriving DecidableEq, Repr

structure Core where
  /-- The runtimes that exist, the newest first. -/
  runtimes : List CoreRuntime
  /-- The loops that exist. -/
  loops : List Loop
  nextRuntime : Nat
  nextLoop : Nat
  log : List Call
  deriving DecidableEq, Repr

/-- `ray_runtime_create`, where it succeeds. -/
def Core.runtimeCreate (c : Core) (t : Thread) : Core :=
  { c with
    runtimes := ⟨c.nextRuntime, t, none⟩ :: c.runtimes
    nextRuntime := c.nextRuntime + 1
    log := c.log ++ [.runtimeCreate c.nextRuntime] }

def Core.runtimeDestroy (c : Core) (r : Nat) : Core :=
  { c with
    runtimes := c.runtimes.filter (·.id ≠ r)
    log := c.log ++ [.runtimeDestroy r] }

/-- The runtime that the core's global names. -/
def Core.current (c : Core) : Option Nat := c.runtimes.head?.map (·.id)

def Core.getPoll (c : Core) : Option Loop := c.runtimes.head?.bind (·.poll)

def Core.setPoll (c : Core) (p : Option Loop) : Core :=
  { c with runtimes := c.runtimes.modifyHead fun r => { r with poll := p } }

/-- `ray_poll_create` and `ray_runtime_set_poll` after it, where the first hands back `address`. -/
def Core.pollCreate (c : Core) (address : Address) : Core :=
  let p : Loop := ⟨c.nextLoop, address⟩
  { c.setPoll (some p) with
    loops := p :: c.loops
    nextLoop := c.nextLoop + 1
    log := c.log ++ (c.current.map fun r => .pollCreate r p.id).toList }

def Core.pollDestroy (c : Core) (p : Loop) : Core :=
  { c with
    loops := c.loops.filter (·.id ≠ p.id)
    log := c.log ++ [.pollDestroy p.id] }

end Rayforce.Runtime
