import Rayforce.Reference.Handler

/-! Programs off the runtime's thread.  No `Value` is there, and nothing that needs none gets past its
check of the thread. -/

namespace Rayforce.Reference

open Calls Transition

variable {α β : Type} {m : M α} {n : N α} {f : α → N β} {values values' : Values} {s t : State}
  {w w' : World} {told : List (Sigma (Sum.elim Call.Reply Further.Reply))} {es : List Acted}

/-- Nothing tells the program that its thread is the runtime's. -/
def Off (told : List (Sigma (Sum.elim Call.Reply Further.Reply))) : Prop :=
  ∀ x ∈ told, x ≠ ⟨.inl .thread, Thread.runtime⟩

/-- Only the thread was asked for. -/
def Checked (told : List (Sigma (Sum.elim Call.Reply Further.Reply))) : Prop :=
  ∀ x ∈ told, x.1 = .inl .thread

/-- Off the thread, a program asks for it, changes nothing and fails. -/
def Refuses (n : N α) : Prop :=
  ∀ ⦃w told r w'⦄, Runs whole.effect n.run w told r w' → Off told →
    w' = w ∧ Checked told ∧ ∃ e, r = .error e

theorem refuses_throw {e : Exit} : Refuses (throw e : N α) := by
  intro w told r w' run off
  obtain ⟨rfl, rfl, rfl⟩ := eq_of_runs_pure run
  exact ⟨rfl, fun _ mem => absurd mem List.not_mem_nil, e, rfl⟩

theorem Refuses.bind (refuses : Refuses n) (f : α → N β) : Refuses (n >>= f) := by
  intro w told r w' run off
  rcases runs_run_bind_iff.mp run with ⟨a, first, v, rest, before, -, rfl⟩ | ⟨e, failed, rfl⟩
  · obtain ⟨-, -, e, fails⟩ := refuses before fun x mem => off x (List.mem_append_left _ mem)
    cases fails
  · obtain ⟨same, asked, -⟩ := refuses failed off
    exact ⟨same, asked, e, rfl⟩

/-- A check of the thread, which fails off it. -/
theorem refuses_thread {k : Thread → M α} (fails : ∀ t, t ≠ .runtime → ∃ e, k t = throw e) :
    Refuses (known (liftM (core .thread) >>= k)) := by
  intro w told r w' run off
  cases run with
  | @call _ _ t _ v _ rest _ effect after =>
    have same : v = w := effect
    subst same
    have other : t ≠ Thread.runtime := by
      rintro rfl
      exact off _ List.mem_cons_self rfl
    obtain ⟨e, eq⟩ := fails t other
    change Runs whole.effect (k t).run.inl v rest r w' at after
    rw [eq] at after
    obtain ⟨rfl, rfl, rfl⟩ := eq_of_runs_pure after
    exact ⟨rfl, fun x mem => by obtain rfl := List.mem_singleton.mp mem; rfl, e, rfl⟩

theorem refuses_assert (what : String) : Refuses (known (assertOnRuntimeThread what)) := by
  apply refuses_thread
  intro t other
  cases t with
  | runtime => exact absurd rfl other
  | other | noRuntime => exact ⟨_, rfl⟩

/-- An operation that begins with the check. -/
theorem refuses_known (what : String) (f : Unit → M α) :
    Refuses (known (assertOnRuntimeThread what >>= f)) := by
  rw [known, inl_bind]
  exact (refuses_assert what).bind _

theorem refuses_construct (name what : String) (h : Handing) : Refuses (known (construct name what h)) :=
  refuses_known _ _

theorem refuses_construction (c : Construction) : Refuses (known c.program) := by
  cases c <;> exact refuses_known _ _

theorem refuses_bindFn (h : Handing) (name : String) : Refuses (known (bindFn h name)) := by
  rw [bindFn, known, inl_bind]
  refine Refuses.bind (refuses_thread fun t other => ?_) _
  rw [if_pos other]
  exact ⟨_, rfl⟩

/-! ### Operations without a `Value` -/

theorem refuses_compile {e : Expr} (none : e.lits = []) : Refuses (compile e) := by
  cases e with
  | col name => exact refuses_known _ _
  | lit v => cases none
  | op operation operands =>
    rw [compile]
    exact Refuses.bind (refuses_known _ _) _
  | call name operands =>
    rw [compile]
    exact Refuses.bind (refuses_known _ _) _

theorem refuses_deed {d : Deed} (none : d.lent = []) : Refuses d.run := by
  cases d with
  | deserialize | qExecute | subscriptionExecute | clientExecute =>
    exact Refuses.bind (Refuses.bind (refuses_construct _ _ _) _) _
  | readCsv | loadSplayed | loadParted | decodeResponse | decodeResponseCols =>
    exact Refuses.bind (Refuses.bind (refuses_assert _) _) _
  | fromGlobal name => exact Refuses.bind (Refuses.bind (refuses_known _ _) _) _
  | fnNew source =>
    refine Refuses.bind ?_ _
    unfold Fn.new
    split
    · exact refuses_throw
    · exact Refuses.bind (refuses_known _ _) _
  | execute e => exact Refuses.bind (Refuses.bind (refuses_compile none) _) _
  | _ => cases none

/-! ### Actions -/

/-- Off the thread, a program on `Value`s changes nothing. -/
def Still (values : Values) (p : Whole Values) : Prop :=
  ∀ ⦃w told values' w'⦄, Runs whole.effect p w told values' w' → Off told →
    w' = w ∧ values' = values ∧ Checked told

theorem Refuses.still (refuses : Refuses n) {k : Except Exit α → Whole Values}
    (left : ∀ e, k (.error e) = pure values) : Still values (n.run >>= k) := by
  intro w told values' w' run off
  obtain ⟨first, r, v, rest, before, after, rfl⟩ := runs_bind_iff.mp run
  obtain ⟨rfl, asked, e, rfl⟩ := refuses before fun x mem => off x (List.mem_append_left _ mem)
  rw [left] at after
  obtain ⟨rfl, rfl, rfl⟩ := eq_of_runs_pure after
  rw [List.append_nil]
  exact ⟨rfl, rfl, asked⟩

theorem still_adopt {m : M Pointer} (refuses : Refuses (known m)) :
    Still values (adopt values m).inl := by
  rw [adopt, Prog.inl_bind]
  exact refuses.still fun _ => rfl

theorem still_leave {m : M Unit} (refuses : Refuses (known m)) :
    Still values (leave values m).inl := by
  rw [leave, Prog.inl_bind]
  exact refuses.still fun _ => rfl

theorem still_pure : Still values (pure values) := by
  intro w told values' w' run off
  obtain ⟨rfl, rfl, rfl⟩ := eq_of_runs_pure run
  exact ⟨rfl, rfl, fun _ mem => absurd mem List.not_mem_nil⟩

theorem value?_of_dead (dead : ∀ v ∈ values, v = none) (i : Nat) : value? values i = none := by
  cases found : value? values i with
  | none => rfl
  | some p => cases dead _ (List.mem_of_getElem? (Option.join_eq_some_iff.mp found))

theorem still_operation (dead : ∀ v ∈ values, v = none) {operation : Operation}
    (made : operation ≠ .null) {p : Program Values} (there : operation.program values = some p) :
    Still values p.inl := by
  have gone {β : Type} {i : Nat} {f : Pointer → Option β} {b : β}
      (found : (value? values i >>= f) = some b) : False := by
    rw [value?_of_dead dead i] at found
    cases found
  cases operation with
  | null => exact absurd rfl made
  | make c =>
    cases there
    exact still_adopt (refuses_construction c)
  | list items =>
    obtain ⟨ps, -, there⟩ := Option.bind_eq_some_iff.mp there
    cases there
    exact still_adopt (refuses_known _ _)
  | table names columns =>
    obtain ⟨ps, -, there⟩ := Option.bind_eq_some_iff.mp there
    cases there
    exact still_adopt (refuses_known _ _)
  | bindVary name =>
    cases there
    exact still_leave (refuses_bindFn _ _)
  | bindUnary name =>
    cases there
    exact still_leave (refuses_bindFn _ _)
  | _ => exact (gone there).elim

theorem still_action (dead : ∀ v ∈ values, v = none) {action : Action} (made : action ≠ .base .null)
    {p : Whole Values} (there : action.program [] values = some p) : Still values p := by
  have gone {i : Nat} {f : Pointer → Option (Whole Values)}
      (found : (value? values i >>= f) = some p) : False := by
    rw [value?_of_dead dead i] at found
    cases found
  cases action with
  | base operation =>
    obtain ⟨q, found, rfl⟩ := Option.map_eq_some_iff.mp there
    exact still_operation dead (fun same => made (congrArg Action.base same)) found
  | deed d =>
    dsimp only [Action.program] at there
    split at there
    · next lends =>
      cases there
      apply (refuses_deed (List.eq_nil_iff_forall_not_mem.mpr fun q mem => ?_)).still fun _ => rfl
      cases dead _ (lends q mem)
    · cases there
  | toTable i => exact (gone there).elim
  | toFn i => exact (gone there).elim
  | argument i =>
    cases there
    exact still_pure
  | unary => cases there

/-- Off the runtime's thread, where no `Value` is, no program ever changes anything but to make null
`Value`s: whatever it runs, it asks for the thread, and the core hears nothing else. -/
theorem inert_off_thread (run : Run (Act []) s es t) (dead : ∀ v ∈ s.values, v = none)
    (off : ∀ e ∈ es, Off e.told) (made : ∀ e ∈ es, e.action ≠ .base .null) :
    t = s ∧ ∀ e ∈ es, Checked e.told := by
  induction run with
  | nil => exact ⟨rfl, fun _ mem => absurd mem List.not_mem_nil⟩
  | @cons s m t e es first _ ih =>
    obtain ⟨p, there, runs⟩ := first
    obtain ⟨offFirst, offRest⟩ := List.forall_mem_cons.mp off
    obtain ⟨madeFirst, madeRest⟩ := List.forall_mem_cons.mp made
    obtain ⟨world, values, asked⟩ := still_action dead madeFirst there runs offFirst
    obtain rfl : m = s := by
      cases m
      cases s
      cases world
      cases values
      rfl
    obtain ⟨same, rest⟩ := ih dead offRest madeRest
    exact ⟨same, List.forall_mem_cons.mpr ⟨asked, rest⟩⟩

/-- The check on another thread. -/
def asked : List (Sigma (Sum.elim Call.Reply Further.Reply)) := [⟨.inl .thread, Thread.other⟩]

theorem off_asked : Off asked := by
  intro x mem same
  obtain rfl := List.mem_singleton.mp mem
  cases same

/-- A program that reads a table, decodes a message and binds a handler on another thread. -/
def strayed : List Acted :=
  [⟨.deed (.readCsv ["I64"] "t.csv"), asked⟩, ⟨.deed (.decodeResponse []), asked⟩,
    ⟨.base (.bindVary "upd"), asked⟩]

def elsewhere : State := ⟨⟨[], [], 0, []⟩, []⟩

theorem strayed_run : Run (Act []) elsewhere strayed elsewhere := by
  refine .cons (t := elsewhere) ⟨_, rfl, ?_⟩ <| .cons (t := elsewhere) ⟨_, rfl, ?_⟩ <|
    .single ⟨_, rfl, ?_⟩ <;>
    exact .call rfl (.pure _ _)

theorem inert_strayed : elsewhere = elsewhere ∧ ∀ e ∈ strayed, Checked e.told :=
  inert_off_thread strayed_run (fun _ mem => absurd mem List.not_mem_nil)
    (by simp [strayed, off_asked]) (by simp [strayed])

end Rayforce.Reference
