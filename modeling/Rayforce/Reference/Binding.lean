import Mathlib.Logic.Function.Basic
import Rayforce.Reference.Operations

/-! A native handler's name is bound twice (`env.rs`): the operations of before, run against the two
tables that a name is looked up in. -/

namespace Rayforce.Reference

open Calls

/-- What the names give: through the dicts of their dotted segments, and whole.  A name is the id of
its symbol. -/
structure Environment where
  nested : Int → Option Pointer
  flat : Int → Option Pointer

/-- One binder's answer, and what it does to its own lookup of the name and to the other: an undotted
name has one entry for both. -/
def Bound (id : Int) (f : Pointer) (rc : Int) (own own' other other' : Int → Option Pointer) : Prop :=
  if rc = rayOk then own' id = some f ∧ (other' id = other id ∨ other' id = some f)
  else own' id = own id ∧ other' id = other id

/-- A function object is a new block, which no name gives. -/
def Environment.Built (w : Environment) : Raw → Prop
  | .object .nullptr | .error _ _ => True
  | .object .nullObj => False
  | .object (.block a) => ∀ id, w.nested id ≠ some (.block a) ∧ w.flat id ≠ some (.block a)

/-- What the core may do on a call, where `intern` numbers the symbols. -/
def Environment.effect (intern : String → Int) (w : Environment) :
    (c : Call) → c.Reply → Environment → Prop
  | .symIntern name, id, w' => w' = w ∧ id = intern name
  | .hand (.fnVary _), f, w' | .hand (.fnUnary _), f, w' => w' = w ∧ w.Built f
  | .envBind false id f, rc, w' => Bound id f rc w.nested w'.nested w.flat w'.flat
  | .envBind true id f, rc, w' => Bound id f rc w.flat w'.flat w.nested w'.nested
  | _, _, w' => w' = w

/-- Both lookups give the function that was built, or what they gave before. -/
def AllOrNothing (id : Int) (w : Environment) (h : Handing) (told : List (Sigma Call.Reply))
    (r : Except Exit Unit) (w' : Environment) : Prop :=
  match r with
  | .ok () => ∃ f, ⟨.hand h, .object f⟩ ∈ told ∧ w'.nested id = some f ∧ w'.flat id = some f
  | .error _ => w'.nested id = w.nested id ∧ w'.flat id = w.flat id

/-- Where the two binders are asked, they both accept or both refuse. -/
def Agree (told : List (Sigma Call.Reply)) : Prop :=
  ∀ id f a b, ⟨.envBind false id f, a⟩ ∈ told → ⟨.envBind true id f, b⟩ ∈ told → (a = rayOk ↔ b = rayOk)

/-- The calls of a binding that gets as far as its two binders. -/
def bindings (intern : String → Int) (h : Handing) (name : String) (f : Pointer) (a b : Int) :
    List (Sigma Call.Reply) :=
  [⟨.thread, .runtime⟩, ⟨.hand h, .object f⟩, ⟨.symIntern name, intern name⟩,
    ⟨.envBind false (intern name) f, a⟩, ⟨.envBind true (intern name) f, b⟩, ⟨.release (.object f), ()⟩]

/-- What `bind_obj` makes of the two answers. -/
def bound (name : String) (a b : Int) : Except Exit Unit :=
  if a ≠ rayOk ∨ b ≠ rayOk then
    .error (.error (.binding s!"could not bind `{name}` (rc {a}, flat rc {b})"))
  else .ok ()

variable {intern : String → Int} {w w' : Environment} {h : Handing} {name : String} {f : Pointer}
  {told : List (Sigma Call.Reply)} {r : Except Exit Unit}

theorem runs_raise {α : Type} {r : Except Exit α} {message : String}
    (run : Runs (Environment.effect intern) (raise message : M α).run w told r w') :
    told = [] ∧ (∃ e, r = .error e) ∧ w' = w := by
  obtain ⟨rfl, rfl, rfl⟩ := eq_of_runs_pure run
  exact ⟨rfl, ⟨_, rfl⟩, rfl⟩

/-- The name is checked by asking for the thread alone. -/
theorem bindName_runs (run : Runs (Environment.effect intern) (bindName name).run w told r w') :
    w' = w ∧ ∃ thread, told = [⟨.thread, thread⟩] ∧ (r = .ok () → thread = .runtime) := by
  obtain ⟨thread, t, rest, same, after, rfl⟩ := runs_run_ask_bind_iff.mp run
  obtain rfl : t = w := same
  split at after
  · obtain ⟨rfl, ⟨e, rfl⟩, rfl⟩ := runs_raise after
    exact ⟨rfl, thread, rfl, nofun⟩
  · next on =>
    have runtime : thread = .runtime := by simpa using on
    split at after
    · obtain ⟨rfl, -, rfl⟩ := runs_raise after
      exact ⟨rfl, thread, rfl, fun _ => runtime⟩
    · split at after
      · obtain ⟨rfl, -, rfl⟩ := runs_raise after
        exact ⟨rfl, thread, rfl, fun _ => runtime⟩
      · obtain ⟨rfl, -, rfl⟩ := eq_of_runs_pure after
        exact ⟨rfl, thread, rfl, fun _ => runtime⟩

/-- A function that could not be built asks no binder, and one that was asks both. -/
theorem bindObj_cases {built : Raw} (known : w.Built built)
    (run : Runs (Environment.effect intern) (bindObj name built).run w told r w') :
    ((∃ e, r = .error e) ∧ w' = w ∧ ∀ flat id f rc, ⟨.envBind flat id f, rc⟩ ∉ told) ∨
    ∃ f a b, ∃ w₁ : Environment, built = .object f ∧
      (∀ id, w.nested id ≠ some f ∧ w.flat id ≠ some f) ∧
      told = (bindings intern (.fnVary name) name f a b).drop 2 ∧
      Bound (intern name) f a w.nested w₁.nested w.flat w₁.flat ∧
      Bound (intern name) f b w₁.flat w'.flat w₁.nested w'.nested ∧ r = bound name a b := by
  cases built with
  | error id e =>
    obtain ⟨_, t, rest, same, after, rfl⟩ := runs_run_ask_bind_iff.mp run
    obtain rfl : t = w := same
    obtain ⟨rfl, failed, rfl⟩ := runs_raise after
    exact .inl ⟨failed, rfl, by simp⟩
  | object f =>
    cases f with
    | nullptr =>
      obtain ⟨rfl, failed, rfl⟩ := runs_raise run
      exact .inl ⟨failed, rfl, by simp⟩
    | nullObj => exact known.elim
    | block x =>
      obtain ⟨id, t, rest, ⟨same, rfl⟩, interned, rfl⟩ := runs_run_ask_bind_iff.mp run
      obtain rfl : t = w := same
      obtain ⟨a, w₁, rest, first, nested, rfl⟩ := runs_run_ask_bind_iff.mp interned
      obtain ⟨b, w₂, rest, second, flat, rfl⟩ := runs_run_ask_bind_iff.mp nested
      obtain ⟨_, t', rest, same, released, rfl⟩ := runs_run_ask_bind_iff.mp flat
      obtain rfl : t' = w₂ := same
      refine .inr ⟨.block x, a, b, w₁, rfl, known, ?_⟩
      unfold bound
      split at released
      · next refused =>
        obtain ⟨rfl, rfl, rfl⟩ := eq_of_runs_pure released
        rw [if_pos refused]
        exact ⟨rfl, first, second, rfl⟩
      · next accepted =>
        obtain ⟨rfl, rfl, rfl⟩ := eq_of_runs_pure released
        rw [if_neg accepted]
        exact ⟨rfl, first, second, rfl⟩

theorem bindFn_cases (kind : h = .fnVary name ∨ h = .fnUnary name)
    (run : Runs (Environment.effect intern) (bindFn h name).run w told r w') :
    ((∃ e, r = .error e) ∧ w' = w ∧ ∀ flat id f rc, ⟨.envBind flat id f, rc⟩ ∉ told) ∨
    ∃ f a b, ∃ w₁ : Environment, (∀ id, w.nested id ≠ some f ∧ w.flat id ≠ some f) ∧
      told = bindings intern h name f a b ∧ Bound (intern name) f a w.nested w₁.nested w.flat w₁.flat ∧
      Bound (intern name) f b w₁.flat w'.flat w₁.nested w'.nested ∧ r = bound name a b := by
  rcases runs_run_bind_iff.mp run with ⟨_, first, t, rest, named, after, rfl⟩ | ⟨e, named, rfl⟩
  · obtain ⟨rfl, thread, rfl, on⟩ := bindName_runs named
    obtain rfl := on rfl
    obtain ⟨built, t', rest, effect, bind, rfl⟩ := runs_run_ask_bind_iff.mp after
    obtain ⟨rfl, known⟩ : t' = t ∧ t.Built built := by
      rcases kind with rfl | rfl
      · exact effect
      · exact effect
    rcases bindObj_cases known bind with ⟨failed, rfl, unasked⟩ | ⟨f, a, b, w₁, rfl, fresh, rfl, asked⟩
    · refine .inl ⟨failed, rfl, fun flat id f rc mem => ?_⟩
      simp at mem
      exact unasked flat id f rc mem
    · exact .inr ⟨f, a, b, w₁, fresh, rfl, asked⟩
  · obtain ⟨rfl, thread, rfl, -⟩ := bindName_runs named
    exact .inl ⟨⟨e, rfl⟩, rfl, by simp⟩

/-- The function of a binding is the only one that its binders are asked with. -/
theorem agree_bindings {a b : Int} : Agree (bindings intern h name f a b) ↔ (a = rayOk ↔ b = rayOk) := by
  constructor
  · intro agree
    exact agree (intern name) f a b (by simp [bindings]) (by simp [bindings])
  · intro same id f' a' b' first second
    simp [bindings] at first second
    obtain ⟨⟨rfl, rfl⟩, first⟩ := first
    obtain ⟨-, second⟩ := second
    rw [first, second]
    exact same

theorem allOrNothing_iff_agree (kind : h = .fnVary name ∨ h = .fnUnary name)
    (run : Runs (Environment.effect intern) (bindFn h name).run w told r w') :
    AllOrNothing (intern name) w h told r w' ↔ Agree told := by
  rcases bindFn_cases kind run with
    ⟨⟨e, rfl⟩, rfl, unasked⟩ | ⟨f, a, b, w₁, fresh, rfl, first, second, rfl⟩
  · exact iff_of_true ⟨rfl, rfl⟩ fun id f a b asked _ => absurd asked (unasked false id f a)
  · rw [agree_bindings]
    obtain ⟨newNested, newFlat⟩ := fresh (intern name)
    unfold Bound at first second
    unfold bound
    by_cases nested : a = rayOk
    · rw [if_pos nested] at first
      obtain ⟨set, -⟩ := first
      by_cases flat : b = rayOk
      · rw [if_pos flat] at second
        obtain ⟨setFlat, others⟩ := second
        rw [if_neg (by simp [nested, flat])]
        refine iff_of_true ⟨f, by simp [bindings], ?_, setFlat⟩ (iff_of_true nested flat)
        rcases others with kept | replaced
        · exact kept.trans set
        · exact replaced
      · -- the name dispatches locally, and the caller is told that it does not
        rw [if_neg flat] at second
        rw [if_pos (.inr flat)]
        refine iff_of_false (fun same => ?_) fun agree => flat (agree.mp nested)
        exact newNested ((same.1.symm.trans second.2).trans set)
    · rw [if_neg nested] at first
      rw [if_pos (.inl nested)]
      by_cases flat : b = rayOk
      · rw [if_pos flat] at second
        refine iff_of_false (fun same => ?_) fun agree => nested (agree.mpr flat)
        exact newFlat (same.2.symm.trans second.1)
      · rw [if_neg flat] at second
        exact iff_of_true ⟨second.2.trans first.1, second.1.trans first.2⟩ (iff_of_false nested flat)

/-- For every environment and name: `bind_vary` and `bind_unary` bind the name both ways, or leave both
lookups as they were, exactly where their two binders do not part. -/
theorem bind_allOrNothing_iff (intern : String → Int) (w : Environment) (name : String)
    (told : List (Sigma Call.Reply)) (r : Except Exit Unit) (w' : Environment) :
    (Runs (Environment.effect intern) (bindVary name).run w told r w' →
      (AllOrNothing (intern name) w (.fnVary name) told r w' ↔ Agree told)) ∧
    (Runs (Environment.effect intern) (bindUnary name).run w told r w' →
      (AllOrNothing (intern name) w (.fnUnary name) told r w' ↔ Agree told)) :=
  ⟨allOrNothing_iff_agree (.inl rfl), allOrNothing_iff_agree (.inr rfl)⟩

/-! ### Answers -/

/-- The environment after a binder's answer, where each writes to its own table. -/
def Environment.bind (w : Environment) (flat : Bool) (id : Int) (f : Pointer) (rc : Int) : Environment :=
  if rc = rayOk then
    if flat then { w with flat := Function.update w.flat id (some f) }
    else { w with nested := Function.update w.nested id (some f) }
  else w

theorem bound_of_accepted {id rc : Int} {own own' other other' : Int → Option Pointer}
    (accepted : rc = rayOk) (set : own' id = some f) (others : other' id = other id ∨ other' id = some f) :
    Bound id f rc own own' other other' := by
  unfold Bound
  rw [if_pos accepted]
  exact ⟨set, others⟩

theorem bound_of_refused {id rc : Int} {own other : Int → Option Pointer} (refused : rc ≠ rayOk) :
    Bound id f rc own own other other := by
  unfold Bound
  rw [if_neg refused]
  exact ⟨rfl, rfl⟩

theorem effect_bind (w : Environment) (flat : Bool) (id : Int) (f : Pointer) (rc : Int) :
    w.effect intern (.envBind flat id f) rc (w.bind flat id f rc) := by
  unfold Environment.bind
  by_cases accepted : rc = rayOk
  · rw [if_pos accepted]
    cases flat with
    | false => exact bound_of_accepted accepted (Function.update_self ..) (.inl rfl)
    | true => exact bound_of_accepted accepted (Function.update_self ..) (.inl rfl)
  · rw [if_neg accepted]
    cases flat with
    | false => exact bound_of_refused accepted
    | true => exact bound_of_refused accepted

/-- Whatever the two binders of a valid name answer, some run has these answers. -/
theorem bindVary_runs (intern : String → Int) (w : Environment) (name : String)
    (valid : name.isEmpty = false) (clean : hasNul name = false) {x : Nat}
    (fresh : w.Built (.object (.block x))) (a b : Int) :
    Runs (Environment.effect intern) (bindVary name).run w
      (bindings intern (.fnVary name) name (.block x) a b) (bound name a b)
      ((w.bind false (intern name) (.block x) a).bind true (intern name) (.block x) b) := by
  apply runs_run_bind_iff.mpr
  refine .inl ⟨(), [⟨.thread, .runtime⟩], w, _, ?_, ?_, rfl⟩
  · apply runs_run_ask_bind_iff.mpr
    refine ⟨.runtime, w, [], rfl, ?_, rfl⟩
    rw [if_neg (by simp), if_neg (by simp [valid]), if_neg (by simp [clean])]
    exact .pure _ _
  · apply runs_run_ask_bind_iff.mpr
    refine ⟨.object (.block x), w, _, ⟨rfl, fresh⟩, ?_, rfl⟩
    apply runs_run_ask_bind_iff.mpr
    refine ⟨intern name, w, _, ⟨rfl, rfl⟩, ?_, rfl⟩
    apply runs_run_ask_bind_iff.mpr
    refine ⟨a, _, _, effect_bind w false _ _ a, ?_, rfl⟩
    apply runs_run_ask_bind_iff.mpr
    refine ⟨b, _, _, effect_bind _ true _ _ b, ?_, rfl⟩
    apply runs_run_ask_bind_iff.mpr
    refine ⟨(), _, [], rfl, ?_, rfl⟩
    unfold bound
    split
    · exact .pure _ _
    · exact .pure _ _

def unbound : Environment := ⟨fun _ => none, fun _ => none⟩

theorem built_unbound : unbound.Built (.object (.block 0)) := fun _ => ⟨nofun, nofun⟩

/-- Both binders accept an undotted name. -/
theorem bind_allOrNothing_accepted :
    AllOrNothing 0 unbound (.fnVary "upd")
      (bindings (fun _ => 0) (.fnVary "upd") "upd" (.block 0) rayOk rayOk) (bound "upd" rayOk rayOk)
      ((unbound.bind false 0 (.block 0) rayOk).bind true 0 (.block 0) rayOk) := by
  have run := bindVary_runs (fun _ => 0) unbound "upd" (by decide) (by decide) built_unbound rayOk rayOk
  refine ((bind_allOrNothing_iff _ _ _ _ _ _).1 run).mpr fun id f a b nested flat => ?_
  have accepted : (id = 0 ∧ f = .block 0) ∧ a = rayOk := by simpa [bindings] using nested
  have accepted' : (id = 0 ∧ f = .block 0) ∧ b = rayOk := by simpa [bindings] using flat
  exact iff_of_true accepted.2 accepted'.2

/-- The global table is full when the flat binder is asked: the name dispatches locally, and the caller
is told that it could not be bound. -/
theorem not_allOrNothing : ¬ ∀ intern w name told r w',
    Runs (Environment.effect intern) (bindVary name).run w told r w' →
      AllOrNothing (intern name) w (.fnVary name) told r w' := by
  intro all
  have run := bindVary_runs (fun _ => 0) unbound ".upd.trade" (by decide) (by decide) built_unbound rayOk 1
  have half := all _ _ _ _ _ _ run
  exact absurd half.1 (by decide)

end Rayforce.Reference
