import Rayforce.Value.Sharing

/-! A mutation that is refused.  The checks of `set`, `push` and `list_push` come before the call that
consumes the reference, and what they let through the core may still refuse. -/

namespace Rayforce.Value

open RefHeap

variable {V E C : Type} {core : Core V E C} {s : State V} {p : Ptr} {b : Body V} {i idx : Nat} {elem : E}
  {answer : Answer}

inductive Mutator (E : Type)
  | set (idx : Nat) (elem : E)
  | push (elem : E)
  | listPush (item : Ptr)

def State.call (core : Core V E C) (s : State V) (i : Nat) (p : Ptr) (b : Body V) (answer : Answer) :
    Mutator E → Except RayError Unit × State V
  | .set idx elem => s.set core i p b idx elem answer
  | .push elem => s.push core i p b elem answer
  | .listPush item => s.listPush i p b item answer

/-- What the core's call gets is of the kind that it changes. -/
def Mutator.Suits (core : Core V E C) (b : Body V) : Mutator E → Prop
  | .set _ elem | .push elem => b.typeCode core = .vec (core.rayType elem)
  | .listPush _ => b.isList = true

/-- What the core may answer: for lack of memory, an error; for an argument of another kind, an error
before it consumes the reference. -/
def Mutator.Allows (core : Core V E C) (b : Body V) (m : Mutator E) : Answer → Prop
  | .done => m.Suits core b
  | .failed error released => error.code = .oom ∨ ¬ m.Suits core b ∧ released = false

def Answer.outOfMemory : Answer → Prop
  | .done => False
  | .failed error _ => error.code = .oom

/-- Where there is memory, an error leaves the handle, the heap and the references as they were. -/
def RefusesCleanly (core : Core V E C) (s : State V) (i : Nat) (p : Ptr) (b : Body V) (m : Mutator E) :
    Prop :=
  ∀ answer error, m.Allows core b answer → ¬ answer.outOfMemory →
    (s.call core i p b answer m).1 = .error error → (s.call core i p b answer m).2 = s

/-- A push onto an atom of the element's own type, whose tag is the type's up to its sign. -/
def Mutator.PushesOntoAtom (core : Core V E C) (p : Ptr) (b : Body V) : Mutator E → Prop
  | .push elem => p ≠ .null ∧ b.typeCode core = .atom (core.rayType elem)
  | _ => False

theorem len_atom {type : VecType} (atom : b.typeCode core = .atom type) : b.len core = 0 := by
  cases b with
  | list items => cases atom
  | plain v =>
    simp only [Body.len, Body.isVec, Body.isList, atom]
    rfl

/-- The check of the tag lets a vector of the type pass, and an atom of it. -/
theorem absType_eq_some {type : VecType} {code : TypeCode} (same : code.absType = some type) :
    code = .vec type ∨ code = .atom type := by
  cases code with
  | vec type' => exact Or.inl (congrArg TypeCode.vec (Option.some.inj same))
  | atom type' => exact Or.inr (congrArg TypeCode.atom (Option.some.inj same))
  | list | dict | other code => cases same

/-- On what suits the core, only a lack of memory makes it fail. -/
theorem done_of_suits {m : Mutator E} (allowed : m.Allows core b answer) (memory : ¬ answer.outOfMemory)
    (suits : m.Suits core b) : answer = .done := by
  cases answer with
  | done => rfl
  | failed error released =>
    rcases allowed with oom | ⟨other, -⟩
    · exact absurd oom memory
    · exact absurd suits other

theorem mutate_done_ok (op : String) (body : Body V) (added : List Nat) :
    (s.mutate i p op body added .done).1 = .ok () := by
  cases p <;> rfl

theorem set_refused (core : Core V E C) (s : State V) (i : Nat) (p : Ptr) (b : Body V) (idx : Nat)
    (elem : E) : RefusesCleanly core s i p b (.set idx elem) := by
  intro answer error allowed memory refused
  unfold State.call State.set at refused ⊢
  dsimp only at refused ⊢
  split
  · rfl
  · next same =>
    rw [if_neg same] at refused
    rcases absType_eq_some (not_not.mp same) with vec | atom
    · split
      · rfl
      · next inRange =>
        rw [if_neg inRange, done_of_suits allowed memory vec, mutate_done_ok] at refused
        cases refused
    · -- an atom has no element, and the bounds are checked next
      rw [if_pos (by rw [len_atom atom]; exact Nat.zero_le idx)]

theorem listPush_refused (core : Core V E C) (s : State V) (i : Nat) (p : Ptr) (b : Body V) (item : Ptr) :
    RefusesCleanly core s i p b (.listPush item) := by
  intro answer error allowed memory refused
  cases b with
  | plain v => rfl
  | list items =>
    change (s.mutate i p "list_push" _ item.refs answer).1 = _ at refused
    rw [done_of_suits allowed memory rfl, mutate_done_ok] at refused
    cases refused

theorem mutate_null (found : s.value? i = some .null) (op : String) (body : Body V) (added : List Nat)
    (error : RayError) : (s.mutate i .null op body added (.failed error false)).2 = s := by
  have same : s.values.set i (some .null) = s.values := by
    obtain ⟨lt, value⟩ := List.getElem?_eq_some_iff.mp (value?_eq_some_iff.mp found)
    rw [← value, List.set_getElem_self]
  change { s with values := s.values.set i (some .null), lost := s.lost } = s
  rw [same]

theorem push_refused (found : s.value? i = some p) (other : ¬ Mutator.PushesOntoAtom core p b (.push elem)) :
    RefusesCleanly core s i p b (.push elem) := by
  intro answer error allowed memory refused
  unfold State.call State.push at refused ⊢
  dsimp only at refused ⊢
  split
  · rfl
  · next same =>
    rw [if_neg same] at refused
    rcases absType_eq_some (not_not.mp same) with vec | atom
    · rw [done_of_suits allowed memory vec, mutate_done_ok] at refused
      cases refused
    · cases p with
      | block a => exact absurd ⟨nofun, atom⟩ other
      | null =>
        cases answer with
        | done =>
          rw [mutate_done_ok] at refused
          cases refused
        | failed e released =>
          rcases allowed with oom | ⟨-, rfl⟩
          · exact absurd oom memory
          · exact mutate_null found "push" _ [] e

theorem push_atom (atom : b.typeCode core = .atom (core.rayType elem)) (answer : Answer) :
    s.push core i p b elem answer =
      s.mutate i p "push" (b.modify fun v => core.append v elem) [] answer := by
  apply if_neg
  rw [atom]
  exact not_not.mpr rfl

/-- The core refuses the atom and keeps nothing, and the handle gives its reference away. -/
theorem not_refusesCleanly_atom (onto : Mutator.PushesOntoAtom core p b (.push elem)) :
    ¬ RefusesCleanly core s i p b (.push elem) := by
  obtain ⟨block, atom⟩ := onto
  intro clean
  have other : ¬ (Mutator.push elem).Suits core b := by
    intro vec
    cases atom.symm.trans vec
  let error : RayError := ⟨.type, "type", ""⟩
  have kept := clean (.failed error false) _ (.inr ⟨other, rfl⟩) nofun
    (congrArg Prod.fst (push_atom atom _))
  rw [State.call, push_atom atom] at kept
  cases p with
  | null => exact block rfl
  | block a =>
    have lost : a :: s.lost = s.lost := congrArg State.lost kept
    exact absurd lost (List.cons_ne_self a s.lost)

/-- A mutation that is refused, but for lack of memory, changes nothing, exactly when it is not a push
onto an atom of the element's type. -/
theorem refusesCleanly_iff (found : s.value? i = some p) (b : Body V) (m : Mutator E) :
    RefusesCleanly core s i p b m ↔ ¬ m.PushesOntoAtom core p b := by
  constructor
  · intro clean onto
    cases m with
    | push elem => exact not_refusesCleanly_atom onto clean
    | set | listPush => exact onto
  · intro other
    cases m with
    | push elem => exact push_refused found other
    | set idx elem => exact set_refused core s i p b idx elem
    | listPush item => exact listPush_refused core s i p b item

/-- A set past the end of a vector of three longs. -/
theorem refusesCleanly_iff_longs :
    let s : State Longs := ⟨[some ⟨1, .plain oneTwoThree⟩], [some (.block 0)], []⟩
    s.call longs 0 (.block 0) (.plain oneTwoThree) .done (.set 3 9) =
      (.error (.binding "set: index 3 out of range for length 3"), s) := by
  intro s
  have found : s.value? 0 = some (.block 0) := rfl
  have clean : RefusesCleanly longs s 0 (.block 0) (.plain oneTwoThree) (.set 3 9) :=
    (refusesCleanly_iff found _ _).mpr fun onto => onto
  have refused : (s.call longs 0 (.block 0) (.plain oneTwoThree) .done (.set 3 9)).1 =
      .error (.binding "set: index 3 out of range for length 3") := rfl
  exact Prod.ext refused (clean .done _ rfl (fun oom => oom) refused)

/-- A push onto a long. -/
theorem not_refusesCleanly_long :
    let seven : Longs := ⟨.atom .i64, false, [7]⟩
    ¬ RefusesCleanly longs ⟨[some ⟨1, .plain seven⟩], [some (.block 0)], []⟩ 0 (.block 0) (.plain seven)
      (.push 4) := by
  intro seven
  exact not_refusesCleanly_atom ⟨nofun, rfl⟩

end Rayforce.Value
