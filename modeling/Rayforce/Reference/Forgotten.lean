import Rayforce.Reference.Balance
import Rayforce.Reference.Machine

/-! Runs of operations.  What is out of balance after a run is what its operations forgot. -/

namespace Rayforce.Reference

open Calls Custody RefHeap Transition
open Rayforce.Value (VecType)

variable {values base : Values} {i j : Nat} {p q : Pointer} {α : Type} {s t : State} {es : List Event}
  {w : World} {ds : List Due}

/-- What an operation left with nobody. -/
def Event.lost (e : Event) : List Due := e.told.flatMap forgotten

/-! ### The `Value`s' references -/

theorem value?_eq_some_iff : value? values i = some p ↔ values[i]? = some (some p) :=
  Option.join_eq_some_iff

theorem duesIn_split (found : value? values i = some p) :
    (duesIn values).Perm (p.dues ++ duesIn (values.set i none)) :=
  Slots.flatMap_set_perm (value?_eq_some_iff.mp found) rfl

theorem duesIn_set (found : value? values i = some p) (q : Pointer) :
    (q.dues ++ duesIn (values.set i none)).Perm (duesIn (values.set i (some q))) := by
  have lt := (List.getElem?_eq_some_iff.mp (value?_eq_some_iff.mp found)).1
  have at_i : (values.set i (some q))[i]? = some (some q) := List.getElem?_set_self lt
  have split := duesIn_split (value?_eq_some_iff.mpr at_i)
  rw [List.set_set] at split
  exact split.symm

theorem duesIn_append (values : Values) (p : Pointer) :
    (p.dues ++ duesIn values).Perm (duesIn (values ++ [some p])) := by
  unfold duesIn
  rw [List.flatMap_append, List.flatMap_singleton]
  exact List.perm_append_comm

theorem dues_subset (found : value? values i = some p) : p.dues ⊆ duesIn values := by
  intro d mem
  exact (duesIn_split found).symm.subset (List.mem_append_left _ mem)

theorem dues_subset_of_mapM {items : List Nat} {ps : List Pointer}
    (found : items.mapM (value? values) = some ps) : ∀ p ∈ ps, p.dues ⊆ duesIn values := by
  induction items generalizing ps with
  | nil =>
    cases found
    intro p mem
    cases mem
  | cons i items ih =>
    rw [List.mapM_cons] at found
    obtain ⟨q, first, found⟩ := Option.bind_eq_some_iff.mp found
    obtain ⟨qs, rest, found⟩ := Option.bind_eq_some_iff.mp found
    cases found
    intro p mem
    rcases List.mem_cons.mp mem with rfl | mem
    · exact dues_subset first
    · exact ih rest p mem

/-! ### Operations -/

theorem triple_adopt {m : M Pointer}
    (owns : custody.Owns ds m (fun p => p.dues ++ duesIn base) (duesIn base)) :
    custody.Triple ds (adopt base m) duesIn := by
  apply Triple.bind owns
  intro r
  cases r with
  | ok p => exact Triple.pure (duesIn_append base p)
  | error e => exact Triple.pure (.refl _)

theorem triple_new {m : M Pointer} (owns : custody.Owns [] m Pointer.dues []) :
    custody.Triple (duesIn values) (adopt values m) duesIn :=
  triple_adopt (owns.frame (duesIn values))

theorem triple_adoptFound {m : M (Option Pointer)}
    (owns : custody.Owns [] m (fun value => value.elim [] Pointer.dues) []) :
    custody.Triple (duesIn values) (adoptFound values m) duesIn := by
  apply Triple.bind (owns.frame (duesIn values))
  intro r
  cases r with
  | error e => exact Triple.pure (.refl _)
  | ok value =>
    cases value with
    | none => exact Triple.pure (.refl _)
    | some p => exact Triple.pure (duesIn_append values p)

theorem triple_leave {m : M Unit} (owns : custody.Owns [] m (fun _ => []) []) :
    custody.Triple (duesIn values) (leave values m) duesIn := by
  apply Triple.bind (owns.frame (duesIn values))
  intro r
  cases r <;> exact Triple.pure (.refl _)

theorem triple_change (found : value? values i = some p)
    {change' : Program (Except RayError Unit × Pointer)}
    (owns : custody.Triple p.dues change' fun result => result.2.dues) :
    custody.Triple (duesIn values) (change values i change') duesIn := by
  apply Triple.bind ((owns.frame (duesIn (values.set i none))).perm (duesIn_split found) fun _ => .refl _)
  intro result
  exact Triple.pure (duesIn_set found result.2)

theorem owns_program (c : Construction) : custody.Owns [] c.program Pointer.dues [] := by
  cases c with
  | atom | string | vec | boolVec | emptyVec | emptyList => exact owns_construct _ _ rfl fun _ => rfl
  | sym name s => exact owns_sym name s
  | symVec items => exact owns_symVec items
  | strVec items => exact owns_strVec items
  | eval source => exact owns_eval source
  | getGlobal name => exact owns_getGlobal name

/-- A program that is there for a `Value` that is. -/
theorem triple_found {β : Type} {x : Option β} {f : β → Program Values} {program : Program Values}
    (there : (x >>= fun b => some (f b)) = some program)
    (each : ∀ b, x = some b → custody.Triple (duesIn values) (f b) duesIn) :
    custody.Triple (duesIn values) program duesIn := by
  obtain ⟨b, found, same⟩ := Option.bind_eq_some_iff.mp there
  cases same
  exact each b found

theorem triple_dict {k v : Nat} {keys vals : Pointer} (found : value? values k = some keys)
    (found' : value? values v = some vals) (other : k ≠ v) :
    custody.Triple (duesIn values)
      (adopt ((values.set k none).set v none) (Value.dict keys vals)) duesIn := by
  have kept : value? (values.set k none) v = some vals := by
    rw [value?, List.getElem?_set_ne other]
    exact found'
  have split := (duesIn_split found).trans ((duesIn_split kept).append_left keys.dues)
  apply (triple_adopt ((owns_dict keys vals).frame _)).perm _ fun _ => .refl _
  simpa [duesOf] using split

theorem known_call {f : Nat} {items : List Nat} {self : Pointer} {args : List Pointer}
    (found : value? values f = some self) (found' : items.mapM (value? values) = some args) :
    ∀ p ∈ self :: args, p.dues ⊆ duesIn values := by
  intro p mem
  rcases List.mem_cons.mp mem with rfl | mem
  · exact dues_subset found
  · exact dues_subset_of_mapM found' p mem

/-- Every operation leaves the live `Value`s with what they have to give back. -/
theorem triple_program {operation : Operation} {program : Program Values}
    (there : operation.program values = some program) :
    custody.Triple (duesIn values) program duesIn := by
  cases operation with
  | null =>
    cases there
    exact Triple.pure (duesIn_append values .nullObj)
  | make c =>
    cases there
    exact triple_new (owns_program c)
  | clone i =>
    refine triple_found there fun p found => ?_
    apply Triple.bind (triple_retain (dues_subset found))
    intro _
    exact Triple.pure (duesIn_append values p)
  | drop i =>
    refine triple_found there fun p found => ?_
    have released := ((triple_release p).frame (duesIn (values.set i none))).perm (duesIn_split found)
      fun _ => .refl _
    exact Triple.bind released fun _ => Triple.pure (.refl _)
  | list items => exact triple_found there fun ps _ => triple_new (owns_list ps)
  | dict k v =>
    obtain ⟨keys, found, there⟩ := Option.bind_eq_some_iff.mp there
    obtain ⟨vals, found', there⟩ := Option.bind_eq_some_iff.mp there
    split at there
    · cases there
    · next other =>
      cases there
      exact triple_dict found found' other
  | dictGet d key =>
    obtain ⟨d, -, there⟩ := Option.bind_eq_some_iff.mp there
    exact triple_found there fun key _ => triple_adoptFound (owns_dictGet d key)
  | dictKeys d => exact triple_found there fun d _ => triple_new (owns_dictPart _ _ d)
  | dictValues d => exact triple_found there fun d _ => triple_new (owns_dictPart _ _ d)
  | set i idx elem =>
    exact triple_found there fun p found => triple_change found (triple_set p idx elem)
  | push i elem => exact triple_found there fun p found => triple_change found (triple_push p elem)
  | listPush i item =>
    obtain ⟨p, found, there⟩ := Option.bind_eq_some_iff.mp there
    obtain ⟨q, -, there⟩ := Option.bind_eq_some_iff.mp there
    split at there
    · cases there
    · cases there
      exact triple_change found (triple_listPush p q)
  | table names columns => exact triple_found there fun ps _ => triple_new (owns_tableNew names ps)
  | column t name => exact triple_found there fun t _ => triple_new (owns_column t name)
  | writeCsv t path => exact triple_found there fun t _ => triple_leave (owns_writeCsv t path)
  | saveSplayed t dir symPath =>
    exact triple_found there fun t _ => triple_leave (owns_saveSplayed t dir symPath)
  | evalValue obj => exact triple_found there fun obj _ => triple_new (owns_evalValue obj)
  | call f args =>
    obtain ⟨self, found, there⟩ := Option.bind_eq_some_iff.mp there
    exact triple_found there fun args found' => triple_adopt (owns_call (known_call found found'))
  | bindVary name =>
    cases there
    exact triple_leave (owns_bindVary name)
  | bindUnary name =>
    cases there
    exact triple_leave (owns_bindUnary name)

/-! ### Runs -/

theorem accounts_step {e : Event} (step : Step s e t) (frame : List Due)
    (accounts : s.world.Accounts (duesIn s.values ++ frame)) :
    t.world.Accounts (duesIn t.values ++ (e.lost ++ frame)) := by
  obtain ⟨program, there, run⟩ := step
  exact triple_program there run frame accounts

/-- In every run, what has to be given back is what the live `Value`s have to give back and what the
operations forgot. -/
theorem accounts_run (run : Run Step s es t) (frame : List Due)
    (accounts : s.world.Accounts (duesIn s.values ++ frame)) :
    t.world.Accounts (duesIn t.values ++ (es.flatMap Event.lost ++ frame)) := by
  induction run generalizing frame with
  | nil => exact accounts
  | @cons s m t e es first _ ih =>
    apply (ih _ (accounts_step first frame accounts)).perm
    rw [List.flatMap_cons, List.append_assoc]
    exact (List.perm_append_comm_assoc _ _ _).append_left _

/-- Nothing is forgotten where the books are right without it. -/
theorem eq_nil_of_accounts {lost : List Due} (whole : w.Accounts (ds ++ lost))
    (right : w.Accounts ds) : lost = [] := by
  have refs : lost.flatMap Due.refs = [] := by
    apply List.eq_nil_iff_forall_not_mem.mpr
    intro a mem
    have count := whole.1.count a
    rw [right.1.count a] at count
    have positive := List.count_pos_iff.mpr mem
    simp only [List.flatMap_append, List.count_append] at count
    omega
  have errors : lost.flatMap Due.errors = [] := by
    have length := whole.2.length_eq
    rw [← right.2.length_eq, List.flatMap_append, List.length_append, List.length_append,
      List.length_append] at length
    apply List.eq_nil_of_length_eq_zero
    omega
  apply List.eq_nil_iff_forall_not_mem.mpr
  intro d mem
  cases d with
  | reference a => exact absurd (List.flatMap_eq_nil_iff.mp refs _ mem) (List.cons_ne_nil a [])
  | error id => exact absurd (List.flatMap_eq_nil_iff.mp errors _ mem) (List.cons_ne_nil id [])

theorem accounts_lost (run : Run Step s es t) (start : Balanced s) :
    t.world.Accounts (duesIn t.values ++ es.flatMap Event.lost) := by
  have accounts : s.world.Accounts (duesIn s.values ++ []) := by
    rw [List.append_nil]
    exact start
  have books := accounts_run run [] accounts
  rw [List.append_nil] at books
  exact books

theorem balanced_iff_lost (run : Run Step s es t) (start : Balanced s) :
    Balanced t ↔ es.flatMap Event.lost = [] := by
  have books := accounts_lost run start
  constructor
  · exact eq_nil_of_accounts books
  · intro none
    rw [none, List.append_nil] at books
    exact books

/-- Along every run the references and the error objects are in balance exactly while nothing is
forgotten: no builtin that writes a table answers with a block, no constructor of a function with an
error object, and no append keeps the reference that it was given. -/
theorem balanced_iff (run : Run Step s es t) (start : Balanced s) :
    Balanced t ↔ ∀ e ∈ es, ∀ r ∈ e.told, forgotten r = [] := by
  have each : es.flatMap Event.lost = [] ↔ ∀ e ∈ es, ∀ r ∈ e.told, forgotten r = [] := by
    simp only [Event.lost, List.flatMap_eq_nil_iff]
  exact (balanced_iff_lost run start).trans each

/-- No `Value`, no block and no error object. -/
def initial : State := ⟨⟨[], [], 0, []⟩, []⟩

theorem balanced_initial : Balanced initial :=
  ⟨⟨fun _ => rfl, fun _ _ found => nomatch found⟩, .refl _⟩

/-- The core hands over a new block that refers to none. -/
theorem hands_alloc (w : World) {o : Object} (none : o.refs = []) :
    w.Hands [] (.object (.block (Slots.free w.heap))) { w with heap := alloc w.heap o } := by
  refine ⟨fun roots counted => ?_, (List.append_nil _).symm, rfl⟩
  have held : Counted Object.refs w.heap (o.refs ++ (roots ++ w.env)) := by
    rw [none]
    exact counted
  exact held.alloc

/-- A binding for which the core has no memory. -/
def failedBind : Event :=
  let oom : RayError := ⟨.oom, "oom", ""⟩
  ⟨.bindVary "upd", [⟨.thread, .runtime⟩, ⟨.hand (.fnVary "upd"), .error 0 oom⟩,
    ⟨.release (.error 0 oom), ()⟩]⟩

theorem failedBind_run : Run Step initial [failedBind] ⟨⟨[], [], 1, []⟩, []⟩ := by
  apply Run.single
  refine ⟨_, rfl, .call rfl <| .call (t := ⟨[], [], 1, []⟩) ⟨fun _ h => h, rfl, rfl⟩ <| .call ?_ <|
    .pure _ _⟩
  intro _
  rw [Raw.refs, releaseAll]

/-- A table without columns, and the core's answer to its being written. -/
def written (answer : Pointer) : List Event :=
  [⟨.table [] [], [⟨.thread, .runtime⟩, ⟨.hand (.tableNew 0), .object (.block 0)⟩]⟩,
    ⟨.writeCsv 0 "t.csv", [⟨.thread, .runtime⟩, ⟨.hand (.str "t.csv"), .object (.block 1)⟩,
      ⟨.hand (.writeCsvFn [.block 0, .block 1]), .object answer⟩,
      ⟨.release (Pointer.block 1), ()⟩]⟩]

def table : Object := ⟨.other 98, 98, 0, 0, []⟩

def path : Object := ⟨.atom .str, -13, 0, 0, []⟩

theorem written_run {answer : Pointer} {w' : World}
    (hands : World.Hands ⟨alloc (alloc [] table) path, [], 0, []⟩ [] answer w') :
    ∃ s, Run Step initial (written answer) s := by
  let w := { w' with heap := releaseAll Object.refs w'.heap [1] }
  refine ⟨⟨w, [some (.block 0)]⟩, .cons (t := ⟨⟨alloc [] table, [], 0, []⟩, [some (.block 0)]⟩)
    ⟨_, rfl, ?_⟩ (.single ⟨_, rfl, ?_⟩)⟩
  · exact .call rfl <| .call (hands_alloc _ rfl) <| .pure _ _
  · exact .call rfl <| .call (hands_alloc _ rfl) <| .call hands <| .call (fun _ => rfl) <| .pure _ _

/-- The null singleton, which the core answers for a table that it wrote, is nobody's to give back. -/
theorem balanced_iff_written :
    ∃ s, Run Step initial (written .nullObj) s ∧
      (Balanced s ↔ ∀ e ∈ written .nullObj, ∀ r ∈ e.told, forgotten r = []) := by
  let w : World := ⟨alloc (alloc [] table) path, [], 0, []⟩
  have hands : w.Hands [] (Pointer.nullObj : Raw) w := ⟨fun _ counted => counted, rfl, rfl⟩
  obtain ⟨s, run⟩ := written_run hands
  exact ⟨s, run, balanced_iff run balanced_initial⟩

/-- The error object of a function that could not be built is never freed, and a block that answers
for a table that was written is never released. -/
theorem not_balanced :
    (∃ s, Run Step initial [failedBind] s ∧ ¬ Balanced s) ∧
      ∃ s, Run Step initial (written (.block 2)) s ∧ ¬ Balanced s := by
  constructor
  · refine ⟨_, failedBind_run, fun balanced => ?_⟩
    have lost := (balanced_iff_lost failedBind_run balanced_initial).mp balanced
    cases lost
  · obtain ⟨s, run⟩ := written_run (hands_alloc _ (o := path) rfl)
    refine ⟨s, run, fun balanced => ?_⟩
    have lost := (balanced_iff_lost run balanced_initial).mp balanced
    cases lost

end Rayforce.Reference
