import Rayforce.Value.Block

/-! Who else sees a change.  Every mutation but one writes into a block that nobody else holds, its
own or a copy; `set_null` writes into the block as it is. -/

namespace Rayforce.Value

open RefHeap Transition

variable {V E C : Type} {core : Core V E C} {s t : State V} {e : Event V E} {es : List (Event V E)}
  {p q : Ptr} {b : Body V} {i j a idx : Nat} {elem : E} {answer : Answer} {isNull : Bool}
  {target : Option Nat}

def slotRefs (slot : Option Ptr) : List Nat := slot.elim [] Ptr.refs

/-- The references that handles hold, or that were lost. -/
def State.roots (s : State V) : List Nat := s.values.flatMap slotRefs ++ s.lost

/-- The references that stay when one handle gives up its own. -/
def State.others (s : State V) (i : Nat) : List Nat :=
  (s.values.set i none).flatMap slotRefs ++ s.lost

def Sound (s : State V) : Prop := Counted Body.kids s.heap s.roots

/-- The block that a handle leads to through the items of lists. -/
def State.leads (s : State V) : Ptr → List Nat → Option Nat
  | .null, _ => none
  | .block a, path => follow Body.kids s.heap a path

/-- What a handle reads, and what the items of a list that it reads read in turn. -/
def State.view (core : Core V E C) (s : State V) : Ptr → List Nat → Option (Body V)
  | .null, path => if path.isEmpty then some (.plain core.null) else none
  | .block a, path => RefHeap.read Body.kids s.heap a path

/-- Every handle but the one that is changed points where it did, and reads there what it read. -/
def Isolated (core : Core V E C) (s : State V) (e : Event V E) (t : State V) : Prop :=
  ∀ j p, e.target ≠ some j → s.value? j = some p →
    t.value? j = some p ∧ ∀ path, Option.Rel (Body.Alike core) (s.view core p path) (t.view core p path)

/-- A `set_null` that the core accepts makes a block read differently to which another handle
leads. -/
def Spoils (core : Core V E C) (s : State V) : Event V E → Prop
  | .setNull i idx isNull =>
    ∃ a v v', s.value? i = some (.block a) ∧ body? s.heap a = some (.plain v) ∧
      core.setNull v idx isNull = .ok v' ∧ ¬ Body.Alike core (.plain v) (.plain v') ∧
      ∃ j q path, j ≠ i ∧ s.value? j = some q ∧ s.leads q path = some a
  | _ => False

/-! ### Handles and references -/

theorem value?_eq_some_iff : s.value? i = some p ↔ s.values[i]? = some (some p) :=
  Option.join_eq_some_iff

theorem roots_perm (found : s.value? i = some p) : s.roots.Perm (p.refs ++ s.others i) := by
  unfold State.roots State.others
  rw [← List.append_assoc]
  exact (Slots.flatMap_set_perm (value?_eq_some_iff.mp found) rfl).append_right _

theorem value?_set (found : s.value? i = some p) (v : Option Ptr) :
    ((s.values.set i v)[j]?).join = if j = i then v else s.value? j := by
  have lt := (List.getElem?_eq_some_iff.mp (value?_eq_some_iff.mp found)).1
  by_cases same : j = i
  · subst same
    rw [List.getElem?_set_self lt, if_pos rfl]
    rfl
  · rw [List.getElem?_set_ne (Ne.symm same), if_neg same]
    rfl

theorem mem_roots (found : s.value? i = some (.block a)) : a ∈ s.roots :=
  (roots_perm found).symm.subset (by simp [Ptr.refs])

theorem mem_others (other : j ≠ i) (found : s.value? j = some (.block a)) : a ∈ s.others i := by
  apply List.mem_append_left
  apply List.mem_flatMap.mpr
  refine ⟨some (.block a), ?_, by simp [slotRefs, Ptr.refs]⟩
  apply List.mem_of_getElem? (i := j)
  rw [List.getElem?_set_ne (Ne.symm other)]
  exact value?_eq_some_iff.mp found

/-! ### Operations that leave the others alone -/

/-- All handles but one stay, with what they read. -/
structure Keeps (s : State V) (target : Option Nat) (t : State V) : Prop where
  value : ∀ j p, target ≠ some j → s.value? j = some p → t.value? j = some p
  read : ∀ j a, target ≠ some j → s.value? j = some (.block a) → ∀ path,
    read Body.kids t.heap a path = read Body.kids s.heap a path

theorem Keeps.refl (s : State V) (target : Option Nat) : Keeps s target s :=
  ⟨fun _ _ _ h => h, fun _ _ _ _ _ => rfl⟩

theorem alike_refl (b : Body V) : b.Alike core b := ⟨rfl, fun _ => rfl, fun _ => rfl, fun _ => rfl⟩

theorem rel_refl (x : Option (Body V)) : Option.Rel (Body.Alike core) x x := by
  cases x with
  | none => exact .none
  | some b => exact .some (alike_refl b)

theorem Keeps.isolated (keeps : Keeps s e.target t) : Isolated core s e t := by
  intro j p other found
  refine ⟨keeps.value j p other found, fun path => ?_⟩
  have same : t.view core p path = s.view core p path := by
    cases p with
    | null => rfl
    | block a => exact keeps.read j a other found path
  rw [same]
  exact rel_refl _

theorem value?_append (found : s.value? j = some p) (new : Option Ptr) :
    ((s.values ++ [new])[j]?).join = some p := by
  have at_j := value?_eq_some_iff.mp found
  rw [List.getElem?_append_left (List.getElem?_eq_some_iff.mp at_j).1, at_j]
  rfl

theorem roots_append (new : Option Ptr) (values : t.values = s.values ++ [new])
    (lost : t.lost = s.lost) : (slotRefs new ++ s.roots).Perm t.roots := by
  unfold State.roots
  rw [values, lost, List.flatMap_append, List.flatMap_singleton, ← List.append_assoc]
  exact List.perm_append_comm.append_right _

theorem fromOwned_spec (body : Body V) (sound : Counted Body.kids s.heap (body.kids ++ s.roots)) :
    Sound (s.fromOwned body) ∧ Keeps s none (s.fromOwned body) := by
  constructor
  · exact sound.alloc.perm (roots_append (some (.block (Slots.free s.heap))) rfl rfl)
  · constructor
    · intro j p _ found
      exact value?_append found _
    · intro j a _ found path
      exact read_alloc sound (List.mem_append_right _ (mem_roots found)) path

theorem fromBorrowed_spec (sound : Sound s)
    (known : ∀ a ∈ p.refs, a ∈ s.roots ++ edges Body.kids s.heap) :
    Sound (s.fromBorrowed p) ∧ Keeps s none (s.fromBorrowed p) := by
  constructor
  · exact (sound.retainAll known).perm (roots_append (some p) rfl rfl)
  · constructor
    · intro j q _ found
      exact value?_append found _
    · intro j a _ _ path
      exact read_retainAll s.heap p.refs a path

theorem drop_spec (sound : Sound s) (found : s.value? i = some p) :
    Sound (s.drop i p) ∧ Keeps s (some i) (s.drop i p) := by
  have held : Counted Body.kids s.heap (p.refs ++ s.others i) := sound.perm (roots_perm found)
  constructor
  · exact held.releaseAll
  · constructor
    · intro j q other at_j
      have ne : j ≠ i := fun same => other (congrArg some same.symm)
      show ((s.values.set i none)[j]?).join = some q
      rw [value?_set found, if_neg ne]
      exact at_j
    · intro j a other at_j path
      have ne : j ≠ i := fun same => other (congrArg some same.symm)
      exact read_releaseAll held (mem_others ne at_j) path

/-- What a mutation may do to a block: its references stay, and those added are other handles'. -/
structure Extends (s : State V) (i : Nat) (b body : Body V) (added : List Nat) : Prop where
  perm : body.kids.Perm (added ++ b.kids)
  known : ∀ a ∈ added, a ∈ s.others i

theorem roots_set (found : s.value? i = some p) (new : Option Ptr) (lost : List Nat)
    (values : t.values = s.values.set i new) (given : t.lost = lost ++ s.lost) :
    (slotRefs new ++ (lost ++ s.others i)).Perm t.roots := by
  have lt := (List.getElem?_eq_some_iff.mp (value?_eq_some_iff.mp found)).1
  have at_i : (s.values.set i new)[i]? = some new := List.getElem?_set_self lt
  have split := Slots.flatMap_set_perm (f := slotRefs) (d := none) at_i rfl
  rw [List.set_set] at split
  unfold State.roots State.others
  rw [values, given]
  apply List.Perm.symm
  apply (split.append_right _).trans
  rw [List.append_assoc]
  apply List.Perm.append_left
  rw [← List.append_assoc, ← List.append_assoc]
  exact List.perm_append_comm.append_right _

theorem mutate_spec (sound : Sound s) (found : s.value? i = some p) (here : s.body core p = some b)
    {op : String} {body : Body V} {added : List Nat} (extends_ : Extends s i b body added) :
    Sound (s.mutate i p op body added answer).2 ∧
      Keeps s (some i) (s.mutate i p op body added answer).2 := by
  have held : Counted Body.kids s.heap (p.refs ++ s.others i) := sound.perm (roots_perm found)
  have value : ∀ new : Option Ptr, ∀ j q, some i ≠ some j → s.value? j = some q →
      ((s.values.set i new)[j]?).join = some q := by
    intro new j q other at_j
    have ne : j ≠ i := fun same => other (congrArg some same.symm)
    rw [value?_set found, if_neg ne]
    exact at_j
  cases answer with
  | failed error released =>
    cases released with
    | true =>
      refine ⟨held.releaseAll.perm (roots_set found (some .null) [] rfl rfl), value _, ?_⟩
      intro j a other at_j path
      have ne : j ≠ i := fun same => other (congrArg some same.symm)
      exact read_releaseAll held (mem_others ne at_j) path
    | false =>
      exact ⟨held.perm (roots_set found (some .null) p.refs rfl rfl), value _, fun _ _ _ _ _ => rfl⟩
  | done =>
    cases p with
    | null => exact ⟨sound, .refl s _⟩
    | block a =>
      obtain ⟨c, at_a, rfl⟩ := body?_eq_some_iff.mp here
      obtain ⟨counted, -, reads⟩ := held.cow at_a extends_.perm extends_.known
      refine ⟨counted.perm (roots_set found (some (.block _)) [] rfl rfl), value _, ?_⟩
      intro j a other at_j path
      have ne : j ≠ i := fun same => other (congrArg some same.symm)
      exact reads a (mem_others ne at_j) path

theorem modify_extends (s : State V) (i : Nat) (b : Body V) (f : V → V) :
    Extends s i b (b.modify f) [] := by
  constructor
  · cases b <;> exact .refl _
  · intro a mem
    cases mem

theorem set_spec (sound : Sound s) (found : s.value? i = some p) (here : s.body core p = some b) :
    Sound (s.set core i p b idx elem answer).2 ∧
      Keeps s (some i) (s.set core i p b idx elem answer).2 := by
  unfold State.set
  split
  · exact ⟨sound, .refl s _⟩
  · dsimp only
    split
    · exact ⟨sound, .refl s _⟩
    · exact mutate_spec sound found here (modify_extends s i b _)

theorem push_spec (sound : Sound s) (found : s.value? i = some p) (here : s.body core p = some b) :
    Sound (s.push core i p b elem answer).2 ∧ Keeps s (some i) (s.push core i p b elem answer).2 := by
  unfold State.push
  split
  · exact ⟨sound, .refl s _⟩
  · exact mutate_spec sound found here (modify_extends s i b _)

theorem listPush_spec (sound : Sound s) (found : s.value? i = some p) (here : s.body core p = some b)
    (other : j ≠ i) (item : s.value? j = some q) :
    Sound (s.listPush i p b q answer).2 ∧ Keeps s (some i) (s.listPush i p b q answer).2 := by
  cases b with
  | plain v => exact ⟨sound, .refl s _⟩
  | list items =>
    apply mutate_spec sound found here
    constructor
    · show ((items ++ [q]).flatMap Ptr.refs).Perm _
      rw [List.flatMap_append, List.flatMap_singleton]
      exact List.perm_append_comm
    · intro a mem
      cases q with
      | null => cases mem
      | block c =>
        obtain rfl := List.mem_singleton.mp mem
        exact mem_others other item

theorem list_spec {items : List Ptr} (sound : Sound s)
    (known : ∀ a ∈ items.flatMap Ptr.refs, a ∈ s.roots) :
    Sound (s.list items) ∧ Keeps s none (s.list items) := by
  have taken : Counted Body.kids (retainAll s.heap (items.flatMap Ptr.refs))
      (items.flatMap Ptr.refs ++ s.roots) :=
    sound.retainAll fun a mem => List.mem_append_left _ (known a mem)
  obtain ⟨sound', keeps⟩ := fromOwned_spec
    (s := { s with heap := retainAll s.heap (items.flatMap Ptr.refs) }) (.list items) taken
  refine ⟨sound', keeps.value, fun j a other found path => ?_⟩
  exact (keeps.read j a other found path).trans (read_retainAll s.heap _ a path)

theorem get_shared (h : b.get core idx = .ok (.shared q)) : ∀ a ∈ q.refs, a ∈ b.kids := by
  intro a mem
  cases b with
  | plain v =>
    unfold Body.get at h
    cases type : (Body.plain v).typeCode core with
    | vec type' =>
      simp only [type] at h
      split at h
      · cases h
      · split at h <;> cases h
    | list | dict | atom | other =>
      simp only [type] at h
      cases h
  | list items =>
    unfold Body.get at h
    dsimp only at h
    split at h
    · cases h
    · cases h
      rw [List.getD_eq_getElem?_getD] at mem
      cases at_idx : items[idx]? with
      | none =>
        rw [at_idx] at mem
        cases mem
      | some item =>
        rw [at_idx] at mem
        exact List.mem_flatMap.mpr ⟨item, List.mem_of_getElem? at_idx, mem⟩

theorem kids_known (here : s.body core p = some b) (mem : a ∈ b.kids) :
    a ∈ s.roots ++ edges Body.kids s.heap := by
  cases p with
  | null =>
    cases here
    cases mem
  | block c =>
    obtain ⟨block, at_c, rfl⟩ := body?_eq_some_iff.mp here
    exact List.mem_append_right _ (mem_edges at_c mem)

theorem get_spec (sound : Sound s) (found : s.value? i = some p) (here : s.body core p = some b)
    (step : next core s (.get i idx : Event V E) = some t) : Sound t ∧ Keeps s none t := by
  simp only [next, found, here, Option.bind_eq_bind, Option.bind_some] at step
  cases item : b.get core idx with
  | error error =>
    rw [item] at step
    cases step
    exact ⟨sound, .refl s _⟩
  | ok item' =>
    rw [item] at step
    cases item' with
    | null =>
      cases step
      exact fromBorrowed_spec sound fun a mem => nomatch mem
    | atom type cell =>
      cases step
      exact fromOwned_spec _ sound
    | shared q =>
      cases step
      exact fromBorrowed_spec sound fun a mem => kids_known here (get_shared item a mem)

/-! ### `set_null` -/

/-- The core refuses, or the block is written as it is, whoever holds it. -/
theorem setNull_cases (core : Core V E C) (s : State V) (p : Ptr) (b : Body V) (idx : Nat)
    (isNull : Bool) :
    ((s.setNull core p b idx isNull).2 = s ∧
      ∀ a v v', p = .block a → b = .plain v → core.setNull v idx isNull ≠ .ok v') ∨
      ∃ a v v', p = .block a ∧ b = .plain v ∧ core.setNull v idx isNull = .ok v' ∧
        (s.setNull core p b idx isNull).2 = { s with heap := write s.heap a (.plain v') } := by
  cases p with
  | null => exact .inl ⟨rfl, fun a v v' block => nomatch block⟩
  | block a =>
    cases b with
    | list items => exact .inl ⟨rfl, fun a v v' _ plain => nomatch plain⟩
    | plain v =>
      cases answer : core.setNull v idx isNull with
      | error code =>
        refine .inl ⟨by simp only [State.setNull, answer], ?_⟩
        rintro a v v' - ⟨⟩ ok
        rw [answer] at ok
        cases ok
      | ok v' => exact .inr ⟨a, v, v', rfl, rfl, answer, by simp only [State.setNull, answer]⟩

theorem setNull_sound (sound : Sound s) (here : s.body core p = some b) :
    Sound (s.setNull core p b idx isNull).2 := by
  rcases setNull_cases core s p b idx isNull with ⟨same, -⟩ | ⟨a, v, v', rfl, rfl, -, eq⟩
  · rw [same]
    exact sound
  · rw [eq]
    obtain ⟨c, at_a, body⟩ := body?_eq_some_iff.mp here
    have counted : Counted Body.kids s.heap ([] ++ s.roots) := sound
    exact counted.write at_a (by rw [body]; exact .refl _)

theorem view_of_leads {path : List Nat} (leads : s.leads p path = some a) :
    s.view core p path = body? s.heap a := by
  cases p with
  | null => cases leads
  | block r =>
    change follow Body.kids s.heap r path = some a at leads
    rw [State.view, RefHeap.read, leads, Option.bind_some]

/-- After a block is written, exactly what leads there reads the new one. -/
theorem view_write {v v' : V} (at_a : body? s.heap a = some (.plain v)) (p : Ptr) (path : List Nat) :
    ({ s with heap := write s.heap a (.plain v') } : State V).view core p path =
      if s.leads p path = some a then some (.plain v') else s.view core p path := by
  cases p with
  | null => rfl
  | block r =>
    obtain ⟨c, found, body⟩ := body?_eq_some_iff.mp at_a
    have follows : follow Body.kids (write s.heap a (.plain v')) r path =
        follow Body.kids s.heap r path := follow_write found (by rw [body]; rfl) r path
    unfold State.view State.leads RefHeap.read
    dsimp only
    rw [follows]
    by_cases leads : follow Body.kids s.heap r path = some a
    · rw [if_pos leads, leads, Option.bind_some, body?_write found, if_pos rfl]
    · rw [if_neg leads]
      cases elsewhere : follow Body.kids s.heap r path with
      | none => rfl
      | some x =>
        rw [elsewhere, Option.some.injEq] at leads
        rw [Option.bind_some, Option.bind_some, body?_write found, if_neg leads]

theorem setNull_isolated_iff (found : s.value? i = some p) (here : s.body core p = some b) :
    Isolated core s (.setNull i idx isNull) (s.setNull core p b idx isNull).2 ↔
      ¬ Spoils core s (.setNull i idx isNull) := by
  rcases setNull_cases core s p b idx isNull with ⟨same, refused⟩ | ⟨a, v, v', rfl, rfl, ok, eq⟩
  · rw [same]
    refine iff_of_true (Keeps.refl s _).isolated ?_
    rintro ⟨a, v, v', at_i, at_a, ok, -⟩
    rw [found, Option.some.injEq] at at_i
    subst at_i
    rw [State.body, at_a, Option.some.injEq] at here
    exact refused a v v' rfl here.symm ok
  · rw [eq]
    constructor
    · rintro isolated ⟨a', w, w', at_i, at_a, ok', differ, j, q, path, other, at_j, leads⟩
      obtain rfl : a = a' := by simpa [found] using at_i
      obtain rfl : v = w := by simpa [State.body, at_a] using here.symm
      obtain rfl : v' = w' := by simpa [ok] using ok'
      have reads := (isolated j q (fun same => other (Option.some.inj same).symm) at_j).2 path
      rw [view_write here, if_pos leads, view_of_leads leads, at_a] at reads
      cases reads with
      | some alike => exact differ alike
    · intro clean j q other at_j
      have ne : j ≠ i := fun same => other (congrArg some same.symm)
      refine ⟨at_j, fun path => ?_⟩
      rw [view_write here]
      by_cases leads : s.leads q path = some a
      · rw [if_pos leads, view_of_leads leads]
        show Option.Rel _ (s.body core (.block a)) _
        rw [here]
        apply Option.Rel.some
        by_contra differ
        exact clean ⟨a, v, v', found, here, ok, differ, j, q, path, ne, at_j, leads⟩
      · rw [if_neg leads]
        exact rel_refl _

/-! ### Whole runs -/

theorem refs_known (found : s.value? i = some p) : ∀ a ∈ p.refs, a ∈ s.roots :=
  fun _ mem => (roots_perm found).symm.subset (List.mem_append_left _ mem)

theorem mapM_known {items : List Nat} {ps : List Ptr} (found : items.mapM s.value? = some ps) :
    ∀ a ∈ ps.flatMap Ptr.refs, a ∈ s.roots := by
  induction items generalizing ps with
  | nil =>
    cases found
    intro a mem
    cases mem
  | cons i items ih =>
    rw [List.mapM_cons] at found
    obtain ⟨p, at_i, rest⟩ := Option.bind_eq_some_iff.mp found
    obtain ⟨qs, at_items, all⟩ := Option.bind_eq_some_iff.mp rest
    cases all
    intro a mem
    rw [List.flatMap_cons] at mem
    rcases List.mem_append.mp mem with first | later
    · exact refs_known at_i a first
    · exact ih at_items a later

theorem sound_of_keeps (kept : Sound t ∧ Keeps s e.target t) (clean : ¬ Spoils core s e) :
    Sound t ∧ (Isolated core s e t ↔ ¬ Spoils core s e) :=
  ⟨kept.1, iff_of_true kept.2.isolated clean⟩

/-- Each event keeps the counts right, and what it does not change apart exactly unless it spoils
it. -/
theorem sound_step (sound : Sound s) (step : next core s e = some t) :
    Sound t ∧ (Isolated core s e t ↔ ¬ Spoils core s e) := by
  cases e with
  | make v =>
    cases step
    exact sound_of_keeps (fromOwned_spec (.plain v) sound) id
  | list items =>
    obtain ⟨ps, found, made⟩ := Option.bind_eq_some_iff.mp step
    cases made
    exact sound_of_keeps (list_spec sound (mapM_known found)) id
  | clone i =>
    obtain ⟨p, found, made⟩ := Option.bind_eq_some_iff.mp step
    cases made
    have known : ∀ a ∈ p.refs, a ∈ s.roots ++ edges Body.kids s.heap :=
      fun a mem => List.mem_append_left _ (refs_known found a mem)
    exact sound_of_keeps (fromBorrowed_spec sound known) id
  | get i idx =>
    obtain ⟨p, found, rest⟩ := Option.bind_eq_some_iff.mp step
    obtain ⟨b, here, -⟩ := Option.bind_eq_some_iff.mp rest
    exact sound_of_keeps (get_spec sound found here step) id
  | drop i =>
    obtain ⟨p, found, dropped⟩ := Option.bind_eq_some_iff.mp step
    cases dropped
    exact sound_of_keeps (drop_spec sound found) id
  | set i idx elem answer =>
    obtain ⟨p, found, rest⟩ := Option.bind_eq_some_iff.mp step
    obtain ⟨b, here, rest⟩ := Option.bind_eq_some_iff.mp rest
    obtain ⟨-, mutated⟩ := Option.ite_none_right_eq_some.mp rest
    cases mutated
    exact sound_of_keeps (set_spec sound found here) id
  | push i elem answer =>
    obtain ⟨p, found, rest⟩ := Option.bind_eq_some_iff.mp step
    obtain ⟨b, here, rest⟩ := Option.bind_eq_some_iff.mp rest
    obtain ⟨-, mutated⟩ := Option.ite_none_right_eq_some.mp rest
    cases mutated
    exact sound_of_keeps (push_spec sound found here) id
  | setNull i idx isNull =>
    obtain ⟨p, found, rest⟩ := Option.bind_eq_some_iff.mp step
    obtain ⟨b, here, wrote⟩ := Option.bind_eq_some_iff.mp rest
    cases wrote
    exact ⟨setNull_sound sound here, setNull_isolated_iff found here⟩
  | listPush i item answer =>
    obtain ⟨p, found, rest⟩ := Option.bind_eq_some_iff.mp step
    obtain ⟨b, here, rest⟩ := Option.bind_eq_some_iff.mp rest
    obtain ⟨q, shared, rest⟩ := Option.bind_eq_some_iff.mp rest
    obtain ⟨⟨other, -⟩, mutated⟩ := Option.ite_none_right_eq_some.mp rest
    cases mutated
    exact sound_of_keeps (listPush_spec sound found here other shared) id

theorem sound_initial : Sound (initial : State V) := ⟨fun _ => rfl, fun _ _ found => nomatch found⟩

/-- After any run an event is seen through no handle but the one it changes, exactly unless it is a
`set_null` of a block that another handle reads. -/
theorem isolated_iff (run : Run (Steps (next core)) initial es s) (step : next core s e = some t) :
    Isolated core s e t ↔ ¬ Spoils core s e := by
  have sound : Sound s := by
    apply run.invariant (P := Sound)
    · intro s e t sound step
      exact (sound_step sound step).1
    · exact sound_initial
  exact (sound_step sound step).2

/-! ### Vectors of longs -/

/-- A vector of longs, with its `HAS_NULLS`, or an object without cells. -/
structure Longs where
  code : TypeCode
  hasNulls : Bool
  cells : List Int
  deriving DecidableEq

def longNull : Int := -2 ^ 63

def longs : Core Longs Int Int where
  number
    | .vec .i64 => 5
    | .atom .i64 => -5
    | .other code => code
    | _ => 0
  null := ⟨.other 126, false, []⟩
  typeCode := Longs.code
  len v := v.cells.length
  dictLen _ := 0
  cell v idx := v.cells.getD idx longNull
  atom type cell := ⟨.atom type, false, [cell]⟩
  isNull v idx := v.hasNulls && v.cells[idx]? == some longNull
  rayType _ := .i64
  set v idx elem := { v with cells := v.cells.set idx elem }
  append v elem := { v with cells := v.cells ++ [elem] }
  setNull v idx isNull :=
    if v.cells.length ≤ idx then .error 3
    else if isNull then .ok { v with hasNulls := true, cells := v.cells.set idx longNull }
    else .ok v
  notVec := 2

def oneTwoThree : Longs := ⟨.vec .i64, false, [1, 2, 3]⟩

/-- A push through one of two handles on a vector. -/
theorem isolated_iff_longs :
    let s : State Longs := ⟨[some ⟨2, .plain oneTwoThree⟩], [some (.block 0), some (.block 0)], []⟩
    let t : State Longs :=
      ⟨[some ⟨1, .plain oneTwoThree⟩, some ⟨1, .plain ⟨.vec .i64, false, [1, 2, 3, 4]⟩⟩],
        [some (.block 0), some (.block 1)], []⟩
    next longs s (.push 1 4 .done) = some t ∧ Isolated longs s (.push 1 4 .done) t := by
  intro s t
  have run : Run (Steps (next longs)) initial [.make oneTwoThree, .clone 0] s :=
    .cons rfl (.single rfl)
  have step : next longs s (.push 1 4 .done) = some t := by
    show some (⟨releaseAll Body.kids [some ⟨2, .plain oneTwoThree⟩,
      some ⟨1, .plain ⟨.vec .i64, false, [1, 2, 3, 4]⟩⟩] [0], [some (.block 0), some (.block 1)], []⟩ :
        State Longs) = some t
    rw [releaseAll_shared rfl (by decide)]
    rfl
  exact ⟨step, (isolated_iff run step).mpr fun spoils => spoils⟩

/-- A null in a vector after a clone of its handle. -/
theorem not_isolated_longs :
    ¬ ∀ es s e t, Run (Steps (next longs)) initial es s → next longs s e = some t →
      Isolated longs s e t := by
  intro all
  let s : State Longs :=
    ⟨[some ⟨2, .plain oneTwoThree⟩], [some (.block 0), some (.block 0)], []⟩
  have run : Run (Steps (next longs)) initial [.make oneTwoThree, .clone 0] s :=
    .cons rfl (.single rfl)
  have isolated := all _ s (.setNull 0 0 true) _ run rfl
  obtain ⟨-, reads⟩ := isolated 1 (.block 0) (by decide) rfl
  have nulls : Body.isNullAt longs (.plain oneTwoThree) 0 = true := by
    cases reads [] with
    | some alike => exact alike.isNullAt 0
  cases nulls

end Rayforce.Value
