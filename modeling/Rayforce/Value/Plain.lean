import Rayforce.Value.Sharing

/-! Handles as values of their own.  On a plain value the operations are those of `value.rs`,
`vector.rs` and `list.rs` without a heap.  Blocks are copied before they are written, so that nobody
can tell them from plain values. -/

namespace Rayforce.Value

open RefHeap Transition

variable {V E C : Type}

/-! ### Values that are each one's own -/

/-- The operations on values that share nothing. -/
structure Operations (α V E : Type) where
  make : V → α
  list : List α → α
  /-- Nothing where it is refused. -/
  get : α → Nat → Option α
  set : α → Nat → E → Answer → α
  push : α → E → Answer → α
  setNull : α → Nat → Bool → α
  listPush : α → α → Answer → α
  /-- The core may answer so to a mutation. -/
  admits : α → Answer → Bool

def plain? {α : Type} (vs : List (Option α)) (i : Nat) : Option α := (vs[i]?).join

/-- The values after an event, where the event can happen. -/
def Operations.next {α : Type} (ops : Operations α V E) (vs : List (Option α)) :
    Event V E → Option (List (Option α))
  | .make v => some (vs ++ [some (ops.make v)])
  | .list items => do
    let items ← items.mapM (plain? vs)
    some (vs ++ [some (ops.list items)])
  | .clone i => do
    let v ← plain? vs i
    some (vs ++ [some v])
  | .get i idx => do
    match ops.get (← plain? vs i) idx with
    | none => some vs
    | some v => some (vs ++ [some v])
  | .drop i => do
    let _ ← plain? vs i
    some (vs.set i none)
  | .set i idx elem answer => do
    let v ← plain? vs i
    if ops.admits v answer then some (vs.set i (some (ops.set v idx elem answer))) else none
  | .push i elem answer => do
    let v ← plain? vs i
    if ops.admits v answer then some (vs.set i (some (ops.push v elem answer))) else none
  | .setNull i idx isNull => do
    let v ← plain? vs i
    some (vs.set i (some (ops.setNull v idx isNull)))
  | .listPush i item answer => do
    let v ← plain? vs i
    let w ← plain? vs item
    if item ≠ i ∧ ops.admits v answer then some (vs.set i (some (ops.listPush v w answer))) else none

/-! ### Plain values -/

/-- A tree that shares nothing. -/
inductive Plain (V : Type)
  | null
  | leaf (v : V)
  | list (items : List (Plain V))

variable (core : Core V E C)

/-- What a plain value shows of itself, its items apart. -/
def Plain.body : Plain V → Body V
  | .null => .plain core.null
  | .leaf v => .plain v
  | .list items => .list (items.map fun _ => .null)

def Plain.item : Plain V → Nat → Plain V
  | .list items, idx => items.getD idx .null
  | _, _ => .null

def Plain.get (v : Plain V) (idx : Nat) : Except RayError (Plain V) :=
  match (v.body core).get core idx with
  | .error e => .error e
  | .ok .null => .ok .null
  | .ok (.atom type cell) => .ok (.leaf (core.atom type cell))
  | .ok (.shared _) => .ok (v.item idx)

def Plain.modify (f : V → V) : Plain V → Plain V
  | .leaf v => .leaf (f v)
  | v => v

/-- The core's failure leaves a null. -/
def Plain.mutate (new : Plain V) : Answer → Plain V
  | .done => new
  | .failed _ _ => .null

def Plain.set (v : Plain V) (idx : Nat) (elem : E) (answer : Answer) : Plain V :=
  if ((v.body core).typeCode core).absType ≠ some (core.rayType elem) then v
  else if (v.body core).len core ≤ idx then v
  else (v.modify fun v => core.set v idx elem).mutate answer

def Plain.push (v : Plain V) (elem : E) (answer : Answer) : Plain V :=
  if ((v.body core).typeCode core).absType ≠ some (core.rayType elem) then v
  else (v.modify fun v => core.append v elem).mutate answer

def Plain.listPush (v item : Plain V) (answer : Answer) : Plain V :=
  match v with
  | .list items => mutate (.list (items ++ [item])) answer
  | v => v

def Plain.setNull (v : Plain V) (idx : Nat) (isNull : Bool) : Plain V :=
  match v with
  | .leaf x =>
    match core.setNull x idx isNull with
    | .error _ => v
    | .ok x => .leaf x
  | v => v

def Plain.admits : Plain V → Answer → Bool
  | .null, .done => false
  | v, .done => (v.body core).isVec core || (v.body core).isList
  | _, .failed _ _ => true

def Plain.operations : Operations (Plain V) V E where
  make := .leaf
  list := .list
  get v idx := (v.get core idx).toOption
  set v := v.set core
  push v := v.push core
  setNull v := v.setNull core
  listPush := Plain.listPush
  admits v := v.admits core

/-! ### What blocks hold -/

mutual

/-- What a pointer leads to is a plain value. -/
inductive Reads (h : Heap (Body V)) : Ptr → Plain V → Prop
  | null : Reads h .null .null
  | leaf {a : Nat} {v : V} : body? h a = some (.plain v) → Reads h (.block a) (.leaf v)
  | list {a : Nat} {items : List Ptr} {vs : List (Plain V)} :
      body? h a = some (.list items) → ReadsAll h items vs → Reads h (.block a) (.list vs)

inductive ReadsAll (h : Heap (Body V)) : List Ptr → List (Plain V) → Prop
  | nil : ReadsAll h [] []
  | cons {p : Ptr} {v : Plain V} {ps : List Ptr} {vs : List (Plain V)} :
      Reads h p v → ReadsAll h ps vs → ReadsAll h (p :: ps) (v :: vs)

end

/-- Every handle reads a plain value, for itself. -/
structure Agrees (s : State V) (vs : List (Option (Plain V))) : Prop where
  length : s.values.length = vs.length
  reads : ∀ i, Option.Rel (Reads s.heap) (s.value? i) (plain? vs i)

/-- Nobody else leads to a block in which a null is set. -/
def Apart (s : State V) : Event V E → Prop
  | .setNull i _ _ => ∀ a, s.value? i = some (.block a) →
    ∀ j q path, j ≠ i → s.value? j = some q → s.leads q path ≠ some a
  | _ => True

variable {core} {s t : State V} {vs : List (Option (Plain V))} {h h' : Heap (Body V)} {p q : Ptr}
  {ps : List Ptr} {v w : Plain V} {ws : List (Plain V)} {b : Body V} {i idx : Nat} {elem : E}
  {answer : Answer} {isNull : Bool}

/-! ### Frames -/

theorem kid_of_item {items : List Ptr} {a : Nat} (mem : a ∈ items.flatMap Ptr.refs) :
    ∃ k : Nat, (Body.list items : Body V).kids[k]? = some a :=
  List.mem_iff_getElem?.mp mem

mutual

theorem Reads.frame {p : Ptr} {v : Plain V} : Reads h p v →
    (∀ a ∈ p.refs, ∀ path, RefHeap.read Body.kids h' a path = RefHeap.read Body.kids h a path) →
      Reads h' p v
  | .null, _ => .null
  | .leaf (a := a) here, same => .leaf ((same a List.mem_cons_self []).trans here)
  | .list (a := a) here items, same => by
    have at_a : body? h' a = some (.list _) := (same a List.mem_cons_self []).trans here
    refine .list at_a (items.frame fun c mem path => ?_)
    obtain ⟨k, kid⟩ := kid_of_item (V := V) mem
    rw [← read_cons at_a kid, ← read_cons here kid]
    exact same a List.mem_cons_self (k :: path)

theorem ReadsAll.frame {ps : List Ptr} {ws : List (Plain V)} : ReadsAll h ps ws →
    (∀ a ∈ ps.flatMap Ptr.refs, ∀ path,
      RefHeap.read Body.kids h' a path = RefHeap.read Body.kids h a path) → ReadsAll h' ps ws
  | .nil, _ => .nil
  | .cons first rest, same =>
    .cons (first.frame fun a mem => same a (List.mem_append_left _ mem))
      (rest.frame fun a mem => same a (List.mem_append_right _ mem))

end

/-! ### Handles that agree -/

theorem join_append {α : Type} (l : List (Option α)) (x : Option α) (j : Nat) :
    ((l ++ [x])[j]?).join = if j = l.length then x else (l[j]?).join := by
  rcases Nat.lt_trichotomy j l.length with low | rfl | high
  · rw [List.getElem?_append_left low, if_neg (by omega)]
  · rw [List.getElem?_concat_length, if_pos rfl]
    rfl
  · rw [List.getElem?_eq_none (by simp; omega), if_neg (by omega),
      List.getElem?_eq_none (by omega)]

theorem join_set {α : Type} (l : List (Option α)) {i : Nat} (low : i < l.length) (x : Option α)
    (j : Nat) : ((l.set i x)[j]?).join = if j = i then x else (l[j]?).join := by
  by_cases same : j = i
  · subst same
    rw [List.getElem?_set_self low, if_pos rfl]
    rfl
  · rw [List.getElem?_set_ne (Ne.symm same), if_neg same]

theorem Reads.kept {target : Option Nat} (reads : Reads s.heap p v) (keeps : Keeps s target t) {j : Nat}
    (other : target ≠ some j) (at_j : s.value? j = some p) : Reads t.heap p v := by
  refine reads.frame fun a mem path => ?_
  cases p with
  | null => cases mem
  | block b =>
    obtain rfl := List.mem_singleton.mp mem
    exact keeps.read j a other at_j path

theorem Agrees.kept (agrees : Agrees s vs) {target : Option Nat} (keeps : Keeps s target t) {j : Nat}
    (other : target ≠ some j) : Option.Rel (Reads t.heap) (s.value? j) (plain? vs j) := by
  have reads := agrees.reads j
  generalize found : s.value? j = x at reads ⊢
  generalize plain? vs j = y at reads ⊢
  cases reads with
  | none => exact .none
  | some reads => exact .some (reads.kept keeps other found)

theorem Agrees.append (agrees : Agrees s vs) (keeps : Keeps s none t)
    (values : t.values = s.values ++ [some p]) (reads : Reads t.heap p v) :
    Agrees t (vs ++ [some v]) where
  length := by rw [values, List.length_append, List.length_append, agrees.length]; rfl
  reads j := by
    rw [State.value?, values, plain?, join_append, join_append, agrees.length]
    split
    · exact .some reads
    · exact agrees.kept keeps nofun

theorem plain?_eq_some_iff : plain? vs i = some v ↔ vs[i]? = some (some v) :=
  Option.join_eq_some_iff

theorem Agrees.set (agrees : Agrees s vs) (found : plain? vs i = some v) (keeps : Keeps s (some i) t)
    {new : Option Ptr} (values : t.values = s.values.set i new) {x : Option (Plain V)}
    (reads : Option.Rel (Reads t.heap) new x) : Agrees t (vs.set i x) where
  length := by rw [values, List.length_set, List.length_set, agrees.length]
  reads j := by
    have low := (List.getElem?_eq_some_iff.mp (plain?_eq_some_iff.mp found)).1
    rw [State.value?, values, plain?, join_set _ (agrees.length ▸ low), join_set _ low]
    split
    · exact reads
    · next other => exact agrees.kept keeps fun same => other (Option.some.inj same).symm

theorem Agrees.same (agrees : Agrees s vs) (found : plain? vs i = some v) :
    Agrees s (vs.set i (some v)) := by
  obtain ⟨low, at_i⟩ := List.getElem?_eq_some_iff.mp (plain?_eq_some_iff.mp found)
  rw [← at_i, List.set_getElem_self]
  exact agrees

theorem Agrees.found (agrees : Agrees s vs) (at_i : s.value? i = some p) :
    ∃ v, plain? vs i = some v ∧ Reads s.heap p v := by
  have reads := agrees.reads i
  rw [at_i] at reads
  generalize plain? vs i = y at reads ⊢
  cases reads with
  | some reads => exact ⟨_, rfl, reads⟩

theorem Agrees.absent (agrees : Agrees s vs) (at_i : s.value? i = none) : plain? vs i = none := by
  have reads := agrees.reads i
  rw [at_i] at reads
  generalize plain? vs i = y at reads ⊢
  cases reads with
  | none => rfl

/-! ### One operation -/

/-- A pointer's block, as its plain value shows it. -/
theorem Reads.cases (reads : Reads s.heap p v) :
    (p = .null ∧ v = .null) ∨
    (∃ a x, p = .block a ∧ v = .leaf x ∧ body? s.heap a = some (.plain x)) ∨
    (∃ a items ws, p = .block a ∧ v = .list ws ∧ body? s.heap a = some (.list items) ∧
      ReadsAll s.heap items ws) := by
  cases reads with
  | null => exact .inl ⟨rfl, rfl⟩
  | leaf here => exact .inr (.inl ⟨_, _, rfl, rfl, here⟩)
  | list here items => exact .inr (.inr ⟨_, _, _, rfl, rfl, here, items⟩)

theorem ReadsAll.length (reads : ReadsAll h ps ws) : ps.length = ws.length := by
  induction ps generalizing ws with
  | nil =>
    cases reads
    rfl
  | cons p ps ih =>
    cases reads with
    | cons _ rest => rw [List.length_cons, List.length_cons, ih rest]

theorem ReadsAll.item (reads : ReadsAll h ps ws) (k : Nat) :
    Reads h (ps.getD k .null) (ws.getD k .null) := by
  induction ps generalizing ws k with
  | nil =>
    cases reads
    exact .null
  | cons p ps ih =>
    cases reads with
    | cons first rest =>
      cases k with
      | zero => exact first
      | succ k => exact ih rest k

theorem ReadsAll.append (reads : ReadsAll h ps ws) (last : Reads h p v) :
    ReadsAll h (ps ++ [p]) (ws ++ [v]) := by
  induction ps generalizing ws with
  | nil =>
    cases reads
    exact .cons last .nil
  | cons q ps ih =>
    cases reads with
    | cons first rest => exact .cons first (ih rest)

@[simp] theorem len_list (items : List Ptr) :
    (Body.list items : Body V).len core = items.length := by
  simp [Body.len, Body.isVec, Body.isList, Body.typeCode, Body.rawLen]

/-- What a pointer's block shows is what its plain value shows, its items apart. -/
theorem Reads.shows (core : Core V E C) (reads : Reads s.heap p v) :
    ∃ b, s.body core p = some b ∧ b.typeCode core = (v.body core).typeCode core ∧
      b.isVec core = (v.body core).isVec core ∧ b.isList = (v.body core).isList ∧
      b.len core = (v.body core).len core := by
  rcases reads.cases with ⟨rfl, rfl⟩ | ⟨a, x, rfl, rfl, here⟩ | ⟨a, items, ws, rfl, rfl, here, all⟩
  · exact ⟨_, rfl, rfl, rfl, rfl, rfl⟩
  · exact ⟨_, here, rfl, rfl, rfl, rfl⟩
  · refine ⟨_, here, rfl, rfl, rfl, ?_⟩
    rw [Plain.body, len_list, len_list, List.length_map, all.length]

/-- A mutation that the core makes, or fails at. -/
theorem mutate_agrees (sound : Sound s) (agrees : Agrees s vs) (found : s.value? i = some p)
    (at_i : plain? vs i = some v) (here : s.body core p = some b) (admits : answer.admits core b p)
    {op : String} {body : Body V} {added : List Nat} (extends_ : Extends s i b body added)
    {new : Plain V} (made : ∀ (t : State V) c, p ≠ .null → body? t.heap c = some body →
      (∀ x ∈ b.kids, ∀ path,
        RefHeap.read Body.kids t.heap x path = RefHeap.read Body.kids s.heap x path) →
      Keeps s (some i) t → Reads t.heap (.block c) new) :
    Agrees (s.mutate i p op body added answer).2 (vs.set i (some (new.mutate answer))) := by
  have keeps : Keeps s (some i) (s.mutate i p op body added answer).2 :=
    (mutate_spec sound found here extends_).2
  cases answer with
  | failed error released => exact agrees.set at_i keeps rfl (.some .null)
  | done =>
    cases p with
    | null => simp [Answer.admits] at admits
    | block a =>
      have held : Counted Body.kids s.heap (a :: s.others i) := sound.perm (roots_perm found)
      obtain ⟨c, at_a, rfl⟩ := body?_eq_some_iff.mp here
      refine agrees.set at_i keeps rfl (.some (made _ _ nofun ?_ (fun x kid path => ?_) keeps))
      · exact (held.cow at_a extends_.perm extends_.known).2.1
      · exact held.read_cow at_a extends_.perm extends_.known kid path

theorem admits_iff (core : Core V E C) (reads : Reads s.heap p v) (here : s.body core p = some b)
    (answer : Answer) : answer.admits core b p = v.admits core answer := by
  obtain ⟨b', here', _, vec, list, _⟩ := reads.shows core
  obtain rfl : b = b' := Option.some.inj (here.symm.trans here')
  cases answer with
  | failed => cases v <;> rfl
  | done =>
    rcases reads.cases with ⟨rfl, rfl⟩ | ⟨a, x, rfl, rfl, _⟩ | ⟨a, items, ws, rfl, rfl, _, _⟩ <;>
      simp [Answer.admits, Plain.admits, vec, list]

/-- Only vectors and atoms have elements of their own. -/
theorem leaf_modified {f : V → V} (reads : Reads s.heap p v) (here : s.body core p = some b)
    (block : p ≠ .null) (type : (b.typeCode core).absType = some (core.rayType elem)) {c : Nat}
    (at_c : body? h c = some (b.modify f)) : Reads h (.block c) (v.modify f) := by
  rcases reads.cases with ⟨rfl, _⟩ | ⟨a, x, rfl, rfl, at_a⟩ | ⟨a, items, ws, rfl, rfl, at_a, _⟩
  · exact absurd rfl block
  · obtain rfl := Option.some.inj (here.symm.trans at_a)
    exact .leaf at_c
  · obtain rfl := Option.some.inj (here.symm.trans at_a)
    cases type

theorem set_agrees (sound : Sound s) (agrees : Agrees s vs) (found : s.value? i = some p)
    (at_i : plain? vs i = some v) (reads : Reads s.heap p v) (here : s.body core p = some b)
    (admits : answer.admits core b p) :
    Agrees (s.set core i p b idx elem answer).2 (vs.set i (some (v.set core idx elem answer))) := by
  obtain ⟨b', here', type, _, _, len⟩ := reads.shows core
  obtain rfl : b = b' := Option.some.inj (here.symm.trans here')
  rw [State.set, Plain.set, ← type, ← len]
  split
  · exact agrees.same at_i
  · next same =>
    dsimp only
    split
    · exact agrees.same at_i
    · apply mutate_agrees sound agrees found at_i here admits (modify_extends s i b _)
      exact fun t c block at_c _ _ => leaf_modified reads here block (not_not.mp same) at_c

theorem push_agrees (sound : Sound s) (agrees : Agrees s vs) (found : s.value? i = some p)
    (at_i : plain? vs i = some v) (reads : Reads s.heap p v) (here : s.body core p = some b)
    (admits : answer.admits core b p) :
    Agrees (s.push core i p b elem answer).2 (vs.set i (some (v.push core elem answer))) := by
  obtain ⟨b', here', type, _⟩ := reads.shows core
  obtain rfl : b = b' := Option.some.inj (here.symm.trans here')
  rw [State.push, Plain.push, ← type]
  split
  · exact agrees.same at_i
  · next same =>
    apply mutate_agrees sound agrees found at_i here admits (modify_extends s i b _)
    exact fun t c block at_c _ _ => leaf_modified reads here block (not_not.mp same) at_c

theorem listPush_extends {items : List Ptr} {j : Nat} (other : j ≠ i) (at_j : s.value? j = some q) :
    Extends s i (.list items) (.list (items ++ [q])) q.refs := by
  constructor
  · show ((items ++ [q]).flatMap Ptr.refs).Perm _
    rw [List.flatMap_append, List.flatMap_singleton]
    exact List.perm_append_comm
  · intro a mem
    cases q with
    | null => cases mem
    | block c =>
      obtain rfl := List.mem_singleton.mp mem
      exact mem_others other at_j

theorem listPush_agrees (sound : Sound s) (agrees : Agrees s vs) (found : s.value? i = some p)
    (at_i : plain? vs i = some v) (reads : Reads s.heap p v) (here : s.body core p = some b)
    (admits : answer.admits core b p) {j : Nat} (other : j ≠ i) (at_j : s.value? j = some q)
    (item : Reads s.heap q w) :
    Agrees (s.listPush i p b q answer).2 (vs.set i (some (v.listPush w answer))) := by
  rcases reads.cases with ⟨rfl, rfl⟩ | ⟨a, x, rfl, rfl, at_a⟩ | ⟨a, items, ws, rfl, rfl, at_a, all⟩
  · obtain rfl := Option.some.inj here
    exact agrees.same at_i
  · obtain rfl := Option.some.inj (here.symm.trans at_a)
    exact agrees.same at_i
  · obtain rfl := Option.some.inj (here.symm.trans at_a)
    apply mutate_agrees sound agrees found at_i here admits (listPush_extends other at_j)
    intro t c _ at_c kids keeps
    have last := item.kept keeps (fun same => other (Option.some.inj same).symm) at_j
    exact .list at_c ((all.frame kids).append last)

/-- A block is written that no other handle leads to. -/
theorem write_keeps {a : Nat} {x : V} (at_a : body? s.heap a = some (.plain x)) (x' : V)
    (apart : ∀ j q path, j ≠ i → s.value? j = some q → s.leads q path ≠ some a) :
    Keeps s (some i) { s with heap := write s.heap a (.plain x') } := by
  refine ⟨fun j q _ at_j => at_j, fun j c other at_j path => ?_⟩
  obtain ⟨d, at_d, body⟩ := body?_eq_some_iff.mp at_a
  have follows : follow Body.kids (write s.heap a (.plain x')) c path =
      follow Body.kids s.heap c path := follow_write at_d (by rw [body]; rfl) c path
  have ne : j ≠ i := fun same => other (congrArg some same.symm)
  unfold RefHeap.read
  rw [follows]
  cases leads : follow Body.kids s.heap c path with
  | none => rfl
  | some y =>
    rw [Option.bind_some, Option.bind_some, body?_write at_d, if_neg]
    rintro rfl
    exact apart j (.block c) path ne at_j leads

theorem setNull_agrees (agrees : Agrees s vs) (found : s.value? i = some p)
    (at_i : plain? vs i = some v) (reads : Reads s.heap p v) (here : s.body core p = some b)
    (apart : Apart s (.setNull i idx isNull : Event V E)) :
    Agrees (s.setNull core p b idx isNull).2 (vs.set i (some (v.setNull core idx isNull))) := by
  rcases reads.cases with ⟨rfl, rfl⟩ | ⟨a, x, rfl, rfl, at_a⟩ | ⟨a, items, ws, rfl, rfl, at_a, _⟩
  · exact agrees.same at_i
  · obtain rfl := Option.some.inj (here.symm.trans at_a)
    rw [State.setNull, Plain.setNull]
    cases core.setNull x idx isNull with
    | error code => exact agrees.same at_i
    | ok x' =>
      dsimp only
      have keeps := write_keeps at_a x' (apart a found)
      obtain ⟨low, slot⟩ := List.getElem?_eq_some_iff.mp (value?_eq_some_iff.mp found)
      obtain ⟨c, at_c, _⟩ := body?_eq_some_iff.mp at_a
      have leaf : Reads (write s.heap a (.plain x')) (.block a) (.leaf x') :=
        .leaf ((body?_write at_c _ a).trans (if_pos rfl))
      refine agrees.set at_i keeps ?_ (.some leaf)
      rw [← slot, List.set_getElem_self]
  · obtain rfl := Option.some.inj (here.symm.trans at_a)
    exact agrees.same at_i

theorem get_plain (x : V) (idx : Nat) (p : Ptr) : (Body.plain x).get core idx ≠ .ok (.shared p) := by
  intro shared
  unfold Body.get at shared
  cases type : (Body.plain x).typeCode core with
  | vec type' =>
    simp only [type] at shared
    split at shared
    · cases shared
    · split at shared <;> cases shared
  | list | dict | atom | other =>
    simp only [type] at shared
    cases shared

theorem get_list (items : List Ptr) (idx : Nat) : (Body.list items : Body V).get core idx =
    let n := items.length
    if n ≤ idx then .error (.binding s!"index {idx} out of range for length {n}")
    else .ok (.shared (items.getD idx .null)) := by
  simp only [Body.get, len_list]

/-- What `get` hands out of a block, and of its plain value. -/
inductive Hands (core : Core V E C) (h : Heap (Body V)) :
    Except RayError (Item C) → Except RayError (Plain V) → Prop
  | error (e : RayError) : Hands core h (.error e) (.error e)
  | null : Hands core h (.ok .null) (.ok .null)
  | atom (type : VecType) (cell : C) :
      Hands core h (.ok (.atom type cell)) (.ok (.leaf (core.atom type cell)))
  | shared {p : Ptr} {v : Plain V} : Reads h p v → Hands core h (.ok (.shared p)) (.ok v)

theorem hands_plain {x : V} (shown : v.body core = .plain x) (idx : Nat) :
    Hands core h ((Body.plain x).get core idx) (v.get core idx) := by
  rw [Plain.get, shown]
  cases got : (Body.plain x).get core idx with
  | error e => exact .error e
  | ok item =>
    cases item with
    | null => exact .null
    | atom type cell => exact .atom type cell
    | shared p => exact absurd got (get_plain x idx p)

theorem hands_get (core : Core V E C) (reads : Reads s.heap p v) (here : s.body core p = some b)
    (idx : Nat) : Hands core s.heap (b.get core idx) (v.get core idx) := by
  rcases reads.cases with ⟨rfl, rfl⟩ | ⟨a, x, rfl, rfl, at_a⟩ | ⟨a, items, ws, rfl, rfl, at_a, all⟩
  · obtain rfl := Option.some.inj here
    exact hands_plain rfl idx
  · obtain rfl := Option.some.inj (here.symm.trans at_a)
    exact hands_plain rfl idx
  · obtain rfl := Option.some.inj (here.symm.trans at_a)
    rw [Plain.get, Plain.body, get_list, get_list, List.length_map, ← all.length]
    by_cases out : items.length ≤ idx
    · simp only [if_pos out]
      exact .error _
    · simp only [if_neg out]
      exact .shared (all.item idx)

/-! ### Every event -/

theorem Agrees.all (agrees : Agrees s vs) (items : List Nat) :
    Option.Rel (ReadsAll s.heap) (items.mapM s.value?) (items.mapM (plain? vs)) := by
  induction items with
  | nil => exact .some .nil
  | cons i items ih =>
    rw [List.mapM_cons, List.mapM_cons]
    cases at_i : s.value? i with
    | none =>
      rw [agrees.absent at_i]
      exact .none
    | some p =>
      obtain ⟨v, at_v, reads⟩ := agrees.found at_i
      rw [at_v]
      generalize items.mapM s.value? = x at ih ⊢
      generalize items.mapM (plain? vs) = y at ih ⊢
      cases ih with
      | none => exact .none
      | some rest => exact .some (.cons reads rest)

theorem make_agrees (sound : Sound s) (agrees : Agrees s vs) (x : V) :
    Agrees (s.fromOwned (.plain x)) (vs ++ [some (.leaf x)]) :=
  agrees.append (fromOwned_spec (.plain x) sound).2 rfl (.leaf (body?_alloc s.heap _))

theorem borrow_agrees (sound : Sound s) (agrees : Agrees s vs)
    (known : ∀ a ∈ p.refs, a ∈ s.roots ++ edges Body.kids s.heap) (reads : Reads s.heap p v) :
    Agrees (s.fromBorrowed p) (vs ++ [some v]) :=
  agrees.append (fromBorrowed_spec sound known).2 rfl
    (reads.frame fun a _ path => read_retainAll s.heap p.refs a path)

theorem list_agrees (sound : Sound s) (agrees : Agrees s vs) {items : List Nat}
    (found : items.mapM s.value? = some ps) (reads : ReadsAll s.heap ps ws) :
    Agrees (s.list ps) (vs ++ [some (.list ws)]) := by
  have keeps := (list_spec sound (mapM_known found)).2
  have taken : Counted Body.kids (retainAll s.heap (ps.flatMap Ptr.refs))
      (ps.flatMap Ptr.refs ++ s.roots) :=
    sound.retainAll fun a mem => List.mem_append_left _ (mapM_known found a mem)
  refine agrees.append keeps rfl (.list (body?_alloc _ _) (reads.frame fun a mem path => ?_))
  exact (read_alloc taken (List.mem_append_left _ mem) path).trans (read_retainAll s.heap _ a path)

/-- What is done with one handle's value. -/
theorem Agrees.bind {f : Ptr → Option (State V)} {g : Plain V → Option (List (Option (Plain V)))}
    (core : Core V E C) (agrees : Agrees s vs) (i : Nat)
    (step : ∀ p v b, s.value? i = some p → plain? vs i = some v → Reads s.heap p v →
      s.body core p = some b → Option.Rel Agrees (f p) (g v)) :
    Option.Rel Agrees ((s.value? i).bind f) ((plain? vs i).bind g) := by
  cases found : s.value? i with
  | none =>
    rw [agrees.absent found]
    exact .none
  | some p =>
    obtain ⟨v, at_i, reads⟩ := agrees.found found
    obtain ⟨b, here, _⟩ := reads.shows core
    rw [at_i]
    exact step p v b found at_i reads here

theorem get_agrees (sound : Sound s) (agrees : Agrees s vs) (i idx : Nat) :
    Option.Rel Agrees (next core s (.get i idx : Event V E))
      ((Plain.operations core).next vs (.get i idx : Event V E)) := by
  refine agrees.bind core i fun p v b found at_i reads here => ?_
  have hands := hands_get core reads here idx
  simp only [here, Option.bind_eq_bind, Option.bind_some, Plain.operations]
  generalize got : b.get core idx = x at hands ⊢
  generalize v.get core idx = y at hands ⊢
  cases hands with
  | error e => exact .some agrees
  | null => exact .some (borrow_agrees sound agrees (fun a mem => nomatch mem) .null)
  | atom type cell => exact .some (make_agrees sound agrees _)
  | shared item =>
    have known := fun a mem => kids_known here (get_shared got a mem)
    exact .some (borrow_agrees sound agrees known item)

/-- What is done to one handle's block, where the core may answer so. -/
theorem Agrees.change {f : Ptr → Body V → State V} {g : Plain V → Plain V} (agrees : Agrees s vs)
    (i : Nat) (answer : Answer)
    (step : ∀ p v b, s.value? i = some p → plain? vs i = some v → Reads s.heap p v →
      s.body core p = some b → answer.admits core b p = true →
        Agrees (f p b) (vs.set i (some (g v)))) :
    Option.Rel Agrees
      (do
        let p ← s.value? i
        let b ← s.body core p
        if answer.admits core b p then some (f p b) else none)
      (do
        let v ← plain? vs i
        if v.admits core answer then some (vs.set i (some (g v))) else none) := by
  refine agrees.bind core i fun p v b found at_i reads here => ?_
  simp only [here, Option.bind_eq_bind, Option.bind_some, ← admits_iff core reads here]
  by_cases admits : answer.admits core b p = true
  · rw [if_pos admits, if_pos admits]
    exact .some (step p v b found at_i reads here admits)
  · rw [if_neg admits, if_neg admits]
    exact .none

theorem plain_step (core : Core V E C) (sound : Sound s) (agrees : Agrees s vs) {e : Event V E} (apart : Apart s e) :
    Option.Rel Agrees (next core s e) ((Plain.operations core).next vs e) := by
  cases e with
  | make x => exact .some (make_agrees sound agrees x)
  | list items =>
    have all := agrees.all items
    simp only [next, Operations.next, Option.bind_eq_bind]
    generalize found : items.mapM s.value? = x at all ⊢
    generalize items.mapM (plain? vs) = y at all ⊢
    cases all with
    | none => exact .none
    | some reads => exact .some (list_agrees sound agrees found reads)
  | clone i =>
    refine agrees.bind core i fun p v b found _ reads _ => .some ?_
    exact borrow_agrees sound agrees (fun a mem => List.mem_append_left _ (refs_known found a mem)) reads
  | get i idx => exact get_agrees sound agrees i idx
  | drop i =>
    refine agrees.bind core i fun p v b found at_i _ _ => .some ?_
    exact agrees.set at_i (drop_spec sound found).2 rfl .none
  | set i idx elem answer =>
    exact agrees.change i answer fun p v b found at_i reads here admits =>
      set_agrees sound agrees found at_i reads here admits
  | push i elem answer =>
    exact agrees.change i answer fun p v b found at_i reads here admits =>
      push_agrees sound agrees found at_i reads here admits
  | setNull i idx isNull =>
    refine agrees.bind core i fun p v b found at_i reads here => ?_
    simp only [here, Option.bind_eq_bind, Option.bind_some]
    exact .some (setNull_agrees agrees found at_i reads here apart)
  | listPush i item answer =>
    refine agrees.bind core i fun p v b found at_i reads here => ?_
    simp only [here, Option.bind_eq_bind, Option.bind_some]
    refine agrees.bind core item fun q w _ found' _ reads' _ => ?_
    have same : (Plain.operations core).admits v answer = answer.admits core b p :=
      (admits_iff core reads here answer).symm
    rw [same]
    by_cases admits : item ≠ i ∧ answer.admits core b p = true
    · rw [if_pos admits, if_pos admits]
      exact .some (listPush_agrees sound agrees found at_i reads here admits.2 admits.1 found' reads')
    · rw [if_neg admits, if_neg admits]
      exact .none

/-! ### Whole runs -/

theorem agrees_initial : Agrees (initial : State V) [] := ⟨rfl, fun _ => .none⟩

theorem sound_step_plain (sound : Sound s) (agrees : Agrees s vs) {e : Event V E} (apart : Apart s e) :
    Option.Rel (fun t ws => Sound t ∧ Agrees t ws) (next core s e) ((Plain.operations core).next vs e) := by
  have related := plain_step core sound agrees apart
  generalize reached : next core s e = x at related ⊢
  generalize (Plain.operations core).next vs e = y at related ⊢
  cases related with
  | none => exact .none
  | some agrees' => exact .some ⟨(sound_step sound reached).1, agrees'⟩

theorem run_agrees {es : List (Event V E)} (run : Run (Guarded (Steps (next core)) Apart) initial es s) :
    ∃ vs, exec (Plain.operations core).next [] es = some vs ∧ Sound s ∧ Agrees s vs := by
  have follows : ∀ (s : State V) vs (e : Event V E), Sound s ∧ Agrees s vs → Apart s e →
      Option.Rel (fun s vs => Sound s ∧ Agrees s vs) (next core s e)
        ((Plain.operations core).next vs e) :=
    fun s vs e related apart => sound_step_plain related.1 related.2 apart
  exact run.followed follows ⟨sound_initial, agrees_initial⟩

/-- Nobody can tell handles from plain values, in what they read and in what can be done with them,
as long as no null is set in a block to which another handle leads. -/
theorem values_are_plain {es : List (Event V E)}
    (run : Run (Guarded (Steps (next core)) Apart) initial es s) :
    ∃ vs, exec (Plain.operations core).next [] es = some vs ∧ Agrees s vs ∧
      ∀ e, Apart s e → Option.Rel Agrees (next core s e) ((Plain.operations core).next vs e) := by
  obtain ⟨vs, reached, sound, agrees⟩ := run_agrees run
  exact ⟨vs, reached, agrees, fun e apart => plain_step core sound agrees apart⟩

/-- A null is set in a vector that is then cloned, and a push to the clone. -/
theorem values_are_plain_longs :
    let es : List (Event Longs Int) :=
      [.make oneTwoThree, .setNull 0 0 true, .clone 0, .push 1 4 .done]
    let v : Longs := ⟨.vec .i64, true, [longNull, 2, 3]⟩
    let w : Longs := ⟨.vec .i64, true, [longNull, 2, 3, 4]⟩
    let s : State Longs :=
      ⟨[some ⟨1, .plain v⟩, some ⟨1, .plain w⟩], [some (.block 0), some (.block 1)], []⟩
    ∃ vs, exec (Plain.operations longs).next [] es = some vs ∧ Agrees s vs ∧
      ∀ e, Apart s e → Option.Rel Agrees (next longs s e) ((Plain.operations longs).next vs e) := by
  intro es v w s
  let single : State Longs := ⟨[some ⟨1, .plain oneTwoThree⟩], [some (.block 0)], []⟩
  have alone : ∀ j q, j ≠ 0 → single.value? j ≠ some q := by
    intro j q other found
    cases j with
    | zero => exact other rfl
    | succ j => cases found
  let cloned : State Longs := ⟨[some ⟨2, .plain v⟩], [some (.block 0), some (.block 0)], []⟩
  have pushed : next longs cloned (.push 1 4 .done) = some s := by
    show some (⟨releaseAll Body.kids [some ⟨2, .plain v⟩, some ⟨1, .plain w⟩] [0],
      [some (.block 0), some (.block 1)], []⟩ : State Longs) = some s
    rw [releaseAll_shared rfl (by decide)]
    rfl
  refine values_are_plain (.cons ⟨rfl, trivial⟩ (.cons ⟨rfl, ?_⟩ (.cons ⟨rfl, trivial⟩
    (.single ⟨pushed, trivial⟩))))
  intro a _ j q _ other found
  exact absurd found (alone j q other)

end Rayforce.Value
