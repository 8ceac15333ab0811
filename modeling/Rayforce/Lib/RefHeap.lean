import Rayforce.Lib.Slots

/-! A heap of reference-counted blocks that refer to each other.  Where the counts are right, what
is read from a root along references stays as it is while references are taken and released, new
blocks are made, and a block is changed through the only reference to it. -/

namespace RefHeap

open Slots

structure Block (β : Type*) where
  count : Nat
  body : β
  deriving DecidableEq, Repr

abbrev Heap (β : Type*) := Slots (Block β)

variable {β : Type*} (kids : β → List Nat) {h : Heap β} {roots work added : List Nat} {a x : Nat}
  {b : Block β} {body : β}

def body? (h : Heap β) (a : Nat) : Option β := (at? h a).map (·.body)

def countAt (h : Heap β) (a : Nat) : Nat := (at? h a).elim 0 (·.count)

def held (slot : Option (Block β)) : List Nat := slot.elim [] fun b => kids b.body

/-- The references in all blocks. -/
def edges (h : Heap β) : List Nat := h.flatMap (held kids)

def modify (h : Heap β) (a : Nat) (f : Block β → Block β) : Heap β :=
  match at? h a with
  | none => h
  | some b => put h a (f b)

def retain (h : Heap β) (a : Nat) : Heap β := modify h a fun b => { b with count := b.count + 1 }

def retainAll (h : Heap β) (as : List Nat) : Heap β := as.foldl retain h

def write (h : Heap β) (a : Nat) (body : β) : Heap β := modify h a fun b => { b with body }

/-- A new block, with one reference to it. -/
def alloc (h : Heap β) (body : β) : Heap β := register h ⟨1, body⟩

def weight (h : Heap β) : Nat := (h.map fun slot => slot.elim 0 (·.count + 1)).sum

theorem weight_release_lt (found : at? h a = some b) : weight (release h a) < weight h := by
  have sum := sum_map_release (fun slot : Option (Block β) => slot.elim 0 (·.count + 1)) h a
  rw [found] at sum
  simp only [Option.elim_some, Option.elim_none] at sum
  unfold weight
  omega

theorem weight_put_lt (found : at? h a = some b) {c : Block β} (less : c.count < b.count) :
    weight (put h a c) < weight h := by
  have sum := sum_map_put (f := fun slot : Option (Block β) => slot.elim 0 (·.count + 1)) rfl h a c
  rw [found] at sum
  simp only [Option.elim_some] at sum
  unfold weight
  omega

/-- Release references.  A block without one goes, and the references in it are released. -/
def releaseAll (h : Heap β) (work : List Nat) : Heap β :=
  match work with
  | [] => h
  | a :: work =>
    match _found : at? h a with
    | none => releaseAll h work
    | some b =>
      if _last : b.count ≤ 1 then releaseAll (release h a) (kids b.body ++ work)
      else releaseAll (put h a { b with count := b.count - 1 }) work
termination_by (weight h, work.length)
decreasing_by
  · exact Prod.Lex.right _ (Nat.lt_succ_self _)
  · exact Prod.Lex.left _ _ (weight_release_lt _found)
  · exact Prod.Lex.left _ _ (weight_put_lt _found (Nat.sub_lt (by omega) Nat.one_pos))

/-- Change a block through one reference to it, by which the reference is consumed: in place where
it is the only one, else in a copy.  The new block also refers to what is added. -/
def cow (h : Heap β) (a : Nat) (body : β) (added : List Nat) : Nat × Heap β :=
  if countAt h a = 1 then (a, write (retainAll h added) a body)
  else
    let copied := retainAll h (kids body)
    (free copied, releaseAll kids (alloc copied body) [a])

/-- The block that a path of references from `a` leads to. -/
def follow (h : Heap β) (a : Nat) : List Nat → Option Nat
  | [] => some a
  | i :: path => (body? h a).bind fun body => (kids body)[i]?.bind fun a => follow h a path

/-- What is read at the end of a path. -/
def read (h : Heap β) (a : Nat) (path : List Nat) : Option β := (follow kids h a path).bind (body? h)

/-- Every count is that of the references from the roots and from blocks. -/
structure Counted (h : Heap β) (roots : List Nat) : Prop where
  count : ∀ a, countAt h a = roots.count a + (edges kids h).count a
  live : ∀ a b, at? h a = some b → 0 < b.count

theorem body?_eq_some_iff : body? h a = some body ↔ ∃ b, at? h a = some b ∧ b.body = body :=
  Option.map_eq_some_iff

theorem countAt_of_at? (found : at? h a = some b) : countAt h a = b.count := by
  rw [countAt, found, Option.elim_some]

theorem countAt_eq_zero (absent : at? h a = none) : countAt h a = 0 := by
  rw [countAt, absent, Option.elim_none]

/-! ### References in a changed heap -/

theorem count_edges (h : Heap β) (x : Nat) :
    (edges kids h).count x = (h.map fun slot => (held kids slot).count x).sum := by
  rw [edges, List.count_flatMap]
  rfl

theorem count_edges_put (h : Heap β) (a : Nat) (b : Block β) (x : Nat) :
    (edges kids (put h a b)).count x + (held kids (at? h a)).count x =
      (edges kids h).count x + (kids b.body).count x := by
  rw [count_edges, count_edges]
  exact sum_map_put (f := fun slot => (held kids slot).count x) rfl h a b

theorem count_edges_release (h : Heap β) (a x : Nat) :
    (edges kids (release h a)).count x + (held kids (at? h a)).count x = (edges kids h).count x := by
  rw [count_edges, count_edges]
  exact sum_map_release (fun slot => (held kids slot).count x) h a

theorem at?_modify (h : Heap β) (a : Nat) (f : Block β → Block β) (x : Nat) :
    at? (modify h a f) x = if x = a then (at? h a).map f else at? h x := by
  unfold modify
  cases found : at? h a with
  | none =>
    by_cases same : x = a
    · rw [if_pos same, same, found]
      rfl
    · rw [if_neg same]
  | some b =>
    simp only [Option.map_some]
    exact at?_put h (Nat.le_of_lt (lt_of_at?_eq_some found)) (f b) x

theorem count_edges_modify (found : at? h a = some b) (f : Block β → Block β) (x : Nat) :
    (edges kids (modify h a f)).count x + (kids b.body).count x =
      (edges kids h).count x + (kids (f b).body).count x := by
  have sum := count_edges_put kids h a (f b) x
  unfold modify
  rw [found] at sum ⊢
  exact sum

variable {kids}

theorem mem_edges (found : at? h a = some b) (mem : x ∈ kids b.body) : x ∈ edges kids h := by
  unfold at? at found
  rw [Option.join_eq_some_iff] at found
  exact List.mem_flatMap.mpr ⟨some b, List.mem_of_getElem? found, mem⟩

/-! ### Right counts -/

theorem Counted.found (counted : Counted kids h roots) (mem : a ∈ roots ++ edges kids h) :
    ∃ b, at? h a = some b := by
  have positive : 0 < (roots ++ edges kids h).count a := List.count_pos_iff.mpr mem
  rw [List.count_append, ← counted.count] at positive
  cases found : at? h a with
  | none =>
    rw [countAt_eq_zero found] at positive
    omega
  | some b => exact ⟨b, rfl⟩

theorem Counted.perm (counted : Counted kids h roots) (perm : roots.Perm work) :
    Counted kids h work :=
  ⟨fun a => by rw [counted.count, perm.count_eq], counted.live⟩

/-- A block changes, and the counts are right for other roots. -/
theorem Counted.modify (counted : Counted kids h work) (found : at? h a = some b)
    {f : Block β → Block β} (live : 0 < (f b).count)
    (moved : ∀ x, (if x = a then (f b).count else countAt h x) + work.count x + (kids b.body).count x =
      countAt h x + roots.count x + (kids (f b).body).count x) :
    Counted kids (modify h a f) roots := by
  constructor
  · intro x
    have edges := count_edges_modify kids found f x
    have before := counted.count x
    have after : countAt (RefHeap.modify h a f) x = if x = a then (f b).count else countAt h x := by
      rw [countAt, at?_modify]
      split
      · rw [found]
        rfl
      · rfl
    have := moved x
    omega
  · intro x c at_x
    rw [at?_modify] at at_x
    split at at_x
    · rw [found, Option.map_some, Option.some.injEq] at at_x
      subst at_x
      exact live
    · exact counted.live x c at_x

theorem Counted.retain (counted : Counted kids h roots) (found : at? h a = some b) :
    Counted kids (retain h a) (a :: roots) := by
  apply counted.modify found (Nat.succ_pos _)
  intro x
  dsimp only
  rw [List.count_cons]
  by_cases same : x = a
  · subst same
    rw [if_pos rfl, countAt_of_at? found, if_pos (beq_self_eq_true x)]
    omega
  · rw [if_neg same, if_neg (by simpa using Ne.symm same)]
    omega

theorem Counted.write (counted : Counted kids h (added ++ roots)) (found : at? h a = some b)
    (perm : (kids body).Perm (added ++ kids b.body)) : Counted kids (write h a body) roots := by
  apply counted.modify found (counted.live a b found)
  intro x
  dsimp only
  rw [List.count_append, perm.count_eq, List.count_append]
  by_cases same : x = a
  · subst same
    rw [if_pos rfl, countAt_of_at? found]
    omega
  · rw [if_neg same]
    omega

theorem Counted.alloc (counted : Counted kids h (kids body ++ roots)) :
    Counted kids (alloc h body) (free h :: roots) := by
  unfold RefHeap.alloc
  constructor
  · intro x
    have edges := count_edges_put kids h (free h) ⟨1, body⟩ x
    have before := counted.count x
    rw [List.count_append] at before
    rw [at?_free] at edges
    rw [List.count_cons, countAt, at?_register]
    show _ = _ + (RefHeap.edges kids (put h (free h) ⟨1, body⟩)).count x
    by_cases same : x = free h
    · subst same
      rw [countAt_eq_zero (at?_free h)] at before
      simp [held] at edges ⊢
      omega
    · rw [if_neg same, if_neg (by simpa using Ne.symm same), ← countAt]
      simp [held] at edges
      omega
  · intro x c at_x
    rw [at?_register] at at_x
    split at at_x
    · rw [Option.some.injEq] at at_x
      subst at_x
      exact Nat.one_pos
    · exact counted.live x c at_x

theorem at?_releaseAll {c : Block β} (left : at? (releaseAll kids h work) x = some c) :
    ∃ b, at? h x = some b ∧ b.body = c.body := by
  fun_induction releaseAll kids h work with
  | case1 => exact ⟨c, left, rfl⟩
  | case2 h a work absent ih => exact ih left
  | case3 h a work b found last ih =>
    obtain ⟨b', at_x, body⟩ := ih left
    exact ⟨b', at?_release_eq_some at_x, body⟩
  | case4 h a work b found last ih =>
    obtain ⟨b', at_x, body⟩ := ih left
    rw [at?_put h (Nat.le_of_lt (lt_of_at?_eq_some found))] at at_x
    split at at_x
    · rename_i same
      rw [Option.some.injEq] at at_x
      exact ⟨b, same ▸ found, by rw [← body, ← at_x]⟩
    · exact ⟨b', at_x, body⟩

theorem Counted.releaseAll (counted : Counted kids h (work ++ roots)) :
    Counted kids (releaseAll kids h work) roots := by
  fun_induction RefHeap.releaseAll kids h work with
  | case1 => exact counted
  | case2 h a work absent ih =>
    obtain ⟨b, found⟩ := counted.found (a := a) (by simp)
    rw [absent] at found
    cases found
  | case3 h a work b found last ih =>
    apply ih
    constructor
    · intro x
      have edges := count_edges_release kids h a x
      have before := counted.count x
      rw [found] at edges
      rw [countAt, at?_release]
      simp only [held, Option.elim_some, List.count_append, List.count_cons, List.cons_append]
        at edges before ⊢
      by_cases same : x = a
      · subst same
        rw [countAt_of_at? found, if_pos (beq_self_eq_true x)] at before
        rw [if_pos rfl, Option.elim_none]
        omega
      · rw [if_neg (by simpa using Ne.symm same)] at before
        rw [if_neg same, ← countAt]
        omega
    · intro x c at_x
      exact counted.live x c (at?_release_eq_some at_x)
  | case4 h a work b found last ih =>
    apply ih
    have modify : put h a { b with count := b.count - 1 } =
        RefHeap.modify h a fun b => { b with count := b.count - 1 } := by
      unfold RefHeap.modify
      rw [found]
    rw [modify]
    apply counted.modify found
    · show 0 < b.count - 1
      omega
    · intro x
      dsimp only
      rw [List.cons_append, List.count_cons]
      by_cases same : x = a
      · subst same
        rw [if_pos rfl, countAt_of_at? found, if_pos (beq_self_eq_true x)]
        omega
      · rw [if_neg same, if_neg (by simpa using Ne.symm same)]
        omega

theorem body?_modify (h : Heap β) (a : Nat) {f : Block β → Block β} (same : ∀ b, (f b).body = b.body)
    (x : Nat) : body? (modify h a f) x = body? h x := by
  unfold body?
  rw [at?_modify]
  split
  · rename_i eq
    rw [eq, Option.map_map]
    exact congrArg (Option.map · _) (funext same)
  · rfl

theorem body?_retainAll (h : Heap β) (as : List Nat) (x : Nat) :
    body? (retainAll h as) x = body? h x := by
  induction as generalizing h with
  | nil => rfl
  | cons a as ih =>
    apply (ih (retain h a)).trans
    apply body?_modify
    intro b
    rfl

theorem Counted.retainAll {as : List Nat} (counted : Counted kids h roots)
    (found : ∀ a ∈ as, a ∈ roots ++ edges kids h) : Counted kids (retainAll h as) (as ++ roots) := by
  induction as generalizing h roots with
  | nil => exact counted
  | cons a as ih =>
    obtain ⟨b, at_a⟩ := counted.found (found a List.mem_cons_self)
    have taken := counted.retain at_a
    apply (ih taken _).perm List.perm_middle
    intro x mem
    rcases List.mem_append.mp (found x (List.mem_cons_of_mem a mem)) with root | edge
    · exact List.mem_append_left _ (List.mem_cons_of_mem a root)
    · have edges := count_edges_modify kids at_a (fun b => { b with count := b.count + 1 }) x
      have positive := List.count_pos_iff.mpr edge
      apply List.mem_append_right
      apply List.count_pos_iff.mp
      show 0 < (RefHeap.edges kids (RefHeap.modify h a _)).count x
      dsimp only at edges
      omega

/-! ### Frames -/

/-- Paths from a root lead on where every block that is referred to keeps its body. -/
theorem follow_frame {h' : Heap β} (roots : List Nat) (same : ∀ x ∈ roots ++ edges kids h, body? h' x = body? h x)
    (mem : a ∈ roots ++ edges kids h) (path : List Nat) :
    follow kids h' a path = follow kids h a path ∧
      ∀ x, follow kids h a path = some x → x ∈ roots ++ edges kids h := by
  induction path generalizing a with
  | nil =>
    refine ⟨rfl, fun x here => ?_⟩
    rw [follow, Option.some.injEq] at here
    exact here ▸ mem
  | cons i path ih =>
    unfold follow
    rw [same a mem]
    cases here : body? h a with
    | none => exact ⟨rfl, fun x next => nomatch next⟩
    | some body =>
      rw [Option.bind_some, Option.bind_some]
      cases next : (kids body)[i]? with
      | none => exact ⟨rfl, fun x next => nomatch next⟩
      | some k =>
        obtain ⟨b, at_a, rfl⟩ := body?_eq_some_iff.mp here
        exact ih (List.mem_append_right _ (mem_edges at_a (List.mem_of_getElem? next)))

theorem read_frame {h' : Heap β} (roots : List Nat) (same : ∀ x ∈ roots ++ edges kids h, body? h' x = body? h x)
    (mem : a ∈ roots ++ edges kids h) (path : List Nat) : read kids h' a path = read kids h a path := by
  obtain ⟨follows, within⟩ := follow_frame roots same mem path
  unfold read
  rw [follows]
  cases here : follow kids h a path with
  | none => rfl
  | some x => exact same x (within x here)

theorem read_retainAll (h : Heap β) (as : List Nat) (a : Nat) (path : List Nat) :
    read kids (retainAll h as) a path = read kids h a path :=
  read_frame [a] (fun x _ => body?_retainAll h as x) (by simp) path

theorem read_alloc (counted : Counted kids h roots) (mem : a ∈ roots) (path : List Nat) :
    read kids (alloc h body) a path = read kids h a path := by
  apply read_frame roots _ (List.mem_append_left _ mem)
  intro y referred
  unfold body? alloc
  rw [at?_register, if_neg]
  rintro rfl
  obtain ⟨b, found⟩ := counted.found referred
  rw [at?_free] at found
  cases found

theorem body?_releaseAll (counted : Counted kids h (work ++ roots))
    (mem : x ∈ roots ++ edges kids (releaseAll kids h work)) :
    body? (releaseAll kids h work) x = body? h x := by
  obtain ⟨c, found⟩ := counted.releaseAll.found mem
  obtain ⟨b, before, same⟩ := at?_releaseAll found
  unfold body?
  rw [found, before, Option.map_some, Option.map_some, same]

theorem read_releaseAll (counted : Counted kids h (work ++ roots)) (mem : a ∈ roots)
    (path : List Nat) : read kids (releaseAll kids h work) a path = read kids h a path := by
  symm
  apply read_frame roots _ (List.mem_append_left _ mem)
  intro x referred
  exact (body?_releaseAll counted referred).symm

theorem body?_write (found : at? h a = some b) (body : β) (x : Nat) :
    body? (write h a body) x = if x = a then some body else body? h x := by
  unfold body? write
  rw [at?_modify, found]
  split <;> rfl

theorem follow_write (found : at? h a = some b) (same : kids body = kids b.body) (x : Nat)
    (path : List Nat) : follow kids (write h a body) x path = follow kids h x path := by
  induction path generalizing x with
  | nil => rfl
  | cons i path ih =>
    have kept : ((body? (write h a body) x).bind fun body => (kids body)[i]?) =
        (body? h x).bind fun body => (kids body)[i]? := by
      rw [body?_write found]
      by_cases here : x = a
      · rw [if_pos here, here, body?, found, Option.map_some, Option.bind_some, Option.bind_some, same]
      · rw [if_neg here]
    unfold follow
    rw [← Option.bind_assoc, ← Option.bind_assoc, kept]
    congr
    funext k
    exact ih k

theorem body?_alloc (h : Heap β) (body : β) : body? (alloc h body) (free h) = some body := by
  unfold body? alloc
  rw [at?_register, if_pos rfl]
  rfl

theorem Counted.alone (counted : Counted kids h (a :: roots)) (one : countAt h a = 1) :
    a ∉ roots ++ edges kids h := by
  rw [← List.count_eq_zero, List.count_append]
  have := counted.count a
  rw [List.count_cons, if_pos (beq_self_eq_true a)] at this
  omega

/-- A block changed through a reference to it is seen by that reference only. -/
theorem Counted.cow (counted : Counted kids h (a :: roots)) (found : at? h a = some b)
    (perm : (kids body).Perm (added ++ kids b.body)) (known : ∀ x ∈ added, x ∈ roots) :
    Counted kids (cow kids h a body added).2 ((cow kids h a body added).1 :: roots) ∧
      body? (cow kids h a body added).2 (cow kids h a body added).1 = some body ∧
      ∀ x ∈ roots, ∀ path, read kids (cow kids h a body added).2 x path = read kids h x path := by
  unfold RefHeap.cow
  by_cases one : countAt h a = 1
  · rw [if_pos one]
    have taken : Counted kids (RefHeap.retainAll h added) (added ++ a :: roots) := by
      apply counted.retainAll
      intro x mem
      exact List.mem_append_left _ (List.mem_cons_of_mem a (known x mem))
    obtain ⟨b', found'⟩ := taken.found (a := a) (by simp)
    have body' : b'.body = b.body := by
      have same := body?_retainAll h added a
      unfold body? at same
      rw [found', found] at same
      exact Option.some.inj same
    refine ⟨taken.write found' (body' ▸ perm), ?_, fun x mem path => ?_⟩
    · rw [body?_write found', if_pos rfl]
    · apply read_frame roots _ (List.mem_append_left _ mem)
      intro y referred
      rw [body?_write found', if_neg, body?_retainAll]
      rintro rfl
      exact counted.alone one referred
  · rw [if_neg one]
    have copied : Counted kids (RefHeap.retainAll h (kids body)) (kids body ++ a :: roots) := by
      apply counted.retainAll
      intro x mem
      rcases List.mem_append.mp (perm.subset mem) with new | old
      · exact List.mem_append_left _ (List.mem_cons_of_mem a (known x new))
      · exact List.mem_append_right _ (mem_edges found old)
    have made := copied.alloc.perm (List.Perm.swap a (free (RefHeap.retainAll h (kids body))) roots)
    have kept : Counted kids (RefHeap.alloc (RefHeap.retainAll h (kids body)) body)
        ([a] ++ free (RefHeap.retainAll h (kids body)) :: roots) := made
    refine ⟨kept.releaseAll, ?_, fun x mem path => ?_⟩
    · exact (body?_releaseAll kept (by simp)).trans (body?_alloc _ body)
    · rw [read_releaseAll kept (List.mem_cons_of_mem _ mem)]
      rw [read_alloc copied (List.mem_append_right _ (List.mem_cons_of_mem a mem))]
      exact read_retainAll h (kids body) x path

theorem releaseAll_shared (found : at? h a = some b) (shared : 1 < b.count) :
    releaseAll kids h [a] = put h a { b with count := b.count - 1 } := by
  rw [releaseAll]
  split
  · next absent =>
    rw [found] at absent
    cases absent
  · next c at_a =>
    obtain rfl := Option.some.inj (found.symm.trans at_a)
    rw [dif_neg (by omega), releaseAll]

theorem read_cons (found : body? h a = some body) {i : Nat} (kid : (kids body)[i]? = some x)
    (path : List Nat) : read kids h a (i :: path) = read kids h x path := by
  unfold read
  rw [follow, found, Option.bind_some, kid, Option.bind_some]

theorem read_left (counted : Counted kids h (work ++ roots))
    (mem : x ∈ roots ++ edges kids (releaseAll kids h work)) (path : List Nat) :
    read kids (releaseAll kids h work) x path = read kids h x path := by
  symm
  apply read_frame roots _ mem
  intro y referred
  exact (body?_releaseAll counted referred).symm

/-- What the block referred to before reads the same from the changed one. -/
theorem Counted.read_cow (counted : Counted kids h (a :: roots)) (found : at? h a = some b)
    (perm : (kids body).Perm (added ++ kids b.body)) (known : ∀ x ∈ added, x ∈ roots)
    (kid : x ∈ kids b.body) (path : List Nat) :
    read kids (RefHeap.cow kids h a body added).2 x path = read kids h x path := by
  obtain ⟨_, new, _⟩ := counted.cow found perm known
  unfold RefHeap.cow at new ⊢
  by_cases one : countAt h a = 1
  · rw [if_pos one] at new ⊢
    apply read_frame roots _ (List.mem_append_right _ (mem_edges found kid))
    intro y referred
    obtain ⟨b', found', _⟩ := body?_eq_some_iff.mp
      ((body?_retainAll h added a).trans (body?_eq_some_iff.mpr ⟨b, found, rfl⟩))
    rw [body?_write found', if_neg, body?_retainAll]
    rintro rfl
    exact counted.alone one referred
  · rw [if_neg one] at new ⊢
    have mine : x ∈ kids body := perm.symm.subset (List.mem_append_right _ kid)
    have copied : Counted kids (RefHeap.retainAll h (kids body)) (kids body ++ a :: roots) := by
      apply counted.retainAll
      intro y mem
      rcases List.mem_append.mp (perm.subset mem) with new | old
      · exact List.mem_append_left _ (List.mem_cons_of_mem a (known y new))
      · exact List.mem_append_right _ (mem_edges found old)
    have kept : Counted kids (RefHeap.alloc (RefHeap.retainAll h (kids body)) body)
        ([a] ++ free (RefHeap.retainAll h (kids body)) :: roots) :=
      copied.alloc.perm (List.Perm.swap a (free (RefHeap.retainAll h (kids body))) roots)
    obtain ⟨c, at_c, rfl⟩ := body?_eq_some_iff.mp new
    rw [read_left kept (List.mem_append_right _ (mem_edges at_c mine)),
      read_alloc copied (List.mem_append_left _ mine)]
    exact read_retainAll h _ x path

end RefHeap
