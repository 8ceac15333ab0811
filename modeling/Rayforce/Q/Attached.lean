import Mathlib.Data.List.Nodup
import Mathlib.Data.List.Perm.Subperm
import Rayforce.Q.Identity
import Rayforce.Q.Socket

/-! The table of claims (`q.rs`, `ATTACHED`) against the history of attaches and drops: an entry is the
claim of the newest attach on its selector, as long as that attach's subscription stands. -/

namespace Rayforce.Q

open Slots Transition

/-- A thread's scopes, one after another.  The claims, the counter and what was never dropped outlive a
scope, and its loop does not. -/
structure Scopes where
  machine : Machine
  /-- How many attaches were made in earlier scopes. -/
  past : Nat

inductive ScopesEvent
  | within (e : SocketEvent)
  | enter
  | dropLate (j : Nat)

/-- The subscription that an event drops. -/
def ScopesEvent.drops : ScopesEvent → Option Nat
  | .within (.dropSub j) | .dropLate j => some j
  | _ => none

inductive ScopesStep : Scopes → ScopesEvent → Scopes → Prop
  /-- A subscription of an earlier scope may find the loop of this one where its own was. -/
  | within {p : Scopes} {e : SocketEvent} {m : Machine} :
      p.machine.next e = some m → ScopesStep p (.within e) { p with machine := m }
  | enter {p : Scopes} : p.machine.destroyed = true →
      ScopesStep p .enter ⟨{ p.machine with destroyed := false }, p.machine.loop.subs.length⟩
  /-- A subscription whose loop is gone gives up its claim, whatever it takes to be there. -/
  | dropLate {p : Scopes} {j : Nat} {sub : Subscription} :
      p.machine.attaching = none → j < p.past ∨ p.machine.destroyed = true →
      p.machine.loop.sub? j = some sub →
      ScopesStep p (.dropLate j)
        { p with
          machine := { p.machine with
            loop := { p.machine.loop.releaseSelector sub.id sub.token with
              subs := p.machine.loop.subs.set j { sub with dropped := true } } } }

variable {s t : State} {m m' : Machine} {e : SocketEvent} {p q : Scopes} {x : ScopesEvent}
  {xs : List ScopesEvent} {sub other : Subscription} {i j k id token : Nat}

/-- The `j`th attach made the subscription, and no later one was on its selector. -/
structure Newest (s : State) (id j : Nat) (sub : Subscription) : Prop where
  at_j : s.subs[j]? = some sub
  slot : sub.id = id
  last : ∀ k other, j < k → s.subs[k]? = some other → other.id ≠ id

/-- The subscriptions that have not been dropped. -/
def State.undropped (s : State) : List Subscription := s.subs.filter (!·.dropped)

structure Tracked (s : State) : Prop where
  newest : ∀ id token, s.attached id = some token ↔
    ∃ j sub, Newest s id j sub ∧ sub.token = token ∧ sub.dropped = false
  distinct : ∀ (j k : Nat) (sub other : Subscription), s.subs[j]? = some sub → s.subs[k]? = some other →
    sub.token = other.token → j = k
  bounded : ∀ ids : List Nat, ids.Nodup → (∀ id ∈ ids, s.attached id ≠ none) →
    ids.length ≤ s.undropped.length
  empty : s.undropped = [] → ∀ id, s.attached id = none

/-! ### What an event does to the claims -/

inductive Change (s t : State) : Prop
  | same : t.attached = s.attached → t.nextToken = s.nextToken → t.subs = s.subs → Change s t
  | claim (id own : Nat) (data : Address) :
      t.attached = Function.update s.attached id (some s.nextToken) →
      t.nextToken = (s.nextToken + 1) % 2 ^ 64 →
      t.subs = s.subs ++ [⟨id, data, s.nextToken, own, false⟩] → Change s t
  | drop (j : Nat) (sub : Subscription) :
      s.sub? j = some sub → t.attached = (s.releaseSelector sub.id sub.token).attached →
      t.nextToken = s.nextToken → t.subs = s.subs.set j { sub with dropped := true } → Change s t

theorem change_resolve (m : Machine) (id own : Nat) : Change m.loop (m.resolve id own).2.loop := by
  unfold Machine.resolve
  dsimp only
  cases m.loop.selectorData id with
  | none => exact .same rfl rfl rfl
  | some data => exact .claim id own data rfl rfl rfl

theorem attached_releaseSelector (s : State) (id token i : Nat) :
    (s.releaseSelector id token).attached i =
      if i = id ∧ s.attached id = some token then none else s.attached i := by
  unfold State.releaseSelector
  by_cases held : s.attached id = some token
  · rw [if_pos (beq_iff_eq.mpr held)]
    by_cases same : i = id
    · subst same
      rw [if_pos ⟨rfl, held⟩]
      exact Function.update_self ..
    · rw [if_neg fun both => same both.1]
      exact Function.update_of_ne same ..
  · rw [if_neg (by simpa using held), if_neg fun both => held both.2]

theorem attached_drop (s : State) (sub : Subscription) :
    (s.drop sub).attached = (s.releaseSelector sub.id sub.token).attached := by
  funext i
  unfold State.drop
  dsimp only
  split
  · rw [attached_releaseSelector, attached_releaseSelector]
    rfl
  · rfl

theorem change_drop (found : s.sub? j = some sub) :
    Change s { s.drop sub with subs := (s.drop sub).subs.set j { sub with dropped := true } } := by
  refine .drop j sub found (attached_drop s sub) ?_ ?_
  · unfold State.drop
    dsimp only
    split <;> simp [State.act]
  · unfold State.drop
    dsimp only
    split <;> simp [State.act]

theorem dropSub_step (step : m.next (.dropSub j) = some m') : ∃ sub, m.loop.sub? j = some sub ∧
    m'.loop = { m.loop.drop sub with
      subs := (m.loop.drop sub).subs.set j { sub with dropped := true } } := by
  simp only [Machine.next, Option.ite_none_left_eq_some, Option.map_eq_some_iff] at step
  obtain ⟨-, sub, found, rfl⟩ := step
  refine ⟨sub, found, ?_⟩
  rw [dropSub_loop]

theorem change_next (step : m.next e = some m') : Change m.loop m'.loop := by
  unfold Machine.next at step
  split at step
  · cases step
  · cases e with
    | connect host user password port fd =>
      cases step
      rcases connectWith_cases m host user password port fd with same | made
      · rw [same]
        exact .same rfl rfl rfl
      · rw [made]
        exact .same rfl rfl rfl
    | dropHandle i =>
      obtain ⟨fd, -, rfl⟩ := Option.map_eq_some_iff.mp step
      exact .same rfl rfl rfl
    | attach i answer =>
      simp only [Option.ite_none_left_eq_some, Option.map_eq_some_iff] at step
      obtain ⟨-, fd, -, rfl⟩ := step
      cases answer with
      | none => exact .same rfl rfl rfl
      | some data => exact .same rfl rfl rfl
    | resolve =>
      obtain ⟨⟨id, own⟩, -, rfl⟩ := Option.map_eq_some_iff.mp step
      exact change_resolve m id own
    | register data =>
      simp only [Option.ite_none_left_eq_some, Option.some.injEq] at step
      obtain ⟨-, rfl⟩ := step
      exact .same rfl rfl rfl
    | disconnect id =>
      simp only [Option.ite_none_right_eq_some, Option.some.injEq] at step
      obtain ⟨-, rfl⟩ := step
      exact .same rfl rfl rfl
    | send j =>
      obtain ⟨sub, -, rfl⟩ := Option.map_eq_some_iff.mp step
      unfold State.send
      cases m.loop.isAlive sub with
      | true => exact .same rfl rfl rfl
      | false => exact .same rfl rfl rfl
    | dropSub j =>
      obtain ⟨sub, found, rfl⟩ := Option.map_eq_some_iff.mp step
      dsimp only
      rw [dropSub_loop]
      exact change_drop found
    | destroy =>
      cases step
      exact .same rfl rfl rfl

theorem change_step (step : ScopesStep p x q) : Change p.machine.loop q.machine.loop := by
  cases step with
  | within next => exact change_next next
  | enter gone => exact .same rfl rfl rfl
  | @dropLate j sub _ _ found => exact .drop j sub found rfl (releaseSelector_nextToken ..) rfl

/-- Wherever it is dropped, a subscription does no more to the claims than to release its own. -/
theorem attached_of_drops (step : ScopesStep p x q) (drops : x.drops = some j) :
    ∃ sub, p.machine.loop.sub? j = some sub ∧
      q.machine.loop.attached = (p.machine.loop.releaseSelector sub.id sub.token).attached := by
  cases step with
  | @within e m next =>
    cases e with
    | dropSub i =>
      cases drops
      obtain ⟨sub, found, loop⟩ := dropSub_step next
      refine ⟨sub, found, ?_⟩
      rw [loop]
      exact attached_drop p.machine.loop sub
    | _ => cases drops
  | enter gone => cases drops
  | @dropLate i sub _ _ found =>
    cases drops
    exact ⟨sub, found, rfl⟩

/-! ### Tokens -/

/-- Every attach was given the count of those before it, as far as 64 bits go. -/
structure Tokens (s : State) : Prop where
  next : s.nextToken = (s.subs.length + 1) % 2 ^ 64
  each : ∀ j sub, s.subs[j]? = some sub → sub.token = (j + 1) % 2 ^ 64

theorem Tokens.distinct (h : Tokens s) (few : s.subs.length < 2 ^ 64) (at_j : s.subs[j]? = some sub)
    (at_k : s.subs[k]? = some other) (same : sub.token = other.token) : j = k := by
  have lt := (List.getElem?_eq_some_iff.mp at_j).1
  have lt' := (List.getElem?_eq_some_iff.mp at_k).1
  rw [h.each j sub at_j, h.each k other at_k] at same
  omega

theorem getElem?_dropped (found : s.sub? j = some sub)
    (at_k : (s.subs.set j { sub with dropped := true })[k]? = some other) :
    (k = j ∧ other = { sub with dropped := true }) ∨ (k ≠ j ∧ s.subs[k]? = some other) := by
  by_cases same : j = k
  · subst same
    have lt := (List.getElem?_eq_some_iff.mp (Option.filter_eq_some_iff.mp found).1).1
    rw [List.getElem?_set_self lt] at at_k
    exact .inl ⟨rfl, (Option.some.inj at_k).symm⟩
  · rw [List.getElem?_set_ne same] at at_k
    exact .inr ⟨Ne.symm same, at_k⟩

theorem Tokens.change (h : Tokens s) (change : Change s t) : Tokens t := by
  cases change with
  | same attached next subs => exact ⟨by rw [next, subs, h.next], by rw [subs]; exact h.each⟩
  | claim id own data attached next subs =>
    constructor
    · rw [next, subs, h.next, List.length_append, List.length_singleton, Nat.mod_add_mod]
    · intro j sub found
      rw [subs] at found
      by_cases lt : j < s.subs.length
      · rw [List.getElem?_append_left lt] at found
        exact h.each j sub found
      · rw [List.getElem?_append_right (Nat.not_lt.mp lt), List.getElem?_singleton] at found
        split at found
        · next last =>
          cases found
          have eq : j = s.subs.length := by omega
          rw [eq]
          exact h.next
        · cases found
  | drop j sub found attached next subs =>
    constructor
    · rw [next, subs, List.length_set, h.next]
    · intro k other at_k
      rw [subs] at at_k
      rcases getElem?_dropped found at_k with ⟨rfl, rfl⟩ | ⟨-, before⟩
      · exact h.each k sub (Option.filter_eq_some_iff.mp found).1
      · exact h.each k other before

/-! ### Entries -/

/-- An entry is the claim of the newest attach, undropped. -/
def Entries (s : State) : Prop :=
  ∀ id token, s.attached id = some token ↔
    ∃ j sub, Newest s id j sub ∧ sub.token = token ∧ sub.dropped = false

theorem Newest.unique (h : Newest s id j sub) (h' : Newest s id k other) : j = k := by
  rcases Nat.lt_trichotomy j k with before | same | after
  · exact absurd h'.slot (h.last k other before h'.at_j)
  · exact same
  · exact absurd h.slot (h'.last j sub after h.at_j)

theorem newest_append {new : Subscription} (subs : t.subs = s.subs ++ [new]) :
    Newest t id j sub ↔
      if new.id = id then j = s.subs.length ∧ sub = new else Newest s id j sub := by
  have last : t.subs[s.subs.length]? = some new := by rw [subs, List.getElem?_concat_length]
  have before {k : Nat} (lt : k < s.subs.length) : t.subs[k]? = s.subs[k]? := by
    rw [subs, List.getElem?_append_left lt]
  have below {k : Nat} {other : Subscription} (at_k : t.subs[k]? = some other) :
      k < s.subs.length ∨ k = s.subs.length := by
    have lt := (List.getElem?_eq_some_iff.mp at_k).1
    rw [subs, List.length_append, List.length_singleton] at lt
    omega
  split
  · next slot =>
    constructor
    · intro newest
      rcases below newest.at_j with lt | rfl
      · exact absurd slot (newest.last _ new lt last)
      · exact ⟨rfl, Option.some.inj (newest.at_j.symm.trans last)⟩
    · rintro ⟨rfl, rfl⟩
      refine ⟨last, slot, fun k other after at_k => ?_⟩
      rcases below at_k with lt | same
      · omega
      · omega
  · next slot =>
    constructor
    · intro newest
      rcases below newest.at_j with lt | rfl
      · refine ⟨(before lt).symm.trans newest.at_j, newest.slot, fun k other after at_k => ?_⟩
        have lt' := (List.getElem?_eq_some_iff.mp at_k).1
        exact newest.last k other after ((before lt').trans at_k)
      · cases newest.at_j.symm.trans last
        exact absurd newest.slot slot
    · intro newest
      have lt := (List.getElem?_eq_some_iff.mp newest.at_j).1
      refine ⟨(before lt).trans newest.at_j, newest.slot, fun k other after at_k => ?_⟩
      rcases below at_k with lt' | rfl
      · exact newest.last k other after ((before lt').symm.trans at_k)
      · cases at_k.symm.trans last
        exact slot

/-- A drop changes no selector, so that the newest attach on each stays where it was. -/
theorem newest_dropped (found : s.sub? j = some sub)
    (subs : t.subs = s.subs.set j { sub with dropped := true }) :
    Newest t id k other ↔ ∃ before, Newest s id k before ∧
      other = if k = j then { before with dropped := true } else before := by
  have at_j := (Option.filter_eq_some_iff.mp found).1
  have lt := (List.getElem?_eq_some_iff.mp at_j).1
  have self : t.subs[j]? = some { sub with dropped := true } := by
    rw [subs, List.getElem?_set_self lt]
  have others {k : Nat} (ne : k ≠ j) : t.subs[k]? = s.subs[k]? := by
    rw [subs, List.getElem?_set_ne (Ne.symm ne)]
  have same : (∀ l x, k < l → t.subs[l]? = some x → x.id ≠ id) ↔
      ∀ l x, k < l → s.subs[l]? = some x → x.id ≠ id := by
    constructor
    · intro last l x after at_l
      by_cases eq : l = j
      · subst eq
        cases at_j.symm.trans at_l
        exact last l { sub with dropped := true } after self
      · exact last l x after ((others eq).trans at_l)
    · intro last l x after at_l
      by_cases eq : l = j
      · subst eq
        obtain rfl := Option.some.inj (self.symm.trans at_l)
        exact last l sub after at_j
      · exact last l x after ((others eq).symm.trans at_l)
  by_cases eq : k = j
  · subst eq
    simp only [if_true]
    constructor
    · intro newest
      cases self.symm.trans newest.at_j
      exact ⟨sub, ⟨at_j, newest.slot, same.mp newest.last⟩, rfl⟩
    · rintro ⟨before, newest, rfl⟩
      cases at_j.symm.trans newest.at_j
      exact ⟨self, newest.slot, same.mpr newest.last⟩
  · simp only [if_neg eq]
    constructor
    · intro newest
      exact ⟨other, ⟨(others eq).symm.trans newest.at_j, newest.slot, same.mp newest.last⟩, rfl⟩
    · rintro ⟨before, newest, rfl⟩
      exact ⟨(others eq).trans newest.at_j, newest.slot, same.mpr newest.last⟩

theorem Entries.drop (h : Entries s) (tokens : Tokens s) (few : s.subs.length < 2 ^ 64)
    (found : s.sub? j = some sub) (attached : t.attached = (s.releaseSelector sub.id sub.token).attached)
    (subs : t.subs = s.subs.set j { sub with dropped := true }) : Entries t := by
  intro i token
  obtain ⟨at_j, live⟩ := Option.filter_eq_some_iff.mp found
  have live : sub.dropped = false := by simpa using live
  simp only [newest_dropped found subs]
  rw [attached, attached_releaseSelector]
  by_cases own : Newest s i j sub
  · -- the entry was this one's, and is given up with it
    have held := (h i sub.token).mpr ⟨j, sub, own, rfl, live⟩
    obtain rfl := own.slot
    rw [if_pos ⟨rfl, held⟩]
    refine iff_of_false nofun ?_
    rintro ⟨k, x, ⟨before, newest, rfl⟩, -, undropped⟩
    obtain rfl := newest.unique own
    rw [if_pos rfl] at undropped
    cases undropped
  · -- a later attach has the selector, or none of its own: its token is another one
    have apart {k : Nat} {other : Subscription} (newest : Newest s i k other) : k ≠ j := by
      rintro rfl
      cases at_j.symm.trans newest.at_j
      exact own newest
    have stays : ¬(i = sub.id ∧ s.attached sub.id = some sub.token) := by
      rintro ⟨rfl, held⟩
      obtain ⟨k, other, newest, same, -⟩ := (h sub.id sub.token).mp held
      exact apart newest (tokens.distinct few newest.at_j at_j same)
    rw [if_neg stays, h i token]
    apply exists_congr
    intro k
    constructor
    · rintro ⟨other, newest, rest⟩
      exact ⟨other, ⟨other, newest, (if_neg (apart newest)).symm⟩, rest⟩
    · rintro ⟨x, ⟨before, newest, rfl⟩, rest⟩
      rw [if_neg (apart newest)] at rest
      exact ⟨before, newest, rest⟩

theorem Entries.change (h : Entries s) (tokens : Tokens s) (few : s.subs.length < 2 ^ 64)
    (change : Change s t) : Entries t := by
  cases change with
  | same attached next subs =>
    intro i token
    rw [attached, h i token]
    constructor
    · rintro ⟨j, sub, newest, rest⟩
      exact ⟨j, sub, ⟨subs ▸ newest.at_j, newest.slot, subs ▸ newest.last⟩, rest⟩
    · rintro ⟨j, sub, newest, rest⟩
      exact ⟨j, sub, ⟨subs ▸ newest.at_j, newest.slot, subs ▸ newest.last⟩, rest⟩
  | claim id own data attached next subs =>
    intro i token
    simp only [newest_append subs]
    rw [attached]
    by_cases slot : id = i
    · subst slot
      rw [Function.update_self]
      simp only [if_true]
      constructor
      · intro same
        exact ⟨s.subs.length, _, ⟨rfl, rfl⟩, Option.some.inj same, rfl⟩
      · rintro ⟨j, sub, ⟨rfl, rfl⟩, rfl, -⟩
        rfl
    · simp only [if_neg slot]
      rw [Function.update_of_ne (Ne.symm slot)]
      exact h i token
  | drop j sub found attached next subs => exact h.drop tokens few found attached subs

theorem length_subs_le (change : Change s t) : s.subs.length ≤ t.subs.length := by
  cases change with
  | same attached next subs => exact Nat.le_of_eq (congrArg List.length subs.symm)
  | claim id own data attached next subs =>
    rw [subs, List.length_append]
    exact Nat.le_add_right ..
  | drop j sub found attached next subs =>
    have same : t.subs.length = s.subs.length := by rw [subs, List.length_set]
    exact Nat.le_of_eq same.symm

theorem entries_reachable (run : Run ScopesStep ⟨start, 0⟩ xs p) :
    Tokens p.machine.loop ∧ (p.machine.loop.subs.length < 2 ^ 64 → Entries p.machine.loop) := by
  apply run.invariant (P := fun p => Tokens p.machine.loop ∧
    (p.machine.loop.subs.length < 2 ^ 64 → Entries p.machine.loop))
  · rintro p x q ⟨tokens, entries⟩ step
    have change := change_step step
    refine ⟨tokens.change change, fun few => ?_⟩
    have few' := Nat.lt_of_le_of_lt (length_subs_le change) few
    exact (entries few').change tokens few' change
  · refine ⟨⟨rfl, fun _ _ found => nomatch found⟩, fun _ id token => ?_⟩
    refine iff_of_false nofun ?_
    rintro ⟨j, sub, newest, -⟩
    cases newest.at_j

/-- Each entry stands for a subscription of its own. -/
theorem Entries.bounded (h : Entries s) {ids : List Nat} (nodup : ids.Nodup)
    (entries : ∀ id ∈ ids, s.attached id ≠ none) : ids.length ≤ s.undropped.length := by
  have found : ids ⊆ s.undropped.map (·.id) := by
    intro id mem
    obtain ⟨token, entry⟩ := Option.ne_none_iff_exists'.mp (entries id mem)
    obtain ⟨j, sub, newest, -, live⟩ := (h id token).mp entry
    refine List.mem_map.mpr ⟨sub, List.mem_filter.mpr ⟨?_, by simp [live]⟩, newest.slot⟩
    exact List.mem_of_getElem? newest.at_j
  calc ids.length
      ≤ (s.undropped.map (·.id)).length := (nodup.subperm found).length_le
    _ = s.undropped.length := List.length_map ..

theorem Entries.tracked (h : Entries s) (tokens : Tokens s) (few : s.subs.length < 2 ^ 64) : Tracked s where
  newest := h
  distinct _ _ _ _ at_j at_k same := tokens.distinct few at_j at_k same
  bounded _ := h.bounded
  empty none id := by
    by_contra entry
    have one := h.bounded (List.nodup_singleton id) fun i mem => by
      rw [List.mem_singleton.mp mem]
      exact entry
    rw [none] at one
    cases one

/-- Over any number of scopes, below `2^64` attaches: an entry is the claim of the newest attach on its
selector until that is dropped, no two tokens are the same, there are no more entries than subscriptions,
and a drop leaves the entries of all other subscriptions alone. -/
theorem attached_tracks (run : Run ScopesStep ⟨start, 0⟩ xs p)
    (few : p.machine.loop.subs.length < 2 ^ 64) :
    Tracked p.machine.loop ∧ ∀ j x q, ScopesStep p x q → x.drops = some j → ∀ k other, k ≠ j →
      p.machine.loop.sub? k = some other → p.machine.loop.attached other.id = some other.token →
      q.machine.loop.attached other.id = some other.token := by
  obtain ⟨tokens, entries⟩ := entries_reachable run
  have entries := entries few
  refine ⟨entries.tracked tokens few, fun j x q step drops k other ne found entry => ?_⟩
  obtain ⟨sub, dropped, after⟩ := attached_of_drops step drops
  rw [after, attached_releaseSelector, if_neg, entry]
  rintro ⟨slot, held⟩
  have same : sub.token = other.token := by
    rw [slot, held] at entry
    exact Option.some.inj entry
  have at_j := (Option.filter_eq_some_iff.mp dropped).1
  have at_k := (Option.filter_eq_some_iff.mp found).1
  exact ne (tokens.distinct few at_j at_k same).symm

/-- A peer goes away, and the next attach gets its selector before its own subscription is dropped. -/
theorem attached_tracks_successor : ∃ p : Scopes, p.machine.loop.attached 0 = some 2 ∧
    Tracked p.machine.loop ∧ ∀ q, ScopesStep p (.within (.dropSub 0)) q →
      q.machine.loop.attached 0 = some 2 := by
  have reached : (exec Machine.next start [.connect "q" "" "" 5010 3, .attach 0 (some 7), .resolve,
      .disconnect 0, .connect "q" "" "" 5010 3, .attach 1 (some 7), .resolve]).map
        (fun m => (m.loop.attached 0, m.loop.subs)) =
      some (some 2, [⟨0, 7, 1, 0, false⟩, ⟨0, 7, 2, 1, false⟩]) := by decide
  obtain ⟨m, run, eq⟩ := Option.map_eq_some_iff.mp reached
  obtain ⟨entry, subs⟩ := Prod.mk.inj eq
  have run : Run ScopesStep ⟨start, 0⟩ _ ⟨m, 0⟩ :=
    (exec_eq_some_iff.mp run).map (Scopes.mk · 0) .within fun _ _ _ step => .within step
  obtain ⟨tracked, keeps⟩ := attached_tracks run (by rw [subs]; decide)
  refine ⟨⟨m, 0⟩, entry, tracked, fun q step => ?_⟩
  exact keeps 0 _ q step rfl 1 ⟨0, 7, 2, 1, false⟩ (by decide) (by rw [State.sub?, subs]; rfl) entry

end Rayforce.Q
