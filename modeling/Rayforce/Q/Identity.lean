import Rayforce.Q.Subscription

/-! A subscription acts on its own connection only.  Of the three things it is told by, the slot
and the address are handed out again to anybody; the token tells it only from what a later attach
registered. -/

namespace Rayforce.Q

open Slots Transition

variable {s t : State} {e : Event} {es : List Event} {sub : Subscription} {conn : Conn}
  {data : Address} {i j token : Nat}

/-- Every call so far reached the connection of the subscription that made it, and so does the next
call of a subscription that reports alive. -/
structure Own (s : State) : Prop where
  acts : ∀ a ∈ s.acts, a.reached = some a.own
  alive : ∀ j sub, s.sub? j = some sub → s.isAlive sub = true → s.reached sub.id = some sub.own

/-- A connection is not given both the slot and the address of a subscription that still holds its
claim on the slot: the claim an attach is about to make, or the one that stands. -/
def Apart (s : State) : Event → Prop
  | .attach (some data) =>
    ∀ j sub, s.sub? j = some sub →
      ¬(sub.id = free s.conns ∧ sub.data = data ∧ sub.token = s.nextToken)
  | .register data =>
    ∀ j sub, s.sub? j = some sub →
      ¬(sub.id = free s.conns ∧ sub.data = data ∧ s.selectorIsClaimedBy sub.id sub.token = true)
  | _ => True

theorem isAlive_iff :
    s.isAlive sub = true ↔ s.selectorIsClaimedBy sub.id sub.token = true ∧
      ∃ conn, at? s.conns sub.id = some conn ∧ conn.data = sub.data := by
  unfold State.isAlive State.holds
  rw [Bool.and_eq_true]
  apply and_congr_right
  intro _
  cases found : at? s.conns sub.id with
  | none => simp
  | some conn => simp

theorem reached_of_at? (found : at? s.conns i = some conn) : s.reached i = some conn.number := by
  rw [State.reached, found, Option.map_some]

theorem attach_eq (s : State) (data : Address) :
    s.attach data =
      { s with
        conns := Slots.register s.conns ⟨s.registered, data⟩
        registered := s.registered + 1
        attached := Function.update s.attached (free s.conns) (some s.nextToken)
        nextToken := (s.nextToken + 1) % 2 ^ 64
        subs := s.subs ++ [⟨free s.conns, data, s.nextToken, s.registered, false⟩] } := by
  have resolves : (s.register data).2.selectorData (free s.conns) = some data := by
    simp [State.selectorData, State.register, at?_register]
  unfold State.attach
  simp only [State.register] at resolves ⊢
  rw [resolves]
  rfl

theorem sub?_grown {subs : List Subscription} (grown : t.subs = s.subs ++ subs)
    (found : s.sub? j = some sub) : t.sub? j = some sub := by
  unfold State.sub?
  rw [grown]
  exact entry_grown subs found

theorem sub?_append {subs : List Subscription} (grown : t.subs = s.subs ++ subs)
    (found : t.sub? j = some sub) :
    s.sub? j = some sub ∨ ∃ k, j = s.subs.length + k ∧ subs[k]? = some sub := by
  unfold State.sub? at found
  rw [grown] at found
  exact entry_append found

/-- The connection a subscription's attach registered is an earlier one than the next. -/
def Earlier (s : State) : Prop := ∀ j sub, s.sub? j = some sub → sub.own < s.registered

/-- Slots are emptied, claims given up and subscriptions dropped, and nothing is handed out. -/
structure Sheds (s t : State) : Prop where
  registered : t.registered = s.registered
  sub : ∀ j sub, t.sub? j = some sub → s.sub? j = some sub
  slot : ∀ i conn, at? t.conns i = some conn → at? s.conns i = some conn
  claim : ∀ i token, t.selectorIsClaimedBy i token = true → s.selectorIsClaimedBy i token = true

theorem Sheds.refl (s : State) : Sheds s s :=
  ⟨rfl, fun _ _ h => h, fun _ _ h => h, fun _ _ h => h⟩

theorem Sheds.trans {u : State} (h : Sheds s t) (h' : Sheds t u) : Sheds s u :=
  ⟨h'.registered.trans h.registered, fun j sub found => h.sub j sub (h'.sub j sub found),
    fun i conn found => h.slot i conn (h'.slot i conn found),
    fun i token claimed => h.claim i token (h'.claim i token claimed)⟩

theorem release_sheds (s : State) (i : Nat) : Sheds s { s with conns := release s.conns i } :=
  ⟨rfl, fun _ _ h => h, fun _ _ h => at?_release_eq_some h, fun _ _ h => h⟩

theorem act_sheds (s : State) (sub : Subscription) : Sheds s (s.act sub) :=
  ⟨rfl, fun _ _ h => h, fun _ _ h => h, fun _ _ h => h⟩

theorem Sheds.isAlive (h : Sheds s t) (alive : t.isAlive sub = true) :
    s.isAlive sub = true ∧ t.reached sub.id = s.reached sub.id := by
  obtain ⟨claimed, conn, found, data⟩ := isAlive_iff.mp alive
  have before := h.slot _ _ found
  refine ⟨isAlive_iff.mpr ⟨h.claim _ _ claimed, conn, before, data⟩, ?_⟩
  rw [reached_of_at? found, reached_of_at? before]

theorem Sheds.own (h : Sheds s t) (own : Own s) (acts : ∀ a ∈ t.acts, a.reached = some a.own) :
    Own t := by
  refine ⟨acts, fun j sub found alive => ?_⟩
  obtain ⟨before, reached⟩ := h.isAlive alive
  rw [reached]
  exact own.alive j sub (h.sub j sub found) before

theorem Sheds.earlier (h : Sheds s t) (earlier : Earlier s) : Earlier t := by
  intro j sub found
  rw [h.registered]
  exact earlier j sub (h.sub j sub found)

theorem Own.act (own : Own s) (found : s.sub? j = some sub) (alive : s.isAlive sub = true) :
    ∀ a ∈ (s.act sub).acts, a.reached = some a.own := by
  intro a mem
  rcases List.mem_append.mp mem with old | new
  · exact own.acts a old
  · obtain rfl := List.mem_singleton.mp new
    exact own.alive j sub found alive

/-! ### What each event hands out -/

theorem send_step (own : Own s) (h : next s (.send j) = some t) :
    Sheds s t ∧ ∀ a ∈ t.acts, a.reached = some a.own := by
  obtain ⟨sub, found, rfl⟩ := Option.map_eq_some_iff.mp h
  unfold State.send
  by_cases alive : s.isAlive sub = true
  · rw [alive]
    exact ⟨act_sheds s sub, own.act found alive⟩
  · rw [Bool.not_eq_true] at alive
    rw [alive]
    exact ⟨.refl s, own.acts⟩

theorem disconnect_step (own : Own s) (h : next s (.disconnect i) = some t) :
    Sheds s t ∧ ∀ a ∈ t.acts, a.reached = some a.own := by
  simp only [next, Option.ite_none_right_eq_some, Option.some.injEq] at h
  obtain ⟨-, rfl⟩ := h
  exact ⟨release_sheds s i, own.acts⟩

theorem claimed_of_release {id own : Nat}
    (h : (s.releaseSelector id own).selectorIsClaimedBy i token = true) :
    s.selectorIsClaimedBy i token = true := by
  unfold State.releaseSelector at h
  split at h
  · unfold State.selectorIsClaimedBy at h ⊢
    by_cases same : i = id
    · subst same
      simp at h
    · simpa [Function.update_of_ne same] using h
  · exact h

@[simp] theorem releaseSelector_conns (s : State) (id token : Nat) :
    (s.releaseSelector id token).conns = s.conns := by
  unfold State.releaseSelector
  split <;> rfl

@[simp] theorem releaseSelector_registered (s : State) (id token : Nat) :
    (s.releaseSelector id token).registered = s.registered := by
  unfold State.releaseSelector
  split <;> rfl

@[simp] theorem releaseSelector_subs (s : State) (id token : Nat) :
    (s.releaseSelector id token).subs = s.subs := by
  unfold State.releaseSelector
  split <;> rfl

@[simp] theorem releaseSelector_acts (s : State) (id token : Nat) :
    (s.releaseSelector id token).acts = s.acts := by
  unfold State.releaseSelector
  split <;> rfl

@[simp] theorem releaseSelector_nextToken (s : State) (id token : Nat) :
    (s.releaseSelector id token).nextToken = s.nextToken := by
  unfold State.releaseSelector
  split <;> rfl

theorem sub?_dropped {other : Subscription} (j : Nat) (sub : Subscription)
    (dropped : t.subs = s.subs.set j { sub with dropped := true })
    (found : t.sub? i = some other) : s.sub? i = some other := by
  unfold State.sub? at found
  rw [dropped] at found
  rcases entry_set found with ⟨-, -, live⟩ | ⟨-, before⟩
  · cases live
  · exact before

theorem dropped_sheds (s : State) (j : Nat) (sub : Subscription) :
    Sheds s
      { s.releaseSelector sub.id sub.token with
        subs := (s.releaseSelector sub.id sub.token).subs.set j { sub with dropped := true } } := by
  constructor
  · exact releaseSelector_registered ..
  · intro i other
    exact sub?_dropped j sub (by rw [releaseSelector_subs])
  · intro i conn found
    simpa using found
  · intro i token
    exact claimed_of_release

theorem drop_step (own : Own s) (h : next s (.drop j) = some t) :
    Sheds s t ∧ ∀ a ∈ t.acts, a.reached = some a.own := by
  obtain ⟨sub, found, rfl⟩ := Option.map_eq_some_iff.mp h
  unfold State.drop
  by_cases alive : s.isAlive sub = true
  · rw [if_pos alive]
    have closed := (act_sheds s sub).trans (release_sheds (s.act sub) sub.id)
    refine ⟨closed.trans (dropped_sheds _ j sub), ?_⟩
    rw [releaseSelector_acts]
    exact own.act found alive
  · rw [if_neg alive]
    refine ⟨dropped_sheds s j sub, ?_⟩
    rw [releaseSelector_acts]
    exact own.acts

/-! ### What a new connection is given -/

variable {subs : List Subscription}

theorem reached_register (conns : t.conns = Slots.register s.conns ⟨s.registered, data⟩) (i : Nat) :
    t.reached i = if i = free s.conns then some s.registered else s.reached i := by
  unfold State.reached
  rw [conns, at?_register]
  split <;> rfl

theorem isAlive_register (conns : t.conns = Slots.register s.conns ⟨s.registered, data⟩)
    (slot : sub.id = free s.conns) :
    t.isAlive sub = true ↔ sub.data = data ∧ t.selectorIsClaimedBy sub.id sub.token = true := by
  have found : at? t.conns sub.id = some ⟨s.registered, data⟩ := by
    rw [conns, at?_register, if_pos slot]
  rw [isAlive_iff, found]
  constructor
  · rintro ⟨claimed, conn, ⟨⟩, same⟩
    exact ⟨same.symm, claimed⟩
  · rintro ⟨same, claimed⟩
    exact ⟨claimed, _, rfl, same.symm⟩

/-- A registration keeps every subscription to its own connection exactly when it gives none of
them both its slot and its address while its claim stands. -/
theorem own_register_iff (data : Address) (own : Own s) (earlier : Earlier s)
    (conns : t.conns = Slots.register s.conns ⟨s.registered, data⟩) (acts : t.acts = s.acts)
    (grown : t.subs = s.subs ++ subs)
    (fresh : ∀ sub ∈ subs, sub.id = free s.conns ∧ sub.own = s.registered)
    (others : ∀ i, i ≠ free s.conns → t.attached i = s.attached i) :
    Own t ↔ ∀ j sub, s.sub? j = some sub →
      ¬(sub.id = free s.conns ∧ sub.data = data ∧
        t.selectorIsClaimedBy sub.id sub.token = true) := by
  constructor
  · rintro own' j sub found ⟨slot, address, claimed⟩
    have alive := (isAlive_register conns slot).mpr ⟨address, claimed⟩
    have reached := own'.alive j sub (sub?_grown grown found) alive
    rw [reached_register conns, if_pos slot, Option.some.injEq] at reached
    have := earlier j sub found
    omega
  · intro apart
    refine ⟨fun a mem => own.acts a (acts ▸ mem), fun j sub found alive => ?_⟩
    rw [reached_register conns]
    rcases sub?_append grown found with old | ⟨k, -, new⟩
    · by_cases slot : sub.id = free s.conns
      · exact absurd ⟨slot, (isAlive_register conns slot).mp alive⟩ (apart j sub old)
      · rw [if_neg slot]
        apply own.alive j sub old
        obtain ⟨claimed, conn, at_id, address⟩ := isAlive_iff.mp alive
        rw [conns, at?_register, if_neg slot] at at_id
        rw [State.selectorIsClaimedBy, others _ slot] at claimed
        exact isAlive_iff.mpr ⟨claimed, conn, at_id, address⟩
    · obtain ⟨slot, number⟩ := fresh sub (List.mem_of_getElem? new)
      rw [if_pos slot, number]

theorem claimed_attach (s : State) (data : Address) (token : Nat) :
    (s.attach data).selectorIsClaimedBy (free s.conns) token = true ↔ token = s.nextToken := by
  unfold State.selectorIsClaimedBy
  rw [attach_eq]
  show (Function.update s.attached (free s.conns) (some s.nextToken) (free s.conns) ==
    some token) = true ↔ token = s.nextToken
  rw [Function.update_self, beq_iff_eq, Option.some.injEq]
  exact eq_comm

theorem attach_own_iff (own : Own s) (earlier : Earlier s) :
    Own (s.attach data) ↔ Apart s (.attach (some data)) := by
  have kept := own_register_iff (t := s.attach data) data own earlier
    (by rw [attach_eq]) (by rw [attach_eq]) (by rw [attach_eq]) (by simp)
    (fun i other => by rw [attach_eq]; exact Function.update_of_ne other ..)
  rw [kept]
  apply forall_congr'
  intro j
  apply forall_congr'
  intro sub
  refine imp_congr_right fun _ => not_congr (and_congr_right fun slot => and_congr_right fun _ => ?_)
  rw [slot]
  exact claimed_attach s data sub.token

theorem register_own_iff (own : Own s) (earlier : Earlier s) :
    Own (s.register data).2 ↔ Apart s (.register data) :=
  own_register_iff data own earlier rfl rfl (List.append_nil _).symm (by simp) fun _ _ => rfl

theorem attach_earlier (earlier : Earlier s) : Earlier (s.attach data) := by
  intro j sub found
  rw [attach_eq] at found
  show sub.own < (s.attach data).registered
  rw [attach_eq]
  show sub.own < s.registered + 1
  rcases sub?_append rfl found with old | ⟨k, -, new⟩
  · have := earlier j sub old
    omega
  · obtain rfl := List.mem_singleton.mp (List.mem_of_getElem? new)
    show s.registered < s.registered + 1
    omega

/-- Each event keeps the numbers, and every subscription to its own connection exactly where it
keeps them apart. -/
theorem own_step (own : Own s) (earlier : Earlier s) (step : next s e = some t) :
    Earlier t ∧ (Own t ↔ Apart s e) := by
  cases e with
  | attach opened =>
    cases opened with
    | none =>
      cases step
      exact ⟨earlier, iff_of_true own trivial⟩
    | some data =>
      simp only [next, Option.ite_none_left_eq_some, Option.some.injEq] at step
      obtain ⟨-, rfl⟩ := step
      exact ⟨attach_earlier earlier, attach_own_iff own earlier⟩
  | register data =>
    simp only [next, Option.ite_none_left_eq_some, Option.some.injEq] at step
    obtain ⟨-, rfl⟩ := step
    refine ⟨fun j sub found => ?_, register_own_iff own earlier⟩
    exact Nat.lt_succ_of_lt (earlier j sub found)
  | disconnect i =>
    obtain ⟨sheds, acts⟩ := disconnect_step own step
    exact ⟨sheds.earlier earlier, iff_of_true (sheds.own own acts) trivial⟩
  | isAlive j =>
    obtain ⟨-, -, rfl⟩ := Option.map_eq_some_iff.mp step
    exact ⟨earlier, iff_of_true own trivial⟩
  | send j =>
    obtain ⟨sheds, acts⟩ := send_step own step
    exact ⟨sheds.earlier earlier, iff_of_true (sheds.own own acts) trivial⟩
  | drop j =>
    obtain ⟨sheds, acts⟩ := drop_step own step
    exact ⟨sheds.earlier earlier, iff_of_true (sheds.own own acts) trivial⟩

theorem own_initial : Own initial := by
  constructor
  · intro a mem
    cases mem
  · intro j sub found
    cases found

/-- In a run that keeps connections apart so far every subscription acts on its own connection
only, and the next event keeps it so exactly where it keeps them apart. -/
theorem own_iff_apart (run : Run (Guarded (Steps next) Apart) initial es s)
    (step : next s e = some t) : Own s ∧ (Own t ↔ Apart s e) := by
  apply run.guarded_iff (P := Own) (Q := Earlier)
  · intro s e t own earlier step
    exact own_step own earlier step
  · exact own_initial
  · exact fun _ _ found => nomatch found
  · exact step

/-- A peer goes away, and the next connection gets its slot and its address from an attach. -/
theorem own_iff_apart_attach :
    let s : State := { initial.attach 7 with conns := [none] }
    Own s ∧ (Own (s.attach 7) ↔ Apart s (.attach (some 7))) := by
  intro s
  have run : Run (Guarded (Steps next) Apart) initial [.attach (some 7), .disconnect 0] s := by
    refine .cons ⟨rfl, ?_⟩ (.single ⟨rfl, trivial⟩)
    intro j sub found
    cases found
  exact own_iff_apart run rfl

/-- The same, and somebody else's connection gets them. -/
theorem own_taken_over :
    ¬ ∀ es s, Run (Steps next) initial es s → Own s := by
  intro all
  have taken : (exec next initial
      [.attach (some 7), .disconnect 0, .register 7, .send 0, .drop 0]).map (·.acts) =
        some [⟨0, some 1⟩, ⟨0, some 1⟩] := by decide
  obtain ⟨s, run, acts⟩ := Option.map_eq_some_iff.mp taken
  have own := (all _ s (exec_eq_some_iff.mp run)).acts ⟨0, some 1⟩ (by simp [acts])
  cases own

/-! ### Attaches alone -/

/-- Tokens count the attaches, as far as 64 bits go. -/
structure Counted (s : State) : Prop where
  next : s.nextToken = (s.subs.length + 1) % 2 ^ 64
  each : ∀ j sub, s.sub? j = some sub → sub.token = (j + 1) % 2 ^ 64

theorem Counted.same (h : Counted s) (next : t.nextToken = s.nextToken)
    (length : t.subs.length = s.subs.length)
    (sub : ∀ j sub, t.sub? j = some sub → s.sub? j = some sub) : Counted t := by
  constructor
  · rw [next, length]
    exact h.next
  · intro j other found
    exact h.each j other (sub j other found)

theorem Counted.attach (h : Counted s) (data : Address) : Counted (s.attach data) := by
  rw [attach_eq]
  constructor
  · show (s.nextToken + 1) % 2 ^ 64 = ((s.subs ++ [_]).length + 1) % 2 ^ 64
    rw [h.next, List.length_append, List.length_singleton, Nat.mod_add_mod]
  · intro j sub found
    rcases sub?_append rfl found with old | ⟨k, rfl, new⟩
    · exact h.each j sub old
    · cases k with
      | zero =>
        cases new
        exact h.next
      | succ k => cases new

theorem counted_step (h : Counted s) (step : next s e = some t) : Counted t := by
  cases e with
  | attach opened =>
    cases opened with
    | none =>
      cases step
      exact h
    | some data =>
      simp only [next, Option.ite_none_left_eq_some, Option.some.injEq] at step
      obtain ⟨-, rfl⟩ := step
      exact h.attach data
  | register data =>
    simp only [next, Option.ite_none_left_eq_some, Option.some.injEq] at step
    obtain ⟨-, rfl⟩ := step
    exact h.same rfl rfl fun _ _ found => found
  | disconnect i =>
    simp only [next, Option.ite_none_right_eq_some, Option.some.injEq] at step
    obtain ⟨-, rfl⟩ := step
    exact h.same rfl rfl fun _ _ found => found
  | isAlive j =>
    obtain ⟨-, -, rfl⟩ := Option.map_eq_some_iff.mp step
    exact h
  | send j =>
    obtain ⟨sub, -, rfl⟩ := Option.map_eq_some_iff.mp step
    unfold State.send
    cases s.isAlive sub with
    | true => exact h.same rfl rfl fun _ _ found => found
    | false => exact h
  | drop j =>
    obtain ⟨sub, found, rfl⟩ := Option.map_eq_some_iff.mp step
    unfold State.drop
    cases s.isAlive sub with
    | true =>
      exact h.same (by simp; rfl) (by simp; rfl) fun i other => sub?_dropped j sub (by simp; rfl)
    | false => exact h.same (by simp) (by simp) fun i other => sub?_dropped j sub (by simp)

/-- An attach gives nothing of a subscription's away before the token comes round again. -/
theorem attach_apart (run : Run (Steps next) initial es s) (few : s.subs.length < 2 ^ 64)
    (data : Address) : Apart s (.attach (some data)) := by
  have counted : Counted s := by
    apply run.invariant (P := Counted)
    · intro s e t
      exact counted_step
    · exact ⟨rfl, fun _ _ found => nomatch found⟩
  rintro j sub found ⟨-, -, token⟩
  have at_j := (Option.filter_eq_some_iff.mp found).1
  have lt : j < s.subs.length := (List.getElem?_eq_some_iff.mp at_j).1
  rw [counted.each j sub found, counted.next] at token
  omega

end Rayforce.Q
