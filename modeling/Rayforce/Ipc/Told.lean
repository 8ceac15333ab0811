import Rayforce.Ipc.Identity

/-! Connections that go away in an exchange.  The exchange returns an error, the slot is empty then,
and the client keeps no handle: where every connection goes away so, no client reaches another's. -/

namespace Rayforce.Ipc

open Slots Transition

variable {s t : State} {e : Event} {es : List Event} {c : Client} {x : Exchange} {reply : Reply}
  {i j : Nat} {handle : Int}

/-- Every client that names a slot the core closes is in an exchange on it, and no connection is
opened in an exchange whose own is gone. -/
structure Told (s : State) (e : Event) : Prop where
  close : ∀ id : Nat, e = .close id → ∀ j c, s.client? j = some c → c.handle = id →
    ∃ x ∈ s.exchanges, x.client = j ∧ x.handle = c.handle
  opens : e.opens = true → ∀ x ∈ s.exchanges, x.lost = false

/-- The client is in an exchange whose connection is gone. -/
def State.hears (s : State) (j : Nat) (c : Client) : Prop :=
  ∃ x ∈ s.exchanges, x.client = j ∧ x.handle = c.handle ∧ x.lost = true

/-- Two clients have one handle only once it is gone. -/
def Distinct (s : State) : Prop :=
  ∀ i j c d, s.client? i = some c → s.client? j = some d → c.handle = d.handle →
    c.handle ≠ closed → i = j

structure Aware (s : State) : Prop where
  client : ∀ j c, s.client? j = some c →
    c.handle = closed ∨ s.at? c.handle = some c.own ∨ s.hears j c
  exchange : ∀ x ∈ s.exchanges, x.lost = true → s.at? x.handle = none
  distinct : Distinct s

theorem Told.apart (told : Told s e) (aware : Aware s) : Apart s e := by
  intro opens j c found free
  rcases aware.client j c found with none | own | ⟨x, mem, -, -, lost⟩
  · rw [closed] at none
    omega
  · rw [free, State.at?, if_neg (by omega), Int.toNat_natCast, at?_free] at own
    cases own
  · rw [told.opens opens x mem] at lost
    cases lost

theorem Sheds.distinct (sheds : Sheds s t) (distinct : Distinct s) : Distinct t := by
  intro i j c d at_i at_j same told
  obtain ⟨b, before, -, eq | gone⟩ := sheds.client i c at_i
  · obtain ⟨b', before', -, eq' | gone'⟩ := sheds.client j d at_j
    · exact distinct i j b b' before before' (by rw [← eq, same, eq']) (by rwa [← eq])
    · exact absurd (same.trans gone') told
  · exact absurd gone told

theorem Aware.same (aware : Aware s) (conns : t.conns = s.conns)
    (clients : t.clients = s.clients) (exchanges : t.exchanges = s.exchanges) : Aware t := by
  have at_ : ∀ handle, t.at? handle = s.at? handle := by
    intro handle
    unfold State.at?
    rw [conns]
  have client : ∀ j, t.client? j = s.client? j := by
    intro j
    unfold State.client?
    rw [clients]
  constructor
  · intro j c found
    rw [client] at found
    unfold State.hears
    rw [at_, exchanges]
    exact aware.client j c found
  · intro x mem lost
    rw [exchanges] at mem
    rw [at_]
    exact aware.exchange x mem lost
  · intro i j c d at_i at_j
    rw [client] at at_i at_j
    exact aware.distinct i j c d at_i at_j

theorem send_aware (aware : Aware s) : Aware
    { s.act c with exchanges := ⟨j, c.handle, !s.isLive c.handle⟩ :: s.exchanges } := by
  constructor
  · intro i d found
    rcases aware.client i d found with none | own | ⟨x, mem, hears⟩
    · exact .inl none
    · exact .inr (.inl own)
    · exact .inr (.inr ⟨x, List.mem_cons_of_mem _ mem, hears⟩)
  · intro x mem lost
    rcases List.mem_cons.mp mem with rfl | old
    · show s.at? c.handle = none
      simpa [State.isLive] using lost
    · exact aware.exchange x old lost
  · exact aware.distinct

theorem closing_aware (aware : Aware s)
    (told : ∀ j c, s.client? j = some c → c.handle = handle →
      c.handle = closed ∨ ∃ x ∈ s.exchanges, x.client = j ∧ x.handle = c.handle) :
    Aware (s.closing handle) := by
  constructor
  · intro j c found
    rw [at?_closing]
    rcases aware.client j c found with none | own | ⟨x, mem, client, same, lost⟩
    · exact .inl none
    · by_cases named : c.handle = handle
      · rcases told j c found named with none | ⟨x, mem, client, same⟩
        · exact .inl none
        · refine .inr (.inr ⟨{ x with lost := true }, ?_, client, same, rfl⟩)
          refine List.mem_map.mpr ⟨x, mem, ?_⟩
          rw [if_pos (same.trans named)]
      · rw [if_neg named]
        exact .inr (.inl own)
    · refine .inr (.inr ⟨x, List.mem_map.mpr ⟨x, mem, ?_⟩, client, same, lost⟩)
      rw [← lost, ite_self]
  · intro y mem lost
    obtain ⟨x, old, rfl⟩ := List.mem_map.mp mem
    rw [at?_closing]
    by_cases named : x.handle = handle
    · rw [if_pos named] at lost ⊢
      rw [if_pos named]
    · rw [if_neg named] at lost ⊢
      rw [if_neg named]
      exact aware.exchange x old lost
  · exact aware.distinct

theorem received_exchanges : (s.received x c reply).2.exchanges = s.exchanges := by
  cases reply with
  | null | value => rfl
  | error error =>
    simp only [State.received]
    split <;> rfl

theorem received_conns : (s.received x c reply).2.conns = s.conns := by
  cases reply with
  | null | value => rfl
  | error error =>
    simp only [State.received]
    split <;> rfl

theorem received_lost {d : Client} (admits : x.admits reply = true) (lost : x.lost = true)
    (gone : s.at? x.handle = none)
    (after : (s.received x c reply).2.client? x.client = some d) : d.handle = closed := by
  cases reply with
  | null | value => simp [Exchange.admits, lost] at admits
  | error error =>
    have dead : ¬ s.isLive x.handle = true := by simp [State.isLive, gone]
    simp only [State.received, if_neg dead] at after
    rcases entry_set after with ⟨-, rfl, -⟩ | ⟨other, -⟩
    · rfl
    · exact absurd rfl other

theorem received_aware {rest : List Exchange} (aware : Aware s) (pending : s.exchanges = x :: rest)
    (found : s.client? x.client = some c) (admits : x.admits reply = true) :
    Aware ({ s with exchanges := rest }.received x c reply).2 := by
  have sheds := received_sheds (s := { s with exchanges := rest }) found reply
  have at_ : ∀ handle, ({ s with exchanges := rest }.received x c reply).2.at? handle =
      s.at? handle := by
    intro handle
    unfold State.at?
    rw [received_conns]
  have innermost : x ∈ s.exchanges := by
    rw [pending]
    exact List.mem_cons_self
  constructor
  · intro j d after
    unfold State.hears
    rw [at_, received_exchanges]
    obtain ⟨b, before, number, same | gone⟩ := sheds.client j d after
    · rcases aware.client j b before with none | own | ⟨y, mem, rfl, named, lost⟩
      · exact .inl (same.trans none)
      · rw [same, number]
        exact .inr (.inl own)
      · rw [pending] at mem
        rcases List.mem_cons.mp mem with rfl | old
        · have gone := aware.exchange y innermost lost
          exact .inl (received_lost (s := { s with exchanges := rest }) admits lost gone after)
        · exact .inr (.inr ⟨y, old, rfl, named.trans same.symm, lost⟩)
    · exact .inl gone
  · intro y mem lost
    rw [received_exchanges] at mem
    rw [at_]
    apply aware.exchange y _ lost
    rw [pending]
    exact List.mem_cons_of_mem _ mem
  · exact sheds.distinct (s := { s with exchanges := rest }) aware.distinct

theorem client?_dropped {d : Client}
    (dropped : t.clients = s.clients.set j { c with dropped := true })
    (found : t.client? i = some d) : i ≠ j ∧ s.client? i = some d := by
  unfold State.client? at found
  rw [dropped] at found
  rcases entry_set found with ⟨-, -, live⟩ | other
  · cases live
  · exact other

/-- A dropped client's handle is nobody else's, and neither is the slot it closes. -/
theorem drop_aware (aware : Aware s) (found : s.client? j = some c) :
    Aware { s.drop c with clients := (s.drop c).clients.set j { c with dropped := true } } := by
  let t : State := { s with clients := s.clients.set j { c with dropped := true } }
  have others : ∀ i d, t.client? i = some d → i ≠ j ∧ s.client? i = some d :=
    fun i d => client?_dropped rfl
  have dropped : Aware t := by
    refine ⟨fun i d after => aware.client i d (others i d after).2, aware.exchange, ?_⟩
    intro i k b d at_i at_k
    exact aware.distinct i k b d (others i b at_i).2 (others k d at_k).2
  unfold State.drop
  by_cases told : c.handle = closed
  · rw [if_pos told]
    exact dropped
  · rw [if_neg told]
    have closing : Aware (t.closing c.handle) := by
      apply closing_aware dropped
      intro i d after named
      obtain ⟨other, before⟩ := others i d after
      by_cases gone : d.handle = closed
      · exact .inl gone
      · exact absurd (aware.distinct i j d c before found named gone) other
    exact closing.same rfl rfl rfl

theorem opening_aware (aware : Aware s) (apart : ∀ j c, s.client? j = some c → c.handle ≠ free s.conns)
    (open_ : ∀ x ∈ s.exchanges, x.lost = false) {clients : List Client}
    (most : clients <+: [⟨free s.conns, s.opened, false⟩]) :
    Aware { s.opening with clients := s.clients ++ clients } := by
  have fresh : ∀ (k : Nat) (c : Client), clients[k]? = some c →
      k = 0 ∧ c = ⟨free s.conns, s.opened, false⟩ := by
    intro k c new
    obtain ⟨later, split⟩ := most
    have at_k : [(⟨free s.conns, s.opened, false⟩ : Client)][k]? = some c := by
      rw [← split, List.getElem?_append_left (List.getElem?_eq_some_iff.mp new).1]
      exact new
    cases k with
    | zero =>
      cases at_k
      exact ⟨rfl, rfl⟩
    | succ k => cases at_k
  constructor
  · intro j c found
    show c.handle = closed ∨ s.opening.at? c.handle = some c.own ∨ s.hears j c
    rw [at?_opening]
    rcases client?_append rfl found with old | ⟨k, -, new⟩
    · rw [if_neg (apart j c old)]
      exact aware.client j c old
    · obtain ⟨-, rfl⟩ := fresh k c new
      exact .inr (.inl (if_pos rfl))
  · intro x mem lost
    rw [open_ x mem] at lost
    cases lost
  · intro i j c d at_i at_j same told
    rcases client?_append rfl at_i with old | ⟨k, rfl, new⟩
    · rcases client?_append rfl at_j with old' | ⟨l, rfl, new'⟩
      · exact aware.distinct i j c d old old' same told
      · obtain ⟨-, rfl⟩ := fresh l d new'
        exact absurd same (apart i c old)
    · obtain ⟨rfl, rfl⟩ := fresh k c new
      rcases client?_append rfl at_j with old' | ⟨l, rfl, new'⟩
      · exact absurd same.symm (apart j d old')
      · obtain ⟨rfl, -⟩ := fresh l d new'
        rfl

theorem aware_step (aware : Aware s) (told : Told s e) (step : next s e = some t) : Aware t := by
  cases e with
  | connect host port user password answer =>
    cases opens : (Event.connect host port user password answer).opens with
    | true =>
      obtain ⟨clients, rfl, most⟩ := opens_step step opens
      exact opening_aware aware (told.apart aware opens) (told.opens opens) most
    | false =>
      cases connected : s.connect host port user password answer with
      | error error =>
        simp only [next, connected] at step
        cases step
        exact aware
      | ok t' =>
        rw [Event.opens, (connect_eq_ok connected).1] at opens
        cases opens
  | «open» =>
    obtain ⟨clients, rfl, most⟩ := opens_step step rfl
    exact opening_aware aware (told.apart aware rfl) (told.opens rfl) most
  | close i =>
    simp only [next, Option.ite_none_right_eq_some, Option.some.injEq] at step
    obtain ⟨-, rfl⟩ := step
    apply closing_aware aware
    intro j c found named
    exact .inr (told.close i rfl j c found named)
  | send j timeout =>
    obtain ⟨c, found, rfl⟩ := Option.map_eq_some_iff.mp step
    cases sent : s.send j c timeout with
    | error error => exact aware
    | ok pair =>
      obtain ⟨-, eq⟩ := send_eq_ok sent
      simp only [eq]
      exact send_aware aware
  | received reply =>
    cases pending : s.exchanges with
    | nil =>
      simp only [next, pending] at step
      cases step
    | cons x rest =>
      simp only [next, pending, Option.ite_none_right_eq_some] at step
      obtain ⟨admits, step⟩ := step
      obtain ⟨c, found, rfl⟩ := Option.map_eq_some_iff.mp step
      exact received_aware aware pending found admits
  | sendAsync j code =>
    obtain ⟨c, found, rfl⟩ := Option.map_eq_some_iff.mp step
    unfold State.sendAsync
    cases c.liveHandle with
    | error error => exact aware
    | ok handle => exact aware.same rfl rfl rfl
  | drop j =>
    simp only [next, Option.ite_none_left_eq_some] at step
    obtain ⟨-, step⟩ := step
    obtain ⟨c, found, rfl⟩ := Option.map_eq_some_iff.mp step
    exact drop_aware aware found

theorem aware_initial : Aware initial := by
  constructor
  · intro j c found
    cases found
  · intro x mem
    cases mem
  · intro i j c d found
    cases found

/-- Where clients are told of every close, no client ever reaches another's connection. -/
theorem reach_own_of_told (run : Run (Guarded (Steps next) Told) initial es s) : Own s := by
  have kept : Own s ∧ Earlier s ∧ Aware s := by
    apply run.invariant (P := fun s => Own s ∧ Earlier s ∧ Aware s)
    · rintro s e t ⟨own, earlier, aware⟩ ⟨step, told⟩
      obtain ⟨earlier', own'⟩ := own_step own earlier step
      exact ⟨own'.mpr (told.apart aware), earlier', aware_step aware told step⟩
    · exact ⟨own_initial, (fun _ _ found => nomatch found), aware_initial⟩
  exact kept.1

end Rayforce.Ipc
