import Rayforce.Ipc.Client

/-! A client reaches its own connection only.  What it goes by is a slot, which is handed out again
as soon as the core has closed the connection, whether the client was told or not. -/

namespace Rayforce.Ipc

open Slots Transition

variable {s t : State} {e : Event} {es : List Event} {c : Client} {x : Exchange} {reply : Reply}
  {i j n code : Nat} {handle : Int} {timeout : Option Nat}

/-- No call so far reached a connection of somebody else's, and none would if it were made now. -/
structure Own (s : State) : Prop where
  acts : ∀ a ∈ s.acts, a.reached = none ∨ a.reached = some a.own
  handles : ∀ j c, s.client? j = some c → ∀ n, s.at? c.handle = some n → n = c.own

def Event.opens : Event → Bool
  | .connect host port user password answer => (connecting host port user password answer).isOk
  | .open => true
  | _ => false

/-- A connection is not given the slot of a client that has not been told of its close. -/
def Apart (s : State) (e : Event) : Prop :=
  e.opens = true → ∀ j c, s.client? j = some c → c.handle ≠ free s.conns

/-- The connection a client's connect opened is an earlier one than the next. -/
def Earlier (s : State) : Prop := ∀ j c, s.client? j = some c → c.own < s.opened

theorem at?_closed (s : State) : s.at? closed = none := rfl

theorem at?_opening (s : State) (handle : Int) :
    s.opening.at? handle = if handle = free s.conns then some s.opened else s.at? handle := by
  unfold State.at? State.opening
  by_cases negative : handle < 0
  · rw [if_pos negative, if_pos negative, if_neg (by omega)]
  · rw [if_neg negative, if_neg negative, at?_register]
    by_cases same : handle = free s.conns
    · rw [if_pos same, if_pos (by omega)]
    · rw [if_neg same, if_neg (by omega)]

theorem at?_closing (s : State) (closes handle : Int) :
    (s.closing closes).at? handle = if handle = closes then none else s.at? handle := by
  unfold State.at? State.closing
  by_cases negative : handle < 0
  · rw [if_pos negative, if_pos negative, ite_self]
  · rw [if_neg negative, if_neg negative]
    by_cases below : closes < 0
    · rw [if_pos below, if_neg (by omega)]
    · rw [if_neg below, at?_release]
      by_cases same : handle = closes
      · rw [if_pos same, if_pos (by omega)]
      · rw [if_neg same, if_neg (by omega)]

theorem at?_closing_eq_some {closes : Int} (h : (s.closing closes).at? handle = some n) :
    s.at? handle = some n := by
  rw [at?_closing] at h
  split at h
  · cases h
  · exact h

/-- Connections are closed and clients dropped or told so, and no slot is handed out. -/
structure Sheds (s t : State) : Prop where
  opened : t.opened = s.opened
  client : ∀ j c, t.client? j = some c →
    ∃ b, s.client? j = some b ∧ c.own = b.own ∧ (c.handle = b.handle ∨ c.handle = closed)
  slot : ∀ handle n, t.at? handle = some n → s.at? handle = some n

theorem Sheds.of_clients (opened : t.opened = s.opened) (clients : t.clients = s.clients)
    (slot : ∀ handle n, t.at? handle = some n → s.at? handle = some n) : Sheds s t := by
  refine ⟨opened, fun j c found => ⟨c, ?_, rfl, .inl rfl⟩, slot⟩
  unfold State.client? at found ⊢
  rwa [clients] at found

theorem Sheds.refl (s : State) : Sheds s s := .of_clients rfl rfl fun _ _ h => h

theorem Sheds.own (h : Sheds s t) (own : Own s)
    (acts : ∀ a ∈ t.acts, a.reached = none ∨ a.reached = some a.own) : Own t := by
  refine ⟨acts, fun j c found n at_handle => ?_⟩
  obtain ⟨b, before, number, same | told⟩ := h.client j c found
  · rw [number]
    rw [same] at at_handle
    exact own.handles j b before n (h.slot _ _ at_handle)
  · rw [told, at?_closed] at at_handle
    cases at_handle

theorem Sheds.earlier (h : Sheds s t) (earlier : Earlier s) : Earlier t := by
  intro j c found
  obtain ⟨b, before, number, -⟩ := h.client j c found
  rw [h.opened, number]
  exact earlier j b before

theorem Own.act (own : Own s) (found : s.client? j = some c) :
    ∀ a ∈ (s.act c).acts, a.reached = none ∨ a.reached = some a.own := by
  intro a mem
  rcases List.mem_append.mp mem with old | new
  · exact own.acts a old
  · obtain rfl := List.mem_singleton.mp new
    show s.at? c.handle = none ∨ s.at? c.handle = some c.own
    cases reached : s.at? c.handle with
    | none => exact .inl rfl
    | some n => exact .inr (congrArg some (own.handles j c found n reached))

theorem client?_set {b : Client} (found : s.client? j = some b) (clients : t.clients = s.clients.set j c)
    (number : c.own = b.own) (handle : c.handle = b.handle ∨ c.handle = closed) {d : Client}
    (at_i : t.client? i = some d) :
    ∃ b, s.client? i = some b ∧ d.own = b.own ∧ (d.handle = b.handle ∨ d.handle = closed) := by
  unfold State.client? at at_i
  rw [clients] at at_i
  rcases entry_set at_i with ⟨rfl, rfl, -⟩ | ⟨-, before⟩
  · exact ⟨b, found, number, handle⟩
  · exact ⟨d, before, rfl, .inl rfl⟩

theorem liveHandle_eq_ok (h : c.liveHandle = .ok handle) : c.handle ≠ closed ∧ handle = c.handle := by
  unfold Client.liveHandle at h
  split at h
  · cases h
  · cases h
    exact ⟨‹_›, rfl⟩

theorem send_eq_ok {ms : Int} (h : s.send j c timeout = .ok (ms, t)) :
    c.handle ≠ closed ∧
      t = { s.act c with exchanges := ⟨j, c.handle, !s.isLive c.handle⟩ :: s.exchanges } := by
  have exchanges : ∃ timeoutMs, s.roundTrip j c timeoutMs = .ok (ms, t) := by
    cases timeout with
    | none => exact ⟨0, h⟩
    | some timeout =>
      obtain ⟨timeoutMs, -, h⟩ := bind_eq_ok.mp h
      exact ⟨timeoutMs, h⟩
  obtain ⟨timeoutMs, h⟩ := exchanges
  obtain ⟨handle, live, h⟩ := bind_eq_ok.mp h
  obtain ⟨told, rfl⟩ := liveHandle_eq_ok live
  cases h
  exact ⟨told, rfl⟩

/-! ### Events that open nothing -/

theorem send_step (own : Own s) (step : next s (.send j timeout) = some t) :
    Sheds s t ∧ ∀ a ∈ t.acts, a.reached = none ∨ a.reached = some a.own := by
  obtain ⟨c, found, rfl⟩ := Option.map_eq_some_iff.mp step
  cases sent : s.send j c timeout with
  | error error => exact ⟨.refl s, own.acts⟩
  | ok pair =>
    obtain ⟨-, eq⟩ := send_eq_ok sent
    simp only [eq]
    exact ⟨.of_clients rfl rfl fun _ _ h => h, own.act found⟩

theorem close_step (own : Own s) (step : next s (.close i) = some t) :
    Sheds s t ∧ ∀ a ∈ t.acts, a.reached = none ∨ a.reached = some a.own := by
  simp only [next, Option.ite_none_right_eq_some, Option.some.injEq] at step
  obtain ⟨-, rfl⟩ := step
  exact ⟨.of_clients rfl rfl fun _ _ => at?_closing_eq_some, own.acts⟩

theorem received_sheds (found : s.client? x.client = some c) (reply : Reply) :
    Sheds s (s.received x c reply).2 := by
  cases reply with
  | null => exact .refl s
  | value materialized => exact .refl s
  | error error =>
    unfold State.received
    by_cases live : s.isLive x.handle = true
    · rw [if_pos live]
      exact .refl s
    · rw [if_neg live]
      refine ⟨rfl, fun i d => ?_, fun _ _ h => h⟩
      exact client?_set (c := { c with handle := closed }) found rfl rfl (.inr rfl)

@[simp] theorem received_acts : (s.received x c reply).2.acts = s.acts := by
  cases reply with
  | null => rfl
  | value materialized => rfl
  | error error =>
    simp only [State.received]
    split <;> rfl

theorem received_step (own : Own s) (step : next s (.received reply) = some t) :
    Sheds s t ∧ ∀ a ∈ t.acts, a.reached = none ∨ a.reached = some a.own := by
  cases pending : s.exchanges with
  | nil =>
    simp only [next, pending] at step
    cases step
  | cons x rest =>
    simp only [next, pending, Option.ite_none_right_eq_some] at step
    obtain ⟨-, step⟩ := step
    obtain ⟨c, found, rfl⟩ := Option.map_eq_some_iff.mp step
    have sheds := received_sheds (s := { s with exchanges := rest }) found reply
    rw [received_acts]
    exact ⟨⟨sheds.opened, sheds.client, sheds.slot⟩, own.acts⟩

theorem sendAsync_step (own : Own s) (step : next s (.sendAsync j code) = some t) :
    Sheds s t ∧ ∀ a ∈ t.acts, a.reached = none ∨ a.reached = some a.own := by
  obtain ⟨c, found, rfl⟩ := Option.map_eq_some_iff.mp step
  unfold State.sendAsync
  cases c.liveHandle with
  | error error => exact ⟨.refl s, own.acts⟩
  | ok handle => exact ⟨.of_clients rfl rfl fun _ _ h => h, own.act found⟩

theorem drop_step (own : Own s) (step : next s (.drop j) = some t) :
    Sheds s t ∧ ∀ a ∈ t.acts, a.reached = none ∨ a.reached = some a.own := by
  simp only [next, Option.ite_none_left_eq_some] at step
  obtain ⟨-, step⟩ := step
  obtain ⟨c, found, rfl⟩ := Option.map_eq_some_iff.mp step
  unfold State.drop
  by_cases told : c.handle = closed
  · rw [if_pos told]
    refine ⟨⟨rfl, fun i d => ?_, fun _ _ h => h⟩, own.acts⟩
    exact client?_set (c := { c with dropped := true }) found rfl rfl (.inl rfl)
  · rw [if_neg told]
    refine ⟨⟨rfl, fun i d => ?_, fun _ _ => at?_closing_eq_some (s := s)⟩, own.act found⟩
    exact client?_set (c := { c with dropped := true }) found rfl rfl (.inl rfl)

/-! ### Events that open a connection -/

theorem connect_eq_ok {host : String} {port : Nat} {user password : String}
    {answer : Except Refusal Unit} (h : s.connect host port user password answer = .ok t) :
    (connecting host port user password answer).isOk = true ∧
      t = { s.opening with clients := s.clients ++ [⟨free s.conns, s.opened, false⟩] } := by
  obtain ⟨⟨⟩, connected, h⟩ := bind_eq_ok.mp h
  cases h
  rw [connected]
  exact ⟨rfl, rfl⟩

theorem connect_eq_error {host : String} {port : Nat} {user password : String}
    {answer : Except Refusal Unit} {error : RayError}
    (h : s.connect host port user password answer = .error error) :
    (connecting host port user password answer).isOk = false := by
  cases connected : connecting host port user password answer with
  | error error => rfl
  | ok connects =>
    unfold State.connect at h
    rw [connected] at h
    cases h

variable {clients : List Client}

theorem client?_append (grown : t.clients = s.clients ++ clients) (found : t.client? j = some c) :
    s.client? j = some c ∨ ∃ k, j = s.clients.length + k ∧ clients[k]? = some c := by
  unfold State.client? at found
  rw [grown] at found
  exact entry_append found

theorem client?_grown (grown : t.clients = s.clients ++ clients) (found : s.client? j = some c) :
    t.client? j = some c := by
  unfold State.client?
  rw [grown]
  exact entry_grown clients found

/-- A new connection keeps every client to its own exactly when no client's handle is its slot. -/
theorem opening_own_iff (own : Own s) (earlier : Earlier s) (conns : t.conns = s.opening.conns)
    (acts : t.acts = s.acts) (grown : t.clients = s.clients ++ clients)
    (fresh : ∀ c ∈ clients, c.handle = free s.conns ∧ c.own = s.opened) :
    Own t ↔ ∀ j c, s.client? j = some c → c.handle ≠ free s.conns := by
  have at_ : ∀ handle, t.at? handle = s.opening.at? handle := by
    intro handle
    unfold State.at?
    rw [conns]
  constructor
  · intro own' j c found same
    have reached : t.at? c.handle = some s.opened := by rw [at_, at?_opening, if_pos same]
    have number := own'.handles j c (client?_grown grown found) _ reached
    have := earlier j c found
    omega
  · intro apart
    refine ⟨fun a mem => own.acts a (acts ▸ mem), fun j c found n reached => ?_⟩
    rw [at_, at?_opening] at reached
    rcases client?_append grown found with old | ⟨k, -, new⟩
    · rw [if_neg (apart j c old)] at reached
      exact own.handles j c old n reached
    · obtain ⟨handle, number⟩ := fresh c (List.mem_of_getElem? new)
      rw [if_pos handle, Option.some.injEq] at reached
      rw [number, reached]

theorem opening_earlier (earlier : Earlier s) (opened : t.opened = s.opened + 1)
    (grown : t.clients = s.clients ++ clients) (fresh : ∀ c ∈ clients, c.own = s.opened) :
    Earlier t := by
  intro j c found
  rw [opened]
  rcases client?_append grown found with old | ⟨k, -, new⟩
  · exact Nat.lt_succ_of_lt (earlier j c old)
  · rw [fresh c (List.mem_of_getElem? new)]
    exact Nat.lt_succ_self _

theorem sheds_step (own : Own s) (step : next s e = some t) (quiet : e.opens = false) :
    Sheds s t ∧ ∀ a ∈ t.acts, a.reached = none ∨ a.reached = some a.own := by
  cases e with
  | connect host port user password answer =>
    cases connected : s.connect host port user password answer with
    | error error =>
      simp only [next, connected] at step
      cases step
      exact ⟨.refl s, own.acts⟩
    | ok t' =>
      have opens := (connect_eq_ok connected).1
      rw [Event.opens, opens] at quiet
      cases quiet
  | «open» => cases quiet
  | close i => exact close_step own step
  | send j timeout => exact send_step own step
  | received reply => exact received_step own step
  | sendAsync j code => exact sendAsync_step own step
  | drop j => exact drop_step own step

theorem opens_step (step : next s e = some t) (opens : e.opens = true) :
    ∃ clients, t = { s.opening with clients := s.clients ++ clients } ∧
      clients <+: [⟨free s.conns, s.opened, false⟩] := by
  cases e with
  | connect host port user password answer =>
    cases connected : s.connect host port user password answer with
    | error error =>
      rw [Event.opens, connect_eq_error connected] at opens
      cases opens
    | ok t' =>
      simp only [next, connected] at step
      obtain ⟨-, rfl⟩ := connect_eq_ok connected
      cases step
      exact ⟨_, rfl, List.prefix_refl _⟩
  | «open» =>
    cases step
    refine ⟨[], ?_, List.nil_prefix⟩
    rw [List.append_nil]
    rfl
  | close i | send j timeout | received reply | sendAsync j code | drop j => cases opens

/-- Each event keeps the numbers, and every client to its own connection exactly where it keeps
them apart. -/
theorem own_step (own : Own s) (earlier : Earlier s) (step : next s e = some t) :
    Earlier t ∧ (Own t ↔ Apart s e) := by
  cases opens : e.opens with
  | false =>
    obtain ⟨sheds, acts⟩ := sheds_step own step opens
    refine ⟨sheds.earlier earlier, iff_of_true (sheds.own own acts) fun contrary => ?_⟩
    rw [opens] at contrary
    cases contrary
  | true =>
    obtain ⟨clients, rfl, most⟩ := opens_step step opens
    have fresh : ∀ c ∈ clients, c.handle = free s.conns ∧ c.own = s.opened := by
      intro c mem
      obtain rfl := List.mem_singleton.mp (most.subset mem)
      exact ⟨rfl, rfl⟩
    refine ⟨opening_earlier earlier rfl rfl fun c mem => (fresh c mem).2, ?_⟩
    have kept := opening_own_iff (t := { s.opening with clients := s.clients ++ clients }) own earlier
      rfl rfl rfl fresh
    refine kept.trans ?_
    exact ⟨fun apart _ => apart, fun apart => apart opens⟩

theorem own_initial : Own initial := by
  constructor
  · intro a mem
    cases mem
  · intro j c found
    cases found

/-- In a run that keeps connections apart so far every client reached its own connection only, and
the next event keeps it so exactly where it keeps them apart. -/
theorem reach_own_iff_apart (run : Run (Guarded (Steps next) Apart) initial es s)
    (step : next s e = some t) : Own s ∧ (Own t ↔ Apart s e) := by
  apply run.guarded_iff (P := Own) (Q := Earlier)
  · intro s e t own earlier step
    exact own_step own earlier step
  · exact own_initial
  · exact fun _ _ found => nomatch found
  · exact step

/-- The server goes away in an exchange, and the next connection gets the slot. -/
theorem reach_own_iff_apart_told :
    let s : State := ⟨[none], 1, [⟨closed, 0, false⟩], [], [⟨0, some 0⟩]⟩
    Own s ∧ (Own s.opening ↔ Apart s .open) := by
  intro s
  have run : Run (Guarded (Steps next) Apart) initial
      [.connect "localhost" 5010 "" "" (.ok ()), .send 0 none, .close 0,
        .received (.error ⟨.io, "io", ""⟩)] s := by
    refine .cons ⟨rfl, fun _ j c found => nomatch found⟩ ?_
    refine .cons ⟨rfl, fun opens => nomatch opens⟩ ?_
    refine .cons ⟨rfl, fun opens => nomatch opens⟩ ?_
    exact .single ⟨rfl, fun opens => nomatch opens⟩
  exact reach_own_iff_apart run rfl

/-- The loop sees the server go away instead, and the client is not told. -/
theorem reach_taken_over :
    ¬ ∀ es s, Run (Steps next) initial es s →
      ∀ a ∈ s.acts, a.reached = none ∨ a.reached = some a.own := by
  intro all
  have taken : (exec next initial
      [.connect "localhost" 5010 "" "" (.ok ()), .close 0, .connect "localhost" 5011 "" "" (.ok ()),
        .sendAsync 0 0, .drop 0]).map (·.acts) = some [⟨0, some 1⟩, ⟨0, some 1⟩] := by decide
  obtain ⟨s, run, acts⟩ := Option.map_eq_some_iff.mp taken
  rcases all _ s (exec_eq_some_iff.mp run) ⟨0, some 1⟩ (by simp [acts]) with none | own
  · cases none
  · cases own

end Rayforce.Ipc
