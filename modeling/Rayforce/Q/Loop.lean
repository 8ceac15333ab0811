import Rayforce.Q.Identity
import Rayforce.Q.Socket

/-! The sockets' machine and the loop's are one: what the events of a runtime with its sockets do to the
loop is what the loop's own machine does, with each attach made at once. -/

namespace Rayforce.Q

open Slots Transition

variable {m m' : Machine} {e : SocketEvent} {es : List SocketEvent} {id own : Nat} {conn : Conn}
  {data : Address} {s : State}

/-- The rest of an attach whose selector resolves. -/
def State.claim (s : State) (id own : Nat) (data : Address) : State :=
  { (s.claimSelector id).2 with subs := s.subs ++ [⟨id, data, s.nextToken, own, false⟩] }

/-- The loop once the attach under way has returned. -/
def Machine.settled (m : Machine) : State :=
  match m.attaching with
  | none => m.loop
  | some (id, own) => (m.resolve id own).2.loop

/-- What the event is to the loop. -/
def SocketEvent.onLoop : SocketEvent → Option Event
  | .attach _ answer => some (.attach answer)
  | .register data => some (.register data)
  | .disconnect id => some (.disconnect id)
  | .send j => some (.send j)
  | .dropSub j => some (.drop j)
  | .connect _ _ _ _ _ | .dropHandle _ | .resolve | .destroy => none

/-- The connection of an attach under way stays, and so does the loop. -/
def Stays (m : Machine) : SocketEvent → Prop
  | .disconnect id => ∀ own, m.attaching ≠ some (id, own)
  | .destroy => False
  | _ => True

/-- The selector of the attach under way resolves. -/
def Resolves (m : Machine) : Prop :=
  ∀ id own, m.attaching = some (id, own) → ∃ conn, at? m.loop.conns id = some conn

theorem settled_idle (idle : m.attaching = none) : m.settled = m.loop := by
  unfold Machine.settled
  rw [idle]

theorem resolve_claims (m : Machine) (own : Nat) (found : at? m.loop.conns id = some conn) :
    (m.resolve id own).2 = { m with attaching := none, loop := m.loop.claim id own conn.data } := by
  have resolves : m.loop.selectorData id = some conn.data := by rw [State.selectorData, found]; rfl
  unfold Machine.resolve
  dsimp only
  rw [resolves]
  rfl

theorem settled_attaching (attaching : m.attaching = some (id, own))
    (found : at? m.loop.conns id = some conn) : m.settled = m.loop.claim id own conn.data := by
  unfold Machine.settled
  rw [attaching]
  dsimp only
  rw [resolve_claims m own found]

/-- Where nothing happens in between, the two halves of an attach are the attach. -/
theorem attach_resolve (m : Machine) (i fd : Nat) (data : Address) :
    ((m.attach i fd (some data)).2.resolve (free m.loop.conns) m.loop.registered).2.loop =
      m.loop.attach data := by
  have found : at? (m.attach i fd (some data)).2.loop.conns (free m.loop.conns) =
      some ⟨m.loop.registered, data⟩ :=
    (at?_register ..).trans (if_pos rfl)
  rw [resolve_claims _ _ found, attach_eq]
  rfl

/-- The event does to the settled loop what it is to the loop. -/
structure Refines (m : Machine) (e : SocketEvent) (m' : Machine) : Prop where
  resolves : Resolves m'
  moves : ∀ d, e.onLoop = some d → next m.settled d = some m'.settled
  stays : e.onLoop = none → m'.settled = m.settled

/-! ### Steps -/

theorem Refines.something {d : Event} (resolves : Resolves m') (seen : e.onLoop = some d)
    (moves : next m.settled d = some m'.settled) : Refines m e m' where
  resolves := resolves
  moves d' seen' := by
    cases seen.symm.trans seen'
    exact moves
  stays none := by cases seen.symm.trans none

theorem Refines.nothing (resolves : Resolves m') (unseen : e.onLoop = none)
    (stays : m'.settled = m.settled) : Refines m e m' where
  resolves := resolves
  moves d seen := by cases unseen.symm.trans seen
  stays _ := stays

theorem Resolves.idle (idle : m.attaching = none) : Resolves m := by
  intro id own attaching
  rw [idle] at attaching
  cases attaching

/-- An attach that succeeds has its selector. -/
theorem refines_attach (idle : m.attaching = none) (i fd : Nat) (apart : ¬m.loop.inUse data = true) :
    Refines m (.attach i (some data)) (m.attach i fd (some data)).2 := by
  have found : at? (m.attach i fd (some data)).2.loop.conns (free m.loop.conns) =
      some ⟨m.loop.registered, data⟩ := (at?_register ..).trans (if_pos rfl)
  refine .something (fun id own attaching => ?_) rfl ?_
  · cases attaching
    exact ⟨_, found⟩
  · rw [settled_idle idle]
    exact (if_neg apart).trans (congrArg some (attach_resolve m i fd data).symm)

/-- No attach is under way. -/
theorem refines_idle (idle : m.attaching = none) (step : m.next e = some m') (stays : Stays m e) :
    Refines m e m' := by
  have something {d : Event} (idle' : m'.attaching = none) (seen : e.onLoop = some d)
      (moves : next m.loop d = some m'.loop) : Refines m e m' := by
    refine .something (.idle idle') seen ?_
    rw [settled_idle idle, settled_idle idle']
    exact moves
  have nothing (idle' : m'.attaching = none) (unseen : e.onLoop = none)
      (same : m'.loop = m.loop) : Refines m e m' := by
    refine .nothing (.idle idle') unseen ?_
    rw [settled_idle idle, settled_idle idle']
    exact same
  unfold Machine.next at step
  rw [idle] at step
  split at step
  · cases step
  · cases e with
    | connect host user password port fd =>
      cases step
      rcases connectWith_cases m host user password port fd with same | made
      · rw [same] at nothing ⊢
        exact nothing idle rfl rfl
      · rw [made] at nothing ⊢
        exact nothing idle rfl rfl
    | dropHandle i =>
      obtain ⟨fd, -, rfl⟩ := Option.map_eq_some_iff.mp step
      exact nothing idle rfl rfl
    | attach i answer =>
      simp only [Option.ite_none_left_eq_some, Option.map_eq_some_iff] at step
      obtain ⟨apart, fd, -, rfl⟩ := step
      cases answer with
      | none => exact something idle rfl rfl
      | some data => exact refines_attach idle i fd apart
    | resolve => cases step
    | register data =>
      simp only [Option.ite_none_left_eq_some, Option.some.injEq] at step
      obtain ⟨apart, rfl⟩ := step
      exact something idle rfl (if_neg apart)
    | disconnect id =>
      simp only [Option.ite_none_right_eq_some, Option.some.injEq] at step
      obtain ⟨there, rfl⟩ := step
      exact something idle rfl (if_pos there)
    | send j =>
      obtain ⟨sub, found, made⟩ := Option.map_eq_some_iff.mp step
      cases sent : m.loop.send sub with
      | ok loop =>
        simp only [sent] at made
        subst made
        exact something rfl rfl (by simp only [next, found, Option.map_some, sent])
      | error why =>
        simp only [sent] at made
        subst made
        exact something idle rfl (by simp only [next, found, Option.map_some, sent])
    | dropSub j =>
      obtain ⟨sub, found, rfl⟩ := Option.map_eq_some_iff.mp step
      refine something (dropSub_attaching m sub ▸ idle) rfl ?_
      dsimp only
      rw [dropSub_loop]
      simp only [next, found, Option.map_some]
    | destroy => cases stays

/-- What happens inside an attach happens as well after it. -/
theorem refines_inside (resolves : Resolves m) (attaching : m.attaching = some (id, own))
    (step : m.next e = some m') (stays : Stays m e) : Refines m e m' := by
  obtain ⟨conn, found⟩ := resolves id own attaching
  have settled := settled_attaching attaching found
  have still (attaching' : m'.attaching = m.attaching)
      (found' : at? m'.loop.conns id = some conn) :
      Resolves m' ∧ m'.settled = m'.loop.claim id own conn.data := by
    rw [attaching] at attaching'
    refine ⟨fun id' own' same => ?_, settled_attaching attaching' found'⟩
    cases attaching'.symm.trans same
    exact ⟨conn, found'⟩
  unfold Machine.next at step
  rw [attaching] at step
  split at step
  · cases step
  · next shut =>
    cases e with
    | resolve =>
      rw [Option.map_some] at step
      obtain rfl := (Option.some.inj step).symm.trans (resolve_claims m own found)
      exact .nothing (.idle rfl) rfl ((settled_idle rfl).trans settled.symm)
    | register data =>
      simp only [Option.ite_none_left_eq_some, Option.some.injEq] at step
      obtain ⟨apart, rfl⟩ := step
      have other : id ≠ free m.loop.conns := by
        rintro rfl
        rw [at?_free] at found
        cases found
      obtain ⟨resolves', settled'⟩ :=
        still rfl ((at?_register ..).trans ((if_neg other).trans found))
      refine .something resolves' rfl ?_
      rw [settled, settled']
      exact if_neg apart
    | disconnect i =>
      simp only [Option.ite_none_right_eq_some, Option.some.injEq] at step
      obtain ⟨there, rfl⟩ := step
      have other : id ≠ i := by
        rintro rfl
        exact stays own attaching
      obtain ⟨resolves', settled'⟩ :=
        still rfl ((at?_release ..).trans ((if_neg other).trans found))
      refine .something resolves' rfl ?_
      rw [settled, settled']
      exact if_pos there
    | _ => exact absurd (by simp [SocketEvent.inside]) shut

theorem refines_step (resolves : Resolves m) (step : m.next e = some m') (stays : Stays m e) :
    Refines m e m' := by
  cases attaching : m.attaching with
  | none => exact refines_idle attaching step stays
  | some under => exact refines_inside resolves attaching step stays

/-- In a run in which the core closes no connection while it is being attached, and does not go down,
what the handles, the sockets and the two halves of each attach do to the loop, with whatever else
happens between the halves, is what the loop's machine does with the same events and each attach made at
once; after an attach has returned the loops are the same. -/
theorem sockets_refine_loop (run : Run (Guarded (Steps Machine.next) Stays) start es m) :
    Run (Steps next) initial (es.filterMap SocketEvent.onLoop) m.settled ∧
      (m.attaching = none → m.settled = m.loop) := by
  refine ⟨?_, settled_idle⟩
  apply run.view (P := Resolves) Machine.settled
  · exact fun m e m' resolves ⟨step, stays⟩ => (refines_step resolves step stays).resolves
  · exact fun m e m' d resolves ⟨step, stays⟩ => (refines_step resolves step stays).moves d
  · exact fun m e m' resolves ⟨step, stays⟩ => (refines_step resolves step stays).stays
  · exact .idle rfl

/-- A connection is accepted while another is being attached. -/
theorem sockets_refine_loop_between : ∃ m : Machine,
    m.loop.subs = [⟨0, 7, 1, 0, false⟩] ∧
      Run (Steps next) initial [.attach (some 7), .register 9, .send 0] m.loop := by
  have run : Run (Guarded (Steps Machine.next) Stays) start
      [.connect "q" "" "" 5010 3, .attach 0 (some 7), .register 9, .resolve, .send 0] _ :=
    .cons ⟨rfl, trivial⟩ <| .cons ⟨rfl, trivial⟩ <| .cons ⟨rfl, trivial⟩ <| .cons ⟨rfl, trivial⟩ <|
      .single ⟨rfl, trivial⟩
  obtain ⟨looped, settled⟩ := sockets_refine_loop run
  exact ⟨_, rfl, settled rfl ▸ looped⟩

end Rayforce.Q
