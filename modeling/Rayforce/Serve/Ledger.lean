import Rayforce.Serve.Call

/-! The ends a server hands back, in order.  A ledger is kept of a run's events alone: which calls of
the guard were made inside no other's evaluation, and which of them have returned.  What `drain`
gave and what it would give now are the ends of exactly these. -/

namespace Rayforce.Serve

open Transition

/-- What the events so far say of the calls of the guard. -/
structure Ledger where
  /-- The calls that found the server installed. -/
  guarded : List Nat
  /-- The guarded calls whose payload is being evaluated, innermost first. -/
  inside : List Nat
  /-- The guarded calls made inside no other's evaluation. -/
  outermost : List Nat
  /-- The outermost calls that have returned, in order. -/
  finished : List Nat
  /-- All that `drain` has given. -/
  drained : List RequestEnd

def Ledger.empty : Ledger := ⟨[], [], [], [], []⟩

def Ledger.enter (l : Ledger) : Event → Ledger
  | .ask k =>
    { l with
      guarded := k :: l.guarded
      outermost := if l.inside.isEmpty then k :: l.outermost else l.outermost }
  | .evaluate k _ => if k ∈ l.guarded then { l with inside := k :: l.inside } else l
  | .answer k _ => { l with inside := l.inside.erase k }
  | .ret k _ => if k ∈ l.outermost then { l with finished := l.finished ++ [k] } else l
  | .drain ends => { l with drained := l.drained ++ ends }
  | _ => l

def ledger (es : List Event) : Ledger := es.foldl Ledger.enter .empty

/-- The end is that of call k: the one it recorded, with the text of its own payload. -/
def Entry (es : List Event) (k : Nat) (e : RequestEnd) : Prop :=
  ∃ payload now, .call k payload ∈ es ∧ .record k now e ∈ es ∧ e.text = textOf payload

/-- The call that has recorded its end and is about to return. -/
def returning : List Frame → List Nat
  | .call k _ (.returning _) :: _ => [k]
  | _ => []

def Frame.evaluating (l : Ledger) : Frame → Option Nat
  | .call k _ (.evaluating _) => if k ∈ l.guarded then some k else none
  | _ => none

/-- The guarded calls of a stack whose payload is being evaluated. -/
def Ledger.evaluating (l : Ledger) (stack : List Frame) : List Nat :=
  stack.filterMap (Frame.evaluating l)

/-- A call above `rest` is as far as the ledger says, and holds the registration exactly if it is
outermost. -/
def Frame.Agrees (l : Ledger) (rest : List Frame) : Frame → Prop
  | .call k _ (.entered _) => k ∉ l.guarded
  | .call k _ .asking => k ∈ l.guarded ∧ (k ∈ l.outermost ↔ l.evaluating rest = [])
  | .call k _ (.ready registered) | .call k _ (.evaluating registered)
  | .call k _ (.answered registered _) =>
    (registered = true ↔ k ∈ l.outermost) ∧
      (k ∈ l.guarded → (k ∈ l.outermost ↔ l.evaluating rest = []))
  | .call k _ (.taken _ _) | .call k _ (.returning _) =>
    k ∈ l.outermost ∧ l.evaluating rest = []
  | _ => True

/-- Every frame agrees with the ledger, above those that are inside an evaluation. -/
def Agree (l : Ledger) : List Frame → Prop
  | [] => True
  | f :: rest => f.Agrees l rest ∧ (∀ g ∈ rest.head?, g.open = true) ∧ Agree l rest

/-- The ledger and the machine tell the same of the calls. -/
structure Booked (l : Ledger) (s : State) : Prop where
  agree : Agree l s.stack
  inside : l.inside = l.evaluating s.stack
  guarded : ∀ k ∈ l.guarded, k < s.calls
  outermost : ∀ k ∈ l.outermost, k ∈ l.guarded
  finished : ∀ k ∈ l.finished, k < s.calls ∧ k ∉ s.stack.filterMap Frame.name
  once : l.finished.Nodup

variable {l l' : Ledger} {s t : State} {e : Event} {es : List Event} {k : Nat} {payload : Payload}
  {phase : Phase} {rest stack : List Frame} {answer : Answer} {budget : Option Duration}

theorem ledger_append (es : List Event) (e : Event) : ledger (es ++ [e]) = (ledger es).enter e := by
  rw [ledger, List.foldl_append]
  rfl

theorem evaluating_guarded {registered : Bool} (guarded : k ∈ l.guarded) :
    l.evaluating (.call k payload (.evaluating registered) :: rest) = k :: l.evaluating rest := by
  simp [Ledger.evaluating, Frame.evaluating, guarded]

theorem evaluating_unguarded {registered : Bool} (unguarded : k ∉ l.guarded) :
    l.evaluating (.call k payload (.evaluating registered) :: rest) = l.evaluating rest := by
  simp [Ledger.evaluating, Frame.evaluating, unguarded]

theorem guarded_of_evaluating (mem : k ∈ l.evaluating stack) : k ∈ l.guarded := by
  obtain ⟨f, -, evaluates⟩ := List.mem_filterMap.mp mem
  unfold Frame.evaluating at evaluates
  split at evaluates
  · split at evaluates
    · next guarded =>
      obtain rfl := Option.some.inj evaluates
      exact guarded
    · cases evaluates
  · cases evaluates

/-! ### Frames below a call -/

/-- The ledgers tell the same of every call but one. -/
structure Beside (k : Nat) (l l' : Ledger) : Prop where
  guarded : ∀ j, j ≠ k → (j ∈ l'.guarded ↔ j ∈ l.guarded)
  outermost : ∀ j, j ≠ k → (j ∈ l'.outermost ↔ j ∈ l.outermost)

theorem Beside.refl (k : Nat) (l : Ledger) : Beside k l l :=
  ⟨fun _ _ => Iff.rfl, fun _ _ => Iff.rfl⟩

theorem Beside.evaluating (beside : Beside k l l') (absent : k ∉ stack.filterMap Frame.name) :
    l'.evaluating stack = l.evaluating stack := by
  unfold Ledger.evaluating
  apply List.filterMap_congr
  intro f mem
  cases f with
  | push => rfl
  | drop joined => rfl
  | call j payload phase =>
    have ne : j ≠ k := by
      rintro rfl
      exact absent (List.mem_filterMap.mpr ⟨_, mem, rfl⟩)
    cases phase with
    | evaluating registered => simp only [Frame.evaluating, beside.guarded j ne]
    | _ => rfl

theorem Beside.agree (beside : Beside k l l') (absent : k ∉ stack.filterMap Frame.name)
    (agree : Agree l stack) : Agree l' stack := by
  induction stack with
  | nil => trivial
  | cons f rest ih =>
    obtain ⟨agrees, opened, below⟩ := agree
    have absent' : k ∉ rest.filterMap Frame.name := by
      intro mem
      obtain ⟨g, within, named⟩ := List.mem_filterMap.mp mem
      exact absent (List.mem_filterMap.mpr ⟨g, List.mem_cons_of_mem f within, named⟩)
    refine ⟨?_, opened, ih absent' below⟩
    cases f with
    | push => trivial
    | drop joined => trivial
    | call j payload phase =>
      have ne : j ≠ k := by
        rintro rfl
        exact absent (List.mem_filterMap.mpr ⟨_, List.mem_cons_self, rfl⟩)
      cases phase <;>
        simpa only [Frame.Agrees, beside.guarded j ne, beside.outermost j ne,
          beside.evaluating absent'] using agrees

/-- Where every frame is inside an evaluation, the registration is held exactly while a guarded call
is being evaluated. -/
theorem evaluating_eq_nil_iff (agree : Agree l stack) (opened : ∀ f ∈ stack.head?, f.open = true)
    (known : ∀ k ∈ l.outermost, k ∈ l.guarded) :
    l.evaluating stack = [] ↔ ∀ f ∈ stack, f.registered = false := by
  unfold Ledger.evaluating
  rw [List.filterMap_eq_nil_iff]
  induction stack with
  | nil => simp
  | cons f rest ih =>
    obtain ⟨agrees, opened', below⟩ := agree
    have ih := ih below opened'
    have here := opened f rfl
    simp only [List.forall_mem_cons]
    rw [← ih]
    refine and_congr_left fun quiet => ?_
    have empty : l.evaluating rest = [] := List.filterMap_eq_nil_iff.mpr quiet
    cases f with
    | push => exact iff_of_true rfl rfl
    | drop joined => exact iff_of_true rfl rfl
    | call k payload phase =>
      cases phase with
      | asking => exact iff_of_true rfl rfl
      | evaluating registered =>
        obtain ⟨holds, outer⟩ := agrees
        simp only [Frame.evaluating, Frame.registered, Phase.registered]
        by_cases guarded : k ∈ l.guarded
        · have registers := holds.mpr ((outer guarded).mpr empty)
          simp [guarded, registers]
        · have free : registered ≠ true := fun registers => guarded (known k (holds.mp registers))
          simp [guarded, free]
      | _ => cases here

/-- A guarded call above frames that are inside an evaluation finds no request registered exactly if
it is outermost. -/
theorem running_eq_none_iff (booked : Booked l s) (registered : Registered s)
    (top : s.stack = .call k payload .asking :: rest) :
    s.shared.running = none ↔ k ∈ l.outermost := by
  have agree := booked.agree
  rw [top] at agree
  obtain ⟨⟨-, outer⟩, opened, below⟩ := agree
  rw [outer, evaluating_eq_nil_iff below opened booked.outermost]
  have count : rest.countP Frame.registered = if s.shared.running.isSome then 1 else 0 := by
    have count := registered
    unfold Registered at count
    rw [top] at count
    exact count
  constructor
  · intro none
    rw [none] at count
    intro f mem
    simpa using List.countP_eq_zero.mp count f mem
  · intro free
    have zero : rest.countP Frame.registered = 0 := by
      rw [List.countP_eq_zero]
      intro f mem
      simp [free f mem]
    cases running : s.shared.running with
    | none => rfl
    | some run => simp [running, zero] at count

/-! ### Steps -/

theorem not_mem_names (named : Named s) (top : s.stack = .call k payload phase :: rest) :
    k ∉ rest.filterMap Frame.name := by
  have distinct := named.distinct
  rw [top] at distinct
  exact (List.nodup_cons.mp distinct).1

theorem Booked.top (booked : Booked l s) (top : s.stack = .call k payload phase :: rest) :
    (Frame.call k payload phase).Agrees l rest := by
  have agree := booked.agree
  rw [top] at agree
  exact agree.1

/-- Nothing is evaluated in the frame on top. -/
theorem Booked.below {f : Frame} (booked : Booked l s) (top : s.stack = f :: rest)
    (idle : f.evaluating l = none) : l.inside = l.evaluating rest := by
  rw [booked.inside, top]
  exact List.filterMap_cons_none idle

/-- The call on top goes on, and of the other calls the ledger tells what it told. -/
theorem Booked.advance {phase' : Phase} (booked : Booked l s) (named : Named s)
    (top : s.stack = .call k payload phase :: rest) (calls : t.calls = s.calls)
    (stack : t.stack = .call k payload phase' :: rest) (beside : Beside k l l')
    (agrees : (Frame.call k payload phase').Agrees l' rest)
    (inside : l'.inside = l'.evaluating t.stack) (finished : l'.finished = l.finished)
    (guarded : ∀ j ∈ l'.guarded, j ∈ l.guarded ∨ j = k)
    (outermost : ∀ j ∈ l'.outermost, j ∈ l'.guarded) : Booked l' t := by
  have absent := not_mem_names named top
  have agree := booked.agree
  rw [top] at agree
  obtain ⟨-, opened, below⟩ := agree
  refine ⟨?_, inside, ?_, outermost, ?_, finished ▸ booked.once⟩
  · rw [stack]
    exact ⟨agrees, opened, beside.agree absent below⟩
  · intro j mem
    rw [calls]
    rcases guarded j mem with before | rfl
    · exact booked.guarded j before
    · exact named.top_lt top
  · intro j mem
    rw [finished] at mem
    obtain ⟨lt, away⟩ := booked.finished j mem
    rw [top] at away
    rw [calls, stack]
    exact ⟨lt, away⟩

/-- The call on top goes on, and the ledger notes nothing. -/
theorem Booked.proceed {q : Phase} (booked : Booked l s) (named : Named s)
    (top : s.stack = .call k payload phase :: rest) (calls : t.calls = s.calls)
    (stack : t.stack = .call k payload q :: rest)
    (agrees : (Frame.call k payload q).Agrees l rest)
    (inside : l.inside = l.evaluating t.stack) : Booked l t :=
  booked.advance named top calls stack (.refl k l) agrees inside rfl (fun _ => .inl)
    booked.outermost

/-- The call on top returns. -/
theorem Booked.finish (booked : Booked l s) (named : Named s)
    (top : s.stack = .call k payload phase :: rest) (calls : t.calls = s.calls)
    (stack : t.stack = rest) (inside : l.inside = l.evaluating rest) {finished : List Nat}
    (once : finished = l.finished ∨ finished = l.finished ++ [k]) :
    Booked { l with finished } t := by
  have absent := not_mem_names named top
  have agree := booked.agree
  rw [top] at agree
  have agree' : Agree { l with finished } t.stack := by
    have beside : Beside k l { l with finished } := ⟨fun _ _ => Iff.rfl, fun _ _ => Iff.rfl⟩
    rw [stack]
    exact beside.agree absent agree.2.2
  have away : ∀ j ∈ l.finished, j < s.calls ∧ j ∉ rest.filterMap Frame.name := by
    intro j mem
    obtain ⟨lt, away⟩ := booked.finished j mem
    rw [top] at away
    exact ⟨lt, fun below => away (List.mem_cons_of_mem k below)⟩
  have new : k ∉ l.finished := by
    intro mem
    have away := (booked.finished k mem).2
    rw [top] at away
    exact away List.mem_cons_self
  refine ⟨agree', by rw [stack]; exact inside, ?_, booked.outermost, ?_, ?_⟩
  · rw [calls]
    exact booked.guarded
  · rw [calls, stack]
    intro j mem
    rcases once with rfl | rfl
    · exact away j mem
    · rcases List.mem_append.mp mem with before | last
      · exact away j before
      · obtain rfl := List.mem_singleton.mp last
        exact ⟨named.top_lt top, absent⟩
  · rcases once with rfl | rfl
    · exact booked.once
    · refine List.nodup_append.mpr ⟨booked.once, List.nodup_singleton k, ?_⟩
      rintro j mem _ last rfl
      exact new (List.mem_singleton.mp last ▸ mem)

/-- A frame that is no call is put on the stack or taken off it. -/
theorem Booked.same (booked : Booked l s) (calls : t.calls = s.calls) (agree : Agree l t.stack)
    (names : t.stack.filterMap Frame.name = s.stack.filterMap Frame.name)
    (evaluating : l.evaluating t.stack = l.evaluating s.stack) : Booked l t := by
  refine ⟨agree, evaluating ▸ booked.inside, ?_, booked.outermost, ?_, booked.once⟩
  · rw [calls]
    exact booked.guarded
  · rw [calls, names]
    exact booked.finished

theorem Booked.drain (booked : Booked l s) (named : Named s) :
    Booked (l.enter (.drain s.shared.drain.1)) { s with shared := s.shared.drain.2 } := by
  have beside : Beside s.calls l (l.enter (.drain s.shared.drain.1)) :=
    ⟨fun _ _ => Iff.rfl, fun _ _ => Iff.rfl⟩
  have absent : s.calls ∉ s.stack.filterMap Frame.name :=
    fun mem => Nat.lt_irrefl _ (named.below _ mem)
  refine ⟨beside.agree absent booked.agree, ?_, booked.guarded, booked.outermost, booked.finished,
    booked.once⟩
  exact booked.inside.trans (beside.evaluating absent).symm

/-- A call has the next number. -/
theorem Booked.call (booked : Booked l s) (payload : Payload) (opened : s.Open) :
    Booked (l.enter (.call s.calls payload))
      { s with
        stack := .call s.calls payload (.entered s.installed) :: s.stack
        calls := s.calls + 1 } := by
  refine ⟨⟨?_, opened, booked.agree⟩, booked.inside, ?_, booked.outermost, ?_, booked.once⟩
  · exact fun mem => Nat.lt_irrefl _ (booked.guarded _ mem)
  · exact fun k mem => Nat.lt_succ_of_lt (booked.guarded k mem)
  · intro k mem
    obtain ⟨lt, away⟩ := booked.finished k mem
    refine ⟨Nat.lt_succ_of_lt lt, ?_⟩
    show k ∉ s.calls :: s.stack.filterMap Frame.name
    simp only [List.mem_cons, not_or]
    exact ⟨Nat.ne_of_lt lt, away⟩

/-- A call is outermost if nothing is being evaluated when it asks. -/
theorem Booked.ask (booked : Booked l s) (named : Named s)
    (top : s.stack = .call k payload (.entered true) :: rest) :
    Booked (l.enter (.ask k)) { s with stack := .call k payload .asking :: rest } := by
  have agrees : k ∉ l.guarded := booked.top top
  have inner : k ∉ l.outermost := fun mem => agrees (booked.outermost k mem)
  have inside := booked.below top rfl
  have beside : Beside k l (l.enter (.ask k)) := by
    refine ⟨fun j ne => by simp [Ledger.enter, ne], fun j ne => ?_⟩
    simp only [Ledger.enter]
    split <;> simp [ne]
  have kept := beside.evaluating (not_mem_names named top)
  refine booked.advance named top rfl rfl beside ⟨List.mem_cons_self, ?_⟩ (inside.trans kept.symm)
    rfl (fun j mem => (List.mem_cons.mp mem).symm) ?_
  · rw [kept, ← inside]
    simp only [Ledger.enter]
    split
    · next empty => simpa using empty
    · next full => simpa [inner] using full
  · intro j mem
    simp only [Ledger.enter] at mem ⊢
    split at mem
    · rcases List.mem_cons.mp mem with rfl | before
      · exact List.mem_cons_self
      · exact List.mem_cons_of_mem _ (booked.outermost j before)
    · exact List.mem_cons_of_mem _ (booked.outermost j mem)

theorem Booked.begin (booked : Booked l s) (named : Named s) (registered : Registered s) (fd : Int)
    (now : Instant) (top : s.stack = .call k payload .asking :: rest) :
    Booked l { s with
      shared := (s.shared.begin fd now).2
      stack := .call k payload (.ready (s.shared.begin fd now).1) :: rest } := by
  have free := running_eq_none_iff booked registered top
  refine booked.proceed named top rfl rfl ⟨?_, fun _ => (booked.top top).2⟩ ?_
  · rw [← free]
    cases running : s.shared.running <;> simp [Shared.begin, running]
  · have inside := booked.below top rfl
    exact inside

theorem Booked.evaluateUninstalled (booked : Booked l s) (named : Named s)
    (top : s.stack = .call k payload (.entered false) :: rest) :
    Booked (l.enter (.evaluate k (Serve.evaluate payload)))
      { s with stack := .call k payload (.evaluating false) :: rest } := by
  have agrees : k ∉ l.guarded := booked.top top
  have inner : k ∉ l.outermost := fun mem => agrees (booked.outermost k mem)
  rw [show l.enter (.evaluate k (Serve.evaluate payload)) = l from if_neg agrees]
  refine booked.proceed named top rfl rfl ⟨by simp [inner], fun guarded => absurd guarded agrees⟩ ?_
  rw [evaluating_unguarded agrees]
  exact booked.below top rfl

theorem Booked.evaluate {held : Bool} (booked : Booked l s) (named : Named s)
    (top : s.stack = .call k payload (.ready held) :: rest) :
    Booked (l.enter (.evaluate k (Serve.evaluate payload)))
      { s with stack := .call k payload (.evaluating held) :: rest } := by
  have agrees := booked.top top
  have inside := booked.below top rfl
  by_cases guarded : k ∈ l.guarded
  · rw [show l.enter (.evaluate k (Serve.evaluate payload)) = { l with inside := k :: l.inside } from
      if_pos guarded]
    refine booked.advance named top rfl rfl ⟨fun _ _ => Iff.rfl, fun _ _ => Iff.rfl⟩ agrees ?_ rfl
      (fun _ => .inl) booked.outermost
    rw [inside]
    exact (evaluating_guarded guarded).symm
  · rw [show l.enter (.evaluate k (Serve.evaluate payload)) = l from if_neg guarded]
    refine booked.proceed named top rfl rfl agrees ?_
    rw [inside, evaluating_unguarded guarded]

theorem Booked.answered {held : Bool} (booked : Booked l s) (named : Named s) (raw : Option Answer)
    (top : s.stack = .call k payload (.evaluating held) :: rest) :
    Booked (l.enter (.answer k raw))
      { s with stack := .call k payload (.answered held (owned raw)) :: rest } := by
  refine booked.advance named top rfl rfl ⟨fun _ _ => Iff.rfl, fun _ _ => Iff.rfl⟩ (booked.top top)
    ?_ rfl (fun _ => .inl) booked.outermost
  show l.inside.erase k = l.evaluating rest
  rw [booked.inside, top]
  by_cases guarded : k ∈ l.guarded
  · rw [evaluating_guarded guarded, List.erase_cons_head]
  · rw [evaluating_unguarded guarded, List.erase_of_not_mem]
    exact fun mem => guarded (guarded_of_evaluating mem)

/-- The call that takes the registration is outermost. -/
theorem Booked.take (booked : Booked l s) (named : Named s) (registered : Registered s)
    (top : s.stack = .call k payload (.answered true answer) :: rest) :
    Booked l { s with
      shared := (s.shared.take s.interrupt).2.1
      interrupt := (s.shared.take s.interrupt).2.2
      stack := .call k payload (afterTake answer (s.shared.take s.interrupt).1) :: rest } := by
  obtain ⟨holds, outer⟩ := booked.top top
  have outermost := holds.mp rfl
  obtain ⟨run, running⟩ := registered.running top
  refine booked.proceed named top (q := .taken answer run) rfl (by rw [Shared.take, running]; rfl)
    ⟨outermost, (outer (booked.outermost k outermost)).mp outermost⟩ ?_
  have inside := booked.below top rfl
  rw [Shared.take, running]
  exact inside

theorem Booked.record {run : Running} (booked : Booked l s) (named : Named s) (ended : RequestEnd)
    (top : s.stack = .call k payload (.taken answer run) :: rest) :
    Booked l { s with
      shared := s.shared.record ended
      stack := .call k payload (.returning answer) :: rest } := by
  have agrees : k ∈ l.outermost ∧ l.evaluating rest = [] := booked.top top
  have inside := booked.below top rfl
  exact booked.proceed named top (q := .returning answer) rfl rfl agrees inside

theorem Booked.retUnregistered (booked : Booked l s) (named : Named s)
    (top : s.stack = .call k payload (.answered false answer) :: rest) :
    Booked (l.enter (.ret k answer)) { s with stack := rest } := by
  have inner : k ∉ l.outermost := fun mem => Bool.noConfusion ((booked.top top).1.mpr mem)
  rw [show l.enter (.ret k answer) = l from if_neg inner]
  have inside := booked.below top rfl
  exact booked.finish named top (t := { s with stack := rest }) rfl rfl inside (.inl rfl)

theorem Booked.ret (booked : Booked l s) (named : Named s)
    (top : s.stack = .call k payload (.returning answer) :: rest) :
    Booked (l.enter (.ret k answer)) { s with stack := rest } := by
  obtain ⟨outermost, -⟩ := booked.top top
  rw [show l.enter (.ret k answer) = { l with finished := l.finished ++ [k] } from if_pos outermost]
  have inside := booked.below top rfl
  exact booked.finish named top (t := { s with stack := rest }) rfl rfl inside (.inr rfl)

theorem Booked.step (booked : Booked l s) (named : Named s) (registered : Registered s)
    (step : Step s e t) : Booked (l.enter e) t := by
  cases step with
  | push opened | stop served opened => exact booked.same rfl ⟨trivial, opened, booked.agree⟩ rfl rfl
  | pop top | uninstall top =>
    have agree := booked.agree
    rw [top] at agree
    exact booked.same rfl agree.2.2 (by rw [top]; rfl) (by rw [top]; rfl)
  | join top exited =>
    have agree := booked.agree
    rw [top] at agree
    exact booked.same rfl ⟨trivial, agree.2⟩ (by rw [top]; rfl) (by rw [top]; rfl)
  | watch | check | idle | cancel =>
    exact ⟨booked.agree, booked.inside, booked.guarded, booked.outermost, booked.finished, booked.once⟩
  | drain => exact booked.drain named
  | call payload opened => exact booked.call payload opened
  | ask top => exact booked.ask named top
  | begin fd now top => exact booked.begin named registered fd now top
  | evaluateUninstalled top => exact booked.evaluateUninstalled named top
  | evaluate top => exact booked.evaluate named top
  | answer raw top => exact booked.answered named raw top
  | take top => exact booked.take named registered top
  | record now top => exact booked.record named _ top
  | retUnregistered top => exact booked.retUnregistered named top
  | ret top => exact booked.ret named top

/-! ### Ends -/

theorem Entry.grow {r : RequestEnd} (entry : Entry es k r) (e : Event) : Entry (es ++ [e]) k r := by
  obtain ⟨payload, now, called, recorded, text⟩ := entry
  exact ⟨payload, now, List.mem_append_left _ called, List.mem_append_left _ recorded, text⟩

/-- Every call on the stack was made, and the ends given and kept are those of the calls that have
returned, and of the one that is about to. -/
structure Recorded (es : List Event) (s : State) : Prop where
  called : ∀ k payload phase, .call k payload phase ∈ s.stack → .call k payload ∈ es
  ends : List.Forall₂ (Entry es) ((ledger es).finished ++ returning s.stack)
    ((ledger es).drained ++ s.shared.ends)

theorem returning_of_open (opened : ∀ f ∈ stack.head?, f.open = true) : returning stack = [] := by
  unfold returning
  split
  · cases opened _ rfl
  · rfl

theorem check_ends (s : Shared) (i : Interrupt) (now : Instant) (closed : Bool) :
    (s.check i now closed).1.ends = s.ends := by
  unfold Shared.check
  split
  · split <;> rfl
  · rfl

/-- A call is put on the stack by its own event, and is on it until it returns. -/
theorem call_of_step (step : Step s e t) (mem : .call k payload phase ∈ t.stack) :
    (∃ phase', .call k payload phase' ∈ s.stack) ∨ e = .call k payload := by
  cases step with
  | call payload' opened =>
    rcases List.mem_cons.mp mem with same | below
    · cases same
      exact .inr rfl
    · exact .inl ⟨phase, below⟩
  | push | stop =>
    rcases List.mem_cons.mp mem with same | below
    · cases same
    · exact .inl ⟨phase, below⟩
  | pop top | uninstall top | retUnregistered top | ret top =>
    exact .inl ⟨phase, top ▸ List.mem_cons_of_mem _ mem⟩
  | join top exited =>
    rcases List.mem_cons.mp mem with same | below
    · cases same
    · exact .inl ⟨phase, top ▸ List.mem_cons_of_mem _ below⟩
  | ask top | begin fd now top | evaluateUninstalled top | evaluate top | answer raw top | take top
  | record now top =>
    rcases List.mem_cons.mp mem with same | below
    · cases same
      exact .inl ⟨_, top ▸ List.mem_cons_self⟩
    · exact .inl ⟨phase, top ▸ List.mem_cons_of_mem _ below⟩
  | drain | watch | check | idle | cancel => exact .inl ⟨phase, mem⟩

theorem begin_ends (s : Shared) (fd : Int) (now : Instant) : (s.begin fd now).2.ends = s.ends := by
  unfold Shared.begin
  split <;> rfl

theorem enter_evaluate (l : Ledger) (k : Nat) (request : Request) :
    (l.enter (.evaluate k request)).finished = l.finished ∧
      (l.enter (.evaluate k request)).drained = l.drained := by
  simp only [Ledger.enter]
  split <;> exact ⟨rfl, rfl⟩

/-- Every event but the record of an end leaves the calls and the ends as they are paired. -/
theorem paired_step (booked : Booked l s) (registered : Registered s) (step : Step s e t) :
    (∃ k now ended, e = .record k now ended) ∨
      (l.enter e).finished ++ returning t.stack = l.finished ++ returning s.stack ∧
        (l.enter e).drained ++ t.shared.ends = l.drained ++ s.shared.ends := by
  have below : ∀ {f rest}, s.stack = f :: rest → returning rest = [] := by
    intro f rest top
    have agree := booked.agree
    rw [top] at agree
    exact returning_of_open agree.2.1
  cases step with
  | record now top => exact .inl ⟨_, _, _, rfl⟩
  | push opened | call payload opened | stop served opened =>
    rw [returning_of_open opened]
    exact .inr ⟨rfl, rfl⟩
  | drain served opened => exact .inr ⟨rfl, List.append_nil _⟩
  | watch | idle | cancel => exact .inr ⟨rfl, rfl⟩
  | check now closed => exact .inr ⟨rfl, congrArg _ (check_ends ..)⟩
  | pop top | uninstall top =>
    rw [below top, top]
    exact .inr ⟨rfl, rfl⟩
  | join top exited =>
    rw [top]
    exact .inr ⟨rfl, rfl⟩
  | ask top =>
    rw [top]
    exact .inr ⟨rfl, rfl⟩
  | begin fd now top =>
    rw [top]
    exact .inr ⟨rfl, congrArg _ (begin_ends ..)⟩
  | evaluateUninstalled top | evaluate top =>
    obtain ⟨finished, drained⟩ := enter_evaluate l _ _
    rw [finished, drained, top]
    exact .inr ⟨rfl, rfl⟩
  | answer raw top =>
    rw [top]
    exact .inr ⟨rfl, rfl⟩
  | take top =>
    obtain ⟨run, running⟩ := registered.running top
    rw [Shared.take, running, top]
    exact .inr ⟨rfl, rfl⟩
  | @retUnregistered k payload answer rest top =>
    have inner : k ∉ l.outermost := fun mem => Bool.noConfusion ((booked.top top).1.mpr mem)
    rw [show l.enter (.ret k answer) = l from if_neg inner, below top, top]
    exact .inr ⟨rfl, rfl⟩
  | @ret k payload answer rest top =>
    obtain ⟨outermost, -⟩ := booked.top top
    rw [show l.enter (.ret k answer) = { l with finished := l.finished ++ [k] } from
      if_pos outermost, below top, top, List.append_nil]
    exact .inr ⟨rfl, rfl⟩

theorem Recorded.step (recorded : Recorded es s) (booked : Booked (ledger es) s)
    (registered : Registered s) (step : Step s e t) : Recorded (es ++ [e]) t := by
  constructor
  · intro k payload phase mem
    rcases call_of_step step mem with ⟨phase', before⟩ | rfl
    · exact List.mem_append_left _ (recorded.called k payload phase' before)
    · exact List.mem_append_right _ List.mem_cons_self
  · have ends := recorded.ends.imp fun k r entry => entry.grow (r := r) e
    rw [ledger_append]
    rcases paired_step booked registered step with ⟨k, now, ended, rfl⟩ | ⟨calls, given⟩
    · cases step with
      | @record _ payload answer run rest _ top =>
        have none : returning (.call k payload (.taken answer run) :: rest) = [] := rfl
        rw [top, none, List.append_nil] at ends
        have called := recorded.called k payload _ (top ▸ List.mem_cons_self)
        have entry : Entry (es ++ [.record k now (requestEnd run (textOf payload) answer now)]) k
            (requestEnd run (textOf payload) answer now) :=
          ⟨payload, now, List.mem_append_left _ called, by simp, rfl⟩
        show List.Forall₂ _ ((ledger es).finished ++ [k])
          ((ledger es).drained ++ (s.shared.ends ++ [_]))
        rw [← List.append_assoc]
        exact List.rel_append ends (.cons entry .nil)
    · rw [calls, given]
      exact ends

theorem kept_ledger (run : Run Step (initial budget) es s) : Booked (ledger es) s ∧ Recorded es s := by
  refine run.history (P := fun es s => Booked (ledger es) s ∧ Recorded es s) ?_ ?_
  · refine ⟨⟨trivial, rfl, ?_, ?_, ?_, List.nodup_nil⟩, ?_, .nil⟩
    · exact fun k mem => nomatch mem
    · exact fun k mem => nomatch mem
    · exact fun k mem => nomatch mem
    · exact fun k payload phase mem => nomatch mem
  · rintro es s e t run ⟨booked, recorded⟩ step
    have reached : Reachable Step (initial budget) s := ⟨es, run⟩
    have registered := registered_reachable reached
    refine ⟨?_, recorded.step booked registered step⟩
    rw [ledger_append]
    exact booked.step (named_reachable reached) registered step

/-! ### What the calls do to the registration -/

/-- An event of a call that is not outermost leaves the registration as it is. -/
theorem nested_keeps (booked : Booked l s) (registered : Registered s) (step : Step s e t)
    (own : e.about k = true) (nested : k ∉ (l.enter e).outermost) :
    t.shared.running = s.shared.running := by
  cases step with
  | @begin j payload rest fd now top =>
    obtain rfl := eq_of_beq own
    have full : s.shared.running ≠ none :=
      fun none => nested ((running_eq_none_iff booked registered top).mp none)
    obtain ⟨run, running⟩ := Option.ne_none_iff_exists'.mp full
    simp only [Shared.begin, running]
  | @take j payload answer rest top =>
    obtain rfl := eq_of_beq own
    exact absurd ((booked.top top).1.mp rfl) nested
  | check => cases own
  | _ => rfl

/-- Once an outermost call has returned no request is registered. -/
theorem outermost_leaves (booked : Booked l s) (registered : Registered s)
    (step : Step s (.ret k answer) t) (outermost : k ∈ l.outermost) :
    t.shared.running = none := by
  have registered' := registered.step step
  cases step with
  | @retUnregistered _ payload _ rest top =>
    exact Bool.noConfusion ((booked.top top).1.mpr outermost)
  | @ret _ payload _ rest top =>
    have agree := booked.agree
    rw [top] at agree
    obtain ⟨⟨-, quiet⟩, opened, below⟩ := agree
    have free := (evaluating_eq_nil_iff below opened booked.outermost).mp quiet
    exact running_none_of_unregistered registered' free

/-- In every run, what `drain` gave and what it would give now are the ends of the outermost calls that
have returned, in their order and each once, and of the one that is about to return.  The events of
any other call leave the registration as it is, and when an outermost call has returned none is left. -/
theorem ends_in_order (run : Run Step (initial budget) es s) :
    List.Forall₂ (Entry es) ((ledger es).finished ++ returning s.stack)
        ((ledger es).drained ++ s.shared.ends) ∧
      (s.Open → returning s.stack = []) ∧ (ledger es).finished.Nodup ∧
      (∀ e t k, Step s e t → e.about k = true → k ∉ (ledger (es ++ [e])).outermost →
        t.shared.running = s.shared.running) ∧
      ∀ k answer t, Step s (.ret k answer) t → k ∈ (ledger es).outermost →
        t.shared.running = none := by
  obtain ⟨booked, recorded⟩ := kept_ledger run
  have registered := registered_reachable ⟨es, run⟩
  refine ⟨recorded.ends, returning_of_open, booked.once, ?_, ?_⟩
  · intro e t k step own nested
    rw [ledger_append] at nested
    exact nested_keeps booked registered step own nested
  · intro k answer t step outermost
    exact outermost_leaves booked registered step outermost

/-- The end of the outer of two calls. -/
def outerEnd (outer : Payload) : RequestEnd := requestEnd ⟨4, 0, none⟩ (textOf outer) .null 2

/-- A guarded request whose evaluation calls the guard again, and a drain after it. -/
def nested (outer inner : Payload) : List Event :=
  [.call 0 outer, .ask 0, .begin 0 4 0 true, .evaluate 0 (evaluate outer), .call 1 inner, .ask 1,
    .begin 1 4 1 false, .evaluate 1 (evaluate inner), .answer 1 none, .ret 1 .null, .answer 0 none,
    .take 0, .record 0 2 (outerEnd outer), .ret 0 .null, .drain [outerEnd outer]]

theorem nested_run (outer inner : Payload) :
    Run Step (initial none) (nested outer inner) { initial none with calls := 2 } := by
  refine .cons (.call outer (by decide)) <| .cons (.ask rfl) <| .cons (.begin 4 0 rfl) <|
    .cons (.evaluate rfl) ?_
  refine .cons (.call inner (fun f top => by cases top; rfl)) <| .cons (.ask rfl) <|
    .cons (.begin 4 1 rfl) <| .cons (.evaluate rfl) <| .cons (.answer none rfl) <|
    .cons (.retUnregistered rfl) ?_
  refine .cons (.answer none rfl) <| .cons (.take rfl) <| .cons (.record 2 rfl) <| .cons (.ret rfl) ?_
  exact .single (.drain rfl fun f top => nomatch top)

theorem ends_in_order_nested :
    let es := nested (.string [49]) (.string [50])
    List.Forall₂ (Entry es) [0] [outerEnd (.string [49])] :=
  (ends_in_order (nested_run (.string [49]) (.string [50]))).1

end Rayforce.Serve
