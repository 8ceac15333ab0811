import Rayforce.Reference.Forgotten
import Rayforce.Reference.Handler
import Rayforce.Reference.Queries

/-! Runs of everything that a program does, at the top and in the handlers that the core calls. -/

namespace Rayforce.Reference

open Calls Custody Transition

variable {values base : Values} {args : List Pointer} {i : Nat} {p reply : Pointer} {s t : State}
  {e : Acted} {es : List Acted} {lent frame : List Due} {f : Trampoline}

theorem uses_single {m : N Pointer} (makes : whole.Uses lent [] m Pointer.dues) :
    whole.Uses lent [] (single m) duesOf :=
  makes.bind fun p => Uses.pure (.of_eq (duesOf_one p).symm)

theorem uses_nothing {m : N Unit} (makes : whole.Uses lent [] m fun _ => []) :
    whole.Uses lent [] (nothing m) duesOf :=
  makes.bind fun _ => Uses.pure (.refl _)

/-- Every operation needs only what it is lent, and gives the caller what it makes. -/
theorem uses_deed (d : Deed) : whole.Uses (duesOf d.lent) [] d.run duesOf := by
  have there {p : Pointer} {ps : List Pointer} (mem : p ∈ ps) := dues_subset_duesOf mem
  cases d with
  | slice | concat => exact uses_single (uses_fetched _)
  | get self idx => exact uses_single (uses_get self idx)
  | toVec self => exact uses_toVec self
  | format self => exact uses_nothing (uses_format self)
  | serialize self => exact uses_nothing (uses_serialize self)
  | deserialize len => exact uses_single (uses_deserialize len)
  | setGlobal name value => exact uses_nothing (uses_setGlobal name value)
  | asTable self => exact uses_single (uses_asTable (there List.mem_cons_self))
  | columnAt self idx => exact uses_single (uses_columnAt self idx)
  | columns self => exact uses_columns self
  | readCsv columnTypes path => exact uses_single (uses_readCsv columnTypes path)
  | loadSplayed dir symPath => exact uses_single (uses_loadSplayed dir symPath)
  | loadParted root name => exact uses_single (uses_loadParted root name)
  | insert self values => exact uses_single (uses_insert self values)
  | upsertColumns self columns => exact uses_single (uses_upsertColumns self columns)
  | endRows op self n => exact uses_single (uses_endRows (there List.mem_cons_self) op n)
  | take self => exact uses_single (uses_take (there List.mem_cons_self))
  | join op self other on =>
    exact uses_single (uses_join (there List.mem_cons_self)
      (there (List.mem_cons_of_mem _ List.mem_cons_self)) op on)
  | fnNew source => exact uses_single (uses_fnNew source)
  | fromGlobal name => exact uses_single (uses_fromGlobal name)
  | bindFn self n => exact uses_nothing (uses_setGlobal _ self)
  | metadata self => exact uses_single (uses_meta (there List.mem_cons_self))
  | execute e => exact uses_single (uses_execute (List.Subset.refl _))
  | select q => exact uses_single (uses_select (List.Subset.refl _))
  | update q => exact uses_single (uses_update (List.Subset.refl _))
  | qExecute fd query => exact uses_single (uses_qExecute fd query)
  | subscriptionSend id msg => exact uses_single (uses_subscriptionSend id msg)
  | subscriptionExecute id expr =>
    exact uses_single (uses_local (uses_string expr) fun msg => uses_subscriptionSend id msg)
  | decodeResponse msg => exact uses_single (uses_decodeResponse msg)
  | decodeResponseCols debug msg cols => exact uses_single (uses_decodeResponseCols debug msg cols)
  | send c msg timeout => exact uses_single (uses_send c msg timeout)
  | clientExecute c query timeout =>
    exact uses_single (uses_local (uses_string query) fun msg => uses_send c msg timeout)
  | sendAsync c msg => exact uses_nothing (uses_sendAsync c msg)

/-! ### Actions -/

theorem duesIn_appendAll (values : Values) (ps : List Pointer) :
    (duesOf ps ++ duesIn values).Perm (duesIn (values ++ ps.map some)) := by
  have made : duesIn (ps.map some) = duesOf ps := List.flatMap_map ..
  unfold duesIn at *
  rw [List.flatMap_append, made]
  exact List.perm_append_comm

theorem dues_subset_of_mem (mem : some p ∈ values) : p.dues ⊆ duesIn values :=
  fun _ due => List.mem_flatMap.mpr ⟨some p, mem, due⟩

theorem triple_adoptAll {m : N (List Pointer)} {pre more : List Due}
    (owns : whole.Owns pre m (fun ps => duesOf ps ++ (duesIn base ++ more)) (duesIn base ++ more)) :
    whole.Triple pre (adoptAll base m) fun values => duesIn values ++ more := by
  apply Triple.bind owns
  intro r
  cases r with
  | ok ps =>
    apply Triple.pure
    change (duesOf ps ++ (duesIn base ++ more)).Perm _
    rw [← List.append_assoc]
    exact (duesIn_appendAll base ps).append_right more
  | error e => exact Triple.pure (.refl _)

/-- A `Value` that is moved into what makes another of it. -/
theorem triple_moved (found : value? values i = some p) {m : N Pointer}
    (takes : ∀ lent, whole.Uses lent p.dues m Pointer.dues) (more : List Due) :
    whole.Triple (duesIn values ++ more) (adoptAll (values.set i none) (single m))
      fun values => duesIn values ++ more := by
  have made : whole.Uses [] p.dues (single m) duesOf :=
    (takes []).bind fun p => Uses.pure (.of_eq (duesOf_one p).symm)
  apply triple_adoptAll
  apply (made (duesIn (values.set i none) ++ more) (List.nil_subset _)).perm _ (fun _ => .refl _)
    (.refl _)
  rw [← List.append_assoc]
  exact (duesIn_split found).append_right more

theorem triple_borrowed (mem : p ∈ args) :
    whole.Triple (duesIn values ++ duesOf args) (borrow values p)
      fun values => duesIn values ++ duesOf args := by
  have known : p.dues ⊆ duesIn values ++ duesOf args :=
    fun _ due => List.mem_append_right _ (dues_subset_duesOf mem due)
  apply Triple.bind (triple_retain known).inl
  intro _
  apply Triple.pure
  rw [← List.append_assoc]
  exact (duesIn_append values p).append_right _

/-- Every action leaves the core's arguments and what the live `Value`s have to give back. -/
theorem triple_action {action : Action} {program : Whole Values}
    (there : action.program args values = some program) :
    whole.Triple (duesIn values ++ duesOf args) program fun values => duesIn values ++ duesOf args := by
  cases action with
  | base operation =>
    obtain ⟨p, found, rfl⟩ := Option.map_eq_some_iff.mp there
    exact (triple_program found).inl.frame (duesOf args)
  | deed d =>
    dsimp only [Action.program] at there
    split at there
    · next lends =>
      cases there
      refine triple_adoptAll (uses_deed d (duesIn values ++ duesOf args) fun due mem => ?_)
      obtain ⟨p, here, mem⟩ := List.mem_flatMap.mp mem
      exact List.mem_append_left _ (dues_subset_of_mem (lends p here) mem)
    · cases there
  | toTable i =>
    obtain ⟨p, found, there⟩ := Option.bind_eq_some_iff.mp there
    cases there
    exact triple_moved found (fun _ => uses_fromValue p) _
  | toFn i =>
    obtain ⟨p, found, there⟩ := Option.bind_eq_some_iff.mp there
    cases there
    exact triple_moved found (fun _ => uses_toFn p) _
  | argument i =>
    dsimp only [Action.program] at there
    split at there
    · cases there
      exact Triple.pure (.refl _)
    · cases there
      exact Triple.pure (.refl _)
    · next p _ here =>
      cases there
      exact triple_borrowed (List.mem_of_getElem? here)
  | unary =>
    dsimp only [Action.program] at there
    split at there
    · cases there
      apply Triple.pure
      exact (duesIn_append values .nullObj).append_right _
    · next p _ =>
      cases there
      exact triple_borrowed (List.mem_singleton_self p)
    · cases there

/-! ### Runs -/

def Acted.lost (e : Acted) : List Due := e.told.flatMap whole.lost

theorem accounts_act (act : Act args s e t) (frame : List Due)
    (books : s.world.Accounts (duesIn s.values ++ duesOf args ++ frame)) :
    t.world.Accounts (duesIn t.values ++ duesOf args ++ (e.lost ++ frame)) := by
  obtain ⟨program, there, run⟩ := act
  exact triple_action there run frame books

theorem accounts_acts (run : Run (Act args) s es t) (frame : List Due)
    (books : s.world.Accounts (duesIn s.values ++ duesOf args ++ frame)) :
    t.world.Accounts (duesIn t.values ++ duesOf args ++ (es.flatMap Acted.lost ++ frame)) := by
  induction run generalizing frame with
  | nil => exact books
  | @cons s m t e es first _ ih =>
    apply (ih _ (accounts_act first frame books)).perm
    rw [List.flatMap_cons, List.append_assoc e.lost]
    exact (List.perm_append_comm_assoc _ _ _).append_left _

theorem lost_eq_nil_iff :
    es.flatMap Acted.lost = [] ↔ ∀ e ∈ es, ∀ r ∈ e.told, whole.lost r = [] := by
  simp only [Acted.lost, List.flatMap_eq_nil_iff]

/-- The books are right after a run exactly where it forgot nothing. -/
theorem right_iff_nothing_lost {w : World} {ds lost : List Due} (books : w.Accounts (ds ++ lost)) :
    w.Accounts ds ↔ lost = [] := by
  constructor
  · exact eq_nil_of_accounts books
  · rintro rfl
    rwa [List.append_nil] at books

/-- Along every run of a program, whatever it builds, queries, loads, sends or decodes and however each
of these ends, the books balance exactly while nothing is forgotten, and of what the further calls
answer nothing ever is. -/
theorem books_balance_iff (run : Run (Act []) s es t) (start : Balanced s) :
    Balanced t ↔ ∀ e ∈ es, ∀ r ∈ e.told, whole.lost r = [] := by
  have books : t.world.Accounts (duesIn t.values ++ es.flatMap Acted.lost) := by
    have begun : s.world.Accounts (duesIn s.values ++ duesOf [] ++ []) := by
      rw [duesOf, List.flatMap_nil, List.append_nil, List.append_nil]
      exact start
    simpa [duesOf] using accounts_acts run [] begun
  rw [← lost_eq_nil_iff]
  exact right_iff_nothing_lost books

/-- The world with one block, to which there is one reference. -/
def oneBlock : World := ⟨RefHeap.alloc [] path, [], 0, []⟩

theorem accounts_oneBlock : oneBlock.Accounts [.reference 0] := by
  have hands : initial.world.Hands [] (.object (.block 0)) oneBlock := hands_alloc initial.world rfl
  exact hands.accounts balanced_initial

/-- A string whose text the core cannot format. -/
def formatted : List Acted :=
  [⟨.base (.make (.string "x")),
    [⟨.inl .thread, .runtime⟩, ⟨.inl (.hand (.str "x")), Raw.object (.block 0)⟩]⟩,
    ⟨.deed (.format (.block 0)),
      [⟨.inr (.fetch (.fmt (.block 0))), Fetched.mk (.error 0 ⟨.oom, "oom", ""⟩) ""⟩,
        ⟨.inl (.errorFree 0), ()⟩]⟩]

theorem formatted_run : Run (Act []) initial formatted
    ⟨{ oneBlock with errors := 1, freed := [0] }, [some (.block 0)]⟩ := by
  refine .cons (t := ⟨oneBlock, [some (.block 0)]⟩) ⟨_, rfl, ?_⟩ (.single ⟨_, rfl, ?_⟩)
  · exact .call rfl <| .call (hands_alloc _ rfl) <| .pure _ _
  · exact .call (t := { oneBlock with errors := 1 }) ⟨fun _ counted => counted, rfl, rfl⟩ <|
      .call (fun _ => rfl) <| .pure _ _

theorem books_balance_formatted :
    Balanced ⟨{ oneBlock with errors := 1, freed := [0] }, [some (.block 0)]⟩ ↔
      ∀ e ∈ formatted, ∀ r ∈ e.told, whole.lost r = [] :=
  books_balance_iff formatted_run balanced_initial

/-- A reply is the core's, and no longer among the `Value`s. -/
theorem duesIn_guard {ending : Ending} {values' : Values}
    (ends : guard values ending = some (reply, values')) :
    (duesIn values).Perm (reply.dues ++ duesIn values') := by
  cases ending with
  | panic =>
    cases ends
    exact .refl _
  | reply i =>
    obtain ⟨p, found, ends⟩ := Option.bind_eq_some_iff.mp ends
    cases ends
    exact duesIn_split found

/-- A handler that the core calls, whatever it does, keeps or panics at, leaves the arguments with the
core and hands it one reference for the reply, beside what its kept `Value`s have to give back: the books
are those, whatever else is held, exactly where nothing was forgotten. -/
theorem handler_books_iff (called : Called f s es reply t)
    (start : s.world.Accounts (duesIn s.values ++ (duesOf f.args ++ frame))) :
    t.world.Accounts (reply.dues ++ (duesIn t.values ++ (duesOf f.args ++ frame))) ↔
      ∀ e ∈ es, ∀ r ∈ e.told, whole.lost r = [] := by
  obtain ⟨-, values, ending, run, ends⟩ := called
  rw [← List.append_assoc] at start
  have books := accounts_acts run frame start
  rw [← lost_eq_nil_iff]
  refine right_iff_nothing_lost (books.perm ?_)
  apply (((duesIn_guard ends).append_right _).append_right _).trans
  simp only [List.append_assoc]
  exact ((List.perm_append_comm.append_left _).append_left _).append_left _

/-- A handler that replies with its argument. -/
def echo : List Acted := [⟨.unary, [⟨.inl (.retain (.block 0)), ()⟩]⟩]

def echoed : World := { oneBlock with heap := RefHeap.retainAll oneBlock.heap [0] }

theorem echo_run : Run (Act [.block 0]) ⟨oneBlock, []⟩ echo ⟨echoed, [some (.block 0)]⟩ :=
  .single ⟨_, rfl, .call (fun _ => rfl) <| .pure _ _⟩

theorem called_echo : Called (.unary (.block 0)) ⟨oneBlock, []⟩ echo (.block 0) ⟨echoed, [none]⟩ :=
  ⟨rfl, [some (.block 0)], .reply 0, echo_run, rfl⟩

theorem handler_books_echo :
    echoed.Accounts ((Pointer.block 0).dues ++ (duesIn [none] ++ (duesOf [.block 0] ++ []))) ↔
      ∀ e ∈ echo, ∀ r ∈ e.told, whole.lost r = [] :=
  handler_books_iff called_echo accounts_oneBlock

/-! ### Safety -/

/-- Nothing dangles: what `Value`s, arguments, the environment and blocks themselves refer to is there,
and no error object was freed twice. -/
structure Safe (args : List Pointer) (s : State) : Prop where
  live : s.world.Live ((duesIn s.values ++ duesOf args).flatMap Due.refs ++ s.world.env ++
    RefHeap.edges Object.refs s.world.heap)
  freed : s.world.freed.Nodup

/-- In every run, at the top or in a handler, nothing dangles, also where something was forgotten. -/
theorem safe_along (run : Run (Act args) s es t)
    (start : s.world.Accounts (duesIn s.values ++ duesOf args ++ frame)) : Safe args t := by
  have books := accounts_acts run frame start
  constructor
  · apply books.live
    intro a mem
    simp only [List.flatMap_append, List.mem_append] at mem ⊢
    tauto
  · have once := books.2.nodup_iff.mpr List.nodup_range
    exact (List.nodup_append.mp once).1

theorem safe_along_echo : Safe [.block 0] ⟨echoed, [some (.block 0)]⟩ :=
  safe_along echo_run accounts_oneBlock

end Rayforce.Reference
