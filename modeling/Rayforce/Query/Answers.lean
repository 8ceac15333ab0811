import Rayforce.Query.Table

/-! A query answers what its calls ask.  Neither the dict they compile to nor the rewrite shows, and of
its filters a query knows only what they all demand. -/

namespace Rayforce.Query

open Defined Mask

variable {α : Type} {F : Functions α} {I : Interp α} {ev : Evaluator (Comp RayError)}
  {updateFn : Value → Comp RayError Value} {objectType : Nat → Int} {t : Table objectType}

/-! ### Running what was asked -/

theorem below_execute {q : Select} (documented : F.Documented I ev updateFn) (resolves : I.Resolves)
    (conjoins : I.Conjoins) (source : q.«from» = t.asValue) (distinct : (q.proj.map Prod.fst).Nodup)
    (free : ∀ name ∈ q.proj.map Prod.fst, name ∉ reserved) :
    Below (answer F I t q.proj q.wheres q.«by» q.order) (q.execute ev) := by
  have told := select_compileDict q ▸ tells_of_not_clause distinct fun name mem =>
    not_clause_of_not_reserved (free name mem)
  have asked := told.question_below resolves conjoins free
  rw [source] at told
  refine Below.trans ?_ (below_ran documented (told.asks free))
  exact (documented.select_below t.object _ _ asked).bind fun rows => .refl _

theorem below_execute_update {q : Update} (documented : F.Documented I ev updateFn)
    (resolves : I.Resolves) (conjoins : I.Conjoins) (source : q.«from» = t.asValue)
    (distinct : (q.sets.map Prod.fst).Nodup) (free : ∀ name ∈ q.sets.map Prod.fst, name ∉ reserved) :
    Below (amended F I t q.sets q.wheres) (q.execute updateFn) := by
  have told := update_compileDict q ▸ tells_of_not_clause distinct fun name mem =>
    not_clause_of_not_reserved (free name mem)
  have asked := told.question_below resolves conjoins free
  rw [source] at told
  have ran := (documented.update _ _ (told.asks free) told.lookup_by).bind fun v =>
    .refl (Table.fromValue v : Comp RayError (Table objectType))
  simp only [bind_assoc, pure_bind] at ran
  refine Below.trans ?_ ran
  exact (documented.update_below t.object _ _ asked).bind fun rows => .refl _

/-- For every sequence of calls, with distinct names that are not the names of clauses. -/
theorem below_build (documented : F.Documented I ev updateFn) (resolves : I.Resolves)
    (conjoins : I.Conjoins) (calls : List SelectCall) :
    ((calls.flatMap SelectCall.projections).map Prod.fst).Nodup →
    (∀ name ∈ (calls.flatMap SelectCall.projections).map Prod.fst, name ∉ reserved) →
    Below (answer F I t (calls.flatMap SelectCall.projections) (calls.flatMap SelectCall.filters)
        (calls.flatMap SelectCall.groups) (calls.filterMap SelectCall.order).getLast?)
      ((Select.build t.asValue calls).execute ev) := by
  have run := below_execute (t := t) (q := Select.build t.asValue calls) documented resolves conjoins
  rw [select_build] at run ⊢
  exact run rfl

theorem below_build_update (documented : F.Documented I ev updateFn) (resolves : I.Resolves)
    (conjoins : I.Conjoins) (calls : List UpdateCall) :
    ((calls.flatMap UpdateCall.sets).map Prod.fst).Nodup →
    (∀ name ∈ (calls.flatMap UpdateCall.sets).map Prod.fst, name ∉ reserved) →
    Below (amended F I t (calls.flatMap UpdateCall.sets) (calls.flatMap UpdateCall.filters))
      ((Update.build t.asValue calls).execute updateFn) := by
  have run := below_execute_update (t := t) (q := Update.build t.asValue calls) documented resolves
    conjoins
  rw [update_build] at run ⊢
  exact run rfl

/-! ### Conditions -/

/-- What a condition demands, one by one. -/
def Expr.conjuncts : Expr → List Expr
  | .op .and [a, b] => a.conjuncts ++ b.conjuncts
  | e => [e]

variable {ρ : String → Option (Meaning α)} {n : Nat} {filters filters' : List Expr}
  {masks : List (List Bool)}

theorem Masks.split (each : Masks I ρ (filters ++ filters') masks) :
    ∃ left right, masks = left ++ right ∧ Masks I ρ filters left ∧ Masks I ρ filters' right := by
  refine ⟨masks.take filters.length, masks.drop filters.length,
    (List.take_append_drop ..).symm, ?_, ?_⟩
  · simpa [Masks] using List.forall₂_take filters.length each
  · simpa [Masks] using List.forall₂_drop filters.length each

theorem meaning_of_conjuncts (conjoins : I.Conjoins) {e : Expr}
    (each : Masks I ρ e.conjuncts masks) (same : ∀ mask ∈ masks, mask.length = n) :
    e.meaning I ρ = some (.mask (every n masks)) := by
  induction e using Expr.conjuncts.induct generalizing masks with
  | case1 a b ihA ihB =>
    rw [Expr.conjuncts] at each
    obtain ⟨left, right, rfl, eachA, eachB⟩ := each.split
    have meantA := ihA eachA fun mask mem => same mask (List.mem_append_left _ mem)
    have meantB := ihB eachB fun mask mem => same mask (List.mem_append_right _ mem)
    have and := conjoins (every n left) (every n right) (by simp)
    rw [every_append, ← and]
    simp [Expr.meaning, meanings, meantA, meantB]
  | case2 e plain =>
    rw [Expr.conjuncts.eq_2 e plain] at each
    obtain ⟨mask, _, meant, rest, rfl⟩ := List.forall₂_cons_left_iff.mp each
    cases rest
    rw [every_singleton (same mask List.mem_cons_self), meant]

/-- What all conditions demand, the filters that they make up demand. -/
theorem masks_of_conjuncts (conjoins : I.Conjoins)
    (each : Masks I ρ (filters.flatMap Expr.conjuncts) masks)
    (same : ∀ mask ∈ masks, mask.length = n) :
    ∃ masks', Masks I ρ filters masks' ∧ (∀ mask ∈ masks', mask.length = n) ∧
      every n masks' = every n masks := by
  induction filters generalizing masks with
  | nil =>
    cases each
    exact ⟨[], .nil, same, rfl⟩
  | cons f filters ih =>
    rw [List.flatMap_cons] at each
    obtain ⟨left, right, rfl, first, rest⟩ := each.split
    have meant := meaning_of_conjuncts conjoins first fun mask mem =>
      same mask (List.mem_append_left _ mem)
    obtain ⟨masks', others, lengths, all⟩ := ih rest fun mask mem =>
      same mask (List.mem_append_right _ mem)
    refine ⟨every n left :: masks', .cons meant others, ?_, ?_⟩
    · rintro mask (_ | ⟨_, mem⟩)
      · exact length_every n left
      · exact lengths mask mem
    · rw [← List.singleton_append, every_append, every_append,
        every_singleton (length_every n left), all]

theorem Masks.perm (each : Masks I ρ filters masks) (perm : filters'.Perm filters) :
    ∃ masks', Masks I ρ filters' masks' ∧ masks'.Perm masks := by
  obtain ⟨masks', same, each'⟩ := List.perm_comp_forall₂ perm each
  exact ⟨masks', same, each'⟩

/-- Conditions may be demanded in any order, and together or one by one. -/
theorem below_allOf (conjoins : I.Conjoins) {conditions : List Expr}
    (perm : (filters.flatMap Expr.conjuncts).Perm conditions) :
    (allOf I conditions).Below (allOf I filters) := by
  intro ρ m holds
  obtain ⟨n, masks, each, some, same, rfl⟩ := allOf_eq_some_iff.mp holds
  obtain ⟨masks', each', shuffled⟩ := each.perm perm
  obtain ⟨whole, meant, lengths, all⟩ := masks_of_conjuncts conjoins each' fun mask mem =>
    same mask (shuffled.mem_iff.mp mem)
  refine allOf_eq_some_iff.mpr ⟨n, whole, meant, ?_, lengths, ?_⟩
  · rintro rfl
    obtain rfl := List.forall₂_nil_right_iff.mp meant
    cases each'
    exact some shuffled.nil_eq.symm
  · rw [all, every_perm n shuffled]

theorem conjuncts_ne_nil (e : Expr) : e.conjuncts ≠ [] := by
  induction e using Expr.conjuncts.induct with
  | case1 a b ihA _ =>
    rw [Expr.conjuncts]
    exact List.append_ne_nil_of_left_ne_nil ihA _
  | case2 e plain =>
    rw [Expr.conjuncts.eq_2 e plain]
    exact List.cons_ne_nil e []

theorem below_asked (conjoins : I.Conjoins) {conditions : List Expr}
    (perm : (filters.flatMap Expr.conjuncts).Perm conditions) (named : List (String × Expr))
    (groups : List (String × Expr)) :
    (asked I named conditions groups).Below (asked I named filters groups) where
  condition := by
    cases filters with
    | nil =>
      obtain rfl := perm.nil_eq
      exact .none
    | cons f filters =>
      have some : conditions ≠ [] := by
        rintro rfl
        exact conjuncts_ne_nil f (List.append_eq_nil_iff.mp perm.eq_nil).1
      simp only [asked, List.isEmpty_iff, some]
      exact .some (below_allOf conjoins perm)
  groups := by
    simp only [asked]
    cases groups with
    | nil => exact .none
    | cons group given => exact .some (Named.all _)
  named := Named.all _

/-! ### What queries answer -/

/-- Whatever a table is asked, it answers that. -/
structure Answers (F : Functions α) (I : Interp α) (ev : Evaluator (Comp RayError))
    (updateFn : Value → Comp RayError Value) (t : Table objectType) : Prop where
  select : ∀ calls : List SelectCall,
    ((calls.flatMap SelectCall.projections).map Prod.fst).Nodup →
    (∀ name ∈ (calls.flatMap SelectCall.projections).map Prod.fst, name ∉ reserved) →
    Below (answer F I t (calls.flatMap SelectCall.projections) (calls.flatMap SelectCall.filters)
        (calls.flatMap SelectCall.groups) (calls.filterMap SelectCall.order).getLast?)
      ((Select.build t.asValue calls).execute ev)
  update : ∀ calls : List UpdateCall,
    ((calls.flatMap UpdateCall.sets).map Prod.fst).Nodup →
    (∀ name ∈ (calls.flatMap UpdateCall.sets).map Prod.fst, name ∉ reserved) →
    Below (amended F I t (calls.flatMap UpdateCall.sets) (calls.flatMap UpdateCall.filters))
      ((Update.build t.asValue calls).execute updateFn)
  take : ∀ n : Int64,
    Below (do Table.fromValue (.object (← F.take t.object n.toInt))) (t.take ev n)
  head : ∀ n : Int64, n ≠ Int64.minValue →
    Below (do Table.fromValue (.object (← F.take t.object n.toInt.natAbs))) (t.head ev n)
  tail : ∀ n : Int64, n ≠ Int64.minValue →
    Below (do Table.fromValue (.object (← F.take t.object (-n.toInt.natAbs)))) (t.tail ev n)
  join : ∀ op ∈ [Operation.innerJoin, .leftJoin, .asofJoin], ∀ (u : Table objectType) on,
    Below (do Table.fromValue (.object (← F.join op on t.object u.object))) (Table.join ev op t u on)

theorem below_rows (documented : F.Documented I ev updateFn) (n : Int) :
    Below (do Table.fromValue (.object (← F.take t.object n)))
      (do Table.fromValue (← takeRows ev t.asValue n) : Comp RayError (Table objectType)) := by
  have taken := (below_taken documented t.object n).bind fun v =>
    .refl (Table.fromValue v : Comp RayError (Table objectType))
  simpa only [bind_assoc, pure_bind, Table.asValue] using taken

theorem below_head (documented : F.Documented I ev updateFn) {n : Int64} (fits : n ≠ Int64.minValue) :
    Below (do Table.fromValue (.object (← F.take t.object n.toInt.natAbs))) (t.head ev n) := by
  obtain ⟨k, taken, magnitude, _⟩ := takeMagnitude_eq fits "head"
  rw [Table.head, taken, outcome_ok, pure_bind, magnitude]
  exact below_rows documented _

theorem below_tail (documented : F.Documented I ev updateFn) {n : Int64} (fits : n ≠ Int64.minValue) :
    Below (do Table.fromValue (.object (← F.take t.object (-n.toInt.natAbs)))) (t.tail ev n) := by
  obtain ⟨k, taken, _, magnitude⟩ := takeMagnitude_eq fits "tail"
  rw [Table.tail, taken, outcome_ok, pure_bind, magnitude]
  exact below_rows documented _

theorem below_join (documented : F.Documented I ev updateFn) {op : Operation}
    (known : op ∈ [Operation.innerJoin, .leftJoin, .asofJoin]) (u : Table objectType)
    (on : List String) :
    Below (do Table.fromValue (.object (← F.join op on t.object u.object)))
      (Table.join ev op t u on) := by
  have operands : evalAll ev [.symVec on, t.asValue, u.asValue] =
      pure [.symVec on, t.asValue, u.asValue] :=
    evalAll_of_inert (by simp [Value.Inert, Table.asValue]) _
  have joined := (documented.join op known on t.object u.object).bind fun v =>
    .refl (Table.fromValue v : Comp RayError (Table objectType))
  rw [Table.join, evalValue, Value.eval, operands, pure_bind]
  simpa only [bind_assoc, pure_bind, Table.asValue] using joined

/-- With a core whose functions on tables do as they are relied on for, a query that means something
answers what its calls ask: every filter, group and projection of a select in the order of the calls, the
last order, and one row of a summary. -/
theorem tables_answer (documented : F.Documented I ev updateFn) (resolves : I.Resolves)
    (conjoins : I.Conjoins) (t : Table objectType) : Answers F I ev updateFn t where
  select calls := below_build documented resolves conjoins calls
  update calls := below_build_update documented resolves conjoins calls
  take _ := below_rows documented _
  head _ := below_head documented
  tail _ := below_tail documented
  join _ known := below_join documented known

/-! ### A core -/

/-- What names mean in a table of three trades, and in the one of them that is listed and recent. -/
def scope : Nat → String → Option (Meaning Unit)
  | 0, "listed" => some (.mask [true, true, false])
  | 0, "recent" => some (.mask [false, true, true])
  | 1, "size" => some (.col [20])
  | 1, "large" => some (.mask [true])
  | _, _ => none

/-- A core that can do little with them, and nothing with other tables. -/
def trades : Functions Unit where
  select t q := do
    let kept ← given (q.condition.bind fun condition => condition (scope t))
    let shown ← given (q.named.mapM fun p => p.2 (scope 1))
    given (if t = 0 ∧ kept = .mask [false, true, false] ∧ q.groups.isNone ∧ shown = [.int 20] then some 2
      else none)
  update _ _ := given none
  sort desc t columns := given (if desc ∧ t = 2 ∧ columns = ["total"] then some 2 else none)
  take t n := given (if t = 2 ∧ n = 1 then some 2 else none)
  join _ _ _ _ := given none

def evaluator : Evaluator (Comp RayError) where
  apply
    | .nameRef "select", [dict] =>
      match dict.entries.lookup "from" with
      | some (.object t) => do return .object (← trades.select t (dict.question standard))
      | _ => given none
    | .nameRef "xasc", [.object t, .symVec columns] => do
      return .object (← trades.sort false t columns)
    | .nameRef "xdesc", [.object t, .symVec columns] => do
      return .object (← trades.sort true t columns)
    | .nameRef "take", [.object t, .i64 n] => do return .object (← trades.take t n)
    | _, _ => given none
  lookup _ := given none
  headless := given none

theorem meanings_below {named named' : List (String × Term α)}
    (below : List.Forall₂ Named named named') (ρ : String → Option (Meaning α))
    {ms : List (Meaning α)} (eq : named.mapM (fun p => p.2 ρ) = some ms) :
    named'.mapM (fun p => p.2 ρ) = some ms := by
  rw [mapM_eq_some_iff] at eq ⊢
  induction below generalizing ms with
  | nil =>
    cases eq
    exact .nil
  | cons first _ ih =>
    cases eq with
    | cons meant rest => exact .cons (first.2 ρ _ meant) (ih rest)

theorem trades_documented : trades.Documented standard evaluator fun _ => given none where
  select dict t asks := by
    have applied : evaluator.apply (.nameRef "select") [dict] =
        (do return .object (← trades.select t (dict.question standard))) := by
      simp only [evaluator, asks.source]
    rw [applied]
    exact .refl _
  update _ _ _ _ := .refl _
  sort desc t columns := by cases desc <;> exact .refl _
  take t n := .refl _
  join operation _ on t u := by
    intro r eq
    cases eq
  select_below t q q' below := by
    obtain ⟨condition, groups, named⟩ := q
    obtain ⟨condition', groups', named'⟩ := q'
    obtain ⟨kept, grouped, shown⟩ := below
    refine Below.bind (.given fun m => ?_) fun m => Below.bind (.given fun ms => ?_) fun ms => ?_
    · cases kept with
      | none => exact id
      | some below => exact below _ m
    · exact meanings_below shown (scope 1)
    · cases grouped <;> exact .refl _
  update_below _ _ _ _ := .refl _

/-- The sum of the large trades' sizes, of the one trade that is listed and recent. -/
theorem tables_answer_total :
    ((Select.build (.object 0) [.filter (.col "listed"), .orderBy ["total"] true,
        .agg "total" (.op .sum [.op .filter [.col "size", .col "large"]]),
        .filter (.col "recent")]).execute evaluator :
      Comp RayError (Table fun _ => 98)).run = some (.ok ⟨2, rfl⟩) :=
  (tables_answer trades_documented standard_laws.1 standard_laws.2 ⟨0, rfl⟩).select _ (by decide)
    (by decide) _ rfl

/-- Of its filters a query knows what they demand together.  In whatever order they are given, as one
filter or as several and wherever among the other calls, it answers what those conditions ask. -/
theorem conditions_answer (documented : F.Documented I ev updateFn) (resolves : I.Resolves)
    (conjoins : I.Conjoins) (t : Table objectType) (conditions : List Expr) :
    (∀ calls : List SelectCall,
      ((calls.flatMap SelectCall.filters).flatMap Expr.conjuncts).Perm conditions →
      ((calls.flatMap SelectCall.projections).map Prod.fst).Nodup →
      (∀ name ∈ (calls.flatMap SelectCall.projections).map Prod.fst, name ∉ reserved) →
      Below (answer F I t (calls.flatMap SelectCall.projections) conditions
          (calls.flatMap SelectCall.groups) (calls.filterMap SelectCall.order).getLast?)
        ((Select.build t.asValue calls).execute ev)) ∧
    (∀ calls : List UpdateCall,
      ((calls.flatMap UpdateCall.filters).flatMap Expr.conjuncts).Perm conditions →
      ((calls.flatMap UpdateCall.sets).map Prod.fst).Nodup →
      (∀ name ∈ (calls.flatMap UpdateCall.sets).map Prod.fst, name ∉ reserved) →
      Below (amended F I t (calls.flatMap UpdateCall.sets) conditions)
        ((Update.build t.asValue calls).execute updateFn)) := by
  constructor
  · intro calls perm distinct free
    have asked := documented.select_below t.object _ _ (below_asked conjoins perm
      (calls.flatMap SelectCall.projections) (calls.flatMap SelectCall.groups))
    exact (asked.bind fun _ => .refl _).trans
      (below_build documented resolves conjoins calls distinct free)
  · intro calls perm distinct free
    have asked := documented.update_below t.object _ _ (below_asked conjoins perm
      (calls.flatMap UpdateCall.sets) [])
    exact (asked.bind fun _ => .refl _).trans
      (below_build_update documented resolves conjoins calls distinct free)

/-- The two conditions, the other way round and in one filter. -/
theorem conditions_answer_total :
    ((Select.build (.object 0) [.orderBy ["total"] true,
        .filter (.and (.col "recent") (.col "listed")),
        .agg "total" (.op .sum [.op .filter [.col "size", .col "large"]])]).execute evaluator :
      Comp RayError (Table fun _ => 98)).run = some (.ok ⟨2, rfl⟩) :=
  (conditions_answer trades_documented standard_laws.1 standard_laws.2 ⟨0, rfl⟩
    [.col "listed", .col "recent"]).1 _ (by exact .swap ..) (by decide) (by decide) _ rfl

end Rayforce.Query
