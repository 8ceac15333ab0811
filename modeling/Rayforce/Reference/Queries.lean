import Rayforce.Reference.Builders
import Rayforce.Reference.Uses

/-! What expressions and queries are lent, take over and make. -/

namespace Rayforce.Reference

open Calls Custody

variable {lent : List Due} {e : Expr} {es : List Expr}

def Tree.dues (e : Expr) : List Due := duesOf e.lits

theorem duesOf_litsOf (es : List Expr) : duesOf (litsOf es) = es.flatMap Tree.dues := by
  rw [litsOf_eq_flatMap]
  unfold duesOf
  rw [List.flatMap_assoc]
  rfl

theorem duesOf_flatMap_lits (es : List Expr) : duesOf (es.flatMap Tree.lits) = es.flatMap Tree.dues := by
  rw [← litsOf_eq_flatMap, duesOf_litsOf]

theorem subset_of_flatMap (known : es.flatMap Tree.dues ⊆ lent) (mem : e ∈ es) : e.dues ⊆ lent :=
  fun _ due => known (List.mem_flatMap.mpr ⟨e, mem, due⟩)

theorem uses_exprs {ms : List (N Expr)} (each : ∀ m ∈ ms, whole.Uses lent [] m Tree.dues) :
    whole.Uses lent [] (gather Tree.lits [] ms) fun es => es.flatMap Tree.dues := by
  have gathered : whole.Uses lent [] _ _ := uses_gather Tree.lits each []
  simpa only [duesOf_flatMap_lits] using gathered

theorem uses_litI64 : whole.Uses lent [] litI64 Tree.dues :=
  uses_i64.bind fun p => Uses.pure (.of_eq (duesOf_one p).symm)

theorem dues_op (operation : Query.Operation) (es : List Expr) :
    (Tree.op operation es).dues = es.flatMap Tree.dues := duesOf_litsOf es

theorem dues_call (name : String) (es : List Expr) :
    (Tree.call name es).dues = es.flatMap Tree.dues := duesOf_litsOf es

/-- A tree over the trees that come out. -/
theorem uses_over {ms : List (N Expr)} {f : List Expr → Expr}
    (same : ∀ es, (f es).dues = es.flatMap Tree.dues)
    (each : ∀ m ∈ ms, whole.Uses lent [] m Tree.dues) :
    whole.Uses lent [] (do return f (← gather Tree.lits [] ms)) Tree.dues :=
  (uses_exprs each).bind fun es => Uses.pure (.of_eq (same es).symm)

/-- What the rewrite of an expression is lent is the expression. -/
def Rewrites (lent : List Due) (e : Expr) : Prop :=
  e.dues ⊆ lent → whole.Uses lent [] (dagRewrite e) Tree.dues

theorem uses_rewriteAll (below : ∀ e ∈ es, Rewrites lent e) (known : es.flatMap Tree.dues ⊆ lent) :
    ∀ m ∈ es.map dagRewrite, whole.Uses lent [] m Tree.dues := by
  intro m mem
  obtain ⟨e, here, rfl⟩ := List.mem_map.mp mem
  exact below e here (subset_of_flatMap known here)

/-- A rewrite that fires looks two levels down. -/
theorem rewrites_step (e : Expr)
    (below : ∀ e' ∈ e.operands, Rewrites lent e' ∧ ∀ e'' ∈ e'.operands, Rewrites lent e'') :
    Rewrites lent e := by
  intro known
  cases e with
  | col name => exact Uses.pure (.refl _)
  | lit v =>
    rw [Tree.dues, Tree.lits, duesOf_one] at known
    exact (uses_clone known).bind fun p => Uses.pure (.of_eq (duesOf_one p).symm)
  | call name operands =>
    rw [dues_call] at known
    rw [dagRewrite, dagRewriteAll_eq_gather]
    exact uses_over (dues_call name) (uses_rewriteAll (fun e mem => (below e mem).1) known)
  | op operation operands =>
    rw [dues_op] at known
    rcases dagRewrite_op_cases operation operands with
      ⟨c, m, filled, rfl, parts, rewritten⟩ | ⟨e, rfl, rewritten⟩ | rewritten
    · rw [List.flatMap_singleton, dues_op] at known
      have deeper := uses_rewriteAll (below _ (List.mem_singleton_self _)).2 known
      have column := deeper (dagRewrite c) (by simp [Tree.operands])
      have mask := deeper (dagRewrite m) (by simp [Tree.operands])
      rw [rewritten]
      apply uses_over (f := fun es => .op .sum [.op .if es])
      · intro es
        rw [dues_op, List.flatMap_singleton, dues_op]
      · intro part mem
        rcases parts with rfl | rfl <;>
          simp only [List.mem_cons, List.not_mem_nil, or_false] at mem <;>
          rcases mem with rfl | rfl | rfl <;>
          first | exact mask | exact column | exact uses_litI64
    · rw [List.flatMap_singleton] at known
      rw [rewritten]
      apply ((below e (List.mem_singleton_self _)).1 known).bind
      intro e'
      exact Uses.pure (.of_eq (by rw [dues_op, List.flatMap_singleton]))
    · rw [rewritten]
      exact uses_over (dues_op operation) (uses_rewriteAll (fun e mem => (below e mem).1) known)

theorem rewrites (e : Expr) : Rewrites lent e := by
  have both : Rewrites lent e ∧ ∀ e' ∈ e.operands, Rewrites lent e' := by
    induction e using Tree.inductionOn with
    | step e ih => exact ⟨rewrites_step e ih, fun e' mem => (ih e' mem).1⟩
  exact both.1

/-! ### Lowering -/

theorem uses_compile (e : Expr) (known : e.dues ⊆ lent) :
    whole.Uses lent [] (compile e) Pointer.dues := by
  have lowered {es : List Expr}
      (below : ∀ e ∈ es, e.dues ⊆ lent → whole.Uses lent [] (compile e) Pointer.dues)
      (known : es.flatMap Tree.dues ⊆ lent) (name : String) :
      whole.Uses lent [] (do
        let head ← nameRef name
        listOf (← compileAll [head] es)) Pointer.dues := by
    apply (uses_nameRef name).bind
    intro head
    rw [compileAll_eq_gather, ← duesOf_one]
    refine (uses_values (fun m mem => ?_) [head]).bind uses_listOf
    obtain ⟨e, here, rfl⟩ := List.mem_map.mp mem
    exact below e here (subset_of_flatMap known here)
  induction e using Tree.inductionOn with
  | step e ih =>
    cases e with
    | col name => exact uses_nameRef name
    | lit v =>
      rw [Tree.dues, Tree.lits, duesOf_one] at known
      exact uses_clone known
    | op operation operands =>
      rw [dues_op] at known
      rw [compile]
      exact lowered ih known _
    | call name operands =>
      rw [dues_call] at known
      rw [compile]
      exact lowered ih known _

theorem uses_execute (known : e.dues ⊆ lent) : whole.Uses lent [] (execute e) Pointer.dues :=
  uses_local (uses_compile e known) fun ast => uses_evalValue ast

theorem uses_compileQueryExpr (known : e.dues ⊆ lent) :
    whole.Uses lent [] (compileQueryExpr e) Pointer.dues := by
  apply (rewrites e known).bind
  intro e'
  exact uses_scope e'.lits (uses_compile e' (List.subset_append_left _ _))

theorem uses_dictOf (keys : List String) (vals : List Pointer) :
    whole.Uses lent (duesOf vals) (dictOf keys vals) Pointer.dues := by
  apply uses_scope
  apply (uses_known (owns_symVec keys)).bind
  intro k
  have listed : whole.Uses (duesOf vals ++ lent) ([] ++ duesOf [k]) _
      fun v : Pointer => v.dues ++ duesOf [k] :=
    uses_onError [k] (uses_known (owns_list vals))
  rw [duesOf_one] at listed
  apply listed.bind
  intro v
  apply (uses_known (owns_dict k v)).perm _ fun _ => .refl _
  simpa [duesOf] using List.perm_append_comm

/-! ### Builders -/

/-- What a builder holds. -/
theorem held_subset {source : Pointer} (known : duesOf (source :: litsOf es) ⊆ lent) :
    source.dues ⊆ lent ∧ ∀ e ∈ es, e.dues ⊆ lent := by
  refine ⟨fun due here => known (dues_subset_duesOf List.mem_cons_self here), fun e mem => ?_⟩
  apply subset_of_flatMap _ mem
  rw [← duesOf_litsOf]
  exact fun due here => known (List.mem_append_right _ here)

theorem uses_cloneExpr (known : e.dues ⊆ lent) (taken : List Due) :
    whole.Uses lent taken (cloneExpr e) fun e' => e'.dues ++ taken := by
  intro ds sub
  have all : ∀ p ∈ e.lits, p.dues ⊆ taken ++ ds := fun p mem due here =>
    List.mem_append_right _ (sub (known (dues_subset_duesOf mem here)))
  apply Owns.bind (Owns.lift (triple_cloneAll all).inl)
  intro _
  exact Owns.pure (.of_eq (List.append_assoc ..).symm)

theorem uses_combine (made : Expr) (known : ∀ e ∈ es, e.dues ⊆ lent) :
    whole.Uses lent made.dues (combine made es) Tree.dues := by
  induction es generalizing made with
  | nil => exact Uses.pure (.refl _)
  | cons w ws ih =>
    obtain ⟨first, rest⟩ := List.forall_mem_cons.mp known
    apply (uses_cloneExpr first made.dues).bind
    intro w'
    apply (ih _ rest).perm _ fun _ => .refl _
    rw [dues_op, List.flatMap_cons, List.flatMap_singleton]
    exact List.perm_append_comm

theorem uses_whereClause (known : ∀ e ∈ es, e.dues ⊆ lent) :
    ∀ m ∈ whereClause es, whole.Uses lent [] m Pointer.dues := by
  intro m mem
  cases es with
  | nil => cases mem
  | cons first rest =>
    obtain rfl := List.mem_singleton.mp mem
    obtain ⟨head, others⟩ := List.forall_mem_cons.mp known
    apply (uses_cloneExpr head []).bind
    intro first'
    rw [List.append_nil]
    apply (uses_combine first' others).bind
    intro combined
    exact uses_scope combined.lits (uses_compileQueryExpr (List.subset_append_left _ _))

/-- Named expressions, each lowered. -/
theorem uses_compiled {cs : List (String × Expr)} (known : ∀ e ∈ cs.map Prod.snd, e.dues ⊆ lent) :
    ∀ m ∈ cs.map fun c => compileQueryExpr c.2, whole.Uses lent [] m Pointer.dues := by
  intro m mem
  obtain ⟨c, here, rfl⟩ := List.mem_map.mp mem
  exact uses_compileQueryExpr (known c.2 (List.mem_map_of_mem here))

theorem uses_byClause {groups : List (String × Expr)}
    (known : ∀ e ∈ groups.map Prod.snd, e.dues ⊆ lent) :
    ∀ m ∈ byClause groups, whole.Uses lent [] m Pointer.dues := by
  intro m mem
  cases groups with
  | nil => cases mem
  | cons g groups =>
    obtain rfl := List.mem_singleton.mp mem
    exact (uses_values (uses_compiled known) []).bind (uses_dictOf _)

theorem uses_selectDict {q : Select} (known : duesOf q.held ⊆ lent) :
    whole.Uses lent [] q.compileDict Pointer.dues := by
  obtain ⟨source, exprs⟩ := held_subset known
  simp only [List.forall_mem_append] at exprs
  refine (uses_values ?_ []).bind (uses_dictOf _)
  simp only [List.forall_mem_append, List.forall_mem_cons]
  exact ⟨uses_compiled exprs.1.1, uses_byClause exprs.1.2, uses_clone source,
    uses_whereClause exprs.2⟩

theorem uses_finish (q : Select) (result : Pointer) :
    whole.Uses lent result.dues (q.finish result) Pointer.dues := by
  unfold Select.finish
  split
  · exact uses_holding (uses_take (List.subset_append_left _ _))
  · exact uses_fromValue result

theorem uses_select {q : Select} (known : duesOf q.held ⊆ lent) :
    whole.Uses lent [] q.execute Pointer.dues := by
  apply (uses_selectDict known).bind
  intro dict
  apply (uses_after dict (uses_nameRef "select")).bind
  intro head
  apply (uses_listOf [head, dict]).bind
  intro ast
  split
  · next cols desc _ =>
    apply (uses_after ast (uses_nameRef _)).bind
    intro op
    have columns : whole.Uses lent ([] ++ duesOf [op, ast])
        (onError (Reference.known (Value.symVec cols)) (drops [op, ast])) fun columns : Pointer =>
          columns.dues ++ duesOf [op, ast] :=
      uses_onError [op, ast] (uses_known (owns_symVec cols))
    apply columns.bind
    intro columns
    have items : (columns.dues ++ duesOf [op, ast]).Perm (duesOf [op, ast, columns]) := by
      have rotated : (columns.dues ++ (op.dues ++ ast.dues)).Perm (op.dues ++ ast.dues ++ columns.dues) :=
        List.perm_append_comm
      simpa [duesOf] using rotated
    apply ((uses_listOf [op, ast, columns]).perm items fun _ => .refl _).bind
    intro sorted
    exact (uses_holding (uses_evalValue sorted)).bind (uses_finish q)
  · exact uses_holding ((uses_evalValue ast).bind (uses_finish q))

theorem uses_update {q : Update} (known : duesOf q.held ⊆ lent) :
    whole.Uses lent [] q.execute Pointer.dues := by
  obtain ⟨source, exprs⟩ := held_subset known
  simp only [List.forall_mem_append] at exprs
  have dict : whole.Uses lent [] q.compileDict Pointer.dues := by
    refine (uses_values ?_ []).bind (uses_dictOf _)
    simp only [List.forall_mem_append, List.forall_mem_cons]
    exact ⟨uses_compiled exprs.1, uses_clone source, uses_whereClause exprs.2⟩
  exact uses_local dict fun dict => uses_tableOf _ _

end Rayforce.Reference
