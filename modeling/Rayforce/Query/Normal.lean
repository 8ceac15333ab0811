import Rayforce.Query.Expr

/-! The rewrite reaches a normal form: no sum and no count of a filter is left at any depth, and where
there is none nothing changes. -/

namespace Rayforce.Query

variable {e e' c m : Expr} {operation : Operation} {operands : List Expr}

/-- The expression stands somewhere in the tree, at its root or below. -/
inductive Expr.Within (e : Expr) : Expr → Prop
  | self : Within e e
  | op {operation : Operation} {operands : List Expr} {e' : Expr} :
      e' ∈ operands → Within e e' → Within e (.op operation operands)
  | call {name : String} {operands : List Expr} {e' : Expr} :
      e' ∈ operands → Within e e' → Within e (.call name operands)

/-- The sum or the count, of one operand, of a filter of two. -/
def Expr.Redex (e : Expr) : Prop :=
  ∃ c m, e = .op .sum [.op .filter [c, m]] ∨ e = .op .count [.op .filter [c, m]]

/-- No redex stands anywhere in the tree. -/
def Expr.Normal (e : Expr) : Prop := ∀ e' : Expr, e'.Within e → ¬ e'.Redex

/-- Sum or count, its operand is a filter. -/
theorem Expr.Redex.exists_eq (h : e.Redex) : ∃ aggregate c m, e = .op aggregate [.op .filter [c, m]] := by
  obtain ⟨c, m, eq | eq⟩ := h
  · exact ⟨_, c, m, eq⟩
  · exact ⟨_, c, m, eq⟩

theorem normal_op_iff :
    (Expr.op operation operands).Normal ↔
      ¬ (Expr.op operation operands).Redex ∧ ∀ e ∈ operands, e.Normal := by
  constructor
  · intro normal
    exact ⟨normal _ .self, fun e mem e' within => normal e' (.op mem within)⟩
  · rintro ⟨root, below⟩ e' within
    cases within with
    | self => exact root
    | op mem within => exact below _ mem e' within

theorem normal_call_iff {name : String} :
    (Expr.call name operands).Normal ↔ ∀ e ∈ operands, e.Normal := by
  constructor
  · intro normal e mem e' within
    exact normal e' (.call mem within)
  · intro below e' within
    cases within with
    | self =>
      intro redex
      obtain ⟨_, _, _, eq⟩ := redex.exists_eq
      cases eq
    | call mem within => exact below _ mem e' within

theorem normal_of_leaf (op : ∀ operation operands, e ≠ .op operation operands)
    (call : ∀ name operands, e ≠ .call name operands) : e.Normal := by
  intro e' within
  cases within with
  | self =>
    intro redex
    obtain ⟨_, _, _, eq⟩ := redex.exists_eq
    exact op _ _ eq
  | op mem within => exact absurd rfl (op _ _)
  | call mem within => exact absurd rfl (call _ _)

/-- Where the root is no redex, the rewrite goes on below. -/
theorem dagRewrite_op (root : ¬ (Expr.op operation operands).Redex) :
    dagRewrite (.op operation operands) = .op operation (operands.map dagRewrite) := by
  rcases dagRewrite_op_cases operation operands with
    ⟨c, m, rfl, rfl, -⟩ | ⟨c, m, rfl, rfl, -⟩ | below
  · exact absurd ⟨c, m, .inl rfl⟩ root
  · exact absurd ⟨c, m, .inr rfl⟩ root
  · exact below

/-- The rewrite makes no filter. -/
theorem filter_of_dagRewrite (eq : dagRewrite e = .op .filter [c, m]) :
    ∃ c' m', e = .op .filter [c', m'] := by
  cases e with
  | col name => cases eq
  | lit value => cases eq
  | call name operands => cases eq
  | op operation operands =>
    rcases dagRewrite_op_cases operation operands with
      ⟨c', m', -, -, rewritten⟩ | ⟨c', m', -, -, rewritten⟩ | rewritten
    · cases rewritten.symm.trans eq
    · cases rewritten.symm.trans eq
    · obtain ⟨rfl, two⟩ := Expr.op.inj (rewritten.symm.trans eq)
      obtain ⟨c', rest, rfl, -, last⟩ := List.map_eq_cons_iff.mp two
      obtain ⟨m', none, rfl, -, nil⟩ := List.map_eq_cons_iff.mp last
      obtain rfl := List.map_eq_nil_iff.mp nil
      exact ⟨c', m', rfl⟩

/-- What the rewrite makes below a root that is no redex makes it none. -/
theorem not_redex_map (root : ¬ (Expr.op operation operands).Redex) :
    ¬ (Expr.op operation (operands.map dagRewrite)).Redex := by
  have filtered {c m : Expr} (one : operands.map dagRewrite = [.op .filter [c, m]]) :
      ∃ c' m', operands = [.op .filter [c', m']] := by
    obtain ⟨e, rest, rfl, eq, nil⟩ := List.map_eq_cons_iff.mp one
    obtain rfl := List.map_eq_nil_iff.mp nil
    obtain ⟨c', m', rfl⟩ := filter_of_dagRewrite eq
    exact ⟨c', m', rfl⟩
  rintro ⟨c, m, eq | eq⟩
  · obtain ⟨rfl, one⟩ := Expr.op.inj eq
    obtain ⟨c', m', rfl⟩ := filtered one
    exact root ⟨c', m', .inl rfl⟩
  · obtain ⟨rfl, one⟩ := Expr.op.inj eq
    obtain ⟨c', m', rfl⟩ := filtered one
    exact root ⟨c', m', .inr rfl⟩

/-- The sum of a choice is normal where what it chooses by and from is. -/
theorem normal_sum_if (operands : List Expr) (below : ∀ e ∈ operands, e.Normal) :
    (Expr.op .sum [.op .if operands]).Normal := by
  refine normal_op_iff.mpr ⟨?_, ?_⟩
  · intro redex
    obtain ⟨_, _, _, eq⟩ := redex.exists_eq
    cases eq
  · intro e mem
    obtain rfl := List.mem_singleton.mp mem
    refine normal_op_iff.mpr ⟨?_, below⟩
    rintro ⟨c, m, eq | eq⟩
    · cases eq
    · cases eq

theorem normal_lit (v : Value) : (Expr.lit v).Normal := normal_of_leaf nofun nofun

theorem normal_dagRewrite (e : Expr) : (dagRewrite e).Normal := by
  induction e using Expr.inductionOn with
  | col name => exact normal_of_leaf nofun nofun
  | lit v => exact normal_lit v
  | call name operands ih =>
    rw [dagRewrite, dagRewriteAll_eq_map, normal_call_iff]
    intro e mem
    obtain ⟨before, there, rfl⟩ := List.mem_map.mp mem
    exact ih before there
  | op operation operands ih =>
    by_cases root : (Expr.op operation operands).Redex
    · -- the operand is a filter, whose rewrite is normal with those of its own two
      obtain ⟨c, m, eq⟩ := root
      have filter : Expr.op .filter [c, m] ∈ operands := by
        rcases eq with eq | eq
        · cases eq
          exact List.mem_singleton_self _
        · cases eq
          exact List.mem_singleton_self _
      obtain ⟨-, below⟩ := normal_op_iff.mp (ih _ filter)
      have column : (dagRewrite c).Normal := below _ (by simp [dagRewriteAll])
      have mask : (dagRewrite m).Normal := below _ (by simp [dagRewriteAll])
      rcases eq with eq | eq
      · rw [eq, dagRewrite]
        apply normal_sum_if
        simp only [List.forall_mem_cons, List.not_mem_nil, false_implies, implies_true, and_true]
        exact ⟨mask, column, normal_lit _⟩
      · rw [eq, dagRewrite]
        apply normal_sum_if
        simp only [List.forall_mem_cons, List.not_mem_nil, false_implies, implies_true, and_true]
        exact ⟨mask, normal_lit _, normal_lit _⟩
    · rw [dagRewrite_op root, normal_op_iff]
      refine ⟨not_redex_map root, fun e mem => ?_⟩
      obtain ⟨before, there, rfl⟩ := List.mem_map.mp mem
      exact ih before there

theorem dagRewrite_of_normal (normal : e.Normal) : dagRewrite e = e := by
  have same {operands : List Expr} (ih : ∀ e ∈ operands, e.Normal → dagRewrite e = e)
      (below : ∀ e ∈ operands, e.Normal) : operands.map dagRewrite = operands := by
    calc operands.map dagRewrite
        = operands.map id := List.map_congr_left fun e mem => ih e mem (below e mem)
      _ = operands := List.map_id operands
  induction e using Expr.inductionOn with
  | col name => rfl
  | lit v => rfl
  | call name operands ih =>
    rw [dagRewrite, dagRewriteAll_eq_map, same ih (normal_call_iff.mp normal)]
  | op operation operands ih =>
    obtain ⟨root, below⟩ := normal_op_iff.mp normal
    rw [dagRewrite_op root, same ih below]

/-- For every tree: what the rewrite gives is normal, a normal tree is given back, and so a second
rewrite changes nothing. -/
theorem dagRewrite_reaches_normal (e : Expr) :
    (dagRewrite e).Normal ∧ (e.Normal → dagRewrite e = e) ∧
      dagRewrite (dagRewrite e) = dagRewrite e :=
  ⟨normal_dagRewrite e, dagRewrite_of_normal, dagRewrite_of_normal (normal_dagRewrite e)⟩

/-- A count of a filter below a filter's mask is rewritten, and the filter around it stays. -/
example : dagRewrite (.op .filter [.col "size", .op .count [.op .filter [.col "size", .col "large"]]]) =
    .op .filter [.col "size", .op .sum [.op .if [.col "large", .lit (.i64 1), .lit (.i64 0)]]] := rfl

end Rayforce.Query
