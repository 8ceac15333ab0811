import Rayforce.Query.Meaning

/-! The rewrite keeps what an expression means. -/

namespace Rayforce.Query

open Mask

variable {α : Type} {I : Interp α} {ρ : String → Option (Meaning α)} {m : Meaning α}

/-- The rewritten expression means what the expression means, where that means anything. -/
def Kept (I : Interp α) (ρ : String → Option (Meaning α)) (e : Expr) : Prop :=
  ∀ m, e.meaning I ρ = some m → (dagRewrite e).meaning I ρ = some m

theorem meanings_map_dagRewrite {es : List Expr} (kept : ∀ e ∈ es, Kept I ρ e)
    {ms : List (Meaning α)} (h : meanings I ρ es = some ms) :
    meanings I ρ (es.map dagRewrite) = some ms := by
  induction es generalizing ms with
  | nil => exact h
  | cons e es ih =>
    obtain ⟨m, rest, first, others, rfl⟩ := meanings_cons_eq_some.mp h
    refine meanings_cons_eq_some.mpr ⟨m, rest, ?_, ?_, rfl⟩
    · exact kept e (List.mem_cons_self ..) m first
    · exact ih (fun e mem => kept e (List.mem_cons_of_mem _ mem)) others

theorem Kept.filter {c mask : Expr} {xs : List Int} (h : Kept I ρ (.op .filter [c, mask]))
    (meaning : (Expr.op .filter [c, mask]).meaning I ρ = some (.col xs)) :
    ∃ ys bs, (dagRewrite c).meaning I ρ = some (.col ys) ∧
      (dagRewrite mask).meaning I ρ = some (.mask bs) ∧ ys.length = bs.length ∧
      xs = keep ys bs := by
  have rewritten : dagRewrite (.op .filter [c, mask]) =
      .op .filter [dagRewrite c, dagRewrite mask] := rfl
  have kept := h _ meaning
  rw [rewritten] at kept
  obtain ⟨ys, bs, column, masked, same, eq⟩ := filter_meaning kept
  cases eq
  exact ⟨ys, bs, column, masked, same, rfl⟩

theorem sum_if_meaning {mask branch zero : Expr} {bs : List Bool} {a b : Meaning α}
    {xs ys : List Int} (masked : mask.meaning I ρ = some (.mask bs))
    (first : branch.meaning I ρ = some a) (second : zero.meaning I ρ = some b)
    (left : a.broadcast bs.length = some xs) (right : b.broadcast bs.length = some ys)
    (unmasked : ∀ zs, a ≠ .mask zs) :
    (Expr.op .sum [.op .if [mask, branch, zero]]).meaning I ρ =
      some (.int (pick bs xs ys).sum) := by
  have chosen : choose bs a b = some (.col (pick bs xs ys)) := by
    unfold choose
    split
    · exact absurd rfl (unmasked _)
    · simp only [left, right]
  simp only [Expr.meaning, meanings, masked, first, second, Option.bind_some, Option.map_some,
    Interp.apply, chosen]

theorem aggregate_filter {operation : Operation} {c mask : Expr}
    (h : (Expr.op operation [.op .filter [c, mask]]).meaning I ρ = some m) :
    ∃ xs, (Expr.op .filter [c, mask]).meaning I ρ = some (.col xs) ∧
      I.apply operation [.col xs] = some m := by
  obtain ⟨ms, operands, applied⟩ := op_meaning_eq_some.mp h
  obtain ⟨_, _, filtered, last, rfl⟩ := meanings_cons_eq_some.mp operands
  cases last
  obtain ⟨xs, bs, _, _, _, rfl⟩ := filter_meaning filtered
  exact ⟨keep xs bs, filtered, applied⟩

theorem kept_dagRewrite (e : Expr) : Kept I ρ e := by
  induction e using Expr.inductionOn with
  | col name => exact fun _ eq => eq
  | lit v => exact fun _ eq => eq
  | call name operands ih =>
    intro m eq
    simp only [Expr.meaning, Option.bind_eq_some_iff] at eq
    obtain ⟨ms, below, called⟩ := eq
    simp only [dagRewrite, dagRewriteAll_eq_map, Expr.meaning, meanings_map_dagRewrite ih below,
      Option.bind_some, called]
  | op operation operands ih =>
    intro m eq
    rcases dagRewrite_op_cases operation operands with
      ⟨c, mask, rfl, rfl, rewritten⟩ | ⟨c, mask, rfl, rfl, rewritten⟩ | rewritten
    · obtain ⟨xs, filtered, summed⟩ := aggregate_filter eq
      have kept := ih _ (List.mem_singleton_self _)
      obtain ⟨ys, bs, column, masked, same, rfl⟩ := kept.filter filtered
      have whole : (Meaning.col ys : Meaning α).broadcast bs.length = some ys := if_pos same
      rw [rewritten, sum_if_meaning masked column rfl whole rfl (by simp),
        ← sum_keep ys bs same]
      exact summed
    · obtain ⟨xs, filtered, counted⟩ := aggregate_filter eq
      have kept := ih _ (List.mem_singleton_self _)
      obtain ⟨ys, bs, _, masked, same, rfl⟩ := kept.filter filtered
      rw [rewritten, sum_if_meaning masked rfl rfl rfl rfl (by simp),
        ← length_keep ys bs same]
      exact counted
    · obtain ⟨ms, below, applied⟩ := op_meaning_eq_some.mp eq
      rw [rewritten]
      exact op_meaning_eq_some.mpr ⟨ms, meanings_map_dagRewrite ih below, applied⟩

/-- For every expression, at any depth and under any interpretation of the other operations, the
rewrite keeps the meaning. -/
theorem dagRewrite_keeps_meaning (I : Interp α) (ρ : String → Option (Meaning α)) (e : Expr)
    (m : Meaning α) (h : e.meaning I ρ = some m) : (dagRewrite e).meaning I ρ = some m :=
  kept_dagRewrite e m h

/-- Two of three sizes are above the mask's bound, counted below another aggregation's call. -/
theorem dagRewrite_keeps_count :
    (dagRewrite (.call "twice" [.op .count [.op .filter [.col "size", .col "large"]]])).meaning
      (α := Unit) ⟨fun _ _ => none, fun _ ms => ms.head?, fun _ => none⟩
      (fun name => if name = "size" then some (.col [10, 20, 30])
        else some (.mask [true, false, true])) = some (.int 2) :=
  dagRewrite_keeps_meaning _ _ _ _ (by decide)

end Rayforce.Query
