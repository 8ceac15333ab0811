import Rayforce.Query.Question

/-! What a dict asks, and what was said to the builder that it was compiled from. -/

namespace Rayforce.Query

open Defined Mask

variable {α : Type}

def Meaning.rows? : Meaning α → Option (List Bool)
  | .mask bs => some bs
  | _ => none

/-- The rows that masks over the same rows all keep. -/
def everyRow : List (List Bool) → Option (List Bool)
  | [] => none
  | first :: rest =>
    if rest.all (·.length == first.length) then some (every first.length (first :: rest)) else none

def masks (I : Interp α) (ρ : String → Option (Meaning α)) (filters : List Expr) :
    Option (List (List Bool)) :=
  filters.mapM fun f => (f.meaning I ρ).bind Meaning.rows?

/-- Every filter holds. -/
def allOf (I : Interp α) (filters : List Expr) : Term α := fun ρ =>
  ((masks I ρ filters).bind everyRow).map .mask

def terms (I : Interp α) (named : List (String × Expr)) : List (String × Term α) :=
  named.map fun p => (p.1, p.2.term I)

/-- What was said to a builder. -/
def asked (I : Interp α) (named : List (String × Expr)) (filters : List Expr)
    (groups : List (String × Expr)) : Question α where
  condition := if filters.isEmpty then none else some (allOf I filters)
  groups := if groups.isEmpty then none else some (terms I groups)
  named := terms I named

/-! ### Dicts that tell -/

theorem lookup_iff_mem {entries : List (String × Value)} (distinct : (entries.map Prod.fst).Nodup)
    {key : String} {v : Value} : entries.lookup key = some v ↔ (key, v) ∈ entries := by
  induction entries with
  | nil => simp
  | cons entry entries ih =>
    obtain ⟨other, w⟩ := entry
    obtain ⟨new, rest⟩ := List.nodup_cons.mp distinct
    rw [List.lookup_cons, List.mem_cons]
    by_cases same : key = other
    · subst same
      have gone : (key, v) ∉ entries := fun mem => new (List.mem_map.mpr ⟨(key, v), mem, rfl⟩)
      simp [gone, eq_comm]
    · rw [beq_false_of_ne same]
      simp [same, ih rest]

theorem lookup_eq_none_of_forall {entries : List (String × Value)} {key : String}
    (without : ∀ v, (key, v) ∉ entries) : entries.lookup key = none := by
  rw [List.lookup_eq_none_iff]
  rintro ⟨other, v⟩ mem
  rw [bne_iff_ne]
  rintro rfl
  exact without v mem

theorem rows?_eq_some {m : Meaning α} {bs : List Bool} : m.rows? = some bs ↔ m = .mask bs := by
  cases m <;> simp [Meaning.rows?]

/-- Filters and the masks that they mean. -/
def Masks (I : Interp α) (ρ : String → Option (Meaning α)) : List Expr → List (List Bool) → Prop :=
  List.Forall₂ fun f mask => f.meaning I ρ = some (.mask mask)

/-- Filters that all hold are masks over the same rows. -/
theorem allOf_eq_some_iff {I : Interp α} {ρ : String → Option (Meaning α)} {filters : List Expr}
    {m : Meaning α} : allOf I filters ρ = some m ↔
      ∃ n masks, Masks I ρ filters masks ∧ masks ≠ [] ∧ (∀ mask ∈ masks, mask.length = n) ∧
        m = .mask (every n masks) := by
  have meant (ms : List (List Bool)) : masks I ρ filters = some ms ↔ Masks I ρ filters ms := by
    simp only [masks, Masks, mapM_eq_some_iff, Option.bind_eq_some_iff, rows?_eq_some,
      exists_eq_right]
  simp only [allOf, Option.map_eq_some_iff, Option.bind_eq_some_iff, meant]
  constructor
  · rintro ⟨_, ⟨ms, each, kept⟩, rfl⟩
    cases ms with
    | nil => cases kept
    | cons first rest =>
      obtain ⟨same, all⟩ := Option.ite_none_right_eq_some.mp kept
      cases all
      refine ⟨first.length, _, each, List.cons_ne_nil first rest, fun mask mem => ?_, rfl⟩
      rcases List.mem_cons.mp mem with rfl | mem
      · rfl
      · exact eq_of_beq (List.all_eq_true.mp same mask mem)
  · rintro ⟨n, ms, each, some, same, rfl⟩
    obtain ⟨first, rest, rfl⟩ := List.exists_cons_of_ne_nil some
    obtain rfl := same first List.mem_cons_self
    refine ⟨_, ⟨_, each, if_pos ?_⟩, rfl⟩
    exact List.all_eq_true.mpr fun mask mem =>
      beq_iff_eq.mpr (same mask (List.mem_cons_of_mem first mem))

variable {I : Interp α} {dict source : Value} {named : List (String × Expr)} {filters : List Expr}
  {groups : List (String × Expr)}

theorem below_term (resolves : I.Resolves) (e : Expr) :
    (e.term I).Below ((compileQueryExpr e).term I) := by
  intro ρ m meaning
  rw [Value.term, compileQueryExpr, compile_meaning resolves]
  exact kept_dagRewrite e m meaning

theorem below_terms (resolves : I.Resolves) (named : List (String × Expr)) :
    List.Forall₂ Named (terms I named) ((compiled named).map fun p => (p.1, p.2.term I)) := by
  rw [terms, compiled, List.map_map, List.forall₂_map_left_iff, List.forall₂_map_right_iff,
    List.forall₂_same]
  exact fun p _ => ⟨rfl, below_term resolves p.2⟩

theorem Tells.condition_below (told : Tells dict source named filters groups) (resolves : I.Resolves)
    (conjoins : I.Conjoins) : Option.Rel Term.Below (asked I named filters groups).condition
      (dict.question I).condition := by
  cases filters with
  | nil =>
    have absent := lookup_eq_none_of_forall fun v mem => told.where_present.mp ⟨v, mem⟩ rfl
    simp only [asked, Value.question, absent]
    exact .none
  | cons first rest =>
    obtain ⟨v, mem⟩ := told.where_present.mpr (List.cons_ne_nil first rest)
    simp only [asked, Value.question, (lookup_iff_mem told.distinct).mpr mem]
    apply Option.Rel.some
    intro ρ m holds
    obtain ⟨n, masks, each, _, same, rfl⟩ := allOf_eq_some_iff.mp holds
    exact told.where_means v mem α I ρ n masks resolves conjoins each same

theorem not_clause_of_not_reserved {name : String} (out : name ∉ reserved) : name ∉ clauses :=
  fun mem => out (List.mem_append_left ["take", "asc", "desc", "nearest"] mem)

theorem Tells.named_eq (told : Tells dict source named filters groups)
    (free : ∀ name ∈ named.map Prod.fst, name ∉ reserved) :
    dict.entries.filter (fun p => p.1 ∉ reserved) = compiled named := by
  have all : ∀ p ∈ compiled named, decide (p.1 ∉ reserved) = true := by
    intro p mem
    rw [decide_eq_true_iff]
    exact free p.1 (compiled_fst named ▸ List.mem_map_of_mem mem)
  have twice : dict.entries.filter (fun p => p.1 ∉ reserved) =
      (dict.entries.filter fun p => p.1 ∉ clauses).filter fun p => p.1 ∉ reserved := by
    rw [List.filter_filter]
    apply List.filter_congr
    intro p _
    by_cases out : p.1 ∈ reserved
    · simp [out]
    · simp [out, not_clause_of_not_reserved out]
  rw [twice, told.rest, List.filter_eq_self]
  exact all

theorem Tells.lookup_by (told : Tells dict source named filters []) :
    dict.entries.lookup "by" = none :=
  lookup_eq_none_of_forall fun v mem => ((told.«by» v).mp mem).1 rfl

theorem Tells.groups_below (told : Tells dict source named filters groups) (resolves : I.Resolves) :
    Option.Rel (List.Forall₂ Named) (asked I named filters groups).groups
      (dict.question I).groups := by
  cases groups with
  | nil =>
    simp only [asked, Value.question, told.lookup_by]
    exact .none
  | cons group given =>
    have present := (told.«by» _).mpr ⟨List.cons_ne_nil group given, rfl⟩
    simp only [asked, Value.question, (lookup_iff_mem told.distinct).mpr present]
    apply Option.Rel.some
    simp only [entries_dictOf]
    exact below_terms resolves _

/-- A dict that tells what a builder was told asks at least that. -/
theorem Tells.question_below (told : Tells dict source named filters groups) (resolves : I.Resolves)
    (conjoins : I.Conjoins) (free : ∀ name ∈ named.map Prod.fst, name ∉ reserved) :
    (asked I named filters groups).Below (dict.question I) where
  condition := told.condition_below resolves conjoins
  groups := told.groups_below resolves
  named := by
    rw [Value.question, told.named_eq free]
    exact below_terms resolves named

/-- It asks it of the builder's table, and nothing besides. -/
theorem Tells.asks {t : Nat} (told : Tells dict (.object t) named filters groups)
    (free : ∀ name ∈ named.map Prod.fst, name ∉ reserved) : dict.Asks t where
  paired := told.paired
  distinct := told.distinct
  source := (lookup_iff_mem told.distinct).mpr ((told.«from» _).mpr rfl)
  plain key unsaid := by
    have read : key ∈ reserved := List.mem_append_right clauses unsaid
    have no_clause : key ∉ clauses := by
      intro clause
      simp only [clauses, List.mem_cons, List.not_mem_nil, or_false] at clause
      rcases clause with rfl | rfl | rfl <;> simp at unsaid
    refine lookup_eq_none_of_forall fun v mem => ?_
    have said : (key, v) ∈ compiled named :=
      told.rest ▸ List.mem_filter.mpr ⟨mem, by simp [no_clause]⟩
    exact free key (compiled_fst named ▸ List.mem_map_of_mem said) read

end Rayforce.Query
