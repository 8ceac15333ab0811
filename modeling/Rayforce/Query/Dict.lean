import Rayforce.Query.Builder

/-! What a compiled dict says.  It says what the builder said exactly when no chosen name is the
name of a clause. -/

namespace Rayforce.Query

open Mask

/-- The pairs of a dict that is built from a list of keys and a list of values. -/
def Value.entries : Value → List (String × Value)
  | .dict (.symVec keys) (.list vals) => keys.zip vals
  | _ => []

def dictOf (entries : List (String × Value)) : Value :=
  .dict (.symVec (entries.map Prod.fst)) (.list (entries.map Prod.snd))

@[simp] theorem entries_dictOf (entries : List (String × Value)) :
    (dictOf entries).entries = entries := by
  simp only [dictOf, Value.entries]
  induction entries with
  | nil => rfl
  | cons entry entries ih => rw [List.map_cons, List.map_cons, List.zip_cons_cons, ih]

/-- The conjunction of two masks of one length is what both keep. -/
def Interp.Conjoins {α : Type} (I : Interp α) : Prop :=
  ∀ a b : List Bool, a.length = b.length →
    I.apply .and [.mask a, .mask b] = some (.mask (List.zipWith (· && ·) a b))

/-- An evaluator that knows the fixed operations and the conjunction, and nothing else. -/
def standard : Interp Unit :=
  let plain : Interp Unit :=
    { op := fun
        | .and, [.mask a, .mask b] => some (.mask (List.zipWith (· && ·) a b))
        | _, _ => none
      call := fun _ _ => none
      object := fun _ => none }
  { plain with
    call := fun
      | "filter", ms => plain.apply .filter ms
      | "sum", ms => plain.apply .sum ms
      | "count", ms => plain.apply .count ms
      | "if", ms => plain.apply .if ms
      | "and", ms => plain.apply .and ms
      | _, _ => none }

theorem standard_laws : standard.Resolves ∧ standard.Conjoins := by
  refine ⟨fun operation ms => ?_, fun _ _ _ => rfl⟩
  cases operation <;> rfl

/-- Wherever every filter means a mask over the same rows, the AST means the rows that all keep. -/
def MeansAll (v : Value) (filters : List Expr) : Prop :=
  ∀ (α : Type) (I : Interp α) (ρ : String → Option (Meaning α)) (n : Nat)
    (masks : List (List Bool)), I.Resolves → I.Conjoins →
    List.Forall₂ (fun f mask => f.meaning I ρ = some (.mask mask)) filters masks →
    (∀ mask ∈ masks, mask.length = n) → v.meaning I ρ = some (.mask (every n masks))

def compiled (named : List (String × Expr)) : List (String × Value) :=
  named.map fun p => (p.1, compileQueryExpr p.2)

/-- The names of the clauses. -/
def clauses : List String := ["from", "where", "by"]

/-- The dict tells what a builder was told: its source, its named expressions, its filters and its
groups. -/
structure Tells (dict source : Value) (named : List (String × Expr)) (filters : List Expr)
    (groups : List (String × Expr)) : Prop where
  paired : dict = dictOf dict.entries
  distinct : (dict.entries.map Prod.fst).Nodup
  «from» : ∀ v, ("from", v) ∈ dict.entries ↔ v = source
  where_present : (∃ v, ("where", v) ∈ dict.entries) ↔ filters ≠ []
  where_means : ∀ v, ("where", v) ∈ dict.entries → MeansAll v filters
  «by» : ∀ v, ("by", v) ∈ dict.entries ↔ groups ≠ [] ∧ v = dictOf (compiled groups)
  rest : dict.entries.filter (fun p => p.1 ∉ clauses) = compiled named

/-! ### The entries of a compiled dict -/

def byEntries : List (String × Expr) → List (String × Value)
  | [] => []
  | groups => [("by", dictOf (compiled groups))]

def whereEntries : List Expr → List (String × Value)
  | [] => []
  | first :: rest => [("where", compileQueryExpr (rest.foldl Expr.and first))]

/-- The entries of the clauses. -/
def clauseEntries (source : Value) (filters : List Expr) (groups : List (String × Expr)) :
    List (String × Value) :=
  byEntries groups ++ ("from", source) :: whereEntries filters

theorem select_compileDict (q : Select) :
    q.compileDict = dictOf (compiled q.proj ++ clauseEntries q.«from» q.wheres q.«by») := by
  obtain ⟨source, proj, wheres, groups, order⟩ := q
  cases groups <;> cases wheres <;>
    simp [Select.compileDict, dictOf, compiled, clauseEntries, byEntries, whereEntries,
      Function.comp_def]

/-- An update has no groups. -/
theorem update_compileDict (q : Update) :
    q.compileDict = dictOf (compiled q.sets ++ clauseEntries q.«from» q.wheres []) := by
  obtain ⟨source, sets, wheres⟩ := q
  cases wheres <;>
    simp [Update.compileDict, dictOf, compiled, clauseEntries, byEntries, whereEntries,
      Function.comp_def]

variable {source : Value} {named : List (String × Expr)} {filters : List Expr}
  {groups : List (String × Expr)}

theorem compiled_fst (named : List (String × Expr)) :
    (compiled named).map Prod.fst = named.map Prod.fst := by
  simp [compiled, Function.comp_def]

theorem mem_clauseEntries {p : String × Value} :
    p ∈ clauseEntries source filters groups ↔
      p ∈ byEntries groups ∨ p = ("from", source) ∨ p ∈ whereEntries filters := by
  simp [clauseEntries]

theorem mem_whereEntries {key : String} {v : Value} :
    (key, v) ∈ whereEntries filters ↔ key = "where" ∧ ∃ first rest, filters = first :: rest ∧
      v = compileQueryExpr (rest.foldl Expr.and first) := by
  cases filters <;> simp [whereEntries]

theorem mem_byEntries {key : String} {v : Value} :
    (key, v) ∈ byEntries groups ↔ key = "by" ∧ groups ≠ [] ∧ v = dictOf (compiled groups) := by
  cases groups <;> simp [byEntries]

theorem clauseEntries_nodup :
    ((clauseEntries source filters groups).map Prod.fst).Nodup := by
  cases groups <;> cases filters <;> simp [clauseEntries, byEntries, whereEntries]

/-- Every clause's key is the name of a clause, and every clause that is told has one. -/
theorem key_mem_clauses {p : String × Value} (mem : p ∈ clauseEntries source filters groups) :
    p.1 ∈ clauses := by
  obtain ⟨key, v⟩ := p
  rcases mem_clauseEntries.mp mem with group | eq | filter
  · obtain ⟨rfl, _⟩ := mem_byEntries.mp group
    simp [clauses]
  · cases eq
    simp [clauses]
  · obtain ⟨rfl, _⟩ := mem_whereEntries.mp filter
    simp [clauses]

/-- The filters combined from the left mean what all of them keep. -/
theorem meaning_foldl_and {α : Type} {I : Interp α} {ρ : String → Option (Meaning α)}
    (conjoins : I.Conjoins) {n : Nat} {first : Expr} {mask : List Bool} {rest : List Expr}
    {masks : List (List Bool)} (meaning : first.meaning I ρ = some (.mask mask))
    (same : mask.length = n)
    (others : List.Forall₂ (fun f mask => f.meaning I ρ = some (.mask mask)) rest masks)
    (lengths : ∀ mask ∈ masks, mask.length = n) :
    (rest.foldl Expr.and first).meaning I ρ = some (.mask (conjoin mask masks)) := by
  induction others generalizing first mask with
  | nil => exact meaning
  | @cons f m rest masks next _ ih =>
    have length := lengths m (List.mem_cons_self ..)
    have both : (first.and f).meaning I ρ = some (.mask (List.zipWith (· && ·) mask m)) := by
      simp only [Expr.and, Expr.meaning, meanings, meaning, next, Option.bind_some,
        Option.map_some]
      exact conjoins mask m (same.trans length.symm)
    refine ih both ?_ fun mask mem => lengths mask (List.mem_cons_of_mem _ mem)
    rw [List.length_zipWith, same, length, Nat.min_self]

theorem meansAll_where {first : Expr} {rest : List Expr} :
    MeansAll (compileQueryExpr (rest.foldl Expr.and first)) (first :: rest) := by
  intro α I ρ n masks resolves conjoins meaning lengths
  obtain _ | ⟨head, tail⟩ := meaning
  have others := fun mask mem => lengths mask (List.mem_cons_of_mem _ mem)
  have same := lengths _ (List.mem_cons_self ..)
  rw [compileQueryExpr, compile_meaning resolves, ← conjoin_eq_every same others]
  exact kept_dagRewrite _ _ (meaning_foldl_and conjoins head same tail others)

/-! ### When a dict says what was told -/

theorem not_clause_of_tells
    (told : Tells (dictOf (compiled named ++ clauseEntries source filters groups)) source named
      filters groups) {name : String} (mem : name ∈ named.map Prod.fst) :
    name ∉ clauses := by
  have distinct := told.distinct
  rw [entries_dictOf, List.map_append, compiled_fst, List.nodup_append] at distinct
  have twice : ∀ v, (name, v) ∉ clauseEntries source filters groups := fun v clause =>
    distinct.2.2 name mem name (List.mem_map_of_mem clause) rfl
  obtain ⟨p, memp, rfl⟩ := List.mem_map.mp mem
  have entry : (p.1, compileQueryExpr p.2) ∈
      (dictOf (compiled named ++ clauseEntries source filters groups)).entries := by
    rw [entries_dictOf]
    exact List.mem_append_left _ (List.mem_map_of_mem memp)
  intro clash
  have cases : p.1 = "from" ∨ p.1 = "where" ∨ p.1 = "by" := by simpa [clauses] using clash
  rcases cases with eq | eq | eq
  · rw [eq] at twice
    exact twice source (mem_clauseEntries.mpr (.inr (.inl rfl)))
  · rw [eq] at twice entry
    obtain ⟨first, rest, rfl⟩ := List.exists_cons_of_ne_nil
      (told.where_present.mp ⟨_, entry⟩)
    exact twice _ (mem_clauseEntries.mpr (.inr (.inr
      (mem_whereEntries.mpr ⟨rfl, first, rest, rfl, rfl⟩))))
  · rw [eq] at twice entry
    obtain ⟨nonempty, _⟩ := (told.«by» _).mp entry
    exact twice _ (mem_clauseEntries.mpr (.inl (mem_byEntries.mpr ⟨rfl, nonempty, rfl⟩)))

theorem tells_of_not_clause (distinct : (named.map Prod.fst).Nodup)
    (free : ∀ name ∈ named.map Prod.fst, name ∉ clauses) :
    Tells (dictOf (compiled named ++ clauseEntries source filters groups)) source named filters
      groups := by
  have chosen : ∀ {key : String} {v : Value}, (key, v) ∈ compiled named → key ∉ clauses := by
    intro key v mem
    refine free key ?_
    rw [← compiled_fst]
    exact List.mem_map_of_mem mem
  have at_clause : ∀ {key : String} {v : Value}, key ∈ clauses →
      ((key, v) ∈ compiled named ++ clauseEntries source filters groups ↔
        (key, v) ∈ clauseEntries source filters groups) := by
    intro key v clause
    rw [List.mem_append]
    exact or_iff_right fun mem => chosen mem clause
  have where_clause : ∀ v, ("where", v) ∈ compiled named ++ clauseEntries source filters groups ↔
      ("where", v) ∈ clauseEntries source filters groups := fun v => at_clause (by simp [clauses])
  have where_entry : ∀ v, ("where", v) ∈ clauseEntries source filters groups ↔
      ∃ first rest, filters = first :: rest ∧ v = compileQueryExpr (rest.foldl Expr.and first) := by
    intro v
    simp [mem_clauseEntries, mem_byEntries, mem_whereEntries]
  constructor
  · rw [entries_dictOf]
  · rw [entries_dictOf, List.map_append, compiled_fst, List.nodup_append]
    refine ⟨distinct, clauseEntries_nodup, ?_⟩
    rintro name mem _ clause rfl
    obtain ⟨p, memp, rfl⟩ := List.mem_map.mp clause
    exact free p.1 mem (key_mem_clauses memp)
  · intro v
    rw [entries_dictOf, at_clause (by simp [clauses])]
    simp [mem_clauseEntries, mem_byEntries, mem_whereEntries]
  · simp only [entries_dictOf, where_clause, where_entry]
    constructor
    · rintro ⟨v, first, rest, rfl, rfl⟩
      exact List.cons_ne_nil first rest
    · intro some
      obtain ⟨first, rest, rfl⟩ := List.exists_cons_of_ne_nil some
      exact ⟨_, first, rest, rfl, rfl⟩
  · intro v mem
    rw [entries_dictOf, where_clause, where_entry] at mem
    obtain ⟨first, rest, rfl, rfl⟩ := mem
    exact meansAll_where
  · intro v
    rw [entries_dictOf, at_clause (by simp [clauses])]
    simp [mem_clauseEntries, mem_byEntries, mem_whereEntries]
  · rw [entries_dictOf, List.filter_append]
    have kept : (compiled named).filter (fun p => p.1 ∉ clauses) = compiled named := by
      rw [List.filter_eq_self]
      intro p mem
      simpa using chosen mem
    have dropped : (clauseEntries source filters groups).filter
        (fun p => p.1 ∉ clauses) = [] := by
      rw [List.filter_eq_nil_iff]
      intro p mem
      simpa using key_mem_clauses mem
    rw [kept, dropped, List.append_nil]

/-- For every sequence of calls with distinct names, the dict of a select or of an update says what they
said exactly when no name is `from`, `where` or `by`. -/
theorem query_dict_tells_iff (source : Value) :
    (∀ calls : List SelectCall, ((calls.flatMap SelectCall.projections).map Prod.fst).Nodup →
      (Tells (Select.build source calls).compileDict source
          (calls.flatMap SelectCall.projections) (calls.flatMap SelectCall.filters)
          (calls.flatMap SelectCall.groups) ↔
        ∀ name ∈ (calls.flatMap SelectCall.projections).map Prod.fst,
          name ≠ "from" ∧ name ≠ "where" ∧ name ≠ "by")) ∧
    (∀ calls : List UpdateCall, ((calls.flatMap UpdateCall.sets).map Prod.fst).Nodup →
      (Tells (Update.build source calls).compileDict source
          (calls.flatMap UpdateCall.sets) (calls.flatMap UpdateCall.filters) [] ↔
        ∀ name ∈ (calls.flatMap UpdateCall.sets).map Prod.fst,
          name ≠ "from" ∧ name ≠ "where" ∧ name ≠ "by")) := by
  constructor
  · intro calls distinct
    obtain ⟨same, proj, wheres, groups⟩ := select_run calls (Select.new source)
    rw [select_compileDict, Select.build, same, proj, wheres, groups]
    simp only [Select.new, List.nil_append]
    constructor
    · intro told name mem
      simpa [clauses] using not_clause_of_tells told mem
    · intro free
      exact tells_of_not_clause distinct fun name mem => by simpa [clauses] using free name mem
  · intro calls distinct
    obtain ⟨same, sets, wheres⟩ := update_run calls (Update.new source)
    rw [update_compileDict, Update.build, same, sets, wheres]
    simp only [Update.new, List.nil_append]
    constructor
    · intro told name mem
      simpa [clauses] using not_clause_of_tells told mem
    · intro free
      exact tells_of_not_clause distinct fun name mem => by simpa [clauses] using free name mem

/-- A select with a projection, a filter and a group says all three, and an update its set. -/
theorem query_dict_tells_named :
    Tells (Select.build (.object 0) [.col "price", .filter (.col "large"), .groupBy "sym"]).compileDict
        (.object 0) [("price", .col "price")] [.col "large"] [("sym", .col "sym")] ∧
      Tells (Update.build (.object 0) [.set "price" (.col "bid")]).compileDict
        (.object 0) [("price", .col "bid")] [] [] := by
  obtain ⟨select, update⟩ := query_dict_tells_iff (.object 0)
  exact ⟨(select _ (by decide)).mpr (by decide), (update _ (by decide)).mpr (by decide)⟩

/-- The projection of a column `by` becomes a grouping that nobody asked for, and so does the set of
one. -/
theorem query_dict_not_tells :
    (¬∀ (source : Value) (calls : List SelectCall),
      ((calls.flatMap SelectCall.projections).map Prod.fst).Nodup →
        Tells (Select.build source calls).compileDict source
          (calls.flatMap SelectCall.projections) (calls.flatMap SelectCall.filters)
          (calls.flatMap SelectCall.groups)) ∧
    ¬∀ (source : Value) (calls : List UpdateCall),
      ((calls.flatMap UpdateCall.sets).map Prod.fst).Nodup →
        Tells (Update.build source calls).compileDict source
          (calls.flatMap UpdateCall.sets) (calls.flatMap UpdateCall.filters) [] := by
  constructor
  · intro told
    have bad := told (.object 0) [.col "by"] (by decide)
    have entry : ("by", .nameRef "by") ∈
        (Select.build (.object 0) [.col "by"]).compileDict.entries := List.mem_cons_self ..
    exact ((bad.«by» _).mp entry).1 rfl
  · intro told
    have bad := told (.object 0) [.set "by" (.col "size")] (by decide)
    have entry : ("by", .nameRef "size") ∈
        (Update.build (.object 0) [.set "by" (.col "size")]).compileDict.entries :=
      List.mem_cons_self ..
    exact ((bad.«by» _).mp entry).1 rfl

end Rayforce.Query
