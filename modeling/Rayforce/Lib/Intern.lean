import Mathlib.Data.List.Infix
import Mathlib.Data.List.Nodup

/-! Interning: entries without repetition, where an entry's place is its name.  The table only grows,
so a place keeps its entry. -/

namespace Intern

variable {α : Type} {entries later : List α} {a : α}

section

variable [DecidableEq α]

/-- The table with an entry, which is added at the end unless it is there. -/
def add (entries : List α) (a : α) : List α := if a ∈ entries then entries else entries ++ [a]

theorem prefix_add (entries : List α) (a : α) : entries <+: add entries a := by
  unfold add
  split
  · exact List.prefix_rfl
  · exact List.prefix_append entries [a]

theorem mem_add (entries : List α) (a : α) : a ∈ add entries a := by
  unfold add
  split
  · assumption
  · exact List.mem_append_right entries (List.mem_singleton_self a)

theorem nodup_add (nodup : entries.Nodup) : (add entries a).Nodup := by
  unfold add
  split
  · exact nodup
  · next absent => exact nodup.append (List.nodup_singleton a) (List.disjoint_singleton.mpr absent)

end

/-! ### Places -/

variable [BEq α] [LawfulBEq α]

/-- An entry keeps its place. -/
theorem idxOf_prefix (mem : a ∈ entries) (grows : entries <+: later) :
    later.idxOf a = entries.idxOf a := by
  obtain ⟨news, rfl⟩ := grows
  exact List.idxOf_append_of_mem mem

/-- A place keeps its entry. -/
theorem getElem?_idxOf (mem : a ∈ entries) (grows : entries <+: later) :
    later[entries.idxOf a]? = some a := by
  rw [← idxOf_prefix mem grows, List.getElem?_eq_getElem (List.idxOf_lt_length_iff.mpr (grows.mem mem)),
    List.getElem_idxOf]

end Intern
