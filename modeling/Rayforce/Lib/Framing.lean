import Mathlib.InformationTheory.Coding.UniquelyDecodable
import Mathlib.Data.Set.Basic

/-! Words that say their own length, and the streams that are made of them. -/

namespace Framing

variable {α : Type*} {S : Set (List α)} {header : Nat} {size : List α → Nat}

/-- The length of a word can be read off its first letters. -/
def SelfDelimiting (S : Set (List α)) (header : Nat) (size : List α → Nat) : Prop :=
  ∀ w ∈ S, header ≤ w.length ∧ w.length = size (w.take header)

/-- Of two words that begin one stream, neither is longer. -/
theorem SelfDelimiting.append_inj (delimiting : SelfDelimiting S header size) {v w x y : List α}
    (hv : v ∈ S) (hw : w ∈ S) (same : v ++ x = w ++ y) : v = w ∧ x = y := by
  obtain ⟨longV, sizeV⟩ := delimiting v hv
  obtain ⟨longW, sizeW⟩ := delimiting w hw
  have headers : v.take header = w.take header := by
    have taken := congrArg (List.take header) same
    rwa [List.take_append_of_le_length longV, List.take_append_of_le_length longW] at taken
  have lengths : v.length = w.length := by rw [sizeV, sizeW, headers]
  exact List.append_inj same lengths

/-- A stream is cut into words in one way only. -/
theorem SelfDelimiting.uniquelyDecodable (delimiting : SelfDelimiting S header size)
    (positive : 0 < header) : InformationTheory.UniquelyDecodable S := by
  have nonempty : ∀ w ∈ S, w ≠ [] := by
    rintro w hw rfl
    have long := (delimiting [] hw).1
    rw [List.length_nil] at long
    omega
  intro ws
  induction ws with
  | nil =>
    intro vs _ hvs same
    cases vs with
    | nil => rfl
    | cons v vs =>
      have empty : v = [] := (List.append_eq_nil_iff.mp same.symm).1
      exact absurd empty (nonempty v (hvs v List.mem_cons_self))
  | cons w ws ih =>
    intro vs hws hvs same
    cases vs with
    | nil =>
      have empty : w = [] := (List.append_eq_nil_iff.mp same).1
      exact absurd empty (nonempty w (hws w List.mem_cons_self))
    | cons v vs =>
      obtain ⟨rfl, rest⟩ :=
        delimiting.append_inj (hws w List.mem_cons_self) (hvs v List.mem_cons_self) same
      rw [ih vs (fun u hu => hws u (List.mem_cons_of_mem w hu))
        (fun u hu => hvs u (List.mem_cons_of_mem w hu)) rest]

end Framing
