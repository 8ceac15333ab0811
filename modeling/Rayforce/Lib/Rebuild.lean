import Mathlib.Data.Int.Order.Basic

/-! Products that are made again when a file they were made from is newer.  A write has a later time
than all that were written before it. -/

namespace Rebuild

variable {P F B : Type*}

/-- How a product is made: from the inputs at some paths, which the making names. -/
structure Rule (P B : Type*) where
  reads : (P → Option B) → List P
  make : (P → Option B) → B
  complete : ∀ inputs inputs', (∀ p ∈ reads inputs, inputs' p = inputs p) → make inputs' = make inputs

variable (time : F → Option Int) (content : F → B) (input : P → F → Option B)

/-- What the files are worth to a rule. -/
def view (files : P → Option F) (p : P) : Option B := (files p).bind (input p)

def NotNewer (g f : F) : Prop := ∃ τ σ, time g = some τ ∧ time f = some σ ∧ τ ≤ σ

/-- Nothing is dated later than `now`. -/
def Dated (now : Int) (files : P → Option F) : Prop :=
  ∀ p g, files p = some g → ∃ τ, time g = some τ ∧ τ ≤ now

/-- What there is at `now'` was there at `now`, or was written since. -/
def Since (now now' : Int) (files files' : P → Option F) : Prop :=
  ∀ p g, files' p = some g → files p = some g ∨ ∃ τ, time g = some τ ∧ now < τ ∧ τ ≤ now'

/-- The product was made by the rule from inputs that those paths still hold, where they hold nothing
newer. -/
def Made (r : Rule P B) (deps : List P) (files : P → Option F) (f : F) : Prop :=
  ∃ inputs, content f = r.make inputs ∧ deps = r.reads inputs ∧
    ∀ p ∈ deps, ∀ g, files p = some g → NotNewer time g f → view input files p = inputs p

/-- What the product was made from is all there, and not newer. -/
def UpToDate (deps : List P) (files : P → Option F) (f : F) : Prop :=
  ∀ p ∈ deps, ∃ g, files p = some g ∧ NotNewer time g f

variable {time content input} {r : Rule P B} {deps : List P} {files files' : P → Option F} {f : F}
  {now now' : Int}

theorem Dated.since (dated : Dated time now files) (since : Since time now now' files files')
    (later : now ≤ now') : Dated time now' files' := by
  intro p g found
  rcases since p g found with before | ⟨τ, at_τ, -, early⟩
  · obtain ⟨τ, at_τ, early⟩ := dated p g before
    exact ⟨τ, at_τ, by omega⟩
  · exact ⟨τ, at_τ, early⟩

theorem Made.since (made : Made time content input r deps files f)
    (since : Since time now now' files files') (old : ∃ σ, time f = some σ ∧ σ ≤ now) :
    Made time content input r deps files' f := by
  obtain ⟨inputs, same, reads, held⟩ := made
  refine ⟨inputs, same, reads, fun p mem g found notNewer => ?_⟩
  rcases since p g found with before | ⟨τ, at_τ, after, -⟩
  · rw [← held p mem g before notNewer, view, view, found, before]
  · obtain ⟨σ, at_σ, early⟩ := old
    obtain ⟨τ', σ', g_τ', f_σ', le⟩ := notNewer
    cases at_τ.symm.trans g_τ'
    cases at_σ.symm.trans f_σ'
    omega

/-- A product that is written where no input is. -/
theorem made_written [DecidableEq P] {o : P} (apart : ∀ g, input o g = none)
    (written : ∀ p, files' p = if p = o then some f else files p)
    (same : content f = r.make (view input files)) :
    Made time content input r (r.reads (view input files)) files' f := by
  refine ⟨view input files, same, rfl, fun p _ g _ _ => ?_⟩
  unfold view
  rw [written p]
  split
  · next at_o =>
    subst at_o
    rw [Option.bind_some, apart]
    cases files p with
    | none => rfl
    | some g => exact (apart g).symm
  · rfl

end Rebuild
