import Rayforce.Lib.Calls

/-! Programs that are lent what somebody else gives back.  What they are lent stays, what they take over
becomes what they make of it, and where they fail nothing is left of it. -/

namespace Calls

variable {C : Type} {R : C → Type} {α β ε σ τ : Type}

def Custody.Uses (k : Custody R σ τ) (lent taken : List τ) (m : ExceptT ε (Prog R) α)
    (made : α → List τ) : Prop :=
  ∀ ds, lent ⊆ ds → k.Owns (taken ++ ds) m (fun a => made a ++ ds) ds

variable {k : Custody R σ τ} {lent lent' taken taken' more : List τ} {made made' mid : α → List τ}
  {result : β → List τ} {p : Prog R α} {m : ExceptT ε (Prog R) α} {f : α → ExceptT ε (Prog R) β}
  {give : Prog R Unit}

theorem Custody.Uses.pure {a : α} (same : taken.Perm (made a)) :
    k.Uses lent taken (Pure.pure a : ExceptT ε (Prog R) α) made :=
  fun ds _ => Owns.pure (same.append_right ds)

theorem Custody.Uses.throw {e : ε} : k.Uses lent [] (throw e : ExceptT ε (Prog R) α) made :=
  fun _ _ => Owns.throw

theorem Custody.Uses.bind (first : k.Uses lent taken m mid)
    (rest : ∀ a, k.Uses lent (mid a) (f a) result) : k.Uses lent taken (m >>= f) result :=
  fun ds sub => Owns.bind (first ds sub) fun a => rest a ds sub

theorem Custody.Uses.mono (h : k.Uses lent taken m made) (sub : lent ⊆ lent') :
    k.Uses lent' taken m made :=
  fun ds sub' => h ds (List.Subset.trans sub sub')

theorem Custody.Uses.perm (h : k.Uses lent taken m made) (before : taken'.Perm taken)
    (after : ∀ a, (made a).Perm (made' a)) : k.Uses lent taken' m made' :=
  fun ds sub =>
    (h ds sub).perm (before.append_right ds) (fun a => (after a).append_right ds) (.refl _)

/-- A program that needs nothing else. -/
theorem Custody.Uses.of_owns (owns : k.Owns taken m made []) : k.Uses lent taken m made :=
  fun ds _ => owns.frame ds

theorem Custody.Uses.lift (h : k.Triple taken p made) :
    k.Uses lent taken (ExceptT.lift p : ExceptT ε (Prog R) α) made :=
  of_owns (Owns.lift h)

theorem Custody.Uses.onError (h : k.Uses (more ++ lent) taken m made)
    (given : k.Triple more give fun _ => []) :
    k.Uses lent (taken ++ more) (onError m give) fun a => made a ++ more := by
  intro ds sub
  have body := h (more ++ ds) (List.append_subset.mpr
    ⟨List.subset_append_left _ _, List.subset_append_of_subset_right _ sub⟩)
  simp only [List.append_assoc]
  exact Owns.onError body (given.frame ds)

theorem Custody.Uses.ensuring (h : k.Uses (more ++ lent) taken m made)
    (given : k.Triple more give fun _ => []) :
    k.Uses lent (taken ++ more) (ensuring m give) made := by
  intro ds sub
  have body := h (more ++ ds) (List.append_subset.mpr
    ⟨List.subset_append_left _ _, List.subset_append_of_subset_right _ sub⟩)
  simp only [List.append_assoc]
  apply Owns.ensuring body
  · intro a
    exact ((given.frame (made a ++ ds)).perm (List.perm_append_comm_assoc _ _ _) fun _ => .refl _)
  · exact given.frame ds

end Calls
