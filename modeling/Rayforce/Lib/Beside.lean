import Rayforce.Lib.Calls

/-! Two outsides side by side.  What a program that calls the first one gives back, it gives back beside
the second one as well. -/

namespace Calls

variable {C D : Type} {R : C → Type} {Q : D → Type} {α β ε σ τ : Type}

/-- A program that calls the first outside alone. -/
def Prog.inl : Prog R α → Prog (Sum.elim R Q) α
  | .pure a => .pure a
  | .call c next => .call (Sum.inl c) fun r => (next r).inl

theorem Prog.inl_bind (p : Prog R α) (f : α → Prog R β) :
    (p >>= f).inl (Q := Q) = p.inl >>= fun a => (f a).inl := by
  induction p with
  | pure a => rfl
  | call c next ih => exact congrArg (Prog.call (Sum.inl c)) (funext ih)

def askInr (d : D) : Prog (Sum.elim R Q) (Q d) := ask (R := Sum.elim R Q) (Sum.inr d)

/-- What the second outside does, and what it leaves with nobody. -/
structure Custody.Beside (k : Custody R σ τ) (Q : D → Type) where
  effect : σ → (d : D) → Q d → σ → Prop
  lost : Sigma Q → List τ

def besideEffect (effect : σ → (c : C) → R c → σ → Prop) (effect' : σ → (d : D) → Q d → σ → Prop) :
    σ → (c : C ⊕ D) → Sum.elim R Q c → σ → Prop
  | s, .inl c, r, t => effect s c r t
  | s, .inr d, r, t => effect' s d r t

def besideLost (lost : Sigma R → List τ) (lost' : Sigma Q → List τ) : Sigma (Sum.elim R Q) → List τ
  | ⟨.inl c, r⟩ => lost ⟨c, r⟩
  | ⟨.inr d, r⟩ => lost' ⟨d, r⟩

def Custody.beside (k : Custody R σ τ) (b : k.Beside Q) : Custody (Sum.elim R Q) σ τ where
  effect := besideEffect k.effect b.effect
  holds := k.holds
  perm := k.perm
  lost := besideLost k.lost b.lost

variable {k : Custody R σ τ} {b : k.Beside Q} {pre fail : List τ} {post : α → List τ} {s t : σ} {a : α}

/-- Its run beside the second outside is one without. -/
theorem runs_inl {p : Prog R α} {told : List (Sigma (Sum.elim R Q))}
    (run : Runs (k.beside b).effect p.inl s told a t) :
    ∃ told', Runs k.effect p s told' a t ∧ told.flatMap (k.beside b).lost = told'.flatMap k.lost := by
  induction p generalizing s told with
  | pure a' =>
    obtain ⟨rfl, rfl, rfl⟩ := eq_of_runs_pure run
    exact ⟨[], .pure _ _, rfl⟩
  | call c next ih =>
    cases run with
    | call answered rest =>
      obtain ⟨told', after, same⟩ := ih _ rest
      refine ⟨_, .call answered after, ?_⟩
      rw [List.flatMap_cons, List.flatMap_cons, same]
      rfl

theorem Custody.Triple.inl {p : Prog R α} (h : k.Triple pre p post) :
    (k.beside b).Triple pre p.inl post := by
  intro s told a t run frame holds
  obtain ⟨told', run', same⟩ := runs_inl run
  rw [same]
  exact h run' frame holds

/-- A call of the second outside. -/
theorem Custody.Triple.inr {d : D} {post : Q d → List τ}
    (answered : ∀ ⦃s r t⦄, b.effect s d r t → ∀ frame, k.holds s (pre ++ frame) →
      k.holds t (post r ++ (b.lost ⟨d, r⟩ ++ frame))) :
    (k.beside b).Triple pre (askInr d) post :=
  Triple.ask (k := k.beside b) (c := Sum.inr d) answered

/-- The same of a program that may fail. -/
def inl (m : ExceptT ε (Prog R) α) : ExceptT ε (Prog (Sum.elim R Q)) α := ExceptT.mk m.run.inl

theorem inl_bind (m : ExceptT ε (Prog R) α) (f : α → ExceptT ε (Prog R) β) :
    (inl (m >>= f) : ExceptT ε (Prog (Sum.elim R Q)) β) = inl m >>= fun a => inl (f a) := by
  apply (Prog.inl_bind m.run _).trans
  refine congrArg (Prog.bind _) (funext fun r => ?_)
  cases r <;> rfl

theorem Custody.Owns.inl {m : ExceptT ε (Prog R) α} (h : k.Owns pre m post fail) :
    (k.beside b).Owns pre (Calls.inl m) post fail :=
  Triple.inl h

end Calls
