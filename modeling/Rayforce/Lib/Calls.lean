import Mathlib.Data.List.Perm.Basic

/-! Programs that call an outside, and what they have to give back.  The outside answers a call as
its effect allows; a triple says what a program holds before and after, whatever is answered and
whatever else is held. -/

namespace Calls

/-- A program whose call `c` is answered by an `R c`. -/
inductive Prog {C : Type} (R : C → Type) (α : Type) : Type
  | pure (a : α)
  | call (c : C) (next : R c → Prog R α)

variable {C : Type} {R : C → Type} {α β ε σ τ : Type}

def Prog.bind (p : Prog R α) (f : α → Prog R β) : Prog R β :=
  match p with
  | .pure a => f a
  | .call c next => .call c fun r => (next r).bind f

instance : Monad (Prog R) where
  pure := .pure
  bind := .bind

def ask (c : C) : Prog R (R c) := .call c .pure

/-- A run, with the calls it makes and what they are answered. -/
inductive Runs (effect : σ → (c : C) → R c → σ → Prop) :
    Prog R α → σ → List (Sigma R) → α → σ → Prop
  | pure (a : α) (s : σ) : Runs effect (.pure a) s [] a s
  | call {c : C} {next : R c → Prog R α} {r : R c} {s t u : σ} {told : List (Sigma R)} {a : α} :
      effect s c r t → Runs effect (next r) t told a u →
      Runs effect (.call c next) s (⟨c, r⟩ :: told) a u

variable {effect : σ → (c : C) → R c → σ → Prop} {p : Prog R α} {f : α → Prog R β} {s t u : σ}
  {told : List (Sigma R)} {a : α} {b : β} {c : C}

theorem eq_of_runs_pure {a' : α} (run : Runs effect (.pure a : Prog R α) s told a' t) :
    told = [] ∧ a' = a ∧ t = s := by
  cases run with
  | pure => exact ⟨rfl, rfl, rfl⟩

theorem runs_bind_iff : Runs effect (p >>= f) s told b u ↔
    ∃ first a t rest, Runs effect p s first a t ∧ Runs effect (f a) t rest b u ∧
      told = first ++ rest := by
  constructor
  · intro run
    change Runs effect (p.bind f) s told b u at run
    induction p generalizing s told with
    | pure a => exact ⟨[], a, s, told, .pure a s, run, rfl⟩
    | call c next ih =>
      cases run with
      | call answered after =>
        obtain ⟨first, a, t, rest, before, last, rfl⟩ := ih _ after
        exact ⟨_ :: first, a, t, rest, .call answered before, last, rfl⟩
  · rintro ⟨first, a, t, rest, before, after, rfl⟩
    change Runs effect (p.bind f) s (first ++ rest) b u
    induction before with
    | pure => exact after
    | call answered _ ih => exact .call answered (ih after)

theorem runs_ask_iff {r : R c} : Runs effect (ask c) s told r t ↔
    effect s c r t ∧ told = [⟨c, r⟩] := by
  constructor
  · intro run
    cases run with
    | call answered rest =>
      obtain ⟨rfl, rfl, rfl⟩ := eq_of_runs_pure rest
      exact ⟨answered, rfl⟩
  · rintro ⟨answered, rfl⟩
    exact .call answered (.pure r t)

/-! ### Programs that fail -/

theorem runs_run_bind_iff {m : ExceptT ε (Prog R) α} {g : α → ExceptT ε (Prog R) β} {r : Except ε β} :
    Runs effect (m >>= g).run s told r u ↔
      (∃ a first t rest, Runs effect m.run s first (.ok a) t ∧ Runs effect (g a).run t rest r u ∧
        told = first ++ rest) ∨
      ∃ e, Runs effect m.run s told (.error e) u ∧ r = .error e := by
  rw [ExceptT.run_bind, runs_bind_iff]
  constructor
  · rintro ⟨first, x, t, rest, before, after, rfl⟩
    cases x with
    | ok a => exact .inl ⟨a, first, t, rest, before, after, rfl⟩
    | error e =>
      obtain ⟨rfl, rfl, rfl⟩ := eq_of_runs_pure after
      rw [List.append_nil]
      exact .inr ⟨e, before, rfl⟩
  · rintro (⟨a, first, t, rest, before, after, rfl⟩ | ⟨e, before, rfl⟩)
    · exact ⟨first, .ok a, t, rest, before, after, rfl⟩
    · exact ⟨told, .error e, u, [], before, .pure _ _, (List.append_nil told).symm⟩

theorem runs_run_ask_bind_iff {g : R c → ExceptT ε (Prog R) β} {r : Except ε β} :
    Runs effect ((liftM (ask c) : ExceptT ε (Prog R) (R c)) >>= g).run s told r u ↔
      ∃ a t rest, effect s c a t ∧ Runs effect (g a).run t rest r u ∧ told = ⟨c, a⟩ :: rest := by
  constructor
  · intro run
    cases run with
    | call answered after => exact ⟨_, _, _, answered, after, rfl⟩
  · rintro ⟨a, t, rest, answered, after, rfl⟩
    exact .call answered after

/-- What is given back where the body fails. -/
def onError (body : ExceptT ε (Prog R) α) (give : Prog R Unit) : ExceptT ε (Prog R) α :=
  ExceptT.mk do
    match ← body.run with
    | .ok a => return .ok a
    | .error e => do
      give
      return .error e

/-- What is given back after the body, however it ends. -/
def ensuring (body : ExceptT ε (Prog R) α) (give : Prog R Unit) : ExceptT ε (Prog R) α :=
  ExceptT.mk do
    let r ← body.run
    give
    return r

/-! ### Custody -/

/-- What calls do, and to what somebody holds of the things that have to be given back. -/
structure Custody (R : C → Type) (σ τ : Type) where
  effect : σ → (c : C) → R c → σ → Prop
  /-- All that anybody has to give back. -/
  holds : σ → List τ → Prop
  perm : ∀ {s : σ} {as bs : List τ}, as.Perm bs → holds s as → holds s bs
  /-- What a call that is answered so leaves with nobody who gives it back. -/
  lost : Sigma R → List τ

variable {k : Custody R σ τ} {pre pre' more fail : List τ} {post mid post' : α → List τ}
  {result : β → List τ}

/-- The program turns what it holds before into what it holds after and what is lost, and touches
nothing else that is held. -/
def Custody.Triple (k : Custody R σ τ) (pre : List τ) (p : Prog R α) (post : α → List τ) : Prop :=
  ∀ ⦃s told a t⦄, Runs k.effect p s told a t → ∀ frame, k.holds s (pre ++ frame) →
    k.holds t (post a ++ (told.flatMap k.lost ++ frame))

theorem Custody.Triple.pure {a : α} (same : pre.Perm (post a)) : k.Triple pre (Pure.pure a) post := by
  intro s told b t run frame holds
  obtain ⟨rfl, rfl, rfl⟩ := eq_of_runs_pure run
  exact k.perm (same.append_right _) holds

theorem Custody.Triple.ask {c : C} {post : R c → List τ}
    (answered : ∀ ⦃s r t⦄, k.effect s c r t → ∀ frame, k.holds s (pre ++ frame) →
      k.holds t (post r ++ (k.lost ⟨c, r⟩ ++ frame))) :
    k.Triple pre (ask c) post := by
  intro s told r t run frame holds
  obtain ⟨effect, rfl⟩ := runs_ask_iff.mp run
  rw [List.flatMap_singleton]
  exact answered effect frame holds

theorem Custody.Triple.bind (first : k.Triple pre p mid) (rest : ∀ a, k.Triple (mid a) (f a) result) :
    k.Triple pre (p >>= f) result := by
  intro s told b u run frame holds
  obtain ⟨before, a, t, after, begun, ended, rfl⟩ := runs_bind_iff.mp run
  have done := rest a ended _ (first begun frame holds)
  apply k.perm _ done
  rw [List.flatMap_append, List.append_assoc]
  exact (List.perm_append_comm_assoc _ _ _).append_left _

theorem Custody.Triple.perm (h : k.Triple pre p post) (before : pre'.Perm pre)
    (after : ∀ a, (post a).Perm (post' a)) : k.Triple pre' p post' := by
  intro s told a t run frame holds
  exact k.perm ((after a).append_right _) (h run frame (k.perm (before.append_right _) holds))

theorem Custody.Triple.frame (h : k.Triple pre p post) (more : List τ) :
    k.Triple (pre ++ more) p fun a => post a ++ more := by
  intro s told a t run frame holds
  rw [List.append_assoc] at holds
  apply k.perm _ (h run _ holds)
  rw [List.append_assoc]
  exact (List.perm_append_comm_assoc _ _ _).append_left _

/-- What a program that may fail holds at its end. -/
def held (post : α → List τ) (fail : List τ) : Except ε α → List τ
  | .ok a => post a
  | .error _ => fail

def Custody.Owns (k : Custody R σ τ) (pre : List τ) (m : ExceptT ε (Prog R) α) (post : α → List τ)
    (fail : List τ) : Prop :=
  k.Triple pre m.run (held post fail)

variable {m : ExceptT ε (Prog R) α} {g : α → ExceptT ε (Prog R) β} {give : Prog R Unit}

theorem Custody.Owns.pure {a : α} (same : pre.Perm (post a)) :
    k.Owns pre (Pure.pure a : ExceptT ε (Prog R) α) post fail :=
  Triple.pure same

theorem Custody.Owns.throw {e : ε} : k.Owns fail (throw e : ExceptT ε (Prog R) α) post fail :=
  Triple.pure (.refl _)

theorem Custody.Owns.lift (h : k.Triple pre p post) :
    k.Owns pre (liftM p : ExceptT ε (Prog R) α) post fail :=
  Triple.bind h fun _ => Triple.pure (.refl _)

theorem Custody.Owns.bind (first : k.Owns pre m mid fail) (rest : ∀ a, k.Owns (mid a) (g a) result fail) :
    k.Owns pre (m >>= g) result fail := by
  apply Triple.bind first
  intro r
  cases r with
  | ok a => exact rest a
  | error e => exact Triple.pure (.refl _)

theorem Custody.Owns.perm {fail' : List τ} (h : k.Owns pre m post fail) (before : pre'.Perm pre)
    (after : ∀ a, (post a).Perm (post' a)) (failed : fail.Perm fail') :
    k.Owns pre' m post' fail' := by
  apply Triple.perm h before
  intro r
  cases r with
  | ok a => exact after a
  | error e => exact failed

theorem Custody.Owns.frame (h : k.Owns pre m post fail) (more : List τ) :
    k.Owns (pre ++ more) m (fun a => post a ++ more) (fail ++ more) := by
  apply Triple.perm (Triple.frame h more) (.refl _)
  intro r
  cases r <;> exact .refl _

theorem Custody.Owns.onError {kept : List τ} (h : k.Owns pre m post kept)
    (given : k.Triple kept give fun _ => fail) : k.Owns pre (onError m give) post fail := by
  apply Triple.bind h
  intro r
  cases r with
  | ok a => exact Triple.pure (.refl _)
  | error e => exact Triple.bind given fun _ => Triple.pure (.refl _)

theorem Custody.Owns.ensuring {kept : List τ} (h : k.Owns pre m mid kept)
    (given : ∀ a, k.Triple (mid a) give fun _ => post a)
    (failed : k.Triple kept give fun _ => fail) : k.Owns pre (ensuring m give) post fail := by
  apply Triple.bind h
  intro r
  cases r with
  | ok a => exact Triple.bind (given a) fun _ => Triple.pure (.refl _)
  | error e => exact Triple.bind failed fun _ => Triple.pure (.refl _)

end Calls
