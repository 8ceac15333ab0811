import Mathlib.Algebra.Order.Ring.Nat
import Rayforce.Lib.Transition
import Rayforce.Query.Lambda

/-! Application by name agrees with the call as long as the names that lambdas and expressions go by
still lead to them.  Names that `bind` makes do; a name taken over from the environment is the user's
to bind again. -/

namespace Rayforce.Query

open Transition

variable {objectType : Nat → Int} {env : String → Option Value} {w w' : World} {e : Event}
  {es : List Event} {name : String} {u : Value} {f : Fn} {i : Nat}

/-- Somebody counts on a name for a lambda: a live handle, an expression, or, of a name that was made,
whoever gets one. -/
inductive Remembers (w : World) (name : String) (u : Value) : Prop
  | cached {i : Nat} {f : Fn} :
      w.fn? i = some f → f.boundName = some name → f.value = u → Remembers w name u
  | returned {a : Applied} : a ∈ w.applied → a.head = name → a.lambda = u → Remembers w name u
  | given : (name, u) ∈ w.given → Remembers w name u

/-- What `apply` returned, or would return of a live handle, applies the lambda that `call` applies,
and no two lambdas were given one name. -/
structure Agree (w : World) : Prop where
  returned : ∀ a ∈ w.applied, w.env a.head = some a.lambda
  evaluates : ∀ a ∈ w.applied, ∀ (m : Type → Type) [Monad m] (engine : Engine m),
    a.expr.execute (w.evaluator engine) =
      (Value.list (a.lambda :: compileAll a.operands)).eval (w.evaluator engine)
  cached : ∀ i f name, w.fn? i = some f → f.boundName = some name → w.env name = some f.value
  names : ∀ p ∈ w.given, ∀ q ∈ w.given, p.1 = q.1 → p.2 = q.2

/-- The name that an event binds, and what to. -/
def World.writes (w : World) : Event → Option (String × Option Value)
  | .rebind name value => some (name, value)
  | .apply i _ none =>
    (w.fn? i).bind fun f =>
      if f.boundName.isNone then some (generatedName w.counter, some f.value) else none
  | _ => none

/-- Only `bind` binds the names that it makes. -/
def Claimed : Event → Prop
  | .rebind name _ => ∀ n, name ≠ generatedName n
  | _ => True

/-- An event binds no name to anything but the lambda that somebody counts on it for. -/
def Keeps (w : World) (e : Event) : Prop :=
  ∀ name value u, w.writes e = some (name, value) → Remembers w name u → value = some u

/-! ### Generated names -/

theorem digitChar_inj {m n : Nat} (hm : m < 16) (hn : n < 16) (same : m.digitChar = n.digitChar) :
    m = n := by
  have all : ∀ a b : Fin 16, a.val.digitChar = b.val.digitChar → a = b := by decide
  exact congrArg Fin.val (all ⟨m, hm⟩ ⟨n, hn⟩ same)

theorem toDigits_inj {m n : Nat} (same : Nat.toDigits 16 m = Nat.toDigits 16 n) : m = n := by
  induction m using Nat.strongRecOn generalizing n with
  | ind m ih =>
    rw [Nat.toDigits_eq_if (b := 16) (n := m) (by decide),
      Nat.toDigits_eq_if (b := 16) (n := n) (by decide)] at same
    split at same
    · next hm =>
      split at same
      · next hn => exact digitChar_inj hm hn (List.cons.inj same).1
      · have short := congrArg List.length same
        have long : 0 < (Nat.toDigits 16 (n / 16)).length := Nat.length_toDigits_pos
        simp only [List.length_append, List.length_singleton] at short
        omega
    · next hm =>
      split at same
      · have short := congrArg List.length same
        have long : 0 < (Nat.toDigits 16 (m / 16)).length := Nat.length_toDigits_pos
        simp only [List.length_append, List.length_singleton] at short
        omega
      · obtain ⟨high, low⟩ := List.append_inj' same rfl
        have quotients := ih (m / 16) (by omega) high
        have digits := digitChar_inj (Nat.mod_lt m (by decide)) (Nat.mod_lt n (by decide))
          (List.cons.inj low).1
        omega

theorem generatedName_inj {m n : UInt64} (same : generatedName m = generatedName n) : m = n := by
  have lists := congrArg String.toList same
  simp only [generatedName, String.toList_append, String.toList_ofList] at lists
  exact UInt64.toNat_inj.mp (toDigits_inj (List.append_cancel_left lists))

/-! ### What an event does -/

/-- Lambdas are objects, and the names that were given are made ones. -/
structure Sound (w : World) : Prop where
  fns : ∀ i f, w.fn? i = some f → ∃ id, f.value = .object id
  applied : ∀ a ∈ w.applied, ∃ id, a.lambda = .object id
  given : ∀ p ∈ w.given, ∃ n, p.1 = generatedName n

/-- Every name that somebody counts on leads where it should. -/
def Resolves (w : World) : Prop := ∀ name u, Remembers w name u → w.env name = some u

theorem fn?_append {fns : List (Option Fn)} {f g : Fn} {j : Nat}
    (found : ((fns ++ [some f])[j]?).join = some g) : (fns[j]?).join = some g ∨ g = f := by
  by_cases lt : j < fns.length
  · rw [List.getElem?_append_left lt] at found
    exact Or.inl found
  · rw [List.getElem?_append_right (Nat.le_of_not_lt lt)] at found
    cases k : j - fns.length with
    | zero =>
      rw [k] at found
      cases found
      exact Or.inr rfl
    | succ n =>
      rw [k] at found
      cases found

theorem fn?_set {fns : List (Option Fn)} {f g : Fn} {v : Option Fn} {i j : Nat}
    (found : (fns[i]?).join = some f) (after : ((fns.set i v)[j]?).join = some g) :
    j = i ∧ v = some g ∨ j ≠ i ∧ (fns[j]?).join = some g := by
  have lt := (List.getElem?_eq_some_iff.mp (Option.join_eq_some_iff.mp found)).1
  by_cases same : j = i
  · subst same
    rw [List.getElem?_set_self lt] at after
    exact Or.inl ⟨rfl, after⟩
  · rw [List.getElem?_set_ne (Ne.symm same)] at after
    exact Or.inr ⟨same, after⟩

/-- A handle that is put back, or dropped, leaves the others as they were. -/
theorem fn?_kept {fns : List (Option Fn)} {f g : Fn} {v : Option Fn} {i j : Nat}
    (found : (fns[i]?).join = some f) (after : ((fns.set i v)[j]?).join = some g)
    (same : ∀ h, v = some h → h = f) : (fns[j]?).join = some g := by
  rcases fn?_set found after with ⟨rfl, new⟩ | ⟨-, old⟩
  · rw [same g new]
    exact found
  · exact old

/-- A lambda is an object of the core's. -/
theorem fromValue_eq_ok {v : Value} (ok : Fn.fromValue objectType v = .ok f) :
    ∃ id, v = .object id ∧ f = ⟨v, none⟩ := by
  cases v with
  | object id =>
    by_cases lambda : objectType id = 100
    · rw [Fn.fromValue, Value.typeCode, if_neg (not_not.mpr lambda)] at ok
      cases ok
      exact ⟨id, rfl, rfl⟩
    · rw [Fn.fromValue, Value.typeCode, if_pos lambda] at ok
      cases ok
  | _ => cases ok

theorem new_eq_ok {source : String} {answer : Except RayError Value}
    (ok : Fn.new objectType source answer = .ok f) : ∃ id, f = ⟨.object id, none⟩ := by
  unfold Fn.new at ok
  split at ok
  · cases ok
  · obtain ⟨v, -, ok⟩ := bind_eq_ok.mp ok
    obtain ⟨id, rfl, rfl⟩ := fromValue_eq_ok ok
    exact ⟨id, rfl⟩

theorem fromGlobal_eq_ok (ok : Fn.fromGlobal objectType w name = .ok f) :
    ∃ id, w.env name = some (.object id) ∧ f = ⟨.object id, some name⟩ := by
  obtain ⟨v, found, ok⟩ := bind_eq_ok.mp ok
  obtain ⟨g, made, ok⟩ := bind_eq_ok.mp ok
  obtain ⟨id, rfl, rfl⟩ := fromValue_eq_ok made
  cases ok
  refine ⟨id, ?_, rfl⟩
  unfold World.getGlobal at found
  split at found
  · cases found
  · next value =>
    cases found
    exact value

/-- A handle that a constructor made goes by no name, or by one that leads to its lambda. -/
def Made (w : World) (f : Fn) : Prop :=
  (∃ id, f.value = .object id) ∧ ∀ name, f.boundName = some name → w.env name = some f.value

/-- The world after a successful binding and the expression it was for. -/
def World.bindNew (w : World) (i : Nat) (f : Fn) (operands : List Expr) : World :=
  let name := generatedName w.counter
  { env := (w.bound name (some f.value)).env
    counter := w.counter + 1
    fns := w.fns.set i (some ⟨f.value, some name⟩)
    applied := w.applied ++ [⟨name, operands, f.value⟩]
    given := w.given ++ [(name, f.value)] }

/-- What an event can do to the lambdas and to the environment. -/
inductive Effect (w : World) : Event → World → Prop
  /-- A constructor or a clone. -/
  | made {e : Event} {f : Fn} (made : Made w f) (silent : w.writes e = none) :
      Effect w e { w with fns := w.fns ++ [some f] }
  /-- A refusal, or a call. -/
  | nothing {e : Event} (silent : w.writes e = none) : Effect w e w
  | drop {i : Nat} {f : Fn} (found : w.fn? i = some f) : Effect w (.drop i) { w with fns := w.fns.set i none }
  | rebind {name : String} {value : Option Value} : Effect w (.rebind name value) (w.bound name value)
  /-- An `apply` by a name that is there. -/
  | again {i : Nat} {f : Fn} {name : String} {operands : List Expr} {refusal : Option Nat}
      (found : w.fn? i = some f) (known : f.boundName = some name) :
      Effect w (.apply i operands refusal)
        { w with fns := w.fns.set i (some f), applied := w.applied ++ [⟨name, operands, f.value⟩] }
  | refused {i : Nat} {f : Fn} {operands : List Expr} {error : Nat} (found : w.fn? i = some f) :
      Effect w (.apply i operands (some error))
        { w with counter := w.counter + 1, fns := w.fns.set i (some f) }
  | bind {i : Nat} {f : Fn} {operands : List Expr} (found : w.fn? i = some f)
      (unknown : f.boundName = none) : Effect w (.apply i operands none) (w.bindNew i f operands)

theorem effect_add {result : Except RayError Fn} (silent : w.writes e = none)
    (made : ∀ f, result = .ok f → Made w f) : Effect w e (w.add result) := by
  cases result with
  | error error => exact .nothing silent
  | ok f => exact .made (made f rfl) silent

theorem effect_apply (found : w.fn? i = some f) (operands : List Expr) (refusal : Option Nat) :
    Effect w (.apply i operands refusal)
      (let (_, f, w') := f.apply w operands refusal
       { w' with fns := w'.fns.set i (some f) }) := by
  obtain ⟨value, boundName⟩ := f
  cases boundName with
  | some name => exact .again found rfl
  | none =>
    cases refusal with
    | some error => exact .refused found
    | none => exact .bind found rfl

theorem effect_next (sound : Sound w) (resolves : Resolves w) (step : next objectType w e = some w') :
    Effect w e w' := by
  cases e with
  | new source answer =>
    cases step
    refine effect_add rfl fun f ok => ?_
    obtain ⟨id, rfl⟩ := new_eq_ok ok
    exact ⟨⟨id, rfl⟩, nofun⟩
  | fromValue value =>
    cases step
    refine effect_add rfl fun f ok => ?_
    obtain ⟨id, rfl, rfl⟩ := fromValue_eq_ok ok
    exact ⟨⟨id, rfl⟩, nofun⟩
  | fromGlobal name =>
    cases step
    refine effect_add rfl fun f ok => ?_
    obtain ⟨id, bound, rfl⟩ := fromGlobal_eq_ok ok
    refine ⟨⟨id, rfl⟩, fun other same => ?_⟩
    cases same
    exact bound
  | clone i =>
    obtain ⟨f, found, rfl⟩ := Option.map_eq_some_iff.mp step
    exact .made ⟨sound.fns i f found, fun name known => resolves name f.value (.cached found known rfl)⟩ rfl
  | apply i operands refusal =>
    obtain ⟨f, found, rfl⟩ := Option.map_eq_some_iff.mp step
    exact effect_apply found operands refusal
  | call i args =>
    obtain ⟨f, found, rfl⟩ := Option.map_eq_some_iff.mp step
    exact .nothing rfl
  | drop i =>
    obtain ⟨f, found, rfl⟩ := Option.map_eq_some_iff.mp step
    exact .drop found
  | rebind name value =>
    cases step
    exact .rebind

/-! ### What stays true -/

theorem writes_of_effect (effect : Effect w e w') (name : String) :
    w'.env name =
      match w.writes e with
      | some (written, value) => if name = written then value else w.env name
      | none => w.env name := by
  cases effect with
  | made _ silent | nothing silent => rw [silent]
  | drop => rfl
  | rebind => rfl
  | @again i f _ _ refusal found known =>
    cases refusal with
    | some error => rfl
    | none =>
      simp only [World.writes, found, Option.bind_some, known]
      rfl
  | refused => rfl
  | bind found unknown =>
    simp only [World.writes, found, Option.bind_some, unknown]
    rfl

theorem env_of_effect (effect : Effect w e w') (keeps : Keeps w e) (before : Remembers w name u)
    (resolved : w.env name = some u) : w'.env name = some u := by
  rw [writes_of_effect effect name]
  split
  · next written value writes =>
    split
    · next same =>
      subst same
      exact keeps name value u writes before
    · exact resolved
  · exact resolved

/-- Whoever counts on a name did before, or has just seen where it leads. -/
theorem remembers_of_effect (effect : Effect w e w') (after : Remembers w' name u) :
    Remembers w name u ∨ w.writes e = none ∧ w.env name = some u ∨
      w.writes e = some (name, some u) := by
  cases effect with
  | @made _ f made silent =>
    cases after with
    | cached found known same =>
      rcases fn?_append found with old | rfl
      · exact .inl (.cached old known same)
      · exact .inr (.inl ⟨silent, same ▸ made.2 name known⟩)
    | returned mem head lambda => exact .inl (.returned mem head lambda)
    | given mem => exact .inl (.given mem)
  | nothing => exact .inl after
  | drop gone =>
    cases after with
    | cached found known same =>
      have old := fn?_kept gone found nofun
      exact .inl (.cached old known same)
    | returned mem head lambda => exact .inl (.returned mem head lambda)
    | given mem => exact .inl (.given mem)
  | rebind =>
    cases after with
    | cached found known same => exact .inl (.cached found known same)
    | returned mem head lambda => exact .inl (.returned mem head lambda)
    | given mem => exact .inl (.given mem)
  | again there named =>
    cases after with
    | cached found known same =>
      have old := fn?_kept there found fun _ self => (Option.some.inj self).symm
      exact .inl (.cached old known same)
    | returned mem head lambda =>
      rcases List.mem_append.mp mem with old | new
      · exact .inl (.returned old head lambda)
      · rw [List.mem_singleton.mp new] at head lambda
        exact .inl (.cached there (head ▸ named) lambda)
    | given mem => exact .inl (.given mem)
  | refused there =>
    cases after with
    | cached found known same =>
      have old := fn?_kept there found fun _ self => (Option.some.inj self).symm
      exact .inl (.cached old known same)
    | returned mem head lambda => exact .inl (.returned mem head lambda)
    | given mem => exact .inl (.given mem)
  | @bind i f operands there unnamed =>
    have writes : w.writes (.apply i operands none) = some (generatedName w.counter, some f.value) := by
      simp only [World.writes, there, Option.bind_some, unnamed]
      rfl
    rw [writes]
    cases after with
    | cached found known same =>
      rcases fn?_set there found with ⟨-, self⟩ | ⟨-, old⟩
      · cases self
        cases known
        cases same
        exact .inr (.inr rfl)
      · exact .inl (.cached old known same)
    | returned mem head lambda =>
      rcases List.mem_append.mp mem with old | new
      · exact .inl (.returned old head lambda)
      · rw [List.mem_singleton.mp new] at head lambda
        cases head
        cases lambda
        exact .inr (.inr rfl)
    | given mem =>
      rcases List.mem_append.mp mem with old | new
      · exact .inl (.given old)
      · cases List.mem_singleton.mp new
        exact .inr (.inr rfl)

/-- Whoever counts on a name still does when another is bound. -/
theorem remembers_bindNew (found : w.fn? i = some f) (unknown : f.boundName = none)
    (operands : List Expr) (before : Remembers w name u) : Remembers (w.bindNew i f operands) name u := by
  cases before with
  | @cached j g there known same =>
    have other : i ≠ j := by
      rintro rfl
      cases found.symm.trans there
      cases unknown.symm.trans known
    refine .cached (i := j) (f := g) ?_ known same
    change ((w.fns.set i _)[j]?).join = some g
    rw [List.getElem?_set_ne other]
    exact there
  | returned mem head lambda => exact .returned (List.mem_append_left _ mem) head lambda
  | given mem => exact .given (List.mem_append_left _ mem)

theorem sound_of_effect (sound : Sound w) (effect : Effect w e w') : Sound w' := by
  cases effect with
  | @made _ f made =>
    refine ⟨fun j g found => ?_, sound.applied, sound.given⟩
    rcases fn?_append found with old | rfl
    · exact sound.fns j g old
    · exact made.1
  | nothing => exact sound
  | drop gone =>
    refine ⟨fun j g found => ?_, sound.applied, sound.given⟩
    exact sound.fns j g (fn?_kept gone found nofun)
  | rebind => exact ⟨sound.fns, sound.applied, sound.given⟩
  | again there =>
    refine ⟨fun j g found => ?_, fun a mem => ?_, sound.given⟩
    · exact sound.fns j g (fn?_kept there found fun _ self => (Option.some.inj self).symm)
    · rcases List.mem_append.mp mem with old | new
      · exact sound.applied a old
      · cases List.mem_singleton.mp new
        exact sound.fns _ _ there
  | refused there =>
    refine ⟨fun j g found => ?_, sound.applied, sound.given⟩
    exact sound.fns j g (fn?_kept there found fun _ self => (Option.some.inj self).symm)
  | @bind i f _ there =>
    have lambda : ∃ id, f.value = .object id := sound.fns i f there
    refine ⟨fun j g found => ?_, fun a mem => ?_, fun p mem => ?_⟩
    · rcases fn?_set there found with ⟨-, self⟩ | ⟨-, old⟩
      · cases self
        exact lambda
      · exact sound.fns j g old
    · rcases List.mem_append.mp mem with old | new
      · exact sound.applied a old
      · cases List.mem_singleton.mp new
        exact sound.fns _ _ there
    · rcases List.mem_append.mp mem with old | new
      · exact sound.given p old
      · cases List.mem_singleton.mp new
        exact ⟨w.counter, rfl⟩

theorem resolves_of_effect (resolves : Resolves w) (effect : Effect w e w') (keeps : Keeps w e) :
    Resolves w' := by
  intro name u after
  rcases remembers_of_effect effect after with before | ⟨silent, bound⟩ | writes
  · exact env_of_effect effect keeps before (resolves name u before)
  · rw [writes_of_effect effect name, silent]
    exact bound
  · rw [writes_of_effect effect name, writes]
    exact if_pos rfl

/-- By the object or by a name that leads to it, the head is applied to the same arguments. -/
theorem evaluates_of_head {a : Applied} (lambda : ∃ id, a.lambda = .object id)
    (head : w.env a.head = some a.lambda) {m : Type → Type} [Monad m] (engine : Engine m) :
    a.expr.execute (w.evaluator engine) =
      (Value.list (a.lambda :: compileAll a.operands)).eval (w.evaluator engine) := by
  obtain ⟨id, lambda⟩ := lambda
  rw [Applied.expr, Expr.execute, Expr.compile, Value.eval, Value.eval, lambda]
  congr 1
  funext args
  simp only [World.evaluator, head, lambda]

theorem agree_of_resolves (sound : Sound w) (resolves : Resolves w) : Agree w where
  returned a mem := resolves _ _ (.returned mem rfl rfl)
  evaluates a mem _ _ engine :=
    evaluates_of_head (sound.applied a mem) (resolves _ _ (.returned mem rfl rfl)) engine
  cached i f name found known := resolves _ _ (.cached found known rfl)
  names p memP q memQ same := by
    have first := resolves p.1 p.2 (.given memP)
    have second := resolves q.1 q.2 (.given memQ)
    rw [same] at first
    exact Option.some.inj (first.symm.trans second)

/-- In any state in which application and call agree, each name leads where somebody counts on it to,
but perhaps the names that were given. -/
theorem Agree.resolves (agree : Agree w) (before : Remembers w name u) :
    w.env name = some u ∨ (name, u) ∈ w.given := by
  cases before with
  | cached found known same =>
    subst same
    exact .inl (agree.cached _ _ _ found known)
  | returned mem head lambda =>
    subst head lambda
    exact .inl (agree.returned _ mem)
  | given mem => exact .inr mem

/-- A name is written by a `rebind`, or by an `apply` that binds its lambda under a made one. -/
theorem writes_cases {v : Option Value} (effect : Effect w e w') (writes : w.writes e = some (name, v)) :
    (e = .rebind name v ∧ w' = w.bound name v) ∨
    ∃ i f operands, w.fn? i = some f ∧ f.boundName = none ∧ name = generatedName w.counter ∧
      v = some f.value ∧ e = .apply i operands none ∧ w' = w.bindNew i f operands := by
  cases effect with
  | made _ silent | nothing silent =>
    rw [silent] at writes
    cases writes
  | drop | refused => cases writes
  | @again _ _ _ _ refusal found known =>
    cases refusal with
    | some error => cases writes
    | none =>
      simp only [World.writes, found, Option.bind_some, known] at writes
      cases writes
  | rebind =>
    cases writes
    exact .inl ⟨rfl, rfl⟩
  | bind found unknown =>
    simp only [World.writes, found, Option.bind_some, unknown] at writes
    cases writes
    exact .inr ⟨_, _, _, found, unknown, rfl, rfl, rfl, rfl⟩

theorem keeps_of_agree (sound : Sound w) (claimed : Claimed e) (effect : Effect w e w')
    (agree : Agree w') : Keeps w e := by
  intro name value u writes before
  rcases writes_cases effect writes with
    ⟨rfl, rfl⟩ | ⟨i, f, operands, found, unknown, rfl, rfl, rfl, rfl⟩
  · have after : Remembers (w.bound name value) name u := by
      cases before with
      | cached found known same => exact .cached found known same
      | returned mem head lambda => exact .returned mem head lambda
      | given mem => exact .given mem
    rcases agree.resolves after with bound | mem
    · exact (if_pos rfl).symm.trans bound
    · obtain ⟨n, made⟩ := sound.given _ mem
      exact absurd made (claimed n)
  · rcases agree.resolves (remembers_bindNew found unknown operands before) with bound | mem
    · exact (if_pos rfl).symm.trans bound
    · have given : (generatedName w.counter, f.value) ∈ (w.bindNew i f operands).given :=
        List.mem_append_right _ (List.mem_singleton_self _)
      exact congrArg some (agree.names _ given _ mem rfl)

/-! ### Runs -/

theorem sound_initial : Sound (initial env) := ⟨nofun, nofun, nofun⟩

theorem resolves_initial : Resolves (initial env) := by
  rintro name u (⟨found, -, -⟩ | ⟨mem, -, -⟩ | mem)
  · cases found
  · cases mem
  · cases mem

theorem run_resolves
    (run : Run (Guarded (Steps (next objectType)) fun w e => Claimed e ∧ Keeps w e) (initial env) es w) :
    Sound w ∧ Resolves w := by
  apply run.invariant (P := fun w => Sound w ∧ Resolves w)
  · rintro w e w' ⟨sound, resolves⟩ ⟨step, -, keeps⟩
    have effect := effect_next sound resolves step
    exact ⟨sound_of_effect sound effect, resolves_of_effect resolves effect keeps⟩
  · exact ⟨sound_initial, resolves_initial⟩

/-- In a run in which no name that somebody counts on was bound to anything else, application and call
agree, and the next event keeps it so exactly when it binds none either. -/
theorem agree_iff_keeps
    (run : Run (Guarded (Steps (next objectType)) fun w e => Claimed e ∧ Keeps w e) (initial env) es w)
    (claimed : Claimed e) (step : next objectType w e = some w') :
    Agree w ∧ (Agree w' ↔ Keeps w e) := by
  obtain ⟨sound, resolves⟩ := run_resolves run
  have effect := effect_next sound resolves step
  refine ⟨agree_of_resolves sound resolves, keeps_of_agree sound claimed effect, fun keeps => ?_⟩
  exact agree_of_resolves (sound_of_effect sound effect) (resolves_of_effect resolves effect keeps)

/-- A lambda that the environment has under the name `sq`. -/
def squares (name : String) : Option Value := if name = "sq" then some (.object 7) else none

theorem agree_iff_keeps_squares :
    let w : World := { initial squares with fns := [some ⟨.object 7, some "sq"⟩] }
    let applied : World := { w with applied := [⟨"sq", [.col "v"], .object 7⟩] }
    Agree w ∧ (Agree applied ↔ Keeps w (.apply 0 [.col "v"] none)) := by
  intro w applied
  have run : Run (Guarded (Steps (next fun _ => 100)) fun w e => Claimed e ∧ Keeps w e)
      (initial squares) [.fromGlobal "sq"] w := .single ⟨rfl, trivial, nofun⟩
  exact agree_iff_keeps run trivial rfl

/-- The name is bound again to another lambda, which is what the expression then applies. -/
theorem not_agree_rebound :
    ¬ ∀ env es w, Run (Guarded (Steps (next fun _ => 100)) fun _ e => Claimed e) (initial env) es w →
      Agree w := by
  intro all
  have other : ∀ n, "sq" ≠ generatedName n := by
    intro n same
    have lists := congrArg String.toList same
    simp [generatedName, String.toList_append] at lists
  have run : Run (Guarded (Steps (next fun _ => 100)) fun _ e => Claimed e) (initial squares)
      [.fromGlobal "sq", .apply 0 [.col "v"] none, .rebind "sq" (some (.object 8))]
      { initial squares with
        env := fun name => if name = "sq" then some (.object 8) else squares name
        fns := [some ⟨.object 7, some "sq"⟩]
        applied := [⟨"sq", [.col "v"], .object 7⟩] } :=
    .cons ⟨rfl, trivial⟩ (.cons ⟨rfl, trivial⟩ (.single ⟨rfl, other⟩))
  have head := (all _ _ _ run).returned _ (List.mem_singleton_self _)
  cases head

/-! ### Before the counter comes round -/

/-- No name from the counter on is bound, or counted on. -/
structure Fresh (es : List Event) (w : World) : Prop where
  counter : w.counter.toNat ≤ es.length + 1
  unbound : ∀ n, w.counter ≤ n → w.env (generatedName n) = none
  unknown : ∀ n u, w.counter ≤ n → ¬ Remembers w (generatedName n) u

/-- A made name is bound by `bind` alone, which then counts on. -/
theorem writes_generated (effect : Effect w e w') (claimed : Claimed e) {n : UInt64} {v : Option Value}
    (writes : w.writes e = some (generatedName n, v)) : n = w.counter ∧ w'.counter = w.counter + 1 := by
  rcases writes_cases effect writes with ⟨rfl, rfl⟩ | ⟨i, f, operands, _, _, same, _, rfl, rfl⟩
  · exact absurd rfl (claimed n)
  · exact ⟨generatedName_inj same, rfl⟩

theorem counter_of_effect (effect : Effect w e w') :
    w'.counter = w.counter ∨ w'.counter = w.counter + 1 := by
  cases effect with
  | refused | bind => exact .inr rfl
  | _ => exact .inl rfl

theorem fresh_of_effect (fresh : Fresh es w) (few : es.length + 2 < 2 ^ 64) (claimed : Claimed e)
    (effect : Effect w e w') : Fresh (es ++ [e]) w' := by
  have small := fresh.counter
  have succ : (w.counter + 1).toNat = w.counter.toNat + 1 := by
    rw [UInt64.toNat_add, UInt64.toNat_one]
    omega
  have grows : w.counter.toNat ≤ w'.counter.toNat ∧ w'.counter.toNat ≤ w.counter.toNat + 1 := by
    rcases counter_of_effect effect with same | next
    · rw [same]
      omega
    · rw [next]
      omega
  have later {n : UInt64} (le : w'.counter ≤ n) : w.counter ≤ n :=
    UInt64.le_iff_toNat_le.mpr (Nat.le_trans grows.1 (UInt64.le_iff_toNat_le.mp le))
  have unwritten {n : UInt64} {v : Option Value} (le : w'.counter ≤ n) :
      w.writes e ≠ some (generatedName n, v) := by
    intro writes
    obtain ⟨rfl, next⟩ := writes_generated effect claimed writes
    rw [next, UInt64.le_iff_toNat_le, succ] at le
    omega
  refine ⟨?_, fun n le => ?_, fun n u le after => ?_⟩
  · rw [List.length_append, List.length_singleton]
    omega
  · rw [writes_of_effect effect]
    split
    · next written value writes =>
      split
      · next same => exact absurd (same ▸ writes) (unwritten le)
      · exact fresh.unbound n (later le)
    · exact fresh.unbound n (later le)
  · rcases remembers_of_effect effect after with before | ⟨-, bound⟩ | writes
    · exact fresh.unknown n u (later le) before
    · rw [fresh.unbound n (later le)] at bound
      cases bound
    · exact unwritten le writes

/-- As long as the counter has not come round, an application keeps every name: what it binds is new. -/
theorem apply_keeps (unmade : ∀ n, env (generatedName n) = none)
    (run : Run (Guarded (Steps (next objectType)) fun w e => Claimed e ∧ Keeps w e) (initial env) es w)
    (few : es.length + 1 < 2 ^ 64) (i : Nat) (operands : List Expr) (refusal : Option Nat) :
    Keeps w (.apply i operands refusal) := by
  have fresh : es.length + 1 < 2 ^ 64 → Fresh es w := by
    apply run.history (P := fun es w => es.length + 1 < 2 ^ 64 → Fresh es w)
    · intro _
      exact ⟨Nat.le_refl _, fun n _ => unmade n, fun n u _ before => by
        cases (unmade n).symm.trans (resolves_initial _ _ before)⟩
    · rintro es w e w' before fresh ⟨step, claimed, -⟩ few
      obtain ⟨sound, resolves⟩ := run_resolves before
      rw [List.length_append, List.length_singleton] at few
      exact fresh_of_effect (fresh (by omega)) few claimed (effect_next sound resolves step)
  intro name value u writes before
  cases refusal with
  | some error => cases writes
  | none =>
    simp only [World.writes, Option.bind_eq_some_iff] at writes
    obtain ⟨f, -, writes⟩ := writes
    split at writes
    · cases writes
      exact absurd before ((fresh few).unknown _ u (UInt64.le_refl _))
    · cases writes

end Rayforce.Query
