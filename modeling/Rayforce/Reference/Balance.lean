import Rayforce.Reference.Operations

/-! What each operation holds before and after.  An operation's answers are the core's choice; what it
has to give back on each of its exits is not. -/

namespace Rayforce.Reference

open Calls Custody RefHeap
open Rayforce.Value (VecType TypeCode)

variable {w w' : World} {ds : List Due} {p q : Pointer} {r : Raw} {α : Type} {consumed : List Pointer}

def duesOf (ps : List Pointer) : List Due := ps.flatMap Pointer.dues

@[simp] theorem refs_dues (p : Pointer) : p.dues.flatMap Due.refs = p.refs := by
  cases p <;> rfl

@[simp] theorem errors_dues (p : Pointer) : p.dues.flatMap Due.errors = [] := by
  cases p <;> rfl

@[simp] theorem raw_refs_dues (r : Raw) : r.dues.flatMap Due.refs = r.refs := by
  cases r with
  | object p => exact refs_dues p
  | error => rfl

@[simp] theorem raw_errors_dues (r : Raw) : r.dues.flatMap Due.errors = r.errors := by
  cases r with
  | object p => exact errors_dues p
  | error => rfl

theorem refs_duesOf (ps : List Pointer) :
    (duesOf ps).flatMap Due.refs = ps.flatMap Pointer.refs := by
  unfold duesOf
  simp [List.flatMap_assoc]

theorem errors_duesOf (ps : List Pointer) : (duesOf ps).flatMap Due.errors = [] := by
  unfold duesOf
  simp [List.flatMap_assoc]

@[simp] theorem dues_fromOwned (p : Pointer) : (fromOwned p).dues = p.dues := by
  cases p <;> rfl

/-! ### The core's calls -/

theorem World.Hands.accounts (hands : w.Hands consumed r w')
    (accounts : w.Accounts (duesOf consumed ++ ds)) : w'.Accounts (r.dues ++ ds) := by
  obtain ⟨counted, freed⟩ := accounts
  constructor
  · rw [List.flatMap_append, refs_duesOf, List.append_assoc] at counted
    rw [List.flatMap_append, raw_refs_dues, List.append_assoc]
    exact hands.counted _ counted
  · rw [List.flatMap_append, errors_duesOf, List.nil_append] at freed
    rw [hands.errors, hands.freed, List.flatMap_append, raw_errors_dues]
    apply (List.perm_append_comm_assoc _ _ _).trans
    exact (freed.append_left _).trans List.perm_append_comm

theorem World.Accounts.live {refs : List Nat} (accounts : w.Accounts ds)
    (known : ∀ a ∈ refs, a ∈ ds.flatMap Due.refs ++ w.env ++ edges Object.refs w.heap) :
    w.Live refs := by
  intro a mem
  obtain ⟨b, found⟩ := accounts.1.found (known a mem)
  rw [found]
  rfl

theorem accounts_release (accounts : w.Accounts (p.dues ++ ds))
    (effect : w.effect (.release p) () w') : w'.Accounts ds := by
  have live : w.Live p.refs := by
    apply accounts.live
    intro a mem
    simp [mem]
  obtain rfl := effect live
  obtain ⟨counted, freed⟩ := accounts
  rw [List.flatMap_append, refs_dues, List.append_assoc] at counted
  rw [List.flatMap_append, errors_dues] at freed
  exact ⟨counted.releaseAll, freed⟩

theorem accounts_retain (accounts : w.Accounts ds)
    (known : ∀ a ∈ p.refs, a ∈ ds.flatMap Due.refs ++ w.env ++ edges Object.refs w.heap)
    (effect : w.effect (.retain p) () w') : w'.Accounts (p.dues ++ ds) := by
  obtain rfl := effect (accounts.live known)
  constructor
  · rw [List.flatMap_append, refs_dues, List.append_assoc]
    exact accounts.1.retainAll known
  · rw [List.flatMap_append, errors_dues]
    exact accounts.2

theorem accounts_free {id : Nat} (accounts : w.Accounts (.error id :: ds))
    (effect : w.effect (.errorFree id) () w') : w'.Accounts ds := by
  obtain ⟨counted, freed⟩ := accounts
  have perm : (id :: (w.freed ++ ds.flatMap Due.errors)).Perm (List.range w.errors) :=
    List.perm_middle.symm.trans freed
  have new : id ∉ w.freed := by
    intro mem
    have once := (List.nodup_cons.mp (perm.nodup_iff.mpr List.nodup_range)).1
    exact once (List.mem_append_left _ mem)
  obtain rfl := effect new
  exact ⟨counted, perm⟩

theorem triple_same {c : Call} (same : ∀ w r w', World.effect w c r w' → w' = w)
    (kept : ∀ r, forgotten ⟨c, r⟩ = []) (ds : List Due) : custody.Triple ds (core c) fun _ => ds := by
  apply Triple.ask
  intro w r w' effect frame accounts
  obtain rfl := same w r w' effect
  show World.Accounts _ (ds ++ (forgotten ⟨c, r⟩ ++ frame))
  rw [kept r]
  exact accounts

theorem triple_thread (ds : List Due) : custody.Triple ds (core .thread) fun _ => ds :=
  triple_same (c := .thread) (fun _ _ _ same => same) (fun _ => rfl) ds

theorem triple_symIntern (name : String) (ds : List Due) :
    custody.Triple ds (core (.symIntern name)) fun _ => ds :=
  triple_same (c := .symIntern name) (fun _ _ _ same => same) (fun _ => rfl) ds

theorem triple_inspect (p : Pointer) (ds : List Due) :
    custody.Triple ds (core (.inspect p)) fun _ => ds :=
  triple_same (c := .inspect p) (fun _ _ _ read => read.1) (fun _ => rfl) ds

theorem triple_hand (h : Handing) {post : Raw → List Due}
    (kept : ∀ r : Raw, r.dues.Perm (post r ++ forgotten ⟨.hand h, r⟩)) :
    custody.Triple (duesOf h.consumes) (core (.hand h)) post := by
  apply Triple.ask
  intro w r w' hands frame accounts
  apply World.Accounts.perm _ (World.Hands.accounts hands accounts)
  show (r.dues ++ frame).Perm (post r ++ (forgotten ⟨.hand h, r⟩ ++ frame))
  rw [← List.append_assoc]
  exact (kept r).append_right frame

theorem triple_release (p : Pointer) :
    custody.Triple p.dues (core (.release p)) fun _ => [] := by
  apply Triple.ask
  intro w r w' effect frame accounts
  exact accounts_release accounts effect

theorem triple_retain (known : p.dues ⊆ ds) :
    custody.Triple ds (core (.retain p)) fun _ => p.dues ++ ds := by
  apply Triple.ask
  intro w r w' effect frame accounts
  show World.Accounts _ ((p.dues ++ ds) ++ frame)
  rw [List.append_assoc]
  apply accounts_retain accounts _ effect
  intro a mem
  have due : a ∈ ds.flatMap Due.refs := by
    rw [← refs_dues p] at mem
    obtain ⟨d, here, ref⟩ := List.mem_flatMap.mp mem
    exact List.mem_flatMap.mpr ⟨d, known here, ref⟩
  simp [due]

theorem triple_errorFree (id : Nat) : custody.Triple [.error id] (core (.errorFree id)) fun _ => [] := by
  apply Triple.ask
  intro w r w' effect frame accounts
  exact accounts_free accounts effect

theorem triple_envBind (flat : Bool) (name : Int) (f : Pointer) :
    custody.Triple [] (core (.envBind flat name f)) fun _ => [] := by
  apply Triple.ask
  intro w r w' hands frame accounts
  exact World.Hands.accounts hands accounts

theorem triple_vecAppend (v : Pointer) (elem : VecType) :
    custody.Triple v.dues (core (.vecAppend v elem)) fun r => r.answer.dues := by
  apply Triple.ask
  rintro w ⟨answer, kept⟩ w' changes frame accounts
  show World.Accounts _ (answer.dues ++ (forgotten ⟨.vecAppend v elem, ⟨answer, kept⟩⟩ ++ frame))
  cases kept with
  | false =>
    have hands : w.Hands [v] answer w' := changes
    have none : forgotten ⟨.vecAppend v elem, ⟨answer, false⟩⟩ = [] := by
      cases v <;> rfl
    rw [none]
    apply hands.accounts
    rw [duesOf, List.flatMap_singleton]
    exact accounts
  | true =>
    have hands : w.Hands [] answer w' := changes.2.2
    have same : forgotten ⟨.vecAppend v elem, ⟨answer, true⟩⟩ = v.dues := by
      cases v <;> rfl
    rw [same]
    exact hands.accounts accounts

/-! ### Errors and scopes -/

theorem triple_fromObj (id : Nat) (e : RayError) :
    custody.Triple [.error id] (fromObj id e) fun _ => [] :=
  Triple.bind (triple_errorFree id) fun _ => Triple.pure (.refl _)

theorem owns_assert (what : String) (ds : List Due) :
    custody.Owns ds (assertOnRuntimeThread what) (fun _ => ds) ds := by
  apply Owns.bind (Owns.lift (triple_thread ds))
  intro thread
  cases thread with
  | runtime => exact Owns.pure (.refl _)
  | other | noRuntime => exact Owns.throw

theorem owns_check (r : Raw) : custody.Owns r.dues (check r) Pointer.dues [] := by
  cases r with
  | object p => exact Owns.pure (.refl _)
  | error id e => exact Owns.bind (Owns.lift (triple_fromObj id e)) fun _ => Owns.throw

theorem owns_orPanic (what : String) (r : Raw) :
    custody.Owns r.dues (orPanic what r) Pointer.dues [] := by
  cases r with
  | object p => exact Owns.pure (.refl _)
  | error id e => exact Owns.bind (Owns.lift (triple_fromObj id e)) fun _ => Owns.throw

theorem owns_fromOwned (p : Pointer) :
    custody.Owns p.dues (pure (fromOwned p) : M Pointer) Pointer.dues [] :=
  Owns.pure (by rw [dues_fromOwned])

/-- The core's calls of which nothing is forgotten. -/
theorem owns_hand (h : Handing) (kept : ∀ r, forgotten ⟨.hand h, r⟩ = []) (fail : List Due) :
    custody.Owns (duesOf h.consumes) (liftM (core (.hand h)) : M Raw) Raw.dues fail := by
  apply Owns.lift
  apply triple_hand
  intro r
  rw [kept, List.append_nil]

theorem owns_takes {h : Handing} {v : Pointer} (one : h.consumes = [v])
    (kept : ∀ r, forgotten ⟨.hand h, r⟩ = []) :
    custody.Owns v.dues (liftM (core (.hand h)) : M Raw) Raw.dues [] := by
  have hand := owns_hand h kept []
  rw [one, duesOf, List.flatMap_singleton] at hand
  exact hand

theorem owns_makes {h : Handing} (none : h.consumes = []) (kept : ∀ r, forgotten ⟨.hand h, r⟩ = []) :
    custody.Owns [] (liftM (core (.hand h)) : M Raw) Raw.dues [] := by
  have hand := owns_hand h kept []
  rw [none] at hand
  exact hand

theorem triple_cloneAll {ps : List Pointer} (known : ∀ p ∈ ps, p.dues ⊆ ds) :
    custody.Triple ds (cloneAll ps) fun _ => duesOf ps ++ ds := by
  induction ps generalizing ds with
  | nil => exact Triple.pure (.refl _)
  | cons p ps ih =>
    apply Triple.bind (triple_retain (known p List.mem_cons_self))
    intro _
    have rest : ∀ q ∈ ps, q.dues ⊆ p.dues ++ ds := fun q mem d due =>
      List.mem_append_right _ (known q (List.mem_cons_of_mem p mem) due)
    apply (ih rest).perm (.refl _)
    intro _
    show (duesOf ps ++ (p.dues ++ ds)).Perm (p.dues ++ duesOf ps ++ ds)
    rw [List.append_assoc]
    exact List.perm_append_comm_assoc _ _ _

theorem triple_dropAll (ps : List Pointer) :
    custody.Triple (duesOf ps) (dropAll ps) fun _ => [] := by
  induction ps with
  | nil => exact Triple.pure (.refl _)
  | cons p ps ih => exact Triple.bind ((triple_release p).frame (duesOf ps)) fun _ => ih

theorem owns_dropping {m : M α} {pre fail : List Due} {post : α → List Due}
    (body : custody.Owns pre m post fail) (p : Pointer) :
    custody.Owns (p.dues ++ pre) (dropping p m) post fail := by
  have give (ds : List Due) : custody.Triple (ds ++ p.dues) (core (.release p)) fun _ => ds :=
    ((triple_release p).frame ds).perm List.perm_append_comm fun _ => .refl _
  have framed : custody.Owns (p.dues ++ pre) m (fun a => post a ++ p.dues) (fail ++ p.dues) :=
    (body.frame p.dues).perm List.perm_append_comm (fun _ => .refl _) (.refl _)
  exact Owns.ensuring framed (fun a => give (post a)) (give fail)

/-! ### Construction -/

theorem owns_construct (name what : String) {h : Handing} (none : h.consumes = [])
    (kept : ∀ r, forgotten ⟨.hand h, r⟩ = []) :
    custody.Owns [] (construct name what h) Pointer.dues [] := by
  apply Owns.bind (owns_assert name [])
  intro _
  apply Owns.bind (owns_makes none kept)
  intro r
  exact Owns.bind (owns_orPanic what r) owns_fromOwned

theorem owns_string (s : String) : custody.Owns [] (Value.string s) Pointer.dues [] :=
  owns_construct _ _ rfl fun _ => rfl

theorem owns_appendSyms (v : Pointer) (items : List String) :
    custody.Owns v.dues (appendSyms v items) Pointer.dues [] := by
  induction items generalizing v with
  | nil => exact Owns.pure (.refl _)
  | cons s items ih =>
    apply Owns.bind (Owns.lift (triple_symIntern s v.dues))
    intro _
    apply Owns.bind (Owns.lift (triple_vecAppend v .sym))
    intro r
    exact Owns.bind (owns_orPanic _ r.answer) ih

theorem owns_appendStrs (v : Pointer) (items : List String) :
    custody.Owns v.dues (appendStrs v items) Pointer.dues [] := by
  induction items generalizing v with
  | nil => exact Owns.pure (.refl _)
  | cons s items ih =>
    apply Owns.bind (owns_takes rfl fun _ => rfl)
    intro r
    exact Owns.bind (owns_orPanic _ r) ih

theorem owns_appendItems (l : Pointer) (items : List Pointer) :
    custody.Owns l.dues (appendItems l items) Pointer.dues [] := by
  induction items generalizing l with
  | nil => exact Owns.pure (.refl _)
  | cons item items ih =>
    apply Owns.bind (owns_takes rfl fun _ => rfl)
    intro r
    exact Owns.bind (owns_orPanic _ r) ih

theorem owns_sym (name s : String) : custody.Owns [] (Value.sym name s) Pointer.dues [] := by
  apply Owns.bind (owns_assert name [])
  intro _
  apply Owns.bind (Owns.lift (triple_symIntern s []))
  intro _
  apply Owns.bind (owns_makes rfl fun _ => rfl)
  intro r
  exact Owns.bind (owns_orPanic _ r) owns_fromOwned

/-- An empty object, and what it is filled with. -/
theorem owns_filled (name what : String) {h : Handing} (none : h.consumes = [])
    (kept : ∀ r, forgotten ⟨.hand h, r⟩ = []) {fill : Pointer → M Pointer}
    (fills : ∀ v, custody.Owns v.dues (fill v) Pointer.dues []) :
    custody.Owns [] (do
      assertOnRuntimeThread name
      let v ← orPanic what (← core (.hand h))
      return fromOwned (← fill v)) Pointer.dues [] := by
  apply Owns.bind (owns_assert name [])
  intro _
  apply Owns.bind (owns_makes none kept)
  intro r
  apply Owns.bind (owns_orPanic what r)
  intro v
  exact Owns.bind (fills v) owns_fromOwned

theorem owns_symVec (items : List String) : custody.Owns [] (Value.symVec items) Pointer.dues [] :=
  owns_filled _ _ rfl (fun _ => rfl) fun v => owns_appendSyms v items

theorem owns_strVec (items : List String) : custody.Owns [] (Value.strVec items) Pointer.dues [] :=
  owns_filled _ _ rfl (fun _ => rfl) fun v => owns_appendStrs v items

theorem owns_list (items : List Pointer) : custody.Owns [] (Value.list items) Pointer.dues [] :=
  owns_filled _ _ rfl (fun _ => rfl) fun l => owns_appendItems l items

theorem owns_dict (keys values : Pointer) :
    custody.Owns (duesOf [keys, values]) (Value.dict keys values) Pointer.dues [] := by
  have unwind : custody.Triple (duesOf [keys, values]) (dropAll [values, keys]) fun _ => [] :=
    (triple_dropAll [values, keys]).perm ((List.Perm.swap ..).flatMap_right _) fun _ => .refl _
  apply Owns.bind (Owns.onError (owns_assert _ _) unwind)
  intro _
  apply Owns.bind (owns_hand _ (fun _ => rfl) [])
  intro r
  exact Owns.bind (owns_orPanic _ r) owns_fromOwned

/-! ### Changes -/

theorem triple_installMutation (op : String) (r : Raw) :
    custody.Triple r.dues (installMutation op r) fun result => result.2.dues := by
  cases r with
  | object p => exact Triple.pure (.refl _)
  | error id e => exact Triple.bind (triple_fromObj id e) fun _ => Triple.pure (.refl _)

theorem triple_push (self : Pointer) (elem : VecType) :
    custody.Triple self.dues (Value.push self elem) fun result => result.2.dues := by
  apply Triple.bind (triple_inspect self self.dues)
  intro o
  split
  · exact Triple.pure (.refl _)
  · apply Triple.bind (triple_vecAppend self elem)
    intro r
    exact triple_installMutation "push" r.answer

theorem triple_listPush (self item : Pointer) :
    custody.Triple self.dues (Value.listPush self item) fun result => result.2.dues := by
  apply Triple.bind (triple_inspect self self.dues)
  intro o
  split
  · exact Triple.pure (.refl _)
  · have hand : custody.Triple (duesOf [self]) (core (.hand (.listAppend self item))) Raw.dues :=
      triple_hand (.listAppend self item) fun r => by simp [forgotten]
    rw [duesOf, List.flatMap_singleton] at hand
    exact Triple.bind hand (triple_installMutation "list_push")

/-- What the checks of `set` let through is a vector of the element's type with an element there. -/
theorem suits_of_checks {o : Object} {elem : VecType} {idx : Nat} (same : o.type.absType = some elem)
    (inRange : idx < o.length) : o.Suits elem (some idx) := by
  obtain ⟨type, tag, len, dictLen, refs⟩ := o
  cases type with
  | vec type =>
    refine ⟨congrArg TypeCode.vec (Option.some.inj same), fun i eq => ?_⟩
    cases eq
    exact inRange
  | atom type => exact absurd inRange (Nat.not_lt_zero idx)
  | list | dict | other code => cases same

/-- On what suits it, the core's call consumes the reference. -/
theorem accounts_vecSet {v : Pointer} {elem : VecType} {idx : Nat} {r : Changed}
    (suits : ∀ o, w.object? v = some o → o.Suits elem (some idx))
    (accounts : w.Accounts (v.dues ++ ds)) (changes : w.Changes v elem (some idx) r w') :
    w'.Accounts (r.answer.dues ++ ds) := by
  obtain ⟨answer, kept⟩ := r
  cases kept with
  | false =>
    have hands : w.Hands [v] answer w' := changes
    apply hands.accounts
    rw [duesOf, List.flatMap_singleton]
    exact accounts
  | true =>
    obtain ⟨-, refused, hands⟩ := changes
    cases v with
    | nullptr | nullObj => exact hands.accounts accounts
    | block a =>
      obtain ⟨b, found⟩ := accounts.1.found (a := a) (by simp [Pointer.dues, Due.refs])
      have there : w.object? (.block a) = some b.body := body?_eq_some_iff.mpr ⟨b, found, rfl⟩
      exact absurd (suits _ there) (refused _ there)

theorem triple_set (self : Pointer) (idx : Nat) (elem : VecType) :
    custody.Triple self.dues (Value.set self idx elem) fun result => result.2.dues := by
  intro w told result w' run frame accounts
  obtain ⟨_, o, w1, rest, read, after, rfl⟩ := runs_bind_iff.mp run
  obtain ⟨⟨rfl, there⟩, rfl⟩ := runs_ask_iff.mp read
  dsimp only at after
  split at after
  · obtain ⟨rfl, rfl, rfl⟩ := eq_of_runs_pure after
    exact accounts
  · next same =>
    split at after
    · obtain ⟨rfl, rfl, rfl⟩ := eq_of_runs_pure after
      exact accounts
    · next inRange =>
      obtain ⟨_, r, w2, last, changed, installed, rfl⟩ := runs_bind_iff.mp after
      obtain ⟨changes, rfl⟩ := runs_ask_iff.mp changed
      refine triple_installMutation "set" r.answer installed frame (accounts_vecSet ?_ accounts changes)
      intro o' here
      rw [← there o' here]
      exact suits_of_checks (not_not.mp same) (Nat.lt_of_not_le inRange)

/-! ### Tables, evaluation and the environment -/

theorem triple_inspectAll (ps : List Pointer) (ds : List Due) :
    custody.Triple ds (inspectAll ps) fun _ => ds := by
  induction ps with
  | nil => exact Triple.pure (.refl _)
  | cons p ps ih =>
    apply Triple.bind (triple_inspect p ds)
    intro o
    exact Triple.bind ih fun _ => Triple.pure (.refl _)

theorem owns_dictGet (self key : Pointer) :
    custody.Owns [] (Value.dictGet self key) (fun value => value.elim [] Pointer.dues) [] := by
  apply Owns.bind (Owns.lift (triple_inspect self []))
  intro o
  split
  · exact Owns.throw
  · apply Owns.bind (owns_makes rfl fun _ => rfl)
    intro r
    split
    · exact Owns.pure (.refl _)
    · apply Owns.bind (owns_check r)
      intro p
      exact Owns.pure (by simp)

theorem owns_addColumns (tbl : Pointer) (columns : List (String × Pointer)) :
    custody.Owns tbl.dues (addColumns tbl columns) Pointer.dues [] := by
  induction columns generalizing tbl with
  | nil => exact Owns.pure (.refl _)
  | cons column columns ih =>
    apply Owns.bind (Owns.lift (triple_symIntern column.1 tbl.dues))
    intro id
    apply Owns.bind (owns_takes rfl fun _ => rfl)
    intro r
    exact Owns.bind (owns_check r) ih

theorem owns_tableNew (names : List String) (columns : List Pointer) :
    custody.Owns [] (Table.new names columns) Pointer.dues [] := by
  apply Owns.bind (owns_assert _ [])
  intro _
  dsimp only
  split
  · exact Owns.throw
  · apply Owns.bind (Owns.lift (triple_inspectAll columns []))
    intro objects
    split
    · exact Owns.throw
    · apply Owns.bind (owns_makes rfl fun _ => rfl)
      intro r
      apply Owns.bind (owns_check r)
      intro tbl
      exact Owns.bind (owns_addColumns tbl _) owns_fromOwned

theorem owns_materialize (p : Pointer) : custody.Owns p.dues (materialize p) Pointer.dues [] := by
  unfold materialize
  split
  · exact Owns.pure (.refl _)
  · apply Owns.bind (Owns.lift (triple_inspect p p.dues))
    intro o
    split
    · exact Owns.pure (.refl _)
    · apply Owns.bind (owns_takes rfl fun _ => rfl)
      intro r
      split
      · exact Owns.throw
      · exact Owns.bind (Owns.lift (triple_fromObj _ _)) fun _ => Owns.throw
      · exact Owns.pure (.refl _)

theorem owns_evaluated (r : Raw) : custody.Owns r.dues (evaluated r) Pointer.dues [] := by
  unfold evaluated
  split
  · exact Owns.pure (.refl _)
  · apply Owns.bind (owns_check r)
    intro p
    exact Owns.bind (owns_materialize p) owns_fromOwned

theorem owns_eval (source : String) : custody.Owns [] (eval source) Pointer.dues [] := by
  apply Owns.bind (owns_assert _ [])
  intro _
  split
  · exact Owns.throw
  · exact Owns.bind (owns_makes rfl fun _ => rfl) owns_evaluated

theorem owns_evalValue (obj : Pointer) : custody.Owns [] (evalValue obj) Pointer.dues [] := by
  apply Owns.bind (owns_assert _ [])
  intro _
  exact Owns.bind (owns_makes rfl fun _ => rfl) owns_evaluated

theorem owns_call {self : Pointer} {args : List Pointer} (known : ∀ p ∈ self :: args, p.dues ⊆ ds) :
    custody.Owns ds (Fn.call self args) (fun value => value.dues ++ ds) ds := by
  apply Owns.bind (Owns.lift (triple_cloneAll known))
  intro _
  have listed : custody.Owns (duesOf (self :: args) ++ ds)
      (onError (Value.list (self :: args)) (dropAll (self :: args)))
      (fun list => list.dues ++ (duesOf (self :: args) ++ ds)) ds :=
    Owns.onError ((owns_list (self :: args)).frame _) ((triple_dropAll (self :: args)).frame _)
  apply Owns.bind listed
  intro list
  refine owns_dropping (Owns.ensuring ((owns_evalValue list).frame _) (fun value => ?_) ?_) list
  · apply ((triple_dropAll (self :: args)).frame (value.dues ++ ds)).perm
    · exact List.perm_append_comm_assoc _ _ _
    · intro _
      exact .refl _
  · exact (triple_dropAll (self :: args)).frame _

/-- A builtin whose result nobody takes. -/
theorem owns_checked {h : Handing} (none : h.consumes = [])
    (taken : ∀ p : Pointer, forgotten ⟨.hand h, .object p⟩ = p.dues)
    (freed : ∀ id e, forgotten ⟨.hand h, .error id e⟩ = []) :
    custody.Owns [] (checked h) (fun _ => []) [] := by
  have left (r : Raw) : r.dues.Perm (r.errors.map Due.error ++ forgotten ⟨.hand h, r⟩) := by
    cases r with
    | object p => exact .of_eq (taken p).symm
    | error id e =>
      rw [freed]
      exact .refl _
  have hand := triple_hand h left
  rw [none] at hand
  apply Owns.bind (Owns.lift hand)
  intro r
  cases r with
  | object p => exact Owns.pure (.refl _)
  | error id e =>
    have failed : custody.Owns [.error id] (check (.error id e)) (fun _ => []) [] :=
      Owns.bind (Owns.lift (triple_fromObj id e)) fun _ => Owns.throw
    exact Owns.bind failed fun _ => Owns.pure (.refl _)

theorem owns_string_scope {m : Pointer → M Unit} (body : ∀ p, custody.Owns [] (m p) (fun _ => []) [])
    (s : String) :
    custody.Owns [] (Value.string s >>= fun p => dropping p (m p)) (fun _ => []) [] := by
  apply Owns.bind (owns_string s)
  intro p
  have dropped := owns_dropping (body p) p
  rw [List.append_nil] at dropped
  exact dropped

theorem owns_writeCsv (self : Pointer) (path : String) :
    custody.Owns [] (Table.writeCsv self path) (fun _ => []) [] := by
  apply owns_string_scope
  intro pathV
  exact owns_checked rfl (fun p => by cases p <;> rfl) fun _ _ => rfl

theorem owns_saveSplayed (self : Pointer) (dir : String) (symPath : Option String) :
    custody.Owns [] (Table.saveSplayed self dir symPath) (fun _ => []) [] := by
  apply owns_string_scope
  intro dirV
  have saved (args : List Pointer) :
      custody.Owns [] (checked (.setSplayedFn args)) (fun _ => []) [] :=
    owns_checked rfl (fun p => by cases p <;> rfl) fun _ _ => rfl
  cases symPath with
  | none => exact saved _
  | some path => exact owns_string_scope (fun symV => saved _) path

theorem owns_bindName (name : String) : custody.Owns [] (bindName name) (fun _ => []) [] := by
  apply Owns.bind (Owns.lift (triple_thread []))
  intro thread
  split
  · exact Owns.throw
  · split
    · exact Owns.throw
    · split
      · exact Owns.throw
      · exact Owns.pure (.refl _)

/-- What `bind_obj` gives back of what it is given: an error object is not released. -/
def Raw.released : Raw → List Due
  | .object p => p.dues
  | .error _ _ => []

theorem triple_release_error (id : Nat) (e : RayError) :
    custody.Triple [] (core (.release (.error id e))) fun _ => [] := by
  apply Triple.ask
  intro w r w' effect frame accounts
  have same : w' = { w with heap := releaseAll Object.refs w.heap [] } :=
    effect fun a mem => nomatch mem
  rw [releaseAll] at same
  rw [same]
  exact accounts

theorem owns_bindObj (name : String) (r : Raw) :
    custody.Owns r.released (bindObj name r) (fun _ => []) [] := by
  unfold bindObj
  split
  · exact Owns.throw
  · exact Owns.bind (Owns.lift (triple_release_error _ _)) fun _ => Owns.throw
  · next f _ =>
    apply Owns.bind (Owns.lift (triple_symIntern name f.dues))
    intro id
    apply Owns.bind (Owns.lift ((triple_envBind false id f).frame f.dues))
    intro a
    apply Owns.bind (Owns.lift ((triple_envBind true id f).frame f.dues))
    intro b
    apply Owns.bind (Owns.lift (triple_release f))
    intro _
    split
    · exact Owns.throw
    · exact Owns.pure (.refl _)

theorem owns_bindFn {h : Handing} (none : h.consumes = [])
    (left : ∀ r : Raw, r.dues.Perm (r.released ++ forgotten ⟨.hand h, r⟩)) (name : String) :
    custody.Owns [] (bindFn h name) (fun _ => []) [] := by
  have hand := triple_hand h left
  rw [none] at hand
  apply Owns.bind (owns_bindName name)
  intro _
  exact Owns.bind (Owns.lift hand) (owns_bindObj name)

theorem owns_bindVary (name : String) : custody.Owns [] (bindVary name) (fun _ => []) [] := by
  apply owns_bindFn rfl
  intro r
  cases r with
  | object p => simp [Raw.dues, Raw.released, forgotten]
  | error id e => exact .refl _

theorem owns_bindUnary (name : String) : custody.Owns [] (bindUnary name) (fun _ => []) [] := by
  apply owns_bindFn rfl
  intro r
  cases r with
  | object p => simp [Raw.dues, Raw.released, forgotten]
  | error id e => exact .refl _

/-- A lent object becomes the caller's when it is retained at once. -/
theorem triple_borrow {l : Lending} {f : Pointer → Program α} {post : α → List Due}
    (take : ∀ p, custody.Triple [] (f p) post ∨
      ∃ rest, f p = (core (.retain p) >>= fun _ => rest) ∧ custody.Triple p.dues rest post) :
    custody.Triple [] (core (.lend l) >>= f) post := by
  intro w told a w' run frame accounts
  obtain ⟨_, p, w1, after, lent, rest, rfl⟩ := runs_bind_iff.mp run
  obtain ⟨⟨rfl, known⟩, rfl⟩ := runs_ask_iff.mp lent
  rcases take p with left | ⟨_, same, taken⟩
  · exact left rest frame accounts
  · rw [same] at rest
    obtain ⟨_, _, w2, last, retained, ended, rfl⟩ := runs_bind_iff.mp rest
    obtain ⟨effect, rfl⟩ := runs_ask_iff.mp retained
    refine taken ended frame (accounts_retain accounts ?_ effect)
    intro a mem
    rw [List.append_assoc]
    exact List.mem_append_right _ (known a mem)

theorem owns_dictPart (name : String) (part : Pointer → Lending) (self : Pointer) :
    custody.Owns [] (Value.dictPart name part self) Pointer.dues [] := by
  apply Owns.bind (Owns.lift (triple_inspect self []))
  intro o
  split
  · exact Owns.throw
  · apply triple_borrow
    intro p
    exact .inr ⟨_, rfl, Triple.pure (.refl _)⟩

theorem owns_column (self : Pointer) (name : String) :
    custody.Owns [] (Table.column self name) Pointer.dues [] := by
  apply Owns.bind (Owns.lift (triple_symIntern name []))
  intro id
  apply triple_borrow
  intro col
  cases col with
  | nullptr => exact .inl Owns.throw
  | nullObj | block a => exact .inr ⟨_, rfl, Triple.pure (.refl _)⟩

theorem owns_getGlobal (name : String) : custody.Owns [] (getGlobal name) Pointer.dues [] := by
  apply Owns.bind (owns_assert _ [])
  intro _
  apply Owns.bind (Owns.lift (triple_symIntern name []))
  intro id
  apply triple_borrow
  intro v
  cases v with
  | nullptr => exact .inl Owns.throw
  | nullObj | block a => exact .inr ⟨_, rfl, Triple.pure (.refl _)⟩

end Rayforce.Reference
