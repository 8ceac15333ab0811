import Rayforce.Lib.Lent
import Rayforce.Reference.Balance
import Rayforce.Reference.Further

/-! What each of these operations is lent, takes over and makes. -/

namespace Rayforce.Reference

open Calls Custody RefHeap
open Rayforce.Value (VecType)

variable {lent taken : List Due} {p q : Pointer} {ps : List Pointer} {α : Type}

/-- A pointer's references are among those of a list that it is in. -/
theorem dues_subset_duesOf (mem : p ∈ ps) : p.dues ⊆ duesOf ps :=
  fun _ due => List.mem_flatMap.mpr ⟨p, mem, due⟩

theorem duesOf_append (ps qs : List Pointer) : duesOf (ps ++ qs) = duesOf ps ++ duesOf qs :=
  List.flatMap_append

@[simp] theorem duesOf_one (p : Pointer) : duesOf [p] = p.dues := List.flatMap_singleton _ _

/-! ### Calls -/

theorem uses_known {m : M α} {made : α → List Due} (owns : custody.Owns taken m made []) :
    whole.Uses lent taken (known m) made :=
  Uses.of_owns owns.inl

theorem uses_plain {c : Call} {made : c.Reply → List Due} (h : custody.Triple taken (core c) made) :
    whole.Uses lent taken (plain c) made :=
  Uses.lift h.inl

theorem triple_drops (ps : List Pointer) : whole.Triple (duesOf ps) (drops ps) fun _ => [] :=
  (triple_dropAll ps).inl

theorem uses_fetch (f : Fetching) : whole.Uses lent [] (further (.fetch f)) fun r => r.answer.dues := by
  apply Uses.lift
  apply Triple.inr
  intro w r w' hands frame accounts
  exact World.Hands.accounts hands accounts

/-- A call of which nobody gets anything. -/
theorem uses_further (d : Further)
    (same : ∀ w r w', World.further w d r w' → w' = w ∨ w.Hands [] Pointer.nullptr w') :
    whole.Uses lent [] (further d) fun _ => [] := by
  apply Uses.lift
  apply Triple.inr
  intro w r w' effect frame accounts
  rcases same w r w' effect with rfl | hands
  · exact accounts
  · exact hands.accounts accounts

theorem uses_inspect (p : Pointer) : whole.Uses lent [] (plain (.inspect p)) fun _ => [] :=
  uses_plain (triple_inspect p [])

theorem uses_assert (what : String) :
    whole.Uses lent [] (known (assertOnRuntimeThread what)) fun _ => [] :=
  uses_known (owns_assert what [])

/-- What is cloned is lent. -/
theorem uses_clone (known : p.dues ⊆ lent) : whole.Uses lent [] (clone p) Pointer.dues := by
  intro ds sub
  apply Owns.bind (Owns.lift (triple_retain (fun _ due => sub (known due))).inl)
  intro _
  exact Owns.pure (.refl _)

/-- A part becomes the caller's when it is retained at once. -/
theorem uses_part {part : Part} {f : Pointer → N α} {made : α → List Due}
    (take : ∀ p, whole.Uses lent [] (f p) made ∨
      ∃ rest, f p = (plain (.retain p) >>= fun _ => rest) ∧ whole.Uses lent p.dues rest made) :
    whole.Uses lent [] (further (.part part) >>= f) made := by
  intro ds sub w told a w' run frame accounts
  rcases runs_run_ask_bind_iff.mp run with ⟨p, w1, rest, ⟨rfl, there⟩, after, rfl⟩
  rcases take p with left | ⟨ends, same, taken⟩
  · exact left ds sub after frame accounts
  · rw [same] at after
    obtain ⟨_, w2, last, effect, ended, rfl⟩ := runs_run_ask_bind_iff.mp after
    refine taken ds sub ended frame ?_
    rw [List.append_assoc]
    refine accounts_retain accounts ?_ effect
    intro a mem
    rw [List.append_assoc]
    exact List.mem_append_right _ (there a mem)

/-! ### Scopes -/

theorem uses_scope (ps : List Pointer) {m : N α} {made : α → List Due}
    (body : whole.Uses (duesOf ps ++ lent) [] m made) :
    whole.Uses lent (duesOf ps) (ensuring m (drops ps)) made :=
  Uses.ensuring body (triple_drops ps)

theorem uses_holding {m : N α} {made : α → List Due} (body : whole.Uses (p.dues ++ lent) [] m made) :
    whole.Uses lent p.dues (holding p m) made := by
  rw [← duesOf_one] at *
  exact uses_scope [p] body

/-- A local `Value` for a scope. -/
theorem uses_local {m : N Pointer} {f : Pointer → N α} {made : α → List Due}
    (makes : whole.Uses lent [] m Pointer.dues)
    (body : ∀ p, whole.Uses (p.dues ++ lent) [] (f p) made) :
    whole.Uses lent [] (m >>= fun p => holding p (f p)) made :=
  makes.bind fun p => uses_holding (body p)

/-- What is given back where the body fails. -/
theorem uses_onError (ps : List Pointer) {m : N α} {made : α → List Due}
    (body : whole.Uses (duesOf ps ++ lent) taken m made) :
    whole.Uses lent (taken ++ duesOf ps) (onError m (drops ps)) fun a => made a ++ duesOf ps :=
  Uses.onError body (triple_drops ps)

/-- A `Value` beside another, which is dropped where there is none. -/
theorem uses_after (q : Pointer) {m : N Pointer} (makes : whole.Uses lent [] m Pointer.dues) :
    whole.Uses lent q.dues (onError m (drops [q])) fun p => duesOf [p, q] := by
  have kept : whole.Uses lent ([] ++ duesOf [q]) (onError m (drops [q])) fun p =>
      p.dues ++ duesOf [q] := uses_onError [q] (makes.mono (List.subset_append_right _ _))
  simpa [duesOf] using kept

theorem uses_gather (parts : α → List Pointer) {ms : List (N α)}
    (each : ∀ m ∈ ms, whole.Uses lent [] m fun a => duesOf (parts a)) (made : List α) :
    whole.Uses lent (duesOf (made.flatMap parts)) (gather parts made ms)
      fun as => duesOf (as.flatMap parts) := by
  induction ms generalizing made with
  | nil => exact Uses.pure (.refl _)
  | cons m ms ih =>
    have first := each m List.mem_cons_self
    apply (uses_onError _ (first.mono (List.subset_append_right _ _))).bind
    intro a
    apply (ih (fun m mem => each m (List.mem_cons_of_mem _ mem)) (made ++ [a])).perm _ fun _ => .refl _
    rw [List.flatMap_append, List.flatMap_singleton, duesOf_append]
    exact List.perm_append_comm

/-- The same of `Value`s. -/
theorem uses_values {ms : List (N Pointer)} (each : ∀ m ∈ ms, whole.Uses lent [] m Pointer.dues)
    (made : List Pointer) : whole.Uses lent (duesOf made) (gather one made ms) duesOf := by
  have gathered := uses_gather one (by simpa using each) made
  simpa using gathered

theorem uses_listOf (items : List Pointer) :
    whole.Uses lent (duesOf items) (listOf items) Pointer.dues :=
  uses_scope items (uses_known (owns_list items))

theorem uses_nameRef (name : String) : whole.Uses lent [] (nameRef name) Pointer.dues :=
  uses_known (owns_sym _ name)

theorem uses_i64 : whole.Uses lent [] i64 Pointer.dues :=
  uses_known (owns_construct _ _ rfl fun _ => rfl)

theorem uses_string (s : String) : whole.Uses lent [] (known (Value.string s)) Pointer.dues :=
  uses_known (owns_string s)

theorem uses_evalValue (ast : Pointer) : whole.Uses lent [] (known (evalValue ast)) Pointer.dues :=
  uses_known (owns_evalValue ast)

/-! ### Answers -/

theorem uses_owned (r : Raw) : whole.Uses lent r.dues (owned r) Pointer.dues :=
  (uses_known (owns_check r)).bind fun p => Uses.pure (by rw [dues_fromOwned])

theorem uses_fetched (f : Fetching) : whole.Uses lent [] (fetched f) Pointer.dues :=
  (uses_fetch f).bind fun r => uses_owned r.answer

theorem uses_materialized (r : Raw) : whole.Uses lent r.dues (materialized r) Pointer.dues :=
  (uses_known (owns_check r)).bind fun p =>
    (uses_known (owns_materialize p)).bind fun p => Uses.pure (by rw [dues_fromOwned])

theorem uses_unlessNull {failure : RayError} {r : Raw} {take : Raw → N Pointer}
    (takes : whole.Uses lent r.dues (take r) Pointer.dues) :
    whole.Uses lent r.dues (unlessNull failure r take) Pointer.dues := by
  unfold unlessNull
  split
  · exact Uses.throw
  · exact takes

theorem uses_expecting (tag : Int) (what : String) (value : Pointer) :
    whole.Uses lent value.dues (expecting tag what value) Pointer.dues := by
  apply (uses_plain (triple_inspect value value.dues)).bind
  intro o
  split
  · exact (uses_plain (triple_release value)).bind fun _ => Uses.throw
  · exact Uses.pure (.refl _)

theorem uses_fromValue (value : Pointer) :
    whole.Uses lent value.dues (Table.fromValue value) Pointer.dues := uses_expecting _ _ value

/-! ### Values -/

theorem uses_boxed (self : Pointer) (idx : Nat) (type : VecType) :
    whole.Uses lent [] (boxed self idx type) Pointer.dues := by
  have atom (type : VecType) :
      whole.Uses lent [] (known (Value.atom (constructorName type) type)) Pointer.dues :=
    uses_known (owns_construct _ _ rfl fun _ => rfl)
  unfold boxed
  split
  · have hand : custody.Triple [] (core (.hand (.atom .sym))) Raw.dues :=
      triple_hand (.atom .sym) fun r => by simp [forgotten]
    exact (uses_plain hand).bind uses_owned
  · apply (uses_further (.strVecGet self idx) fun _ _ _ same => .inl same).bind
    exact uses_string
  · exact atom _

theorem uses_get (self : Pointer) (idx : Nat) :
    whole.Uses lent [] (Value.get self idx) Pointer.dues := by
  apply (uses_inspect self).bind
  intro o
  dsimp only
  split
  · exact Uses.throw
  · split
    · exact Uses.throw
    · split
      · apply (uses_further (.isNullAt self idx) fun _ _ _ same => .inl same).bind
        intro null
        split
        · exact Uses.pure (.refl _)
        · exact uses_boxed self idx _
      · apply uses_part
        intro e
        exact .inr ⟨_, rfl, Uses.pure (.refl _)⟩

theorem uses_elements (self : Pointer) (count : Nat) (made : List Pointer) (idx : Nat) :
    whole.Uses lent (duesOf made) (elements self made count idx) duesOf := by
  induction count generalizing made idx with
  | zero => exact Uses.pure (.refl _)
  | succ count ih =>
    have item : whole.Uses (duesOf made ++ lent) [] (do
        let v ← Value.get self idx
        holding v (clone v)) Pointer.dues :=
      uses_local (uses_get self idx) fun v => uses_clone (List.subset_append_left _ _)
    apply (uses_onError made item).bind
    intro p
    apply (ih (made ++ [p]) (idx + 1)).perm _ fun _ => .refl _
    rw [duesOf_append, duesOf_one]
    exact List.perm_append_comm

theorem uses_toVec (self : Pointer) : whole.Uses lent [] (Value.toVec self) duesOf :=
  (uses_inspect self).bind fun o => uses_elements self o.length [] 0

theorem uses_format (self : Pointer) : whole.Uses lent [] (Value.format self) fun _ => [] := by
  apply (uses_fetch _).bind
  rintro ⟨r, reason⟩
  cases r with
  | error id e => exact uses_plain (triple_errorFree id)
  | object p =>
    cases p with
    | nullptr => exact Uses.pure (.refl _)
    | nullObj | block a => exact uses_plain (triple_release _)

theorem uses_serialize (self : Pointer) : whole.Uses lent [] (Value.serialize self) fun _ => [] :=
  (uses_fetch _).bind fun r => (uses_unlessNull (uses_owned r.answer)).bind fun _ =>
    uses_holding (Uses.pure (.refl _))

theorem uses_deserialize (len : Nat) : whole.Uses lent [] (Value.deserialize len) Pointer.dues :=
  uses_local (uses_known (owns_construct _ _ rfl fun _ => rfl)) fun _ =>
    (uses_fetch _).bind fun r => uses_unlessNull (uses_materialized r.answer)

theorem uses_setGlobal (name : String) (value : Pointer) :
    whole.Uses lent [] (setGlobal name value) fun _ => [] := by
  apply (uses_assert _).bind
  intro _
  apply (uses_plain (triple_symIntern name [])).bind
  intro id
  apply (uses_further (.envSet id value) fun _ _ _ hands => .inr hands).bind
  intro e
  split
  · exact Uses.throw
  · exact Uses.pure (.refl _)

/-! ### Tables -/

theorem uses_tableOf (name : String) (args : List Pointer) :
    whole.Uses lent [] (tableOf name args) Pointer.dues :=
  (uses_fetch _).bind fun r => (uses_materialized r.answer).bind uses_fromValue

/-- A builtin on local `Value`s. -/
theorem uses_table (f : Fetching) :
    whole.Uses lent [] (do Table.fromValue (← fetched f)) Pointer.dues :=
  (uses_fetched f).bind uses_fromValue

theorem uses_asTable (known : p.dues ⊆ lent) : whole.Uses lent [] (Value.asTable p) Pointer.dues :=
  (uses_clone known).bind uses_fromValue

theorem uses_columnAt (self : Pointer) (idx : Nat) :
    whole.Uses lent [] (Table.columnAt self idx) Pointer.dues := by
  apply (uses_further (.ncols self) fun _ _ _ same => .inl same).bind
  intro ncols
  split
  · exact Uses.throw
  · apply uses_part
    intro col
    cases col with
    | nullptr => exact .inl Uses.throw
    | nullObj | block a => exact .inr ⟨_, rfl, Uses.pure (.refl _)⟩

theorem uses_columns (self : Pointer) : whole.Uses lent [] (Table.columns self) duesOf := by
  apply (uses_further (.ncols self) fun _ _ _ same => .inl same).bind
  intro ncols
  apply uses_values
  intro m mem
  obtain ⟨idx, -, rfl⟩ := List.mem_map.mp mem
  exact uses_columnAt self idx

theorem uses_readCsv (columnTypes : List String) (path : String) :
    whole.Uses lent [] (Table.readCsv columnTypes path) Pointer.dues :=
  (uses_assert _).bind fun _ => uses_local (uses_known (owns_symVec _)) fun _ =>
    uses_local (uses_string path) fun _ => uses_table _

theorem uses_loadSplayed (dir : String) (symPath : Option String) :
    whole.Uses lent [] (Table.loadSplayed dir symPath) Pointer.dues := by
  apply (uses_assert _).bind
  intro _
  apply uses_local (uses_string dir)
  intro dirV
  cases symPath with
  | none => exact uses_table _
  | some path => exact uses_local (uses_string path) fun _ => uses_table _

theorem uses_loadParted (root name : String) :
    whole.Uses lent [] (Table.loadParted root name) Pointer.dues :=
  (uses_assert _).bind fun _ => uses_local (uses_string root) fun _ =>
    uses_local (uses_known (owns_sym _ name)) fun _ => uses_table _

theorem uses_insert (self : Pointer) (values : List Pointer) :
    whole.Uses lent [] (Table.insert self values) Pointer.dues :=
  uses_local (uses_known (owns_list values)) fun _ => uses_tableOf _ _

theorem uses_upsertColumns (self : Pointer) (columns : List Pointer) :
    whole.Uses lent [] (Table.upsertColumns self columns) Pointer.dues :=
  uses_local uses_i64 fun _ => uses_local (uses_known (owns_list columns)) fun _ => uses_tableOf _ _

theorem uses_evaluating {items : List (N Pointer)}
    (each : ∀ m ∈ items, whole.Uses lent [] m Pointer.dues) :
    whole.Uses lent [] (evaluating items) Pointer.dues :=
  (uses_values each []).bind fun ps => (uses_listOf ps).bind fun ast =>
    uses_holding (uses_evalValue ast)

theorem uses_takeRows (known : p.dues ⊆ lent) : whole.Uses lent [] (takeRows p) Pointer.dues := by
  apply uses_evaluating
  intro m mem
  simp only [List.mem_cons, List.not_mem_nil, or_false] at mem
  rcases mem with rfl | rfl | rfl
  · exact uses_nameRef _
  · exact uses_clone known
  · exact uses_i64

theorem uses_take (known : p.dues ⊆ lent) : whole.Uses lent [] (Table.take p) Pointer.dues :=
  (uses_takeRows known).bind uses_fromValue

theorem uses_endRows (known : p.dues ⊆ lent) (op : String) (n : Int64) :
    whole.Uses lent [] (Table.endRows op p n) Pointer.dues := by
  unfold Table.endRows
  split
  · exact Uses.throw
  · exact uses_take known

theorem uses_join (known : p.dues ⊆ lent) (known' : q.dues ⊆ lent) (op : Query.Operation)
    (on : List String) : whole.Uses lent [] (Table.join op p q on) Pointer.dues := by
  apply (uses_known (owns_symVec on)).bind
  intro onVec
  apply (uses_after onVec (uses_nameRef op.asStr)).bind
  intro head
  have items : whole.Uses lent (duesOf [head, onVec])
      (gather one [head, onVec] [clone p, clone q]) duesOf := by
    apply uses_values
    intro m mem
    simp only [List.mem_cons, List.not_mem_nil, or_false] at mem
    rcases mem with rfl | rfl
    · exact uses_clone known
    · exact uses_clone known'
  apply items.bind
  intro items
  apply (uses_listOf items).bind
  intro ast
  exact uses_holding ((uses_evalValue ast).bind uses_fromValue)

/-! ### Lambdas -/

theorem uses_toFn (value : Pointer) : whole.Uses lent value.dues (Fn.fromValue value) Pointer.dues :=
  uses_expecting _ _ value

theorem uses_fnNew (source : String) : whole.Uses lent [] (Fn.new source) Pointer.dues := by
  unfold Fn.new
  split
  · exact Uses.throw
  · exact (uses_known (owns_eval source)).bind uses_toFn

theorem uses_fromGlobal (name : String) : whole.Uses lent [] (Fn.fromGlobal name) Pointer.dues :=
  (uses_known (owns_getGlobal name)).bind uses_toFn

theorem uses_meta (known : p.dues ⊆ lent) : whole.Uses lent [] (Fn.meta p) Pointer.dues := by
  apply uses_evaluating
  intro m mem
  simp only [List.mem_cons, List.not_mem_nil, or_false] at mem
  rcases mem with rfl | rfl
  · exact uses_nameRef _
  · exact uses_clone known

/-! ### Connections -/

theorem uses_qExecute (fd : Int) (query : String) :
    whole.Uses lent [] (QConnection.execute fd query) Pointer.dues :=
  uses_local (uses_string query) fun _ =>
    (uses_fetch _).bind fun r => uses_unlessNull (uses_owned r.answer)

theorem uses_subscriptionSend (id : Int) (msg : Pointer) :
    whole.Uses lent [] (Subscription.send id msg) Pointer.dues := by
  apply (uses_further (.isAlive id) fun _ _ _ same => .inl same).bind
  intro alive
  split
  · exact Uses.throw
  · exact (uses_fetch _).bind fun r => uses_unlessNull (uses_owned r.answer)

theorem uses_decodeResponse (msg : List UInt8) :
    whole.Uses lent [] (decodeResponse msg) Pointer.dues := by
  apply (uses_assert _).bind
  intro _
  split
  · exact Uses.throw
  · exact (uses_fetch _).bind fun r => uses_unlessNull (uses_owned r.answer)

theorem uses_decodeResponseCols (debug : List UInt8 → String) (msg : List UInt8)
    (cols : List (List UInt8)) :
    whole.Uses lent [] (decodeResponseCols debug msg cols) Pointer.dues := by
  apply (uses_assert _).bind
  intro _
  split
  · exact Uses.throw
  · split
    · exact Uses.throw
    · exact (uses_fetch _).bind fun r => uses_unlessNull (uses_owned r.answer)

theorem uses_roundTrip (c : Ipc.Client) (msg : Pointer) (timeoutMs : Int) :
    whole.Uses lent [] (TcpClient.roundTrip c msg timeoutMs) Pointer.dues := by
  unfold TcpClient.roundTrip
  split
  · exact Uses.throw
  · exact (uses_fetch _).bind fun r => uses_unlessNull (uses_materialized r.answer)

theorem uses_send (c : Ipc.Client) (msg : Pointer) (timeout : Option Nat) :
    whole.Uses lent [] (TcpClient.send c msg timeout) Pointer.dues := by
  cases timeout with
  | none => exact uses_roundTrip c msg 0
  | some timeout =>
    unfold TcpClient.send
    dsimp only
    split
    · exact Uses.throw
    · exact uses_roundTrip c msg _

theorem uses_sendAsync (c : Ipc.Client) (msg : Pointer) :
    whole.Uses lent [] (TcpClient.sendAsync c msg) fun _ => [] := by
  unfold TcpClient.sendAsync
  split
  · exact Uses.throw
  · next handle _ =>
    apply (uses_further (.ipcSendAsync handle msg) fun _ _ _ same => .inl same).bind
    intro e
    split
    · exact Uses.throw
    · exact Uses.pure (.refl _)

end Rayforce.Reference
