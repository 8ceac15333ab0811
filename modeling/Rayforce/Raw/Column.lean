import Rayforce.Raw.Convert

/-! A fixed-width vector as a list of its elements: what the mutators and the readers of the only
handle to it make of that list, after any history. -/

namespace Rayforce.Raw

/-- What stands for a vector of `T`s: its elements, and whether its nulls are marked. -/
@[ext] structure Column (T : Type) where
  elems : List T
  marked : Bool

/-- An element type of vectors, with the element that `set_null` writes. -/
class Element (T : Type) [elem : VecElem T] [scalar : Scalar T] where
  ofCell : Cell elem.kind → T
  null : Option T

section

variable {T : Type} [elem : VecElem T] [Scalar T] [Element T]

def Column.new (data : List T) : Column T := ⟨data, data.any Scalar.isNull⟩

def Column.nullAt (col : Column T) (idx : Nat) : Bool :=
  col.marked && col.elems[idx]?.any Scalar.isNull

/-- A mutator's effect and whether it is accepted.  There is no column left where the core failed. -/
def Column.call (col : Column T) : Mutation → Bool × Option (Column T)
  | @Mutation.set _ _ idx elem failure =>
    match elemCell (VecElem.kind T) elem with
    | none => (false, some col)
    | some cell =>
      if col.elems.length ≤ idx then (false, some col)
      else if failure.isSome then (false, none)
      else (true, some { col with elems := col.elems.set idx (Element.ofCell cell) })
  | @Mutation.push _ _ elem failure =>
    match elemCell (VecElem.kind T) elem with
    | none => (false, some col)
    | some cell =>
      if failure.isSome then (false, none)
      else (true, some { col with elems := col.elems ++ [Element.ofCell cell] })
  | .setNull idx isNull _ =>
    match (Element.null : Option T) with
    | none => (false, some col)
    | some null =>
      if col.elems.length ≤ idx then (false, some col)
      else if isNull then (true, some { elems := col.elems.set idx null, marked := true })
      else (true, some col)

/-- What the mutators refuse once the core has failed: everything. -/
def Column.calls (col : Option (Column T)) (m : Mutation) : Bool × Option (Column T) :=
  col.elim (false, none) (·.call m)

def Column.after (col : Option (Column T)) (history : List Mutation) : Option (Column T) :=
  history.foldl (fun col m => (Column.calls col m).2) col

end

/-- A mutator's result, and the handle after it. -/
def Handle.call {kind : Kind} (core : Core) (h : Handle kind) :
    Mutation → Except RayError Unit × Handle kind
  | @Mutation.set _ _ idx elem failure => h.set core idx elem failure
  | @Mutation.push _ _ elem failure => h.push elem failure
  | .setNull idx isNull e => h.setNull idx isNull e

theorem Handle.snd_call {kind : Kind} (core : Core) (h : Handle kind) (m : Mutation) :
    (h.call core m).2 = h.apply core m := by
  cases m <;> rfl

/-! ### Element types -/

instance : Element UInt8 := ⟨id, none⟩
instance : Element Int16 := ⟨id, some Int16.minValue⟩
instance : Element Int32 := ⟨id, some Int32.minValue⟩
instance : Element Int64 := ⟨id, some Int64.minValue⟩
instance : Element F32 := ⟨id, some ⟨0x7FC00000⟩⟩
instance : Element F64 := ⟨id, some ⟨0x7FF8000000000000⟩⟩
instance : Element Guid := ⟨id, some .zero⟩

/-- The cells of a vector are its elements, in memory and boxed. -/
class LawfulElement (T : Type) [elem : VecElem T] [scalar : Scalar T] [Element T] : Prop where
  kind (T) : scalar.kind = elem.kind
  gated (T) : elem.kind ≠ .sym ∧ elem.kind ≠ .str
  vec (T) : elem.kind ≠ .timespan
  cell : ∀ c : Cell elem.kind, VecElem.toCell (Element.ofCell c : T) = c
  inPlace : ∀ v : T, VecElem.ofBytes (Cell.bytes elem.kind (VecElem.toCell v)) = v
  sentinel : ∀ v : T, Cell.isSentinel elem.kind (VecElem.toCell v) = Scalar.isNull v
  atom : ∀ v : T, Cell.atom elem.kind (VecElem.toCell v) = some (Scalar.atom v)
  null : Cell.null elem.kind = (Element.null : Option T).map VecElem.toCell

instance : LawfulElement UInt8 :=
  ⟨rfl, by decide, by decide, fun _ => rfl, u8In_singleton, fun _ => rfl, fun _ => rfl, rfl⟩
instance : LawfulElement Int16 :=
  ⟨rfl, by decide, by decide, fun _ => rfl, i16In_bytes, fun _ => rfl, fun _ => rfl, rfl⟩
instance : LawfulElement Int32 :=
  ⟨rfl, by decide, by decide, fun _ => rfl, i32In_bytes, fun _ => rfl, fun _ => rfl, rfl⟩
instance : LawfulElement Int64 :=
  ⟨rfl, by decide, by decide, fun _ => rfl, i64In_bytes, fun _ => rfl, fun _ => rfl, rfl⟩
instance : LawfulElement F32 :=
  ⟨rfl, by decide, by decide, fun _ => rfl, f32In_bytes, fun _ => rfl, fun _ => rfl, rfl⟩
instance : LawfulElement F64 :=
  ⟨rfl, by decide, by decide, fun _ => rfl, f64In_bytes, fun _ => rfl, fun _ => rfl, rfl⟩
instance : LawfulElement Guid :=
  ⟨rfl, by decide, by decide, fun _ => rfl, guidIn_bytes, fun _ => rfl, fun _ => rfl, rfl⟩

/-! ### Mutators -/

section

variable {T : Type} [elem : VecElem T]

/-- The vector with the column's elements for its cells. -/
def Column.root (col : Column T) : Root elem.kind :=
  { hasNulls := col.marked, symDomain := none, cells := col.elems.map VecElem.toCell }

def Column.handle (col : Option (Column T)) : Handle elem.kind := col.elim .null fun col => .vec col.root

theorem Column.length_cells (col : Column T) : col.root.cells.length = col.elems.length :=
  List.length_map ..

theorem Column.root_null (col : Column T) (idx : Nat) (null : T) :
    { col.root with cells := col.root.cells.set idx (VecElem.toCell null), hasNulls := true } =
      root { elems := col.elems.set idx null, marked := true } := by
  unfold root
  rw [List.map_set]

variable {core : Core} [scalar : Scalar T] [Element T] [LawfulElement T]

theorem Column.handle_new (data : List T) : Handle.new data = handle (some (new data)) := by
  have marked : (data.map VecElem.toCell).any (Cell.isSentinel elem.kind) = data.any Scalar.isNull := by
    rw [List.any_map]
    congr 1
    funext v
    exact LawfulElement.sentinel v
  unfold Handle.new handle new root
  rw [Option.elim_some, ← marked]

theorem Column.root_set (col : Column T) (idx : Nat) (c : Cell elem.kind) :
    { col.root with cells := col.root.cells.set idx c } =
      root { col with elems := col.elems.set idx (Element.ofCell c) } := by
  unfold root
  rw [List.map_set, LawfulElement.cell]

theorem Column.root_append (col : Column T) (c : Cell elem.kind) :
    { col.root with cells := col.root.cells ++ [c] } =
      root { col with elems := col.elems ++ [Element.ofCell c] } := by
  unfold root
  rw [List.map_append, List.map_singleton, LawfulElement.cell]

theorem Column.handle_set {U : Type} [VecElem U] (col : Column T) (idx : Nat) (v : U)
    (failure : Option RayError) : ((handle (some col)).set core idx v failure).1.isOk =
      (col.call (.set U idx v failure)).1 ∧
    ((handle (some col)).set core idx v failure).2 = handle (col.call (.set U idx v failure)).2 := by
  have len : (Handle.vec col.root).object.len core = col.elems.length := by
    rw [← col.length_cells]
    exact len_vec (.root col.root) (LawfulElement.vec T)
  unfold handle Handle.set Column.call
  cases cell : elemCell elem.kind v with
  | none => simp only [Option.elim_some, cell, and_true]; rfl
  | some c =>
    simp only [Option.elim_some, cell, len]
    split
    · exact ⟨rfl, rfl⟩
    · cases failure with
      | none => exact ⟨rfl, congrArg Handle.vec (col.root_set idx c)⟩
      | some e => exact ⟨rfl, rfl⟩

theorem Column.handle_push {U : Type} [VecElem U] (col : Column T) (v : U) (failure : Option RayError) :
    ((handle (some col)).push v failure).1.isOk = (col.call (.push U v failure)).1 ∧
    ((handle (some col)).push v failure).2 = handle (col.call (.push U v failure)).2 := by
  unfold handle Handle.push Column.call
  cases cell : elemCell elem.kind v with
  | none => simp only [Option.elim_some, cell, and_true]; rfl
  | some c =>
    simp only [Option.elim_some, cell]
    cases failure with
    | none => exact ⟨rfl, congrArg Handle.vec (col.root_append c)⟩
    | some e => exact ⟨rfl, rfl⟩

theorem Column.handle_setNull (col : Column T) (idx : Nat) (isNull : Bool) (e : Nat) :
    ((handle (some col)).setNull idx isNull e).1.isOk = (col.call (.setNull idx isNull e)).1 ∧
    ((handle (some col)).setNull idx isNull e).2 = handle (col.call (.setNull idx isNull e)).2 := by
  have nulls : Cell.null elem.kind = _ := LawfulElement.null (T := T)
  unfold handle Handle.setNull Column.call
  simp only [Option.elim_some, nulls]
  cases (Element.null : Option T) with
  | none => exact ⟨rfl, rfl⟩
  | some null =>
    simp only [Option.map_some]
    rw [col.length_cells]
    split
    · exact ⟨rfl, rfl⟩
    · cases isNull with
      | false => exact ⟨rfl, rfl⟩
      | true => exact ⟨rfl, congrArg Handle.vec (col.root_null idx null)⟩

/-- One step: the handle accepts what the column does, and stands for what comes of it. -/
theorem Column.handle_call (col : Option (Column T)) (m : Mutation) :
    ((handle col).call core m).1.isOk = (calls col m).1 ∧
      ((handle col).call core m).2 = handle (calls col m).2 := by
  cases col with
  | none => cases m <;> exact ⟨rfl, rfl⟩
  | some col =>
    cases m with
    | set U idx v failure => exact col.handle_set idx v failure
    | push U v failure => exact col.handle_push v failure
    | setNull idx isNull e => exact col.handle_setNull idx isNull e

/-- The whole history. -/
theorem Column.handle_after (col : Option (Column T)) (history : List Mutation) :
    (handle col).after core history = handle (after col history) := by
  induction history generalizing col with
  | nil => rfl
  | cons m history ih =>
    unfold Handle.after after at *
    rw [List.foldl_cons, List.foldl_cons, ← Handle.snd_call, (handle_call col m).2, ih]

end

/-! ### Readers -/

section

variable {T : Type} [elem : VecElem T] [scalar : Scalar T] [Element T]

/-- What the readers of a vector give of a column. -/
structure Reads (core : Core) (o : Object) (col : Column T) [FromValue T] : Prop where
  len : o.len core = col.elems.length
  asSlice : o.asSlice core T = .ok col.elems
  isNullAt : ∀ idx, o.isNullAt core idx = col.nullAt idx
  get : ∀ idx v, col.elems[idx]? = some v →
    o.get core idx = .ok (if col.marked && Scalar.isNull v then .null else .atom (Scalar.atom v))
  getOut : ∀ idx, col.elems.length ≤ idx →
    o.get core idx = .error (.binding s!"index {idx} out of range for length {col.elems.length}")
  toVecOption : o.toVec core (Option T) =
    .ok (col.elems.map fun v => if Scalar.isNull v then none else some v)
  /-- A null that is marked has no value. -/
  toVec : o.toVec core T =
    if col.marked && col.elems.any Scalar.isNull then .error (mismatch elem.kind core.nullTag)
    else .ok (col.elems.map fun v => Scalar.field (Scalar.atom v))

/-- The column of a vector, which may be a slice. -/
def Vec.column {n : Nat} (v : Vec elem.kind n) : Column T :=
  ⟨v.cells.map Element.ofCell, v.hasNulls⟩

end

/-! ### Vectors -/

section

variable {T : Type} [elem : VecElem T] [scalar : Scalar T] [Element T] {n : Nat}

theorem Vec.column_elems (v : Vec elem.kind n) :
    (column v : Column T).elems = (List.finRange n).map fun i => Element.ofCell (v.cell i) := by
  have cells : v.cells = (List.finRange n).map v.cell := by
    apply List.ext_getElem
    · rw [v.length_cells, List.length_map, List.length_finRange]
    · intro i _ _
      rw [List.getElem_map, List.getElem_finRange]
      rfl
  rw [column, cells, List.map_map]
  rfl

theorem Vec.column_slice (v : Vec elem.kind n) (offset len : Nat) (fits : offset + len ≤ n) :
    (column (slice v offset len fits) : Column T) =
      ⟨((column v : Column T).elems.drop offset).take len, v.hasNulls⟩ := by
  unfold column
  rw [cells, List.map_take, List.map_drop]
  rfl

theorem Vec.length_column (v : Vec elem.kind n) : (column v : Column T).elems.length = n := by
  rw [column, List.length_map, v.length_cells]

theorem Vec.getElem?_column (v : Vec elem.kind n) (i : Fin n) :
    (column v : Column T).elems[i.val]? = some (Element.ofCell (v.cell i)) := by
  rw [column, List.getElem?_map, v.getElem?_cells, Option.map_some]

variable {core : Core} [LawfulElement T]

theorem Vec.column_root (col : Column T) : column (.root col.root) = col := by
  have same : Element.ofCell ∘ VecElem.toCell = (id : T → T) := by
    funext t
    have cell := LawfulElement.inPlace (Element.ofCell (VecElem.toCell t) : T)
    rw [LawfulElement.cell, LawfulElement.inPlace] at cell
    exact cell.symm
  unfold column cells Column.root
  rw [List.map_map, same, List.map_id]
  rfl

theorem Element.isSentinel_cell (c : Cell elem.kind) :
    Cell.isSentinel elem.kind c = Scalar.isNull (Element.ofCell c : T) := by
  rw [← LawfulElement.sentinel (Element.ofCell c : T), LawfulElement.cell]

theorem Vec.coreIsNull_column (v : Vec elem.kind n) (i : Fin n) :
    v.coreIsNull core i = (v.hasNulls && Scalar.isNull (Element.ofCell (v.cell i) : T)) := by
  rw [coreIsNull_gated v (LawfulElement.gated T), Element.isSentinel_cell (T := T)]

theorem Vec.asSlice_column (v : Vec elem.kind n) :
    (Object.vec v).asSlice core T = .ok (column v : Column T).elems := by
  rw [asSlice_vec (LawfulElement.vec T), column]
  congr 2
  funext c
  have cell := LawfulElement.inPlace (Element.ofCell c : T)
  rwa [LawfulElement.cell] at cell

theorem Vec.get_column (v : Vec elem.kind n) (i : Fin n) {e : T} (cell : Element.ofCell (v.cell i) = e) :
    (Object.vec v).get core i =
      .ok (if v.hasNulls && Scalar.isNull e then .null else .atom (Scalar.atom e)) := by
  have atom : Cell.atom elem.kind (v.cell i) = some (Scalar.atom e) := by
    rw [← cell, ← LawfulElement.atom, LawfulElement.cell]
  obtain ⟨sym, str⟩ := LawfulElement.gated T
  rw [get_vec v (LawfulElement.vec T), v.coreIsNull_column (T := T), cell, v.box_atom i atom]
  cases v.hasNulls && Scalar.isNull e <;> simp [sym, str]

theorem get_out {kind : Kind} (v : Vec kind n) (vec : kind ≠ .timespan) {idx : Nat} (out : n ≤ idx) :
    (Object.vec v).get core idx = .error (.binding s!"index {idx} out of range for length {n}") := by
  unfold Object.get
  simp only [(isVec_iff v).mpr vec, len_vec v vec, Bool.not_true, Bool.false_and, Bool.false_eq_true,
    if_false, if_pos out]

theorem isNullAt_out {kind : Kind} (v : Vec kind n) (vec : kind ≠ .timespan) {idx : Nat}
    (out : n ≤ idx) : (Object.vec v).isNullAt core idx = false := by
  unfold Object.isNullAt
  simp only [len_vec v vec, Bool.or_eq_true, decide_eq_true_eq, out, or_true, if_true]

end

/-- Each step gives its value or the one error. -/
theorem mapM_unless {ε α β : Type} {f : α → Except ε β} {g : α → β} {bad : α → Bool} {e : ε}
    {l : List α} (each : ∀ a, f a = if bad a then .error e else .ok (g a)) :
    l.mapM f = if l.any bad then .error e else .ok (l.map g) := by
  induction l with
  | nil => rfl
  | cons a l ih =>
    rw [List.mapM_cons, each, ih, List.any_cons]
    cases bad a <;> cases l.any bad <;> rfl

section

variable {T : Type} [elem : VecElem T] [scalar : Scalar T] [Element T] [LawfulElement T]
  {core : Core} {n : Nat}

/-- `to_vec` over the elements of the column, where each is converted or refused with one error. -/
theorem Vec.toVec_column {U : Type} [FromValue U] {p : T → Bool} {g : T → U} {e : RayError}
    (v : Vec elem.kind n)
    (each : ∀ t : T, (fromValue core (if v.hasNulls && Scalar.isNull t then .null
      else .atom (Scalar.atom t)) : Except RayError U) = if p t then .error e else .ok (g t)) :
    (Object.vec v).toVec core U = if (column v : Column T).elems.any p then .error e
      else .ok ((column v : Column T).elems.map g) := by
  unfold Object.toVec
  rw [len_vec v (LawfulElement.vec T), ← List.map_coe_finRange_eq_range, List.mapM_map, v.column_elems,
    List.any_map, List.map_map]
  apply mapM_unless
  intro i
  change (do let o ← (Object.vec v).get core i; fromValue core o) = _
  rw [v.get_column i rfl]
  exact each _

variable [FromValue T] [LawfulScalar T]

theorem fromValue_element (marked : Bool) (t : T) :
    (fromValue core (if marked && Scalar.isNull t then .null else .atom (Scalar.atom t)) :
      Except RayError T) = if marked && Scalar.isNull t then .error (mismatch elem.kind core.nullTag)
        else .ok (Scalar.field (Scalar.atom t)) := by
  split
  · rw [LawfulScalar.reader, LawfulElement.kind T]
    rfl
  · exact fromValue_atom_scalar t

/-- Whatever the flag and however the vector was sliced. -/
theorem Vec.reads_column (v : Vec elem.kind n) : Reads core (.vec v) (column v : Column T) where
  len := by rw [len_vec v (LawfulElement.vec T), v.length_column]
  asSlice := v.asSlice_column
  isNullAt idx := by
    unfold Column.nullAt
    by_cases lt : idx < n
    · rw [isNullAt_vec v (LawfulElement.vec T) ⟨idx, lt⟩, v.coreIsNull_column (T := T) ⟨idx, lt⟩,
        v.getElem?_column ⟨idx, lt⟩]
      rfl
    · have out : n ≤ idx := Nat.not_lt.mp lt
      rw [isNullAt_out v (LawfulElement.vec T) out, List.getElem?_eq_none (by rwa [v.length_column]),
        Option.any_none, Bool.and_false]
  get idx t at_idx := by
    have lt : idx < n := by
      rw [← v.length_column (T := T)]
      exact (List.getElem?_eq_some_iff.mp at_idx).1
    rw [v.getElem?_column ⟨idx, lt⟩] at at_idx
    exact v.get_column ⟨idx, lt⟩ (Option.some.inj at_idx)
  getOut idx out := by
    rw [v.length_column] at *
    exact get_out v (LawfulElement.vec T) out
  toVecOption := by
    rw [v.toVec_column (p := fun _ => false) (e := .binding "") (fromValue_option_scalar v.hasNulls)]
    simp
  toVec := by
    rw [v.toVec_column (fromValue_element v.hasNulls)]
    cases marked : v.hasNulls <;> simp [column, marked]

/-! ### Any history -/

/-- The handle to a new vector does what the column of its elements does. -/
structure Refines (core : Core) (T : Type) [elem : VecElem T] [Scalar T] [Element T] [FromValue T] :
    Prop where
  accepts : ∀ (data : List T) (history : List Mutation) (m : Mutation),
    (((Handle.new data).after core history).call core m).1.isOk =
      (Column.calls (Column.after (some (Column.new data)) history) m).1
  reads : ∀ (data : List T) (history : List Mutation) (col : Column T),
    Column.after (some (Column.new data)) history = some col →
      Reads core ((Handle.new data).after core history).object col
  sliced : ∀ (data : List T) (history : List Mutation) (col : Column T) (r : Root elem.kind)
    (offset len : Nat) (fits : offset + len ≤ r.cells.length),
    Column.after (some (Column.new data)) history = some col →
    (Handle.new data).after core history = .vec r →
      Reads core (.vec (.slice (.root r) offset len fits))
        ⟨(col.elems.drop offset).take len, col.marked⟩
  gone : ∀ (data : List T) (history : List Mutation),
    Column.after (some (Column.new data)) history = none →
      ((Handle.new data).after core history).object = .null

theorem refines : Refines core T where
  accepts data history m := by
    rw [Column.handle_new, Column.handle_after]
    exact (Column.handle_call _ m).1
  reads data history col stands := by
    have reads : Reads core _ (Vec.column _ : Column T) := Vec.reads_column (.root col.root)
    rw [Vec.column_root] at reads
    rw [Column.handle_new, Column.handle_after, stands]
    exact reads
  sliced data history col r offset len fits stands held := by
    rw [Column.handle_new, Column.handle_after, stands] at held
    cases held
    have reads : Reads core _ (Vec.column _ : Column T) :=
      Vec.reads_column (.slice (.root col.root) offset len fits)
    rw [Vec.column_slice, Vec.column_root] at reads
    exact reads
  gone data history stands := by
    rw [Column.handle_new, Column.handle_after, stands]
    rfl

end

/-- Every element type's vectors are lists of their elements. -/
theorem vectors_refine (core : Core) : Refines core UInt8 ∧ Refines core Int16 ∧ Refines core Int32 ∧
    Refines core Int64 ∧ Refines core F32 ∧ Refines core F64 ∧ Refines core Guid :=
  ⟨refines, refines, refines, refines, refines, refines, refines⟩

end Rayforce.Raw
