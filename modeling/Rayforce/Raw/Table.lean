import Mathlib.Data.List.Find
import Rayforce.Raw.Text

/-! Tables (`table.rs`): column names as symbols and columns of one length.  What was put into a table
is found in it by position and by name, in every later core. -/

namespace Rayforce.Raw

/-- A string as Rust prints it. -/
def Text.str (s : Text) : String := (String.fromUTF8? ⟨s.bytes.toArray⟩).getD ""

/-- The core's functions on tables (`ray_table_*`).  A lookup has no answer where it gives null or an
error object. -/
structure Tables (T : Type) where
  new : Nat → Except RayError T
  addCol : T → Int64 → Object → Except RayError T
  ncols : T → Int
  nrows : T → Int
  colName : T → Nat → Int64
  getCol : T → Int64 → Option Object
  getColIdx : T → Nat → Option Object

/-- The core tells of a table what it has: columns of one length, each under the id of its name. -/
structure Tables.Documented {T : Type} (F : Tables T) (Has : T → List (Int64 × Object) → Prop) :
    Prop where
  new : ∀ n t, F.new n = .ok t → Has t []
  addCol : ∀ t cols id col t', Has t cols → F.addCol t id col = .ok t' → Has t' (cols ++ [(id, col)])
  ncols : ∀ t cols, Has t cols → F.ncols t = cols.length
  nrows : ∀ core t cols n, Has t cols → cols ≠ [] → (∀ c ∈ cols, c.2.len core = n) → F.nrows t = n
  nrows_nil : ∀ t, Has t [] → F.nrows t ≤ 0
  colName : ∀ t cols i id col, Has t cols → cols[i]? = some (id, col) → F.colName t i = id
  getCol : ∀ t cols id, Has t cols → F.getCol t id = (cols.find? (·.1 == id)).map Prod.snd
  getColIdx : ∀ t cols i id col, Has t cols → cols[i]? = some (id, col) → F.getColIdx t i = some col

/-- The core refuses neither a table nor a column. -/
structure Tables.Willing {T : Type} (F : Tables T) : Prop where
  new : ∀ n, ∃ t, F.new n = .ok t
  addCol : ∀ t id col, ∃ t', F.addCol t id col = .ok t'

variable {T : Type} (F : Tables T) (intern : Core → List UInt8 → Core × Int64)

/-! ### Construction -/

/-- The checks before a table is built. -/
def Table.check (core : Core) (names : List Text) (columns : List Object) : Except RayError Unit :=
  if names.length ≠ columns.length then
    .error (.binding s!"table: {names.length} names but {columns.length} columns")
  else
    match columns.zipIdx.find? fun c => !c.1.isVec core && !c.1.isList core with
    | some (c, i) =>
      let tag := c.typeCode core
      .error (.binding s!"table: column {i} is not a vector or list (type tag {tag})")
    | none =>
      let nrows := (columns.head?.map (·.len core)).getD 0
      match columns.zipIdx.find? fun c => c.1.len core != nrows with
      | some (c, i) =>
        let rows := c.len core
        .error (.binding s!"table: column {i} has {rows} rows, expected {nrows}")
      | none => .ok ()

/-- The loop of `Table::new`. -/
def Table.addAll (core : Core) (t : T) : List (Text × Object) → Core × Except RayError T
  | [] => (core, .ok t)
  | (name, col) :: rest =>
    let (core, id) := intern core name.bytes
    match F.addCol t id col with
    | .error e => (core, .error e)
    | .ok t => addAll core t rest

def Table.new (core : Core) (names : List Text) (columns : List Object) : Core × Except RayError T :=
  match check core names columns with
  | .error e => (core, .error e)
  | .ok () =>
    match F.new names.length with
    | .error e => (core, .error e)
    | .ok t => addAll F intern core t (names.zip columns)

/-! ### Accessors -/

def Table.ncols (t : T) : Nat := (F.ncols t).toNat

def Table.nrows (t : T) : Nat := (F.nrows t).toNat

def Table.shape (t : T) : Nat × Nat := (nrows F t, ncols F t)

def Table.columnNames (core : Core) (t : T) : List Text :=
  (List.range (ncols F t)).map fun i => core.symText (F.colName t i)

/-- A lookup interns the name, whether there is such a column or not. -/
def Table.column (core : Core) (t : T) (name : Text) : Core × Except RayError Object :=
  let (core, id) := intern core name.bytes
  match F.getCol t id with
  | some col => (core, .ok col)
  | none =>
    let name := name.str
    (core, .error (.binding s!"column not found: {name}"))

def Table.columnAt (t : T) (idx : Nat) : Except RayError Object :=
  if ncols F t ≤ idx then
    let ncols := ncols F t
    .error (.binding s!"column index {idx} out of range ({ncols} columns)")
  else
    match F.getColIdx t idx with
    | some col => .ok col
    | none => .error (.binding s!"column at {idx} is unavailable")

/-- `Table::columns`. -/
def Table.allColumns (t : T) : Except RayError (List Object) :=
  (List.range (ncols F t)).mapM (columnAt F t)

/-! ### What is refused -/

variable {F intern} {core later grown : Core} {names : List Text} {columns : List Object}

/-- What a table can be built from: a name for each column, and columns of one length. -/
structure WellFormed (core : Core) (names : List Text) (columns : List Object) : Prop where
  counts : names.length = columns.length
  kinds : ∀ c ∈ columns, c.isVec core || c.isList core
  rows : ∀ c ∈ columns, ∀ d ∈ columns, c.len core = d.len core

/-- The first offence, and what the error says of it. -/
inductive Refused (core : Core) (names : List Text) (columns : List Object) : RayError → Prop
  | counts : names.length ≠ columns.length →
    Refused core names columns (.binding s!"table: {names.length} names but {columns.length} columns")
  | kind (before after : List Object) (c : Object) (tag : Int) : names.length = columns.length →
    columns = before ++ c :: after → (∀ d ∈ before, d.isVec core || d.isList core) →
    (c.isVec core || c.isList core) = false → c.typeCode core = tag →
    Refused core names columns
      (.binding s!"table: column {before.length} is not a vector or list (type tag {tag})")
  | rows (first : Object) (before after : List Object) (c : Object) (rows nrows : Nat) :
    names.length = columns.length → (∀ c ∈ columns, c.isVec core || c.isList core) →
    columns.head? = some first → first.len core = nrows → columns = before ++ c :: after →
    (∀ d ∈ before, d.len core = nrows) → c.len core = rows → rows ≠ nrows →
    Refused core names columns
      (.binding s!"table: column {before.length} has {rows} rows, expected {nrows}")

section

variable {α : Type} {p : α → Bool} {l : List α} {c : α} {i k : Nat}

theorem find?_zipIdx_split (before after : List α) (bad : p c = true)
    (good : ∀ d ∈ before, p d = false) :
    ((before ++ c :: after).zipIdx k).find? (fun c => p c.1) = some (c, k + before.length) := by
  induction before generalizing k with
  | nil => simp [List.zipIdx_cons, bad]
  | cons d before ih =>
    rw [List.cons_append, List.zipIdx_cons, List.find?_cons_of_neg (by simp [good d]),
      ih fun d mem => good d (List.mem_cons_of_mem _ mem), List.length_cons, Nat.add_assoc,
      Nat.add_comm 1]

theorem split_of_find?_zipIdx (found : (l.zipIdx k).find? (fun c => p c.1) = some (c, i)) :
    ∃ before after, l = before ++ c :: after ∧ i = k + before.length ∧ p c = true ∧
      ∀ d ∈ before, p d = false := by
  induction l generalizing k with
  | nil => cases found
  | cons d l ih =>
    rw [List.zipIdx_cons] at found
    cases bad : p d with
    | true =>
      rw [List.find?_cons_of_pos (by exact bad)] at found
      cases found
      exact ⟨[], l, rfl, rfl, bad, fun _ mem => absurd mem List.not_mem_nil⟩
    | false =>
      rw [List.find?_cons_of_neg (by simp [bad])] at found
      obtain ⟨before, after, rfl, rfl, bad', good⟩ := ih found
      refine ⟨d :: before, after, rfl, ?_, bad', ?_⟩
      · rw [List.length_cons]
        omega
      · intro e mem
        rcases List.mem_cons.mp mem with rfl | mem
        · exact bad
        · exact good e mem

theorem find?_zipIdx_none (none : (l.zipIdx k).find? (fun c => p c.1) = none) :
    ∀ d ∈ l, p d = false := by
  intro d mem
  obtain ⟨i, lt, rfl⟩ := List.getElem_of_mem mem
  have here : (l[i], k + i) ∈ l.zipIdx k :=
    List.mk_add_mem_zipIdx_iff_getElem?.mpr (List.getElem?_eq_getElem lt)
  simpa using List.find?_eq_none.mp none _ here

theorem find?_zipIdx_eq_none (good : ∀ d ∈ l, p d = false) :
    (l.zipIdx k).find? (fun c => p c.1) = none := by
  rw [List.find?_eq_none]
  rintro ⟨d, i⟩ mem
  rw [good d (List.fst_mem_of_mem_zipIdx mem)]
  exact Bool.false_ne_true

end

/-- No vector and no list. -/
theorem offends_iff {c : Object} :
    (!c.isVec core && !c.isList core) = true ↔ (c.isVec core || c.isList core) = false := by
  cases c.isVec core <;> cases c.isList core <;> decide

theorem not_offends_iff {c : Object} :
    (!c.isVec core && !c.isList core) = false ↔ (c.isVec core || c.isList core) = true := by
  cases c.isVec core <;> cases c.isList core <;> decide

theorem kinds_of_none
    (none : (columns.zipIdx.find? fun c => !c.1.isVec core && !c.1.isList core) = none) :
    ∀ c ∈ columns, c.isVec core || c.isList core := by
  intro c mem
  exact not_offends_iff.mp
    (find?_zipIdx_none (p := fun c : Object => !c.isVec core && !c.isList core) none c mem)

theorem refused_of_check {e : RayError} (refused : Table.check core names columns = .error e) :
    Refused core names columns e := by
  unfold Table.check at refused
  split at refused
  · next counts =>
    cases refused
    exact .counts counts
  · next counts =>
    have counts := not_not.mp counts
    split at refused
    · next c i found =>
      obtain ⟨before, after, split, rfl, bad, good⟩ := split_of_find?_zipIdx
        (p := fun c : Object => !c.isVec core && !c.isList core) found
      cases refused
      rw [Nat.zero_add]
      exact .kind before after c _ counts split (fun d mem => not_offends_iff.mp (good d mem))
        (offends_iff.mp bad) rfl
    · next none =>
      dsimp only at refused
      split at refused
      · next c i found =>
        obtain ⟨before, after, rfl, rfl, bad, good⟩ := split_of_find?_zipIdx
          (p := fun c : Object => c.len core != _) found
        cases refused
        rw [Nat.zero_add]
        obtain ⟨first, head⟩ : ∃ first, (before ++ c :: after).head? = some first := by
          cases before <;> exact ⟨_, rfl⟩
        refine .rows first before after c _ _ counts (kinds_of_none none) head ?_ rfl
          (by simpa using good) rfl (by simpa using bad)
        rw [head]
        rfl
      · cases refused

theorem check_of_refused {e : RayError} (refused : Refused core names columns e) :
    Table.check core names columns = .error e := by
  have find (good : ∀ c ∈ columns, c.isVec core || c.isList core) := find?_zipIdx_eq_none (k := 0)
    (p := fun c : Object => !c.isVec core && !c.isList core)
    fun c mem => not_offends_iff.mpr (good c mem)
  unfold Table.check
  cases refused with
  | counts counts => rw [if_pos counts]
  | kind before after c tag counts split good bad code =>
    subst split code
    have found := find?_zipIdx_split (k := 0) (p := fun c : Object => !c.isVec core && !c.isList core)
      before after (offends_iff.mpr bad) fun d mem => not_offends_iff.mpr (good d mem)
    rw [if_neg (not_not.mpr counts), found, Nat.zero_add]
  | rows first before after c rows nrows counts kinds head same split good len other =>
    have found := find?_zipIdx_split (k := 0) (c := c)
      (p := fun c : Object => c.len core != nrows) before after (by simpa [len] using other)
      (by simpa using good)
    rw [if_neg (not_not.mpr counts), find kinds, head]
    subst split
    simp only [Option.map_some, Option.getD_some, same, found, Nat.zero_add, len]

theorem check_eq_error_iff {e : RayError} :
    Table.check core names columns = .error e ↔ Refused core names columns e :=
  ⟨refused_of_check, check_of_refused⟩

theorem not_refused (whole : WellFormed core names columns) {e : RayError} :
    ¬ Refused core names columns e := by
  intro refused
  cases refused with
  | counts counts => exact counts whole.counts
  | kind before after c tag counts split good bad code =>
    subst split
    rw [whole.kinds c (by simp)] at bad
    cases bad
  | rows first before after c rows nrows counts kinds head same split good len other =>
    subst split len same
    exact other (whole.rows c (by simp) first (List.mem_of_mem_head? head))

theorem check_eq_ok_iff : Table.check core names columns = .ok () ↔ WellFormed core names columns := by
  constructor
  · intro ok
    unfold Table.check at ok
    split at ok
    · cases ok
    · next counts =>
      split at ok
      · cases ok
      · next none =>
        dsimp only at ok
        split at ok
        · cases ok
        · next none' =>
          have rows := find?_zipIdx_none (p := fun c : Object => c.len core != _) none'
          refine ⟨not_not.mp counts, kinds_of_none none, fun c mem d mem' => ?_⟩
          have first := rows c mem
          have second := rows d mem'
          rw [bne_eq_false_iff_eq] at first second
          exact first.trans second.symm
  · intro whole
    cases checked : Table.check core names columns with
    | ok u => rfl
    | error e => exact absurd (refused_of_check checked) (not_refused whole)

/-! ### What is found again -/

/-- A table shows names and columns: by position, by name, and as a whole. -/
structure Shows (F : Tables T) (intern : Core → List UInt8 → Core × Int64) (core : Core) (t : T)
    (names : List Text) (columns : List Object) : Prop where
  shape : ∀ c ∈ columns, Table.shape F t = (c.len core, names.length)
  shape_nil : columns = [] → Table.shape F t = (0, 0)
  columnNames : Table.columnNames F core t = names
  allColumns : Table.allColumns F t = .ok columns
  columnAt : ∀ (i : Nat) c, columns[i]? = some c → Table.columnAt F t i = .ok c
  beyond : ∀ i, columns.length ≤ i → Table.columnAt F t i =
    .error (.binding s!"column index {i} out of range ({columns.length} columns)")
  /-- A name shows the first column that bears it. -/
  column : ∀ (i : Nat) name c, names[i]? = some name → columns[i]? = some c →
    (∀ j < i, names[j]? ≠ some name) → (Table.column F intern core t name).2 = .ok c
  missing : ∀ name, name ∉ names →
    (Table.column F intern core t name).2 = .error (.binding s!"column not found: {name.str}")

/-- The columns are under the ids of their names. -/
structure Table.Holds (Has : T → List (Int64 × Object) → Prop) (core : Core) (t : T)
    (cols : List (Text × Object)) : Prop where
  has : Has t (cols.map fun c => (core.symId c.1.bytes, c.2))
  interned : ∀ c ∈ cols, c.1.bytes ∈ core.symbols

variable {Has : T → List (Int64 × Object) → Prop} {t : T} {cols : List (Text × Object)}

theorem Table.Holds.grows (holds : Table.Holds Has core t cols) (grows : core.Grows later) :
    Table.Holds Has later t cols where
  has := by
    have ids : (cols.map fun c => (later.symId c.1.bytes, c.2)) =
        cols.map fun c => (core.symId c.1.bytes, c.2) :=
      List.map_congr_left fun c mem => by rw [Core.symId_grows (holds.interned c mem) grows]
    rw [ids]
    exact holds.has
  interned c mem := grows.mem (holds.interned c mem)

/-- One more column. -/
theorem Table.Holds.addCol (documented : F.Documented Has) (interns : Interns intern)
    (holds : Table.Holds Has core t cols) {name : Text} {col : Object} {t' : T}
    (added : F.addCol t (intern core name.bytes).2 col = .ok t') :
    Table.Holds Has (intern core name.bytes).1 t' (cols ++ [(name, col)]) := by
  have before := holds.grows (interns.grows core name.bytes)
  constructor
  · rw [List.map_append, List.map_singleton, ← interns.id]
    exact documented.addCol _ _ _ _ _ before.has added
  · intro c mem
    rcases List.mem_append.mp mem with mem | mem
    · exact before.interned c mem
    · rw [List.mem_singleton.mp mem]
      exact interns.mem core name.bytes

/-- The whole loop. -/
theorem Table.Holds.addAll (documented : F.Documented Has) (interns : Interns intern)
    (holds : Table.Holds Has core t cols) {more : List (Text × Object)} {built : T}
    (done : addAll F intern core t more = (grown, .ok built)) :
    Table.Holds Has grown built (cols ++ more) := by
  induction more generalizing core t cols with
  | nil =>
    cases done
    rwa [List.append_nil]
  | cons c more ih =>
    unfold Table.addAll at done
    dsimp only at done
    split at done
    · cases done
    · next t' added =>
      have rest := ih (holds.addCol documented interns added) done
      rwa [List.append_assoc] at rest

theorem Core.symId_inj {s t : Text} (hs : s.bytes ∈ core.symbols) (ht : t.bytes ∈ core.symbols)
    (fits : core.Fits) : core.symId s.bytes = core.symId t.bytes ↔ s = t := by
  constructor
  · intro same
    rw [← symText_symId hs List.prefix_rfl fits, same, symText_symId ht List.prefix_rfl fits]
  · rintro rfl
    rfl

/-- A lookup compares ids, and ids are those of names. -/
theorem getCol_holds (documented : F.Documented Has) (holds : Table.Holds Has core t cols)
    (fits : core.Fits) {name : Text} (there : name.bytes ∈ core.symbols) :
    F.getCol t (core.symId name.bytes) = (cols.find? (·.1 = name)).map Prod.snd := by
  rw [documented.getCol _ _ _ holds.has, List.find?_map, Option.map_map]
  refine congrArg (Option.map Prod.snd) (List.find?_congr fun c mem => ?_)
  rw [Bool.eq_iff_iff, Function.comp_apply, beq_iff_eq, decide_eq_true_iff]
  exact Core.symId_inj (holds.interned c mem) there fits

theorem ncols_holds (documented : F.Documented Has) (holds : Table.Holds Has core t cols) :
    Table.ncols F t = cols.length := by
  rw [Table.ncols, documented.ncols _ _ holds.has, Int.toNat_natCast, List.length_map]

theorem colName_holds (documented : F.Documented Has) (holds : Table.Holds Has core t cols) {i : Nat}
    {c : Text × Object} (here : cols[i]? = some c) : F.colName t i = core.symId c.1.bytes :=
  documented.colName _ _ i _ c.2 holds.has (by rw [List.getElem?_map, here]; rfl)

theorem columnAt_holds (documented : F.Documented Has) (holds : Table.Holds Has core t cols) {i : Nat}
    {c : Text × Object} (here : cols[i]? = some c) : Table.columnAt F t i = .ok c.2 := by
  have inside : ¬Table.ncols F t ≤ i := by
    rw [ncols_holds documented holds, Nat.not_le]
    exact (List.getElem?_eq_some_iff.mp here).1
  have found : F.getColIdx t i = some c.2 :=
    documented.getColIdx _ _ i (core.symId c.1.bytes) _ holds.has
      (by rw [List.getElem?_map, here]; rfl)
  rw [Table.columnAt, if_neg inside, found]

theorem shape_holds (documented : F.Documented Has) (holds : Table.Holds Has core t cols) {n : Nat}
    (some : cols ≠ []) (rows : ∀ c ∈ cols, c.2.len core = n) : Table.shape F t = (n, cols.length) := by
  have nrows : F.nrows t = n := by
    refine documented.nrows core t _ n holds.has (mt List.map_eq_nil_iff.mp some) fun c mem => ?_
    obtain ⟨d, inside, rfl⟩ := List.mem_map.mp mem
    exact rows d inside
  rw [Table.shape, ncols_holds documented holds, Table.nrows, nrows, Int.toNat_natCast]

theorem columnNames_holds (documented : F.Documented Has) (holds : Table.Holds Has core t cols)
    (fits : core.Fits) : Table.columnNames F core t = cols.map Prod.fst := by
  unfold Table.columnNames
  rw [ncols_holds documented holds]
  apply List.ext_getElem
  · simp only [List.length_map, List.length_range]
  · intro i _ lt
    rw [List.length_map] at lt
    have here : cols[i]? = some cols[i] := List.getElem?_eq_getElem lt
    rw [List.getElem_map, List.getElem_map, List.getElem_range, colName_holds documented holds here]
    exact Core.symText_symId (holds.interned _ (List.getElem_mem lt)) List.prefix_rfl fits

theorem allColumns_holds (documented : F.Documented Has) (holds : Table.Holds Has core t cols) :
    Table.allColumns F t = .ok (cols.map Prod.snd) := by
  have all : (List.finRange cols.length).map (fun i => (cols.get i).2) = cols.map Prod.snd := by
    rw [← Function.comp_def, ← List.map_map, List.map_get_finRange]
  unfold Table.allColumns
  rw [ncols_holds documented holds, ← List.map_coe_finRange_eq_range, List.mapM_map]
  refine (mapM_ok (g := fun i => (cols.get i).2) fun i _ => ?_).trans (congrArg _ all)
  exact columnAt_holds documented holds (List.getElem?_eq_getElem i.isLt)

/-- The lookup is in the core that has interned the name. -/
theorem column_holds (documented : F.Documented Has) (interns : Interns intern)
    (holds : Table.Holds Has core t cols) (room : core.symbols.length < 2 ^ 63) (name : Text) :
    F.getCol t (intern core name.bytes).2 = (cols.find? (·.1 = name)).map Prod.snd := by
  rw [interns.id]
  exact getCol_holds documented (holds.grows (interns.grows core name.bytes))
    (interns.fits room name.bytes) (interns.mem core name.bytes)

theorem pair_of_zip {i : Nat} {name : Text} {c : Object} (at_i : names[i]? = some name)
    (here : columns[i]? = some c) : (names.zip columns)[i]? = some (name, c) :=
  List.getElem?_zip_eq_some.mpr ⟨at_i, here⟩

/-- The first of the pairs under a name. -/
theorem find?_zip {i : Nat} {name : Text} {c : Object} (at_i : names[i]? = some name)
    (here : columns[i]? = some c) (first : ∀ j < i, names[j]? ≠ some name) :
    (names.zip columns).find? (·.1 = name) = some (name, c) := by
  rw [List.find?_eq_some_iff_getElem]
  obtain ⟨lt, get⟩ := List.getElem?_eq_some_iff.mp (pair_of_zip at_i here)
  refine ⟨by simp, i, lt, get, fun j before => ?_⟩
  have other := first j before
  rw [List.getElem?_eq_getElem (by rw [List.length_zip] at lt; omega)] at other
  simpa using other

theorem shows_of_holds (documented : F.Documented Has) (interns : Interns intern)
    (holds : Table.Holds Has core t (names.zip columns)) (whole : WellFormed core names columns)
    (room : core.symbols.length < 2 ^ 63) : Shows F intern core t names columns := by
  have width : (names.zip columns).length = columns.length := by
    rw [List.length_zip, whole.counts, Nat.min_self]
  have looked := column_holds documented interns holds room
  constructor
  case shape =>
    intro c mem
    rw [whole.counts, ← width]
    refine shape_holds documented holds ?_ fun d mem' => ?_
    · exact List.ne_nil_of_length_pos (width ▸ List.length_pos_of_mem mem)
    · exact whole.rows d.2 (List.of_mem_zip mem').2 c mem
  case shape_nil =>
    rintro rfl
    rw [List.zip_nil_right] at holds
    have rows : (F.nrows t).toNat = 0 := Int.toNat_of_nonpos (documented.nrows_nil t holds.has)
    rw [Table.shape, ncols_holds documented holds, Table.nrows, rows]
    rfl
  case columnNames =>
    rw [columnNames_holds documented holds room.le, List.map_fst_zip whole.counts.le]
  case allColumns =>
    rw [allColumns_holds documented holds, List.map_snd_zip whole.counts.ge]
  case columnAt =>
    intro i c here
    have lt := (List.getElem?_eq_some_iff.mp here).1
    obtain ⟨name, named⟩ : ∃ name, names[i]? = some name :=
      ⟨_, List.getElem?_eq_getElem (whole.counts ▸ lt)⟩
    exact columnAt_holds documented holds (pair_of_zip named here)
  case beyond =>
    intro i past
    rw [Table.columnAt, ncols_holds documented holds, width, if_pos past]
  case column =>
    intro i name c at_i here first
    unfold Table.column
    simp only [looked, find?_zip at_i here first, Option.map_some]
  case missing =>
    intro name absent
    have none : (names.zip columns).find? (·.1 = name) = none := by
      rw [List.find?_eq_none]
      intro c mem same
      exact absent (of_decide_eq_true same ▸ (List.of_mem_zip mem).1)
    unfold Table.column
    simp only [looked, none, Option.map_none]

/-! ### Built and read -/

/-- A table is built only from what is well formed, and otherwise the first offence is told.  One that
was built shows what it was built from, whatever is interned afterwards. -/
structure Tabulates (F : Tables T) (intern : Core → List UInt8 → Core × Int64) (core : Core)
    (names : List Text) (columns : List Object) : Prop where
  refused : ∀ e, Refused core names columns e → (Table.new F intern core names columns).2 = .error e
  accepted : F.Willing →
    ((Table.new F intern core names columns).2.isOk = true ↔ WellFormed core names columns)
  told : F.Willing → ∀ e, (Table.new F intern core names columns).2 = .error e ↔
    Refused core names columns e
  shown : ∀ (grown later : Core) (t : T), Table.new F intern core names columns = (grown, .ok t) →
    grown.Grows later → later.symbols.length < 2 ^ 63 →
    WellFormed core names columns ∧ Shows F intern later t names columns

theorem addAll_ok (willing : F.Willing) (core : Core) (t : T) (cols : List (Text × Object)) :
    ∃ built, (Table.addAll F intern core t cols).2 = .ok built := by
  induction cols generalizing core t with
  | nil => exact ⟨t, rfl⟩
  | cons c cols ih =>
    obtain ⟨t', added⟩ := willing.addCol t (intern core c.1.bytes).2 c.2
    unfold Table.addAll
    simp only [added]
    exact ih _ t'

theorem new_ok (willing : F.Willing) (checked : Table.check core names columns = .ok ()) :
    ∃ built, (Table.new F intern core names columns).2 = .ok built := by
  obtain ⟨t, made⟩ := willing.new names.length
  unfold Table.new
  simp only [checked, made]
  exact addAll_ok willing core t _

theorem new_error {e : RayError} (checked : Table.check core names columns = .error e) :
    (Table.new F intern core names columns).2 = .error e := by
  unfold Table.new
  rw [checked]

/-- The tag of the null singleton is that of no vector and no list. -/
theorem isVec_null : Object.null.isVec core = false := by
  have := core.nullTag_high
  exact decide_eq_false (by simp only [Object.typeCode]; omega)

theorem isList_null : Object.null.isList core = false := by
  have := core.nullTag_high
  exact beq_false_of_ne (by simp only [Object.typeCode]; omega)

theorem isVec_core (core later : Core) (o : Object) : o.isVec core = o.isVec later := by
  cases o with
  | null => rw [isVec_null, isVec_null]
  | _ => rfl

theorem isList_core (core later : Core) (o : Object) : o.isList core = o.isList later := by
  cases o with
  | null => rw [isList_null, isList_null]
  | _ => rfl

theorem len_core (core later : Core) (o : Object) : o.len core = o.len later := by
  unfold Object.len
  rw [isVec_core core later, isList_core core later]
  cases o with
  | null => split <;> simp [Object.rawLen, Object.dictLen]
  | _ => rfl

theorem wellFormed_core (whole : WellFormed core names columns) (later : Core) :
    WellFormed later names columns where
  counts := whole.counts
  kinds c mem := by
    rw [isVec_core later core, isList_core later core]
    exact whole.kinds c mem
  rows c mem d mem' := by
    rw [len_core later core, len_core later core]
    exact whole.rows c mem d mem'

theorem tabulates (documented : F.Documented Has) (interns : Interns intern) (core : Core)
    (names : List Text) (columns : List Object) : Tabulates F intern core names columns where
  refused e refused := new_error (check_of_refused refused)
  accepted willing := by
    rw [← check_eq_ok_iff]
    cases checked : Table.check core names columns with
    | error e => simp [new_error checked, Except.isOk, Except.toBool]
    | ok u =>
      obtain ⟨built, ok⟩ : ∃ built, (Table.new F intern core names columns).2 = .ok built :=
        new_ok willing checked
      simp [ok, Except.isOk, Except.toBool]
  told willing e := by
    rw [← check_eq_error_iff]
    cases checked : Table.check core names columns with
    | error e => simp [new_error checked]
    | ok u =>
      obtain ⟨built, ok⟩ : ∃ built, (Table.new F intern core names columns).2 = .ok built :=
        new_ok willing checked
      simp [ok]
  shown grown later t made grows room := by
    unfold Table.new at made
    split at made
    · cases made
    · next checked =>
      have whole := check_eq_ok_iff.mp checked
      split at made
      · cases made
      · next t' fresh =>
        have start : Table.Holds Has core t' [] :=
          ⟨documented.new _ _ fresh, fun _ mem => absurd mem List.not_mem_nil⟩
        have holds := (start.addAll documented interns made).grows grows
        exact ⟨whole, shows_of_holds documented interns holds (wellFormed_core whole later) room⟩

/-- Tables that are their columns. -/
def listed : Tables (List (Int64 × Object)) where
  new _ := .ok []
  addCol t id col := .ok (t ++ [(id, col)])
  ncols t := t.length
  nrows t := (t.head?.map (·.2.len (.ofSymbols [] .nil))).getD 0
  colName t i := (t[i]?.map Prod.fst).getD 0
  getCol t id := (t.find? (·.1 == id)).map Prod.snd
  getColIdx t i := t[i]?.map Prod.snd

theorem listed_documented : listed.Documented fun t cols => t = cols where
  new := by
    rintro n t ⟨⟩
    rfl
  addCol := by
    rintro t cols id col t' rfl ⟨⟩
    rfl
  ncols := by
    rintro t cols rfl
    rfl
  nrows := by
    rintro core t cols n rfl some rows
    obtain ⟨c, rest, rfl⟩ := List.exists_cons_of_ne_nil some
    exact congrArg Nat.cast ((len_core _ core c.2).trans (rows c List.mem_cons_self))
  nrows_nil := by
    rintro t rfl
    exact le_refl 0
  colName := by
    rintro t cols i id col rfl here
    exact congrArg (fun c => (c.map Prod.fst).getD 0) here
  getCol := by
    rintro t cols id rfl
    rfl
  getColIdx := by
    rintro t cols i id col rfl here
    exact congrArg (Option.map Prod.snd) here

/-- Two columns of two rows. -/
theorem tabulates_two :
    let core : Core := .ofSymbols [[]] (by decide)
    let names := [Text.lossy [0x61], Text.lossy [0x62]]
    let columns : List Object :=
      [.vec (.root ⟨false, none, [1, 2]⟩ : Vec .i64 2), strVec [.lossy [0x78], .lossy [0x79]]]
    let built := Table.new listed Core.interned core names columns
    ∃ t, built.2 = .ok t ∧ Shows listed Core.interned built.1 t names columns := by
  intro core names columns built
  have tabulates := tabulates listed_documented interns_interned core names columns
  exact ⟨_, rfl, (tabulates.shown built.1 built.1 _ rfl List.prefix_rfl (by decide)).2⟩

end Rayforce.Raw
