import Rayforce.Raw.Column
import Rayforce.Value.Plain

/-! Handles to blocks of bytes.  The core's vectors and atoms are those of the `Raw` modules, and the
operations on them the ones that are given there for a handle that nobody else shares. -/

namespace Rayforce.Value

open RefHeap Transition
open Raw (Kind Cell Root Object Handle VecElem elemCell)

/-- What lies in one block: everything but lists. -/
inductive Leaf
  | null
  | atom (a : Raw.Atom)
  | vec {kind : Kind} (r : Root kind)
  | dict (length : Nat)
  | other (code : Int) (special : 98 ≤ code ∧ code ≠ 99)

def Leaf.object : Leaf → Object
  | null => .null
  | atom a => .atom a
  | vec r => .vec (.root r)
  | dict length => .dict length
  | other code special => .other code special

/-- An element that `set` and `push` take. -/
inductive Elem
  | u8 (v : UInt8)
  | i16 (v : Int16)
  | i32 (v : Int32)
  | i64 (v : Int64)
  | f32 (v : Raw.F32)
  | f64 (v : Raw.F64)
  | guid (v : Raw.Guid)

/-- What holds for elements of any type. -/
def Elem.elim {α : Type} (f : (T : Type) → [VecElem T] → T → α) : Elem → α
  | u8 v => f _ v
  | i16 v => f _ v
  | i32 v => f _ v
  | i64 v => f _ v
  | f32 v => f _ v
  | f64 v => f _ v
  | guid v => f _ v

/-! ### Types -/

def VecType.kind : VecType → Kind
  | bool => .bool
  | u8 => .u8
  | i16 => .i16
  | i32 => .i32
  | i64 => .i64
  | f32 => .f32
  | f64 => .f64
  | date => .date
  | time => .time
  | timestamp => .timestamp
  | guid => .guid
  | sym => .sym
  | str => .str

/-- A timespan has no vectors. -/
def vecType : Kind → Option VecType
  | .bool => some .bool
  | .u8 => some .u8
  | .i16 => some .i16
  | .i32 => some .i32
  | .i64 => some .i64
  | .f32 => some .f32
  | .f64 => some .f64
  | .date => some .date
  | .time => some .time
  | .timestamp => some .timestamp
  | .guid => some .guid
  | .sym => some .sym
  | .str => some .str
  | .timespan => none

def Elem.type : Elem → VecType
  | u8 _ => .u8
  | i16 _ => .i16
  | i32 _ => .i32
  | i64 _ => .i64
  | f32 _ => .f32
  | f64 _ => .f64
  | guid _ => .guid

def Leaf.typeCode (core : Raw.Core) : Leaf → TypeCode
  | null => .other core.nullTag
  | atom a => (vecType a.kind).elim (.other a.typeCode) .atom
  | @vec kind _ => (vecType kind).elim (.other kind.code) .vec
  | dict _ => .dict
  | other code _ => .other code

/-! ### The core inside one block -/

/-- The cell of a vector that an element fills, where the types agree. -/
def Elem.cell? (kind : Kind) (elem : Elem) : Option (Cell kind) := elem.elim fun _ _ v => elemCell kind v

/-- The boxed cell. -/
def Leaf.cell (core : Raw.Core) (idx : Nat) : Leaf → Object
  | vec r =>
    match (Raw.Vec.root r).box core idx with
    | .ok o => o
    | .error _ => .null
  | _ => .null

def Leaf.ofObject : Object → Leaf
  | .atom a => .atom a
  | _ => .null

def Leaf.set (idx : Nat) (elem : Elem) : Leaf → Leaf
  | @vec kind r =>
    match elem.cell? kind with
    | none => .vec r
    | some cell => .vec { r with cells := r.cells.set idx cell }
  | v => v

def Leaf.append (elem : Elem) : Leaf → Leaf
  | @vec kind r =>
    match elem.cell? kind with
    | none => .vec r
    | some cell => .vec { r with cells := r.cells ++ [cell] }
  | v => v

/-- `ray_vec_set_null_checked`, which refuses with the code `e`. -/
def Leaf.setNull (e : Nat) (idx : Nat) (isNull : Bool) : Leaf → Except Nat Leaf
  | @vec kind r =>
    match Cell.null kind with
    | none => .error e
    | some cell =>
      if r.cells.length ≤ idx then .error e
      else if isNull then .ok (.vec { r with cells := r.cells.set idx cell, hasNulls := true })
      else .ok (.vec r)
  | _ => .error e

def bytes (core : Raw.Core) (e : Nat) : Core Leaf Elem Object where
  number
    | .list => 0
    | .dict => 99
    | .vec type => type.kind.code
    | .atom type => -type.kind.code
    | .other code => code
  null := .null
  typeCode := Leaf.typeCode core
  len v := v.object.rawLen
  dictLen v := v.object.dictLen
  cell v idx := v.cell core idx
  atom _ := Leaf.ofObject
  isNull
    | .vec r, idx => (Raw.Vec.root r).coreIsNull core idx
    | _, _ => false
  rayType := Elem.type
  set v idx elem := v.set idx elem
  append v elem := v.append elem
  setNull v idx isNull := v.setNull e idx isNull
  notVec := e

/-! ### Objects -/

/-- What a plain value is to the readers. -/
def Plain.object : Plain Leaf → Object
  | .null => .null
  | .leaf v => v.object
  | .list items => .list (items.map Plain.object)

def Answer.failure : Answer → Option RayError
  | .done => none
  | .failed error _ => some error

def objectSet (core : Raw.Core) (o : Object) (idx : Nat) (elem : Elem) (answer : Answer) : Object :=
  match o with
  | .vec (.root r) => (elem.elim fun _ _ v => (Handle.vec r).set core idx v answer.failure).2.object
  | o => o

/-- An atom of the element's type passes the check, and the core's error takes its place. -/
def objectPush (o : Object) (elem : Elem) (answer : Answer) : Object :=
  match o with
  | .vec (.root r) => (elem.elim fun _ _ v => (Handle.vec r).push v answer.failure).2.object
  | .atom a => if a.kind = elem.type.kind ∧ answer ≠ .done then .null else .atom a
  | o => o

def objectSetNull (e : Nat) (o : Object) (idx : Nat) (isNull : Bool) : Object :=
  match o with
  | .vec (.root r) => ((Handle.vec r).setNull idx isNull e).2.object
  | o => o

def objectListPush (o item : Object) (answer : Answer) : Object :=
  match o, answer with
  | .list items, .done => .list (items ++ [item])
  | .list _, .failed _ _ => .null
  | o, _ => o

def objects (core : Raw.Core) (e : Nat) : Operations Object Leaf Elem where
  make := Leaf.object
  list := .list
  get o idx := (o.get core idx).toOption
  set := objectSet core
  push := objectPush
  setNull := objectSetNull e
  listPush := objectListPush
  admits o
    | .done => o.isVec core || o.isList core
    | .failed _ _ => true

variable {c : Raw.Core} {e : Nat} {kind : Kind} {type : VecType}

/-! ### One block -/

theorem vecType_eq_some_iff : vecType kind = some type ↔ kind = type.kind := by
  constructor
  · intro known
    cases kind <;> cases known <;> rfl
  · rintro rfl
    cases type <;> rfl

theorem vecType_eq_none (unknown : vecType kind = none) : kind = .timespan := by
  cases kind <;> first | rfl | cases unknown

theorem number_typeCode (v : Leaf) :
    (bytes c e).number ((bytes c e).typeCode v) = v.object.typeCode c := by
  cases v with
  | atom a =>
    show (bytes c e).number ((vecType a.kind).elim (.other a.typeCode) .atom) = a.typeCode
    cases known : vecType a.kind with
    | none => rfl
    | some type =>
      rw [Raw.Atom.typeCode, vecType_eq_some_iff.mp known]
      rfl
  | @vec kind r =>
    show (bytes c e).number ((vecType kind).elim (.other kind.code) .vec) = kind.code
    cases known : vecType kind with
    | none => rfl
    | some type =>
      rw [vecType_eq_some_iff.mp known]
      rfl
  | null | dict | other => rfl

theorem isVec_object (v : Leaf) : (Body.plain v).isVec (bytes c e) = v.object.isVec c := by
  have high := c.nullTag_high
  cases v with
  | null =>
    show false = decide (1 ≤ c.nullTag ∧ c.nullTag ≤ 13)
    rw [eq_comm, decide_eq_false_iff_not]
    omega
  | atom a =>
    obtain ⟨kind, payload, aux⟩ := a
    cases kind <;> rfl
  | @vec kind r => cases kind <;> rfl
  | dict => rfl
  | other code special =>
    show false = decide (1 ≤ code ∧ code ≤ 13)
    rw [eq_comm, decide_eq_false_iff_not]
    omega

theorem isList_object (v : Leaf) : v.object.isList c = false := by
  have high := c.nullTag_high
  cases v with
  | null =>
    show (c.nullTag == 0) = false
    rw [beq_eq_false_iff_ne]
    omega
  | atom a =>
    obtain ⟨kind, payload, aux⟩ := a
    cases kind <;> rfl
  | @vec kind r => cases kind <;> rfl
  | dict => rfl
  | other code special =>
    show (code == 0) = false
    rw [beq_eq_false_iff_ne]
    omega

theorem isDict_object (v : Leaf) :
    ((Body.plain v).typeCode (bytes c e) == .dict) = v.object.isDict c := by
  have high := c.nullTag_high
  cases v with
  | null =>
    show false = (c.nullTag == 99)
    rw [eq_comm, beq_eq_false_iff_ne]
    omega
  | atom a =>
    obtain ⟨kind, payload, aux⟩ := a
    cases kind <;> rfl
  | @vec kind r => cases kind <;> rfl
  | dict => rfl
  | other code special =>
    show false = (code == 99)
    rw [eq_comm, beq_eq_false_iff_ne]
    exact special.2

theorem len_object (v : Leaf) : (Body.plain v).len (bytes c e) = v.object.len c := by
  unfold Body.len Object.len
  rw [isVec_object, isList_object, isDict_object]
  rfl

theorem isNullAt_object (v : Leaf) (idx : Nat) :
    (Body.plain v).isNullAt (bytes c e) idx = v.object.isNullAt c idx := by
  unfold Body.isNullAt
  simp only [isVec_object, len_object]
  cases v with
  | vec r => rfl
  | null | atom | dict | other => simp [bytes, Leaf.object, Object.isNullAt]

/-- Every cell is boxed as an atom. -/
theorem box_atom {n : Nat} (v : Raw.Vec kind n) (vec : vecType kind = some type) (idx : Nat) :
    ∃ a, v.box c idx = .ok (.atom a) := by
  cases kind with
  | timespan => cases vec
  | _ => exact ⟨_, rfl⟩

theorem get_of_vec {V E C : Type} {core : Core V E C} {x : V} (vec : core.typeCode x = .vec type)
    (idx : Nat) : (Body.plain x).get core idx =
      let n := (Body.plain x).len core
      if n ≤ idx then .error (.binding s!"index {idx} out of range for length {n}")
      else if type ≠ .sym ∧ type ≠ .str ∧ (Body.plain x).isNullAt core idx then .ok .null
      else .ok (.atom type (core.cell x idx)) := by
  simp only [Body.get, Body.typeCode, vec]

theorem get_of_no_vec {V E C : Type} {core : Core V E C} {x : V}
    (no_vec : (Body.plain x).isVec core = false) (idx : Nat) : (Body.plain x).get core idx =
      let tag := core.number (core.typeCode x)
      .error (.binding s!"get: value is not a vector or list (type tag {tag})") := by
  simp only [Body.isVec, Body.get, Body.typeCode] at no_vec ⊢
  cases code : core.typeCode x with
  | vec type =>
    rw [code] at no_vec
    cases no_vec
  | list | dict | atom | other => rfl

theorem get_object_vec {r : Root kind} (known : vecType kind = some type) (idx : Nat) :
    ((Plain.leaf (.vec r)).get (bytes c e) idx).map Plain.object = (Object.vec (.root r)).get c idx := by
  have code : (bytes c e).typeCode (.vec r) = .vec type := by
    show (vecType kind).elim _ _ = _
    rw [known]
    rfl
  have vec : (Object.vec (.root r)).isVec c = true := by
    rw [Raw.isVec_iff]
    rintro rfl
    cases known
  obtain ⟨a, boxed⟩ := box_atom (.root r) known (c := c) idx
  have cell : (bytes c e).cell (.vec r) idx = .atom a := by
    show Leaf.cell c idx (.vec r) = _
    simp only [Leaf.cell, boxed]
  have len := len_object (c := c) (e := e) (.vec r)
  have nulls := isNullAt_object (c := c) (e := e) (.vec r) idx
  rw [Leaf.object] at len nulls
  have of : ∀ other : VecType, kind = other.kind ↔ type = other := fun other => by
    rw [← vecType_eq_some_iff, known, Option.some_inj]
  have sym : kind = .sym ↔ type = .sym := of .sym
  have str : kind = .str ↔ type = .str := of .str
  unfold Plain.get Plain.body Object.get
  rw [get_of_vec code, len, nulls, cell]
  simp only [vec, boxed, Bool.not_true, Bool.false_and, Bool.false_eq_true, if_false, ne_eq, sym, str]
  by_cases out : (Object.vec (.root r)).len c ≤ idx
  · simp only [if_pos out]
    rfl
  · simp only [if_neg out]
    by_cases null : ¬ type = .sym ∧ ¬ type = .str ∧ (Object.vec (.root r)).isNullAt c idx = true
    · simp only [if_pos null, Except.map, Plain.object]
    · simp only [if_neg null, Except.map, Plain.object]
      rfl

theorem get_object_no_vec {v : Leaf} (no_vec : v.object.isVec c = false) (idx : Nat) :
    ((Plain.leaf v).get (bytes c e) idx).map Plain.object = v.object.get c idx := by
  have other : (Body.plain v).isVec (bytes c e) = false := (isVec_object v).trans no_vec
  unfold Plain.get Plain.body Object.get
  rw [get_of_no_vec other, number_typeCode]
  simp only [no_vec, isList_object, Bool.not_false, Bool.and_self, if_true]
  rfl

theorem get_leaf (v : Leaf) (idx : Nat) :
    ((Plain.leaf v).get (bytes c e) idx).map Plain.object = v.object.get c idx := by
  cases vec : v.object.isVec c with
  | false => exact get_object_no_vec vec idx
  | true =>
    rw [← isVec_object (e := e)] at vec
    unfold Body.isVec at vec
    cases v with
    | @vec kind r =>
      cases known : vecType kind with
      | some type => exact get_object_vec known idx
      | none =>
        obtain rfl := vecType_eq_none known
        cases vec
    | atom a =>
      obtain ⟨kind, payload, aux⟩ := a
      cases kind <;> cases vec
    | null | dict | other => cases vec

theorem getD_object (items : List (Plain Leaf)) (idx : Nat) :
    (items.map Plain.object).getD idx .null = (items.getD idx .null).object := by
  rw [List.getD_eq_getElem?_getD, List.getD_eq_getElem?_getD, List.getElem?_map]
  cases items[idx]? with
  | none => simp only [Option.map_none, Option.getD_none, Plain.object]
  | some item => rfl

/-- What `get` gives out of a block is what it gives of the object. -/
theorem get_object (v : Plain Leaf) (idx : Nat) :
    (v.get (bytes c e) idx).map Plain.object = v.object.get c idx := by
  cases v with
  | null =>
    have same : Plain.null.get (bytes c e) idx = (Plain.leaf .null).get (bytes c e) idx := rfl
    rw [same, get_leaf, Plain.object]
    rfl
  | leaf v =>
    rw [get_leaf, Plain.object]
  | list items =>
    rw [Plain.get, Plain.body, Plain.object, get_list, List.length_map]
    have list : (Object.list (items.map Plain.object)).isList c = true := rfl
    have len : (Object.list (items.map Plain.object)).len c = items.length := by
      rw [Object.len, list, Bool.or_true, if_pos rfl]
      exact List.length_map ..
    simp only [Object.get, list, len, Bool.not_true, Bool.and_false, Bool.false_eq_true, if_false]
    by_cases out : items.length ≤ idx
    · simp only [if_pos out]
      rfl
    · simp only [if_neg out, Plain.item, Except.map, getD_object]

/-! ### Mutators -/

/-- An element is one of a type of elements. -/
theorem Elem.exists (elem : Elem) : ∃ (T : Type) (_ : VecElem T) (v : T),
    VecElem.kind T = elem.type.kind ∧
      ∀ {α : Type} (f : (T : Type) → [VecElem T] → T → α), elem.elim f = f T v := by
  cases elem <;> exact ⟨_, _, _, rfl, fun _ => rfl⟩

theorem elemCell_eq_none {T : Type} [VecElem T] {v : T} :
    elemCell kind v = none ↔ VecElem.kind T ≠ kind := by
  unfold elemCell
  split
  · next same => exact iff_of_false nofun (not_not.mpr same)
  · next other => exact iff_of_true rfl other

theorem absType_vec (r : Root kind) : ((bytes c e).typeCode (.vec r)).absType = vecType kind := by
  show ((vecType kind).elim (.other kind.code) TypeCode.vec).absType = _
  cases vecType kind <;> rfl

theorem absType_atom (a : Raw.Atom) : ((bytes c e).typeCode (.atom a)).absType = vecType a.kind := by
  show ((vecType a.kind).elim (.other a.typeCode) TypeCode.atom).absType = _
  cases vecType a.kind <;> rfl

/-- What an element does to a vector's cells. -/
theorem cell?_eq {T : Type} [VecElem T] {x : T} {elem : Elem}
    (elim : ∀ {α : Type} (f : (T : Type) → [VecElem T] → T → α), elem.elim f = f T x) :
    elem.cell? kind = elemCell kind x := elim _

theorem handle_set {T : Type} [VecElem T] {x : T} {cell : Cell kind} (filled : elemCell kind x = some cell)
    (r : Root kind) (idx : Nat) (failure : Option RayError) :
    ((Handle.vec r).set c idx x failure).2 =
      if (Object.vec (.root r)).len c ≤ idx then .vec r
      else (Handle.install "set" { r with cells := r.cells.set idx cell } failure).2 := by
  unfold Handle.set
  simp only [filled]
  exact apply_ite Prod.snd ..

theorem set_object_vec (r : Root kind) (idx : Nat) (elem : Elem) (answer : Answer) :
    ((Plain.leaf (.vec r)).set (bytes c e) idx elem answer).object =
      objectSet c (.vec (.root r)) idx elem answer := by
  obtain ⟨T, _, x, same, elim⟩ := elem.exists
  have code : ((Body.plain (.vec r)).typeCode (bytes c e)).absType = vecType kind := absType_vec r
  have fits : (bytes c e).rayType elem = elem.type := rfl
  have changed : (bytes c e).set (.vec r) idx elem = Leaf.set idx elem (.vec r) := rfl
  simp only [objectSet, elim, Plain.set, Plain.body, code, fits, len_object, ne_eq, vecType_eq_some_iff]
  cases filled : elemCell kind x with
  | none =>
    have other : VecElem.kind T ≠ kind := elemCell_eq_none.mp filled
    rw [if_pos fun eq => other (same.trans eq.symm), Plain.object]
    unfold Handle.set
    simp only [filled]
    rfl
  | some cell =>
    have kind_eq : kind = elem.type.kind := by
      by_contra other
      rw [elemCell_eq_none.mpr (same ▸ Ne.symm other)] at filled
      cases filled
    rw [if_neg (not_not.mpr kind_eq), handle_set filled]
    simp only [Leaf.object, Plain.modify, changed, Leaf.set, cell?_eq elim, filled]
    by_cases out : (Object.vec (.root r)).len c ≤ idx
    · simp only [if_pos out, Plain.object]
      rfl
    · simp only [if_neg out]
      cases answer <;> simp only [Plain.mutate, Plain.object] <;> rfl

theorem set_object (v : Plain Leaf) (idx : Nat) (elem : Elem) (answer : Answer) :
    (v.set (bytes c e) idx elem answer).object = objectSet c v.object idx elem answer := by
  have kept (w : Plain Leaf) (untyped : ((w.body (bytes c e)).typeCode (bytes c e)).absType = none) :
      w.set (bytes c e) idx elem answer = w := by
    rw [Plain.set, untyped, if_pos (Option.some_ne_none _).symm]
  cases v with
  | null => rw [kept .null rfl, Plain.object]; rfl
  | list items => rw [kept (.list items) rfl, Plain.object]; rfl
  | leaf v =>
    cases v with
    | vec r => rw [set_object_vec, Plain.object]; rfl
    | null => rw [kept (.leaf .null) rfl, Plain.object]; rfl
    | dict length => rw [kept (.leaf (.dict length)) rfl, Plain.object]; rfl
    | other code special => rw [kept (.leaf (.other code special)) rfl, Plain.object]; rfl
    | atom a =>
      have len : ((Plain.leaf (.atom a)).body (bytes c e)).len (bytes c e) = 0 := by
        rw [Plain.body, len_object, Object.len]
        split
        · rfl
        · split <;> rfl
      rw [Plain.set, len, if_pos (Nat.zero_le idx), ite_self, Plain.object]
      rfl

theorem push_object_vec (r : Root kind) (elem : Elem) (answer : Answer) :
    ((Plain.leaf (.vec r)).push (bytes c e) elem answer).object =
      objectPush (.vec (.root r)) elem answer := by
  obtain ⟨T, _, x, same, elim⟩ := elem.exists
  have code : ((Body.plain (.vec r)).typeCode (bytes c e)).absType = vecType kind := absType_vec r
  have fits : (bytes c e).rayType elem = elem.type := rfl
  have changed : (bytes c e).append (.vec r) elem = Leaf.append elem (.vec r) := rfl
  simp only [objectPush, elim, Plain.push, Plain.body, code, fits, ne_eq, vecType_eq_some_iff]
  unfold Handle.push
  cases filled : elemCell kind x with
  | none =>
    have other : VecElem.kind T ≠ kind := elemCell_eq_none.mp filled
    rw [if_pos fun eq => other (same.trans eq.symm), Plain.object]
    rfl
  | some cell =>
    have kind_eq : kind = elem.type.kind := by
      by_contra other
      rw [elemCell_eq_none.mpr (same ▸ Ne.symm other)] at filled
      cases filled
    rw [if_neg (not_not.mpr kind_eq)]
    simp only [Plain.modify, changed, Leaf.append, cell?_eq elim, filled]
    cases answer <;> simp only [Plain.mutate, Plain.object] <;> rfl

theorem push_object_atom (a : Raw.Atom) (elem : Elem) (answer : Answer) :
    ((Plain.leaf (.atom a)).push (bytes c e) elem answer).object =
      objectPush (.atom a) elem answer := by
  have code : ((Body.plain (.atom a)).typeCode (bytes c e)).absType = vecType a.kind := absType_atom a
  have fits : (bytes c e).rayType elem = elem.type := rfl
  simp only [objectPush, Plain.push, Plain.body, code, fits, ne_eq, vecType_eq_some_iff]
  by_cases same : a.kind = elem.type.kind
  · rw [if_neg (not_not.mpr same)]
    cases answer with
    | done =>
      simp only [Plain.modify, Plain.mutate, Plain.object, not_true_eq_false, and_false, if_false]
      rfl
    | failed error released =>
      simp only [Plain.mutate, Plain.object, same, reduceCtorEq, not_false_eq_true, and_self, if_true]
  · rw [if_pos same, if_neg fun both => same both.1, Plain.object]
    rfl

theorem push_object (v : Plain Leaf) (elem : Elem) (answer : Answer) :
    (v.push (bytes c e) elem answer).object = objectPush v.object elem answer := by
  have kept (w : Plain Leaf) (untyped : ((w.body (bytes c e)).typeCode (bytes c e)).absType = none) :
      w.push (bytes c e) elem answer = w := by
    rw [Plain.push, untyped, if_pos (Option.some_ne_none _).symm]
  cases v with
  | null => rw [kept .null rfl, Plain.object]; rfl
  | list items => rw [kept (.list items) rfl, Plain.object]; rfl
  | leaf v =>
    cases v with
    | vec r => rw [push_object_vec, Plain.object]; rfl
    | atom a => rw [push_object_atom, Plain.object]; rfl
    | null => rw [kept (.leaf .null) rfl, Plain.object]; rfl
    | dict length => rw [kept (.leaf (.dict length)) rfl, Plain.object]; rfl
    | other code special => rw [kept (.leaf (.other code special)) rfl, Plain.object]; rfl

theorem setNull_object (v : Plain Leaf) (idx : Nat) (isNull : Bool) :
    (v.setNull (bytes c e) idx isNull).object = objectSetNull e v.object idx isNull := by
  cases v with
  | null | list =>
    simp only [Plain.setNull, Plain.object]
    rfl
  | leaf v =>
    have refused : (bytes c e).setNull v idx isNull = v.setNull e idx isNull := rfl
    cases v with
    | @vec kind r =>
      simp only [Plain.setNull, refused, Leaf.setNull, Plain.object, Leaf.object, objectSetNull,
        Handle.setNull]
      cases Cell.null kind with
      | none =>
        simp only [Plain.object]
        rfl
      | some cell =>
        by_cases out : r.cells.length ≤ idx
        · simp only [if_pos out, Plain.object]
          rfl
        · cases isNull <;> simp only [if_neg out, Bool.false_eq_true, if_false, if_true, Plain.object] <;> rfl
    | null | atom | dict | other =>
      simp only [Plain.setNull, refused, Leaf.setNull, Plain.object]
      rfl

theorem listPush_object (v w : Plain Leaf) (answer : Answer) :
    (v.listPush w answer).object = objectListPush v.object w.object answer := by
  cases v with
  | null =>
    simp only [Plain.listPush, Plain.object]
    rfl
  | list items => cases answer <;> simp [Plain.listPush, Plain.mutate, Plain.object, objectListPush]
  | leaf v => cases v <;> cases answer <;> simp only [Plain.listPush, Plain.object] <;> rfl

theorem admits_object (v : Plain Leaf) (answer : Answer) :
    v.admits (bytes c e) answer = (objects c e).admits v.object answer := by
  cases answer with
  | failed => cases v <;> rfl
  | done =>
    show _ = (v.object.isVec c || v.object.isList c)
    cases v with
    | null =>
      have no_vec : false = Object.null.isVec c := isVec_object (e := e) .null
      have no_list : Object.null.isList c = false := isList_object .null
      rw [Plain.object, ← no_vec, no_list]
      rfl
    | leaf v =>
      rw [Plain.object, isList_object, ← isVec_object (e := e)]
      rfl
    | list items =>
      rw [Plain.object]
      rfl

/-! ### Whole runs -/

/-- A map of values that every operation commutes with. -/
structure Commutes {α β V E : Type} (ops : Operations α V E) (ops' : Operations β V E) (f : α → β) :
    Prop where
  make : ∀ v, f (ops.make v) = ops'.make v
  list : ∀ vs, f (ops.list vs) = ops'.list (vs.map f)
  get : ∀ v idx, (ops.get v idx).map f = ops'.get (f v) idx
  set : ∀ v idx elem answer, f (ops.set v idx elem answer) = ops'.set (f v) idx elem answer
  push : ∀ v elem answer, f (ops.push v elem answer) = ops'.push (f v) elem answer
  setNull : ∀ v idx isNull, f (ops.setNull v idx isNull) = ops'.setNull (f v) idx isNull
  listPush : ∀ v w answer, f (ops.listPush v w answer) = ops'.listPush (f v) (f w) answer
  admits : ∀ v answer, ops.admits v answer = ops'.admits (f v) answer

theorem objects_commute (c : Raw.Core) (e : Nat) :
    Commutes (Plain.operations (bytes c e)) (objects c e) Plain.object where
  make v := by
    show (Plain.leaf v).object = _
    rw [Plain.object]
    rfl
  list vs := by
    show (Plain.list vs).object = _
    rw [Plain.object]
    rfl
  get v idx := by
    show (v.get (bytes c e) idx).toOption.map Plain.object = (v.object.get c idx).toOption
    rw [← get_object (e := e)]
    cases v.get (bytes c e) idx <;> rfl
  set := set_object
  push := push_object
  setNull := setNull_object
  listPush := listPush_object
  admits := admits_object

section

variable {α β V E : Type} {ops : Operations α V E} {ops' : Operations β V E} {f : α → β}

theorem plain?_map (vs : List (Option α)) (i : Nat) :
    plain? (vs.map (Option.map f)) i = (plain? vs i).map f := by
  unfold plain?
  rw [List.getElem?_map]
  cases vs[i]? with
  | none => rfl
  | some v => rfl

theorem mapM_plain? (vs : List (Option α)) (items : List Nat) :
    items.mapM (plain? (vs.map (Option.map f))) = (items.mapM (plain? vs)).map (List.map f) := by
  induction items with
  | nil => rfl
  | cons i items ih =>
    rw [List.mapM_cons, List.mapM_cons, ih, plain?_map]
    cases plain? vs i with
    | none => rfl
    | some v => cases items.mapM (plain? vs) <;> rfl

theorem map_append_some (vs : List (Option α)) (v : α) :
    (vs ++ [some v]).map (Option.map f) = vs.map (Option.map f) ++ [some (f v)] := List.map_append ..

theorem map_set_some (vs : List (Option α)) (i : Nat) (v : α) :
    (vs.set i (some v)).map (Option.map f) = (vs.map (Option.map f)).set i (some (f v)) :=
  List.map_set ..

/-- What is done to one value. -/
theorem map_change (vs : List (Option α)) (i : Nat) {g : α → α} {g' : β → β} {ok : α → Prop}
    {ok' : β → Prop} [DecidablePred ok] [DecidablePred ok'] (same : ∀ v, f (g v) = g' (f v))
    (admits : ∀ v, ok v ↔ ok' (f v)) :
    ((plain? (vs.map (Option.map f)) i).bind fun v =>
        if ok' v then some ((vs.map (Option.map f)).set i (some (g' v))) else none) =
      ((plain? vs i).bind fun v => if ok v then some (vs.set i (some (g v))) else none).map
        (List.map (Option.map f)) := by
  rw [plain?_map]
  cases plain? vs i with
  | none => rfl
  | some v =>
    simp only [Option.map_some, Option.bind_some, ← admits, ← same]
    by_cases holds : ok v
    · simp only [if_pos holds, Option.map_some, map_set_some]
    · simp only [if_neg holds, Option.map_none]

/-- The map leads from one run to the other. -/
theorem Commutes.next (commutes : Commutes ops ops' f) (vs : List (Option α)) (event : Event V E) :
    ops'.next (vs.map (Option.map f)) event = (ops.next vs event).map (List.map (Option.map f)) := by
  cases event with
  | make v => simp only [Operations.next, Option.map_some, map_append_some, commutes.make]
  | list items =>
    simp only [Operations.next, mapM_plain?, Option.bind_eq_bind]
    cases items.mapM (plain? vs) with
    | none => rfl
    | some items => simp only [Option.map_some, Option.bind_some, map_append_some, commutes.list]
  | clone i =>
    simp only [Operations.next, plain?_map, Option.bind_eq_bind]
    cases plain? vs i with
    | none => rfl
    | some v => simp only [Option.map_some, Option.bind_some, map_append_some]
  | get i idx =>
    simp only [Operations.next, plain?_map, Option.bind_eq_bind]
    cases plain? vs i with
    | none => rfl
    | some v =>
      simp only [Option.map_some, Option.bind_some, ← commutes.get]
      cases ops.get v idx with
      | none => rfl
      | some item => simp only [Option.map_some, map_append_some]
  | drop i =>
    simp only [Operations.next, plain?_map, Option.bind_eq_bind]
    cases plain? vs i with
    | none => rfl
    | some v =>
      simp only [Option.map_some, Option.bind_some, List.map_set]
      rfl
  | set i idx elem answer =>
    exact map_change vs i (fun v => commutes.set v idx elem answer) fun v => by
      rw [commutes.admits]
  | push i elem answer =>
    exact map_change vs i (fun v => commutes.push v elem answer) fun v => by
      rw [commutes.admits]
  | setNull i idx isNull =>
    simp only [Operations.next, plain?_map, Option.bind_eq_bind]
    cases plain? vs i with
    | none => rfl
    | some v => simp only [Option.map_some, Option.bind_some, map_set_some, commutes.setNull]
  | listPush i item answer =>
    simp only [Operations.next, plain?_map vs item, Option.bind_eq_bind]
    cases plain? vs item with
    | none =>
      rw [plain?_map]
      cases plain? vs i <;> rfl
    | some w =>
      exact map_change vs i (fun v => commutes.listPush v w answer) fun v => by
        rw [commutes.admits]

theorem Commutes.exec (commutes : Commutes ops ops' f) (vs : List (Option α)) (es : List (Event V E)) :
    Transition.exec ops'.next (vs.map (Option.map f)) es =
      (Transition.exec ops.next vs es).map (List.map (Option.map f)) := by
  induction es generalizing vs with
  | nil => rfl
  | cons event es ih =>
    rw [Transition.exec, Transition.exec, commutes.next]
    cases ops.next vs event with
    | none => rfl
    | some ws => exact ih ws

end

/-- What a handle leads to, as an object. -/
def Leads (s : State Leaf) (p : Ptr) (o : Object) : Prop :=
  ∃ v, Reads s.heap p v ∧ v.object = o

/-- Along any run in which no null is set in a block to which another handle leads, every handle leads
to the object that the same calls make of it when each handle's object is its own. -/
theorem handles_are_objects {s : State Leaf} {es : List (Event Leaf Elem)}
    (run : Run (Guarded (Steps (next (bytes c e))) Apart) initial es s) :
    ∃ os, exec (objects c e).next [] es = some os ∧
      (∀ i, Option.Rel (Leads s) (s.value? i) (plain? os i)) ∧
      ∀ event, Apart s event →
        (next (bytes c e) s event).isSome = ((objects c e).next os event).isSome := by
  obtain ⟨vs, reached, sound, agrees⟩ := run_agrees run
  refine ⟨vs.map (Option.map Plain.object), ?_, fun i => ?_, fun event apart => ?_⟩
  · have moved := (objects_commute c e).exec [] es
    rw [reached] at moved
    exact moved
  · have reads := agrees.reads i
    rw [plain?_map]
    generalize s.value? i = x at reads ⊢
    generalize plain? vs i = y at reads ⊢
    cases reads with
    | none => exact .none
    | some reads => exact .some ⟨_, reads, rfl⟩
  · have related := plain_step (bytes c e) sound agrees apart
    rw [(objects_commute c e).next]
    generalize next (bytes c e) s event = x at related ⊢
    generalize (Plain.operations (bytes c e)).next vs event = y at related ⊢
    cases related <;> rfl

/-- A push to the clone of a vector. -/
theorem handles_are_objects_longs :
    let core : Raw.Core := .ofSymbols [] .nil
    let r : Root .i64 := ⟨false, none, [(1 : Int64), 2]⟩
    let r' : Root .i64 := ⟨false, none, [(1 : Int64), 2, 3]⟩
    let s : State Leaf := ⟨[some ⟨1, .plain (.vec r)⟩, some ⟨1, .plain (.vec r')⟩],
      [some (.block 0), some (.block 1)], []⟩
    ∃ os, exec (objects core 3).next [] [.make (.vec r), .clone 0, .push 1 (.i64 3) .done] = some os ∧
      (∀ i, Option.Rel (Leads s) (s.value? i) (plain? os i)) ∧
      ∀ event, Apart s event →
        (next (bytes core 3) s event).isSome = ((objects core 3).next os event).isSome := by
  intro core r r' s
  let cloned : State Leaf := ⟨[some ⟨2, .plain (.vec r)⟩], [some (.block 0), some (.block 0)], []⟩
  have pushed : next (bytes core 3) cloned (.push 1 (.i64 3) .done) = some s := by
    show some (⟨releaseAll Body.kids [some ⟨2, .plain (.vec r)⟩, some ⟨1, .plain (.vec r')⟩] [0],
      [some (.block 0), some (.block 1)], []⟩ : State Leaf) = some s
    rw [releaseAll_shared rfl (by decide)]
    rfl
  exact handles_are_objects (.cons ⟨rfl, trivial⟩ (.cons ⟨rfl, trivial⟩ (.single ⟨pushed, trivial⟩)))

end Rayforce.Value
