import Rayforce.Lib.Intern
import Rayforce.Raw.Boxing
import Rayforce.Raw.Nulls

/-! Texts as symbols and strings (`scalars.rs`, `vector.rs`, `convert.rs`).  A symbol is a place in the
core's table, which only grows.  Interning is the core's. -/

namespace Rayforce.Raw

open Utf8

/-- A `String`. -/
structure Text where
  bytes : List UInt8
  valid : Valid bytes
  deriving DecidableEq

@[ext] theorem Text.ext {s t : Text} (same : s.bytes = t.bytes) : s = t := by
  cases s
  cases t
  cases same
  rfl

def Text.lossy (bytes : List UInt8) : Text := ⟨fromUtf8Lossy bytes, valid_fromUtf8Lossy bytes⟩

@[simp] theorem Text.lossy_bytes (s : Text) : lossy s.bytes = s :=
  Text.ext (fromUtf8Lossy_of_valid s.valid)

/-! ### Symbols -/

/-- `ray_sym_intern` stores each distinct symbol once, and answers with its id. -/
structure Interns (intern : Core → List UInt8 → Core × Int64) : Prop where
  symbols : ∀ core symbol, (intern core symbol).1.symbols = Intern.add core.symbols symbol
  id : ∀ core symbol, (intern core symbol).2 = (intern core symbol).1.symId symbol

/-- Interning in the core's own list. -/
def Core.interned (core : Core) (symbol : List UInt8) : Core × Int64 :=
  let grown := Core.ofSymbols (Intern.add core.symbols symbol) (Intern.nodup_add core.nodup)
  (grown, grown.symId symbol)

theorem interns_interned : Interns Core.interned := ⟨fun _ _ => rfl, fun _ _ => rfl⟩

/-- A symbol's text as `as_sym` and `sym_id_to_string` read it. -/
def Core.symText (core : Core) (id : Int64) : Text := .lossy ((core.symStr id).getD [])

/-- The core at a later time. -/
def Core.Grows (core later : Core) : Prop := core.symbols <+: later.symbols

/-- Every symbol has an id of its own among the 64-bit integers. -/
def Core.Fits (core : Core) : Prop := core.symbols.length ≤ 2 ^ 63

/-! ### Readers -/

def Object.asSym (core : Core) : Object → Except RayError Text :=
  read core .sym fun a => core.symText a.asI64

def Object.asString (core : Core) : Object → Except RayError Text :=
  read core .str fun a => .lossy a.strBytes

/-- A symbol or a string atom. -/
instance : FromValue Text where
  fromValue core o :=
    match o.asSym core with
    | .ok s => .ok s
    | .error _ => o.asString core

/-! ### Constructors -/

section

variable (intern : Core → List UInt8 → Core × Int64)

def sym (core : Core) (s : Text) : Core × Object :=
  let (core, id) := intern core s.bytes
  (core, .atom (.sym id))

def string (s : Text) : Object := .atom (.string s.bytes)

/-- The loop of `sym_vec`: the ids of the texts, appended one after the other. -/
def internAll (core : Core) (ids : List Int64) : List Text → Core × List Int64
  | [] => (core, ids)
  | s :: items => internAll (intern core s.bytes).1 (ids ++ [(intern core s.bytes).2]) items

def symRoot (ids : List Int64) : Root .sym :=
  { hasNulls := false, symDomain := none, cells := ids.map (·.toNatClampNeg) }

def symVec (core : Core) (items : List Text) : Core × Object :=
  let (core, ids) := internAll intern core [] items
  (core, .vec (.root (symRoot ids)))

def strVec (items : List Text) : Object :=
  .vec (.root { hasNulls := false, symDomain := none, cells := items.map Text.bytes } : Vec .str _)

end

/-! ### Symbols keep their ids -/

variable {intern : Core → List UInt8 → Core × Int64} {core later : Core} {s t : Text}

theorem Core.Grows.trans {last : Core} (before : core.Grows later) (after : later.Grows last) :
    core.Grows last :=
  List.IsPrefix.trans before after

theorem Interns.grows (interns : Interns intern) (core : Core) (symbol : List UInt8) :
    core.Grows (intern core symbol).1 := by
  rw [Core.Grows, interns.symbols]
  exact Intern.prefix_add core.symbols symbol

theorem Interns.mem (interns : Interns intern) (core : Core) (symbol : List UInt8) :
    symbol ∈ (intern core symbol).1.symbols := by
  rw [interns.symbols]
  exact Intern.mem_add core.symbols symbol

theorem Interns.fits (interns : Interns intern) (room : core.symbols.length < 2 ^ 63)
    (symbol : List UInt8) : (intern core symbol).1.Fits := by
  rw [Core.Fits, interns.symbols]
  unfold Intern.add
  split
  · exact room.le
  · rw [List.length_append]
    exact room

theorem Core.Fits.of_grows (fits : later.Fits) (grows : core.Grows later) : core.Fits :=
  grows.length_le.trans fits

theorem Core.symId_grows {symbol : List UInt8} (mem : symbol ∈ core.symbols) (grows : core.Grows later) :
    later.symId symbol = core.symId symbol :=
  congrArg Int64.ofNat (Intern.idxOf_prefix mem grows)

theorem Core.idxOf_lt {symbol : List UInt8} (mem : symbol ∈ core.symbols) (fits : core.Fits) :
    core.symbols.idxOf symbol < 2 ^ 63 :=
  (List.idxOf_lt_length_of_mem mem).trans_le fits

theorem Core.toNat_symId {symbol : List UInt8} (mem : symbol ∈ core.symbols) (fits : core.Fits) :
    (core.symId symbol).toNatClampNeg = core.symbols.idxOf symbol :=
  Int64.toNatClampNeg_ofNat_of_lt (idxOf_lt mem fits)

theorem Core.symText_symId (mem : s.bytes ∈ core.symbols) (grows : core.Grows later) (fits : later.Fits) :
    later.symText (core.symId s.bytes) = s := by
  rw [← symId_grows mem grows, symText, symId, later.symStr_id fits _ (grows.mem mem), Option.getD_some,
    Text.lossy_bytes]

theorem internAll_spec (interns : Interns intern) (core : Core) (items : List Text) (ids : List Int64) :
    ∃ grown : Core, core.Grows grown ∧ (∀ s ∈ items, s.bytes ∈ grown.symbols) ∧
      internAll intern core ids items = (grown, ids ++ items.map fun s => grown.symId s.bytes) := by
  induction items generalizing core ids with
  | nil => exact ⟨core, List.prefix_rfl, fun _ mem => absurd mem List.not_mem_nil, by simp [internAll]⟩
  | cons s items ih =>
    obtain ⟨grown, grows, mem, loop⟩ := ih (intern core s.bytes).1 (ids ++ [(intern core s.bytes).2])
    have there := interns.mem core s.bytes
    refine ⟨grown, (interns.grows core s.bytes).trans grows, ?_, ?_⟩
    · intro t mem'
      rcases List.mem_cons.mp mem' with rfl | mem'
      · exact grows.mem there
      · exact mem t mem'
    · have id : (intern core s.bytes).2 = grown.symId s.bytes :=
        (interns.id core s.bytes).trans (Core.symId_grows there grows).symm
      rw [internAll, loop, id, List.append_assoc]
      rfl

/-- `to_vec` where each element is read. -/
theorem toVec_of_get {T : Type} [FromValue T] {o : Object} {elems : List T}
    (len : o.len core = elems.length) (each : ∀ i t, elems[i]? = some t →
      (do let v ← o.get core i; fromValue core v : Except RayError T) = .ok t) :
    o.toVec core T = .ok elems := by
  unfold Object.toVec
  have whole : (List.finRange elems.length).map elems.get = elems := List.map_get_finRange elems
  rw [len, ← List.map_coe_finRange_eq_range, List.mapM_map]
  refine (mapM_ok (g := elems.get) fun i _ => each i _ ?_).trans (congrArg _ whole)
  exact List.getElem?_eq_getElem i.isLt

/-! ### Back from a value -/

/-- The core has the empty symbol for its first, which is the null of symbols. -/
def Core.Ready (core : Core) : Prop := core.symbols[0]? = some []

theorem Core.symId_eq_zero {symbol : List UInt8} (ready : core.Ready) (mem : symbol ∈ core.symbols)
    (fits : core.Fits) : (core.symId symbol == 0) = symbol.isEmpty := by
  have first : core.symbols.idxOf symbol = 0 ↔ symbol = [] := by
    constructor
    · intro zero
      have here := Intern.getElem?_idxOf mem List.prefix_rfl
      rw [zero, ready] at here
      exact (Option.some.inj here).symm
    · rintro rfl
      obtain ⟨lt, at_zero⟩ := List.getElem?_eq_some_iff.mp ready
      have place := core.nodup.idxOf_getElem 0 lt
      rwa [at_zero] at place
  rw [Bool.eq_iff_iff, beq_iff_eq, List.isEmpty_iff, ← first]
  constructor
  · intro zero
    rw [← toNat_symId mem fits, zero]
    rfl
  · intro zero
    rw [symId, idIn, zero]
    rfl

/-- An atom is read as a text, and as missing where the text is empty. -/
structure Holds (core : Core) (o : Object) (s : Text) : Prop where
  text : fromValue core o = .ok s
  option : core.Ready → fromValue core o = .ok (if s.bytes.isEmpty then none else some s)

theorem holds_of_null {o : Object} (text : fromValue core o = .ok s)
    (null : core.Ready → (o.isNull || o.isAtomNull) = s.bytes.isEmpty) : Holds core o s where
  text := text
  option ready := by
    change (if _ then _ else some <$> fromValue core o) = _
    rw [null ready, text]
    split <;> rfl

theorem asSym_sym (mem : s.bytes ∈ core.symbols) (grows : core.Grows later) (fits : later.Fits) :
    (Object.atom (.sym (core.symId s.bytes))).asSym later = .ok s := by
  change Except.ok (later.symText (core.symId s.bytes)) = _
  rw [Core.symText_symId mem grows fits]

/-- A symbol's atom, in every later core. -/
theorem holds_sym (mem : s.bytes ∈ core.symbols) (grows : core.Grows later) (fits : later.Fits) :
    Holds later (.atom (.sym (core.symId s.bytes))) s := by
  apply holds_of_null
  · change (match (Object.atom (.sym (core.symId s.bytes))).asSym later with
      | .ok s => Except.ok s
      | .error _ => Object.asString later (Object.atom (.sym (core.symId s.bytes)))) = _
    rw [asSym_sym mem grows fits]
  · intro ready
    change (core.symId s.bytes == 0) = s.bytes.isEmpty
    have there := grows.mem mem
    rw [← Core.symId_grows mem grows]
    exact Core.symId_eq_zero ready there fits

theorem asString_string (s : Text) : (string s).asString core = .ok s := by
  change Except.ok (Text.lossy s.bytes) = _
  rw [Text.lossy_bytes]

theorem holds_string (s : Text) : Holds core (string s) s :=
  holds_of_null (asString_string s) fun _ => rfl

/-- Every element is read whole, boxed and in order. -/
structure Recalls (core : Core) (o : Object) (items : List Text) : Prop where
  toVec : o.toVec core Text = .ok items
  toVecOption : core.Ready →
    o.toVec core (Option Text) = .ok (items.map fun s => if s.bytes.isEmpty then none else some s)

theorem recalls_of_get {o : Object} {items : List Text} (len : o.len core = items.length)
    (each : ∀ i s, items[i]? = some s → ∃ atom, o.get core i = .ok atom ∧ Holds core atom s) :
    Recalls core o items where
  toVec := by
    refine toVec_of_get len fun i s here => ?_
    obtain ⟨atom, got, holds⟩ := each i s here
    rw [got]
    exact holds.text
  toVecOption ready := by
    refine toVec_of_get (len.trans (List.length_map _).symm) fun i t here => ?_
    rw [List.getElem?_map, Option.map_eq_some_iff] at here
    obtain ⟨s, here, rfl⟩ := here
    obtain ⟨atom, got, holds⟩ := each i s here
    rw [got]
    exact holds.option ready

theorem Vec.cell_root {k : Kind} {r : Root k} {i : Nat} {c : Cell k}
    (here : r.cells[i]? = some c) : ∃ lt : i < r.cells.length, (Vec.root r).cell ⟨i, lt⟩ = c := by
  obtain ⟨lt, rfl⟩ := List.getElem?_eq_some_iff.mp here
  exact ⟨lt, rfl⟩

theorem recalls_strVec (items : List Text) : Recalls core (strVec items) items := by
  unfold strVec
  refine recalls_of_get ?_ fun i s here => ?_
  · rw [len_vec _ (by decide)]
    exact List.length_map _
  · obtain ⟨lt, cell⟩ := Vec.cell_root (k := .str)
      (r := { hasNulls := false, symDomain := none, cells := items.map Text.bytes })
      (List.getElem?_map.trans (congrArg (Option.map Text.bytes) here))
    refine ⟨_, get_str _ ⟨i, lt⟩, ?_⟩
    rw [cell, fromUtf8Lossy_of_valid s.valid]
    exact holds_string s

theorem recalls_symVec (interns : Interns intern) (items : List Text)
    (grows : (symVec intern core items).1.Grows later) (fits : later.Fits) :
    Recalls later (symVec intern core items).2 items := by
  obtain ⟨grown, -, mem, loop⟩ := internAll_spec interns core items []
  have made : symVec intern core items =
      (grown, .vec (.root (symRoot (items.map fun s => grown.symId s.bytes)))) := by
    unfold symVec
    rw [loop]
    rfl
  rw [made] at grows ⊢
  refine recalls_of_get ?_ fun i s here => ?_
  · rw [len_vec _ (by decide)]
    simp [symRoot]
  · have there := mem s (List.mem_of_getElem? here)
    obtain ⟨lt, cell⟩ := Vec.cell_root (c := grown.symbols.idxOf s.bytes)
      (r := symRoot (items.map fun s => grown.symId s.bytes)) (i := i)
      (by simp [symRoot, here, Core.toNat_symId there (fits.of_grows grows)])
    refine ⟨_, get_sym _ ⟨i, lt⟩, ?_⟩
    have place : (Vec.root (symRoot (items.map fun s => grown.symId s.bytes))).symDomain = .runtime := rfl
    rw [cell, place, Domain.runtimeId, later.runtimeLut_runtime]
    exact holds_sym there grows fits

/-- A symbol's atom is that of no other text, whenever that was interned. -/
theorem sym_eq_iff (interns : Interns intern) (grows : (sym intern core s).1.Grows later)
    (room : later.symbols.length < 2 ^ 63) :
    (sym intern core s).2 = (sym intern later t).2 ↔ s = t := by
  have fits := interns.fits room t.bytes
  have here := interns.mem core s.bytes
  have there := interns.mem later t.bytes
  have first := (holds_sym here (grows.trans (interns.grows later t.bytes)) fits).text
  have second := (holds_sym there List.prefix_rfl fits).text
  change Object.atom (.sym (intern core s.bytes).2) = .atom (.sym (intern later t.bytes).2) ↔ _
  rw [interns.id, interns.id]
  constructor
  · intro same
    rw [same] at first
    exact Except.ok.inj (first.symm.trans second)
  · rintro rfl
    rw [Core.symId_grows here (grows.trans (interns.grows later s.bytes))]

/-- Texts come back from the vectors and atoms they were put in, in every later core, and an empty one
as missing where it may be.  Symbols are equal where their texts are. -/
theorem texts_come_back (interns : Interns intern) (core later : Core) (items : List Text)
    (grows : (symVec intern core items).1.Grows later) (room : later.symbols.length < 2 ^ 63) :
    Recalls later (symVec intern core items).2 items ∧ Recalls later (strVec items) items ∧
      (∀ s, (string s).asString later = .ok s ∧ Holds later (string s) s) ∧
      ∀ earlier s t, (sym intern earlier s).1.Grows later →
        (sym intern earlier s).2.asSym later = .ok s ∧ Holds later (sym intern earlier s).2 s ∧
          ((sym intern earlier s).2 = (sym intern later t).2 ↔ s = t) := by
  refine ⟨recalls_symVec interns items grows room.le, recalls_strVec items,
    fun s => ⟨asString_string s, holds_string s⟩, fun earlier s t before => ?_⟩
  have there := interns.mem earlier s.bytes
  have made : (sym intern earlier s).2 = .atom (.sym ((intern earlier s.bytes).1.symId s.bytes)) :=
    congrArg (fun id => Object.atom (.sym id)) (interns.id earlier s.bytes)
  refine ⟨?_, ?_, sym_eq_iff interns before room⟩
  · rw [made]
    exact asSym_sym there before room.le
  · rw [made]
    exact holds_sym there before room.le

/-- Two symbols after the empty one, and the empty one again. -/
theorem texts_come_back_two :
    let core : Core := .ofSymbols [[]] (by decide)
    let items := [Text.lossy [0x61], Text.lossy [], Text.lossy [0x61]]
    let (later, made) := symVec Core.interned core items
    made.toVec later Text = .ok items ∧
      made.toVec later (Option Text) = .ok [some (.lossy [0x61]), none, some (.lossy [0x61])] := by
  intro core items
  have recalls := (texts_come_back interns_interned core _ items List.prefix_rfl (by decide)).1
  exact ⟨recalls.toVec, recalls.toVecOption rfl⟩

end Rayforce.Raw
