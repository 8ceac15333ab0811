import Rayforce.Reference.Core

/-! The operations of `value.rs`, `scalars.rs`, `vector.rs`, `list.rs`, `dict.rs`, `table.rs`,
`lambda.rs` and `env.rs` that make, share, change and drop references, with the drops that Rust adds
where a scope ends or unwinds. -/

namespace Rayforce.Reference

open Calls
open Rayforce.Value (VecType)

/-- How an operation fails: with an `Err`, or by unwinding. -/
inductive Exit
  | error (e : RayError)
  | panic (message : String)

abbrev M (α : Type) := ExceptT Exit Program α

variable {α : Type}

def core (c : Call) : Program c.Reply := ask c

def raise (message : String) : M α := throw (.error (.binding message))

def assertOnRuntimeThread (what : String) : M Unit := do
  match ← core .thread with
  | .runtime => return ()
  | .other => throw (.panic s!"rayforce: {what} called off the runtime's thread")
  | .noRuntime => throw (.panic s!"rayforce: {what} requires a live Runtime")

/-! ### Errors (`error.rs`) -/

def fromObj (id : Nat) (e : RayError) : Program RayError := do
  core (.errorFree id)
  return e

def check : Raw → M Pointer
  | .error id e => do throw (.error (← fromObj id e))
  | .object p => return p

def materialize (v : Pointer) : M Pointer := do
  if v = .nullptr then return v
  if !(← core (.inspect v)).isLazy then return v
  match ← core (.hand (.lazyMaterialize v)) with
  | .object .nullptr => raise "lazy materialization failed"
  | .error id e => throw (.error (← fromObj id e))
  | .object m => return m

/-- A `check` whose error ends in a panic. -/
def orPanic (what : String) : Raw → M Pointer
  | .error id e => do
    let e ← fromObj id e
    let detail := e.display
    throw (.panic s!"rayforce: failed to {what}: {detail}")
  | .object p => return p

/-! ### Values -/

/-- A stray null becomes the null singleton. -/
def fromOwned : Pointer → Pointer
  | .nullptr => .nullObj
  | p => p

def cloneAll : List Pointer → Program Unit
  | [] => return ()
  | p :: ps => do
    core (.retain p)
    cloneAll ps

def dropAll : List Pointer → Program Unit
  | [] => return ()
  | p :: ps => do
    core (.release (.object p))
    dropAll ps

/-- A local `Value`, dropped after its scope. -/
def dropping (p : Pointer) (body : M α) : M α := ensuring body (core (.release (.object p)))

/-- A constructor that is one call of the core. -/
def construct (name what : String) (h : Handing) : M Pointer := do
  assertOnRuntimeThread name
  return fromOwned (← orPanic what (← core (.hand h)))

/-- `Value::bool` to `Value::typed_null`, under their names. -/
def Value.atom (name : String) (type : VecType) : M Pointer :=
  construct name "construct atom" (.atom type)

/-- `Value::sym` and `Value::name_ref`, under their names. -/
def Value.sym (name s : String) : M Pointer := do
  assertOnRuntimeThread name
  let _ ← core (.symIntern s)
  return fromOwned (← orPanic "construct atom" (← core (.hand (.atom .sym))))

def Value.string (s : String) : M Pointer := construct "Value::string" "construct atom" (.str s)

def Value.vec (type : VecType) (len : Nat) : M Pointer :=
  construct "Value::vec" "build vector" (.vecFromRaw type len)

def Value.boolVec (len : Nat) : M Pointer :=
  construct "Value::bool_vec" "build bool vector" (.vecFromRaw .bool len)

def Value.emptyVec (type : VecType) (capacity : Int) : M Pointer :=
  construct "Value::empty_vec" "allocate vector" (.vecNew type capacity)

def Value.emptyList (capacity : Int) : M Pointer :=
  construct "Value::empty_list" "allocate list" (.listNew capacity)

def appendSyms (v : Pointer) : List String → M Pointer
  | [] => return v
  | s :: items => do
    let _ ← core (.symIntern s)
    let r ← core (.vecAppend v .sym)
    appendSyms (← orPanic "append to symbol vector" r.answer) items

def Value.symVec (items : List String) : M Pointer := do
  assertOnRuntimeThread "Value::sym_vec"
  let v ← orPanic "build symbol vector" (← core (.hand (.symVecNew items.length)))
  return fromOwned (← appendSyms v items)

def appendStrs (v : Pointer) : List String → M Pointer
  | [] => return v
  | s :: items => do
    let next ← core (.hand (.strVecAppend v s))
    appendStrs (← orPanic "append to string vector" next) items

def Value.strVec (items : List String) : M Pointer := do
  assertOnRuntimeThread "Value::str_vec"
  let v ← orPanic "build string vector" (← core (.hand (.vecNew .str items.length)))
  return fromOwned (← appendStrs v items)

def appendItems (l : Pointer) : List Pointer → M Pointer
  | [] => return l
  | item :: items => do
    let r ← core (.hand (.listAppend l item))
    appendItems (← orPanic "append to list" r) items

def Value.list (items : List Pointer) : M Pointer := do
  assertOnRuntimeThread "Value::list"
  let l ← orPanic "allocate list" (← core (.hand (.listNew items.length)))
  return fromOwned (← appendItems l items)

/-- The dict's own arguments, which unwinding drops before they are given to the core. -/
def Value.dict (keys values : Pointer) : M Pointer := do
  onError (assertOnRuntimeThread "Value::dict") (dropAll [values, keys])
  return fromOwned (← orPanic "build dict" (← core (.hand (.dictNew keys values))))

def Value.dictGet (self key : Pointer) : M (Option Pointer) := do
  if !(← core (.inspect self)).isDict then raise "dict_get: value is not a dict"
  match ← core (.hand (.dictGet self key)) with
  | .object .nullptr => return none
  | r => return some (fromOwned (← check r))

/-- A part of a dict, which the dict lends. -/
def Value.dictPart (name : String) (part : Pointer → Lending) (self : Pointer) : M Pointer := do
  if !(← core (.inspect self)).isDict then raise s!"{name}: value is not a dict"
  let p ← core (.lend (part self))
  core (.retain p)
  return p

def Value.dictKeys (self : Pointer) : M Pointer := dictPart "dict_keys" .dictKeys self

def Value.dictValues (self : Pointer) : M Pointer := dictPart "dict_values" .dictVals self

/-! ### Changes through `&mut self`, with the pointer that they leave in it -/

def installMutation (op : String) : Raw → Program (Except RayError Unit × Pointer)
  | .error id e => do
    let e ← fromObj id e
    let detail := e.display
    return (.error (.binding s!"{op}: {detail}"), .nullObj)
  | .object result => return (.ok (), result)

def Value.set (self : Pointer) (idx : Nat) (elem : VecType) :
    Program (Except RayError Unit × Pointer) := do
  let o ← core (.inspect self)
  let n := o.length
  if o.type.absType ≠ some elem then return (.error (.binding "set: element type mismatch"), self)
  else if n ≤ idx then
    return (.error (.binding s!"set: index {idx} out of range for length {n}"), self)
  else
    let r ← core (.vecSet self idx elem)
    installMutation "set" r.answer

def Value.push (self : Pointer) (elem : VecType) : Program (Except RayError Unit × Pointer) := do
  let o ← core (.inspect self)
  if o.type.absType ≠ some elem then return (.error (.binding "push: element type mismatch"), self)
  else
    let r ← core (.vecAppend self elem)
    installMutation "push" r.answer

def Value.listPush (self item : Pointer) : Program (Except RayError Unit × Pointer) := do
  let o ← core (.inspect self)
  if !o.isList then return (.error (.binding "list_push: value is not a list"), self)
  else installMutation "list_push" (← core (.hand (.listAppend self item)))

/-! ### Tables -/

def inspectAll : List Pointer → Program (List Object)
  | [] => return []
  | p :: ps => do
    let o ← core (.inspect p)
    return o :: (← inspectAll ps)

/-- Columns are vectors or lists of one length. -/
def checkColumns (columns : List Object) : Except RayError Unit :=
  match columns.zipIdx.find? fun (c, _) => !c.isVec && !c.isList with
  | some (c, i) =>
    let tag := c.tag
    .error (.binding s!"table: column {i} is not a vector or list (type tag {tag})")
  | none =>
    match columns with
    | [] => .ok ()
    | first :: _ =>
      let nrows := first.length
      match columns.zipIdx.find? fun (c, _) => c.length != nrows with
      | some (c, i) =>
        let rows := c.length
        .error (.binding s!"table: column {i} has {rows} rows, expected {nrows}")
      | none => .ok ()

def addColumns (tbl : Pointer) : List (String × Pointer) → M Pointer
  | [] => return tbl
  | (name, col) :: rest => do
    let id ← core (.symIntern name)
    addColumns (← check (← core (.hand (.tableAddCol tbl id col)))) rest

def Table.new (names : List String) (columns : List Pointer) : M Pointer := do
  assertOnRuntimeThread "Table::new"
  let n := names.length
  let m := columns.length
  if n ≠ m then raise s!"table: {n} names but {m} columns"
  match checkColumns (← inspectAll columns) with
  | .error e => throw (.error e)
  | .ok () =>
    let tbl ← check (← core (.hand (.tableNew n)))
    return fromOwned (← addColumns tbl (names.zip columns))

def Table.column (self : Pointer) (name : String) : M Pointer := do
  let id ← core (.symIntern name)
  match ← core (.lend (.tableGetCol self id)) with
  | .nullptr => raise s!"column not found: {name}"
  | col =>
    core (.retain col)
    return col

/-- A builtin's result, of which only an error is looked at. -/
def checked (h : Handing) : M Unit := do
  let _ ← check (← core (.hand h))

def Table.writeCsv (self : Pointer) (path : String) : M Unit := do
  let pathV ← Value.string path
  dropping pathV (checked (.writeCsvFn [self, pathV]))

def Table.saveSplayed (self : Pointer) (dir : String) (symPath : Option String) : M Unit := do
  let dirV ← Value.string dir
  dropping dirV do
    match symPath with
    | some path =>
      let symV ← Value.string path
      dropping symV (checked (.setSplayedFn [dirV, self, symV]))
    | none => checked (.setSplayedFn [dirV, self])

/-! ### Evaluation -/

def hasNul (s : String) : Bool := s.toList.contains (Char.ofNat 0)

def evaluated : Raw → M Pointer
  | .object .nullptr => return .nullObj
  | r => do return fromOwned (← materialize (← check r))

def eval (source : String) : M Pointer := do
  assertOnRuntimeThread "eval"
  if hasNul source then raise "source contains a NUL byte"
  evaluated (← core (.hand (.evalStr source)))

def evalValue (obj : Pointer) : M Pointer := do
  assertOnRuntimeThread "eval_value"
  evaluated (← core (.hand (.eval obj)))

/-- The clones of the lambda and its arguments are dropped before the list of them. -/
def Fn.call (self : Pointer) (args : List Pointer) : M Pointer := do
  let items := self :: args
  cloneAll items
  let list ← onError (Value.list items) (dropAll items)
  dropping list (ensuring (evalValue list) (dropAll items))

/-! ### The global environment -/

def getGlobal (name : String) : M Pointer := do
  assertOnRuntimeThread "get_global"
  let id ← core (.symIntern name)
  match ← core (.lend (.envGet id)) with
  | .nullptr => raise s!"global not found: {name}"
  | v =>
    core (.retain v)
    return v

def bindName (name : String) : M Unit := do
  let thread ← core .thread
  if thread ≠ .runtime then
    raise "binding a handler requires a live rayforce runtime on this thread"
  else if name.isEmpty then raise "function name is empty"
  else if hasNul name then raise "function name contains NUL"

/-- `RAY_OK`. -/
def rayOk : Int := 0

def bindObj (name : String) : Raw → M Unit
  | .object .nullptr => raise s!"could not build a function object for `{name}`"
  | .error id e => do
    core (.release (.error id e))
    raise s!"could not build a function object for `{name}`"
  | .object f => do
    let id ← core (.symIntern name)
    let a ← core (.envBind false id f)
    let b ← core (.envBind true id f)
    core (.release (.object f))
    if a ≠ rayOk ∨ b ≠ rayOk then raise s!"could not bind `{name}` (rc {a}, flat rc {b})"

/-- A constructor of function objects and what is done with its answer. -/
def bindFn (h : Handing) (name : String) : M Unit := do
  bindName name
  bindObj name (← core (.hand h))

def bindVary (name : String) : M Unit := bindFn (.fnVary name) name

def bindUnary (name : String) : M Unit := bindFn (.fnUnary name) name

end Rayforce.Reference
