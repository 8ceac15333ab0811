import Rayforce.Ipc.Client
import Rayforce.Lib.Beside
import Rayforce.Q.Wire
import Rayforce.Query.Table
import Rayforce.Reference.Operations

/-! The core's calls that `table.rs`, `query.rs`, `q.rs`, `ipc.rs`, `lambda.rs`, `runtime.rs` and the
rest of `value.rs` and `vector.rs` make, and the operations that make them. -/

namespace Rayforce.Reference

open Calls RefHeap
open Rayforce.Value (VecType)

/-- Calls that answer with an object that is the caller's, and consume nothing. -/
inductive Fetching
  /-- `ray_read_csv_fn` to `ray_upsert_fn`. -/
  | builtin (name : String) (args : List Pointer)
  | ser (v : Pointer)
  | de (buf : Pointer)
  | fmt (v : Pointer)
  | vecSlice (v : Pointer) (offset len : Int)
  | vecConcat (v w : Pointer)
  | qSend (fd : Int) (q : Pointer)
  | qConnSend (id : Int) (msg : Pointer)
  | qDecode (body : List UInt8) (compressed : Int)
  | qDecodeCols (body : List UInt8) (compressed : Int) (names : List (List UInt8)) (ncols : Int)
  | ipcSend (handle : Int) (msg : Pointer) (timeoutMs : Int)

/-- The answer, and the text that one of q's calls writes to its error buffer. -/
structure Fetched where
  answer : Raw
  reason : String

/-- Parts that stay their container's. -/
inductive Part
  | listGet (l : Pointer) (idx : Nat)
  | tableGetColIdx (t : Pointer) (idx : Nat)

inductive Further
  | fetch (f : Fetching)
  | part (p : Part)
  | ncols (t : Pointer)
  /-- `Value::is_null_at`. -/
  | isNullAt (v : Pointer) (idx : Nat)
  | strVecGet (v : Pointer) (idx : Nat)
  | envSet (name : Int) (v : Pointer)
  | ipcSendAsync (handle : Int) (msg : Pointer)
  /-- `Subscription::is_alive`. -/
  | isAlive (id : Int)

abbrev Further.Reply : Further → Type
  | .fetch _ => Fetched
  | .part _ => Pointer
  | .ncols _ => Nat
  | .isNullAt _ _ => Bool
  | .strVecGet _ _ => String
  | .envSet _ _ | .ipcSendAsync _ _ => Int
  | .isAlive _ => Bool

def World.further (w : World) : (d : Further) → d.Reply → World → Prop
  | .fetch _, r, w' => w.Hands [] r.answer w'
  | .part _, answer, w' => w' = w ∧ ∀ a ∈ answer.refs, a ∈ w.env ++ edges Object.refs w.heap
  | .envSet _ _, _, w' => w.Hands [] Pointer.nullptr w'
  | _, _, w' => w' = w

/-- Of what these calls answer, nothing is forgotten. -/
def beside : custody.Beside Further.Reply := ⟨World.further, fun _ => []⟩

def whole : Custody (Sum.elim Call.Reply Further.Reply) World Due := custody.beside beside

abbrev Whole (α : Type) := Prog (Sum.elim Call.Reply Further.Reply) α

/-- Operations that make calls of both kinds. -/
abbrev N (α : Type) := ExceptT Exit Whole α

variable {α : Type}

def further (d : Further) : N d.Reply := ExceptT.lift (askInr d)

def plain (c : Call) : N c.Reply := ExceptT.lift (core c).inl

/-- An operation all of whose calls are plain. -/
def known (m : M α) : N α := inl m

def complain (message : String) : N α := throw (.error (.binding message))

/-! ### Scopes -/

def drops (ps : List Pointer) : Whole Unit := (dropAll ps).inl

/-- A local `Value`, dropped after its scope. -/
def holding (p : Pointer) (body : N α) : N α := ensuring body (drops [p])

def clone (p : Pointer) : N Pointer := do
  plain (.retain p)
  return p

abbrev one (p : Pointer) : List Pointer := [p]

/-- What is built one after the other.  The parts of what is there are dropped when the next one
fails. -/
def gather (parts : α → List Pointer) (made : List α) : List (N α) → N (List α)
  | [] => return made
  | m :: rest => do
    let a ← onError m (drops (made.flatMap parts))
    gather parts (made ++ [a]) rest

/-- A list of temporaries, which are dropped after it. -/
def listOf (items : List Pointer) : N Pointer := ensuring (known (Value.list items)) (drops items)

def nameRef (name : String) : N Pointer := known (Value.sym "Value::name_ref" name)

def i64 : N Pointer := known (Value.atom "Value::i64" .i64)

/-! ### Answers -/

/-- `check` and `from_owned`. -/
def owned (r : Raw) : N Pointer := do return fromOwned (← known (check r))

/-- `owned` of what a builtin or a vector's call answers. -/
def fetched (f : Fetching) : N Pointer := do owned (← further (.fetch f)).answer

/-- `materialize` after `check`. -/
def materialized (r : Raw) : N Pointer := do
  let p ← known (check r)
  return fromOwned (← known (materialize p))

/-- An answer of which null is a failure of its own. -/
def unlessNull (failure : RayError) (r : Raw) (take : Raw → N Pointer) : N Pointer :=
  match r with
  | .object .nullptr => throw (.error failure)
  | r => take r

/-! ### Values -/

def Value.slice (self : Pointer) (offset len : Int) : N Pointer := fetched (.vecSlice self offset len)

def Value.concat (self other : Pointer) : N Pointer := fetched (.vecConcat self other)

/-- The constructor of a type's atoms. -/
def constructorName : VecType → String
  | .bool => "Value::bool"
  | .u8 => "Value::u8"
  | .i16 => "Value::i16"
  | .i32 => "Value::i32"
  | .i64 => "Value::i64"
  | .f32 => "Value::f32"
  | .f64 => "Value::f64"
  | .date => "Value::date_days"
  | .time => "Value::time_millis"
  | .timestamp => "Value::timestamp_nanos"
  | .guid => "Value::guid"
  | .sym => "Value::sym"
  | .str => "Value::string"

/-- The box of a vector's element, by its type. -/
def boxed (self : Pointer) (idx : Nat) : VecType → N Pointer
  | .sym => do owned (← plain (.hand (.atom .sym)))
  | .str => do
    let s ← further (.strVecGet self idx)
    known (Value.string s)
  | type => known (Value.atom (constructorName type) type)

def Value.get (self : Pointer) (idx : Nat) : N Pointer := do
  let o ← plain (.inspect self)
  let n := o.length
  if !o.isVec && !o.isList then
    let tag := o.tag
    complain s!"get: value is not a vector or list (type tag {tag})"
  else if n ≤ idx then complain s!"index {idx} out of range for length {n}"
  else
    match o.type with
    | .vec type =>
      let null ← further (.isNullAt self idx)
      if type ≠ .sym ∧ type ≠ .str ∧ null = true then return .nullObj else boxed self idx type
    | _ =>
      let e ← further (.part (.listGet self idx))
      plain (.retain e)
      return e

/-- `to_vec::<Value>` from an index on: every element is boxed, cloned and dropped. -/
def elements (self : Pointer) (made : List Pointer) : (count : Nat) → (idx : Nat) → N (List Pointer)
  | 0, _ => return made
  | count + 1, idx => do
    let item ← onError (do
      let v ← Value.get self idx
      holding v (clone v)) (drops made)
    elements self (made ++ [item]) count (idx + 1)

def Value.toVec (self : Pointer) : N (List Pointer) := do
  let o ← plain (.inspect self)
  elements self [] o.length 0

def Value.format (self : Pointer) : N Unit := do
  let r ← further (.fetch (.fmt self))
  match r.answer with
  | .object .nullptr => return ()
  | .error id _ => plain (.errorFree id)
  | .object s => plain (.release (.object s))

def Value.serialize (self : Pointer) : N Unit := do
  let r ← further (.fetch (.ser self))
  let v ← unlessNull (.binding "serialize returned null") r.answer owned
  holding v (return ())

def Value.deserialize (len : Nat) : N Pointer := do
  let buf ← known (Value.vec .u8 len)
  holding buf do
    let r ← further (.fetch (.de buf))
    unlessNull (.binding "deserialize returned null") r.answer materialized

def setGlobal (name : String) (value : Pointer) : N Unit := do
  known (assertOnRuntimeThread "set_global")
  let id ← plain (.symIntern name)
  let e ← further (.envSet id value)
  if e ≠ rayOk then complain s!"set_global({name}) failed (err {e})"

/-! ### Tables -/

/-- `RAY_TABLE`. -/
def rayTable : Int := 98

/-- `RAY_LAMBDA`. -/
def rayLambda : Int := 100

/-- A `Value` that is moved in, and dropped where its tag is another. -/
def expecting (tag : Int) (what : String) (value : Pointer) : N Pointer := do
  let o ← plain (.inspect value)
  if o.tag ≠ tag then
    plain (.release (.object value))
    let tag := o.tag
    complain s!"{what}{tag}"
  else return value

def Table.fromValue (value : Pointer) : N Pointer :=
  expecting rayTable "expected a table, got type tag " value

/-- `Value::as_table`. -/
def Value.asTable (self : Pointer) : N Pointer := do Table.fromValue (← clone self)

def Table.columnAt (self : Pointer) (idx : Nat) : N Pointer := do
  let ncols ← further (.ncols self)
  if ncols ≤ idx then complain s!"column index {idx} out of range ({ncols} columns)"
  else
    match ← further (.part (.tableGetColIdx self idx)) with
    | .nullptr => complain s!"column at {idx} is unavailable"
    | col =>
      plain (.retain col)
      return col

def Table.columns (self : Pointer) : N (List Pointer) := do
  let ncols ← further (.ncols self)
  gather one [] ((List.range ncols).map (columnAt self))

/-- The column types are normalized. -/
def Table.readCsv (columnTypes : List String) (path : String) : N Pointer := do
  known (assertOnRuntimeThread "Table::read_csv")
  let schema ← known (Value.symVec columnTypes)
  holding schema do
    let pathV ← known (Value.string path)
    holding pathV do fromValue (← fetched (.builtin "ray_read_csv_fn" [schema, pathV]))

def Table.loadSplayed (dir : String) (symPath : Option String) : N Pointer := do
  known (assertOnRuntimeThread "Table::load_splayed")
  let dirV ← known (Value.string dir)
  holding dirV do
    match symPath with
    | some path =>
      let symV ← known (Value.string path)
      holding symV do fromValue (← fetched (.builtin "ray_get_splayed_fn" [dirV, symV]))
    | none => fromValue (← fetched (.builtin "ray_get_splayed_fn" [dirV]))

def Table.loadParted (root name : String) : N Pointer := do
  known (assertOnRuntimeThread "Table::load_parted")
  let rootV ← known (Value.string root)
  holding rootV do
    let nameV ← known (Value.sym "Value::sym" name)
    holding nameV do fromValue (← fetched (.builtin "ray_get_parted_fn" [rootV, nameV]))

/-- A builtin of queries, whose result is materialized and has to be a table. -/
def tableOf (name : String) (args : List Pointer) : N Pointer := do
  let r ← further (.fetch (.builtin name args))
  Table.fromValue (← materialized r.answer)

/-- `insert_row` and `insert_columns`. -/
def Table.insert (self : Pointer) (values : List Pointer) : N Pointer := do
  let data ← known (Value.list values)
  holding data (tableOf "ray_insert_fn" [self, data])

def Table.upsertColumns (self : Pointer) (columns : List Pointer) : N Pointer := do
  let keys ← i64
  holding keys do
    let data ← known (Value.list columns)
    holding data (tableOf "ray_upsert_fn" [self, keys, data])

/-- An AST of temporaries, which is evaluated and dropped. -/
def evaluating (items : List (N Pointer)) : N Pointer := do
  let ast ← listOf (← gather one [] items)
  holding ast (known (evalValue ast))

def takeRows (table : Pointer) : N Pointer := evaluating [nameRef "take", clone table, i64]

/-- `head` and `tail`, under their names. -/
def Table.endRows (op : String) (self : Pointer) (n : Int64) : N Pointer :=
  match Query.takeMagnitude n op with
  | .error e => throw (.error e)
  | .ok _ => do fromValue (← takeRows self)

def Table.take (self : Pointer) : N Pointer := do fromValue (← takeRows self)

def Table.join (op : Query.Operation) (self other : Pointer) (on : List String) : N Pointer := do
  let onVec ← known (Value.symVec on)
  let head ← onError (nameRef op.asStr) (drops [onVec])
  let ast ← listOf (← gather one [head, onVec] [clone self, clone other])
  holding ast do fromValue (← known (evalValue ast))

/-! ### Lambdas -/

def Fn.fromValue (value : Pointer) : N Pointer :=
  expecting rayLambda "Fn::from_value: expected a lambda, got type " value

def Fn.new (source : String) : N Pointer :=
  if !Query.startsWithFnForm source then complain "Fn::new: source must be a `(fn …)` expression"
  else do fromValue (← known (eval source))

def Fn.fromGlobal (name : String) : N Pointer := do fromValue (← known (getGlobal name))

/-- The digits that `{:x}` writes. -/
def hex (n : UInt64) : String := String.ofList (Nat.toDigits 16 n.toNat)

/-- `Fn::bind` of a lambda that has no name, with the number that is next. -/
def Fn.bind (self : Pointer) (n : UInt64) : N Unit := setGlobal s!"__rustfn_{hex n}" self

def Fn.meta (self : Pointer) : N Pointer := evaluating [nameRef Query.Operation.meta.asStr, clone self]

/-! ### Connections -/

/-- The text is an argument of the failure's. -/
def failing (fallback : String) (r : Fetched) : RayError := Q.failure r.reason fallback

def QConnection.execute (fd : Int) (query : String) : N Pointer := do
  let q ← known (Value.string query)
  holding q do
    let r ← further (.fetch (.qSend fd q))
    unlessNull (failing "q_send failed" r) r.answer owned

def Subscription.send (id : Int) (msg : Pointer) : N Pointer := do
  if !(← further (.isAlive id)) then complain "Q: subscription is closed"
  else
    let r ← further (.fetch (.qConnSend id msg))
    unlessNull (.binding "Q: send on the attached connection failed") r.answer owned

def Subscription.execute (id : Int) (expr : String) : N Pointer := do
  let msg ← known (Value.string expr)
  holding msg (send id msg)

def decodeResponse (msg : List UInt8) : N Pointer := do
  known (assertOnRuntimeThread "q::decode_response")
  match Q.responseBody msg with
  | .error e => throw (.error e)
  | .ok (body, compressed) =>
    let r ← further (.fetch (.qDecode body compressed))
    unlessNull (failing "q_decode failed" r) r.answer owned

def decodeResponseCols (debug : List UInt8 → String) (msg : List UInt8) (cols : List (List UInt8)) :
    N Pointer := do
  known (assertOnRuntimeThread "q::decode_response_cols")
  match (do return (← Q.responseBody msg, ← Q.columnNames debug cols)) with
  | .error e => throw (.error e)
  | .ok ((body, compressed), names) =>
    if 2 ^ 31 ≤ names.length then complain "Q: too many column names"
    else
      let r ← further (.fetch (.qDecodeCols body compressed names names.length))
      unlessNull (failing "q_decode_cols failed" r) r.answer owned

/-- The calls of `TcpClient::round_trip`.  What the client keeps of its handle is read apart. -/
def TcpClient.roundTrip (c : Ipc.Client) (msg : Pointer) (timeoutMs : Int) : N Pointer :=
  match c.liveHandle with
  | .error e => throw (.error e)
  | .ok handle => do
    let r ← further (.fetch (.ipcSend handle msg timeoutMs))
    unlessNull (.binding "ipc send failed") r.answer materialized

/-- `TcpClient::send`, and `TcpClient::send_timeout` where there is a timeout. -/
def TcpClient.send (c : Ipc.Client) (msg : Pointer) : Option Nat → N Pointer
  | none => roundTrip c msg 0
  | some timeout =>
    match Ipc.timeoutMs timeout with
    | .error e => throw (.error e)
    | .ok ms => roundTrip c msg ms

/-- `execute` and `execute_timeout`. -/
def TcpClient.execute (c : Ipc.Client) (query : String) (timeout : Option Nat) : N Pointer := do
  let msg ← known (Value.string query)
  holding msg (send c msg timeout)

def TcpClient.sendAsync (c : Ipc.Client) (msg : Pointer) : N Unit :=
  match c.liveHandle with
  | .error e => throw (.error e)
  | .ok handle => do
    let e ← further (.ipcSendAsync handle msg)
    if e ≠ rayOk then complain s!"ipc send_async failed (err {e})"

end Rayforce.Reference
