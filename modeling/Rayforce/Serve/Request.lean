import Rayforce.Lib.Utf8
import Rayforce.Serve.Shared

/-! What the guard does with a request's payload (`serve.rs`): the evaluation it asks of the core,
the text it keeps, and the answer it hands on. -/

namespace Rayforce.Serve

open Utf8

/-- A request's payload: a string atom with its bytes, or any other object with the bytes that the
core's formatter gives for it. -/
inductive Payload
  | string (bytes : List UInt8)
  | object (id : Nat) (formatted : List UInt8)
  deriving DecidableEq, Repr

/-- A call of the core's evaluator: `ray_eval_str` on a source, or `ray_eval` on an object. -/
inductive Request
  | evalStr (source : List UInt8)
  | eval (id : Nat)
  deriving DecidableEq, Repr

/-- `read_str_atom`, which `Value::as_string` reads a string atom with. -/
def readStrAtom (bytes : List UInt8) : List UInt8 :=
  if bytes.length = 0 then [] else fromUtf8Lossy bytes

/-- `CString::new`, which refuses a text that holds a NUL. -/
def cString (text : List UInt8) : Option (List UInt8) := if 0 ∈ text then none else some text

/-- The call of the evaluator that `evaluate` makes: a string as source, up to its first NUL,
anything else as an expression. -/
def evaluate : Payload → Request
  | .string bytes =>
    let text := readStrAtom bytes
    let text := upToZero text
    let source := (cString text).getD []
    .evalStr source
  | .object id _ => .eval id

/-- The request as `text_of` keeps it. -/
def textOf : Payload → List UInt8
  | .string bytes => readStrAtom bytes
  | .object _ formatted => readStrAtom formatted

/-- What `evaluate` makes of the evaluator's result: a null pointer becomes the null singleton. -/
def owned : Option Answer → Answer
  | some answer => answer
  | none => .null

/-- The evaluation the core makes of a payload when no hook is set: its own copy of a string ends
at the first NUL. -/
def Payload.direct : Payload → Request
  | .string bytes => .evalStr (upToZero bytes)
  | .object id _ => .eval id

@[simp] theorem readStrAtom_eq (bytes : List UInt8) : readStrAtom bytes = fromUtf8Lossy bytes := by
  by_cases h : bytes.length = 0
  · have empty : bytes = [] := List.length_eq_zero_iff.mp h
    subst empty
    simp [readStrAtom]
  · simp [readStrAtom, h]

theorem evaluate_string (bytes : List UInt8) :
    evaluate (.string bytes) = .evalStr (fromUtf8Lossy (upToZero bytes)) := by
  have clean := zero_not_mem_fromUtf8Lossy (zero_not_mem_upToZero bytes)
  simp only [evaluate, readStrAtom_eq, upToZero_fromUtf8Lossy, cString, clean, if_false,
    Option.getD_some]

/-- The guard asks for the core's own evaluation of a string exactly when what the core reads of
it is UTF-8. -/
theorem evaluate_string_eq_direct_iff (bytes : List UInt8) :
    evaluate (.string bytes) = (Payload.string bytes).direct ↔ Valid (upToZero bytes) := by
  rw [evaluate_string, Payload.direct, Request.evalStr.injEq, fromUtf8Lossy_eq_self_iff]

theorem textOf_string_eq_iff (bytes : List UInt8) :
    textOf (.string bytes) = bytes ↔ Valid bytes := by
  rw [textOf, readStrAtom_eq, fromUtf8Lossy_eq_self_iff]

end Rayforce.Serve
