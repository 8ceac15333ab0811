import Mathlib.Tactic.TypeStar

/-! The error codes of the core and of the crate (`error.rs`). -/

namespace Rayforce

/-- The core's `ray_err_t`, by the names of its constants.  `unnamed` is any value that no error
constant names. -/
inductive RayErrT
  | oom | type | range | length | rank | domain | nyi | io | schema | corrupt | cancel | parse
  | name | limit
  | unnamed (value : Nat)
  deriving DecidableEq, Repr

inductive ErrorCode
  | oom | type | range | length | rank | domain | nyi | io | schema | corrupt | cancel | parse
  | name | limit | other
  deriving DecidableEq, Repr

def ErrorCode.fromErrT : RayErrT → ErrorCode
  | .oom => .oom
  | .type => .type
  | .range => .range
  | .length => .length
  | .rank => .rank
  | .domain => .domain
  | .nyi => .nyi
  | .io => .io
  | .schema => .schema
  | .corrupt => .corrupt
  | .cancel => .cancel
  | .parse => .parse
  | .name => .name
  | .limit => .limit
  | .unnamed _ => .other

/-- An error returned by an operation, with the short code and the detail the core gave. -/
structure RayError where
  code : ErrorCode
  codeStr : String
  message : String
  deriving DecidableEq, Repr

def RayError.binding (message : String) : RayError := ⟨.other, "", message⟩

def RayError.display (e : RayError) : String :=
  let label := if e.codeStr.isEmpty then "rayforce error" else e.codeStr
  if e.message.isEmpty then label else s!"{label}: {e.message}"

/-- A computation succeeds through each of its parts. -/
theorem bind_eq_ok {ε α β : Type} {first : Except ε α} {rest : α → Except ε β} {b : β} :
    first >>= rest = .ok b ↔ ∃ a, first = .ok a ∧ rest a = .ok b := by
  cases first with
  | error error =>
    constructor
    · intro h
      cases h
    · rintro ⟨a, h, -⟩
      cases h
  | ok a =>
    constructor
    · intro h
      exact ⟨a, rfl, h⟩
    · rintro ⟨a', h, rest⟩
      cases h
      exact rest

end Rayforce
