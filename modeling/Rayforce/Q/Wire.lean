import Rayforce.Error
import Rayforce.Lib.Bytes
import Rayforce.Lib.Framing
import Rayforce.Lib.Utf8

/-! Messages of the Q wire (`q.rs`), on the runtime's thread throughout.  The encoder and the decoders
are the core's; what they write to their error buffer is read as a text, empty where they wrote none. -/

namespace Rayforce.Q

open Utf8

/-- What a decoder returns: null with a reason, or an object, which may be an error. -/
inductive Decoded (V : Type)
  | null (reason : String)
  | error (e : RayError)
  | value (v : V)
  deriving DecidableEq, Repr

/-- What `q_encode` returns, and the buffer that it leaves. -/
structure Encoded where
  rc : Int
  buf : Option (List UInt8)
  reason : String

/-- `q_encode`, `q_decode` and `q_decode_cols`.  A name reaches the last as the memory at its
pointer. -/
structure Codec (V : Type) where
  encode : V → Encoded
  decode : List UInt8 → Int → Decoded V
  decodeCols : List UInt8 → Int → List (List UInt8) → Int → Decoded V

variable {V : Type} (codec : Codec V)

/-- `c_int::from`. -/
def cInt (b : Bool) : Int := if b then 1 else 0

/-- `response_body`: the body of a message and whether it is compressed. -/
def responseBody : List UInt8 → Except RayError (List UInt8 × Int)
  | endianness :: msgtype :: compressed :: reserved :: s₀ :: s₁ :: s₂ :: s₃ :: body =>
    let length :=
      (endianness :: msgtype :: compressed :: reserved :: s₀ :: s₁ :: s₂ :: s₃ :: body).length
    if endianness ≠ 1 then
      .error (.binding "Q: only little-endian response messages are supported")
    else if msgtype ≠ 2 then
      .error (.binding s!"Q: expected response message type 2, got {msgtype}")
    else if Bytes.decode [s₀, s₁, s₂, s₃] ≠ length then
      .error (.binding "Q: message length does not match wire header")
    else if body.isEmpty then .error (.binding "Q: empty response body")
    else .ok (body, cInt (compressed != 0))
  | _ => .error (.binding "Q: message shorter than wire header")

/-- The reason a call gave, or what stands in for it. -/
def failure (reason fallback : String) : RayError :=
  .binding s!"Q: {if reason.isEmpty then fallback else reason}"

/-- `decoded`. -/
def decoded (fallback : String) : Decoded V → Except RayError V
  | .null reason => .error (failure reason fallback)
  | .error e => .error e
  | .value v => .ok v

def encode (msg : V) : Except RayError (List UInt8) :=
  let answer := codec.encode msg
  match answer.buf with
  | some bytes =>
    if answer.rc < 0 then .error (failure answer.reason "q_encode failed") else .ok bytes
  | none => .error (failure answer.reason "q_encode failed")

/-- `CString::new`, with the terminator that the pointer's reader stops at. -/
def cString (text : List UInt8) : Option (List UInt8) :=
  if 0 ∈ text then none else some (text ++ [0])

def decodeResponse (msg : List UInt8) : Except RayError V := do
  let (body, compressed) ← responseBody msg
  decoded "q_decode failed" (codec.decode body compressed)

/-- The names as C strings, up to the first that holds a NUL.  `debug` is the text of `{:?}`. -/
def columnNames (debug : List UInt8 → String) :
    List (List UInt8) → Except RayError (List (List UInt8))
  | [] => .ok []
  | c :: cols =>
    match cString c with
    | none => .error (.binding s!"Q: column name {debug c} contains NUL")
    | some name => do
      let names ← columnNames debug cols
      return name :: names

def decodeResponseCols (debug : List UInt8 → String) (msg : List UInt8) (cols : List (List UInt8)) :
    Except RayError V := do
  let (body, compressed) ← responseBody msg
  let names ← columnNames debug cols
  if names.length < 2 ^ 31 then
    decoded "q_decode_cols failed" (codec.decodeCols body compressed names names.length)
  else .error (.binding "Q: too many column names")

/-! ### Well-formed messages -/

/-- A message of a type: the header, whose size counts the whole message, and the body. -/
def message (msgtype compressed reserved : UInt8) (body : List UInt8) : List UInt8 :=
  [1, msgtype, compressed, reserved] ++ Bytes.encode 4 (8 + body.length) ++ body

theorem length_message (msgtype compressed reserved : UInt8) (body : List UInt8) :
    (message msgtype compressed reserved body).length = 8 + body.length := by
  simp [message]
  omega

theorem responseBody_message (msgtype compressed reserved : UInt8) {body : List UInt8}
    (nonempty : body ≠ []) (fits : 8 + body.length < 2 ^ 32) :
    responseBody (message msgtype compressed reserved body) =
      if msgtype ≠ 2 then .error (.binding s!"Q: expected response message type 2, got {msgtype}")
      else .ok (body, cInt (compressed != 0)) := by
  obtain ⟨s₀, s₁, s₂, s₃, size⟩ : ∃ s₀ s₁ s₂ s₃,
      Bytes.encode 4 (8 + body.length) = [s₀, s₁, s₂, s₃] := ⟨_, _, _, _, rfl⟩
  have counted : Bytes.decode [s₀, s₁, s₂, s₃] = 8 + body.length := by
    rw [← size]
    exact Bytes.decode_encode_of_lt (by omega)
  simp only [message, size, List.cons_append, List.nil_append, responseBody, List.length_cons,
    counted]
  by_cases kind : msgtype = 2
  · simp [kind, nonempty]
    omega
  · simp [kind]

/-- A message is accepted exactly when it is a well-formed response, and then its body is given back
whole, whatever its bytes. -/
theorem responseBody_eq_ok_iff {msg body : List UInt8} {c : Int} :
    responseBody msg = .ok (body, c) ↔
      body ≠ [] ∧ 8 + body.length < 2 ^ 32 ∧
        ∃ compressed reserved, msg = message 2 compressed reserved body ∧
          c = cInt (compressed != 0) := by
  constructor
  · intro accepted
    unfold responseBody at accepted
    split at accepted
    next endianness msgtype compressed reserved s₀ s₁ s₂ s₃ rest =>
      simp only [List.length_cons] at accepted
      split_ifs at accepted with endian kind size empty
      cases accepted
      have counted : Bytes.decode [s₀, s₁, s₂, s₃] = 8 + body.length := by omega
      refine ⟨by simpa using empty, ?_, compressed, reserved, ?_, rfl⟩
      · have bound := Bytes.decode_lt [s₀, s₁, s₂, s₃]
        rw [counted] at bound
        simpa using bound
      · have field : Bytes.encode 4 (8 + body.length) = [s₀, s₁, s₂, s₃] := by
          rw [← counted]
          exact Bytes.encode_decode [s₀, s₁, s₂, s₃]
        rw [message, field]
        simp [not_not.mp endian, not_not.mp kind]
    next => cases accepted
  · rintro ⟨nonempty, fits, compressed, reserved, rfl, rfl⟩
    rw [responseBody_message 2 compressed reserved nonempty fits]
    rfl

/-! ### Streams -/

/-- The length of an accepted message stands in its header. -/
theorem selfDelimiting_accepted :
    Framing.SelfDelimiting {msg | ∃ body c, responseBody msg = .ok (body, c)} 8
      fun header => Bytes.decode (header.drop 4) := by
  rintro msg ⟨body, c, accepted⟩
  obtain ⟨-, fits, compressed, reserved, rfl, -⟩ := responseBody_eq_ok_iff.mp accepted
  refine ⟨by rw [length_message]; omega, ?_⟩
  have header : ((message 2 compressed reserved body).take 8).drop 4 =
      Bytes.encode 4 (8 + body.length) := by
    simp [message, List.take_left' (Bytes.length_encode 4 _)]
  rw [length_message]
  dsimp only
  rw [header]
  exact (Bytes.decode_encode_of_lt (by omega)).symm

/-- A stream of responses is cut into accepted messages in one way only. -/
theorem accepted_uniquelyDecodable :
    InformationTheory.UniquelyDecodable {msg | ∃ body c, responseBody msg = .ok (body, c)} :=
  selfDelimiting_accepted.uniquelyDecodable (by decide)

/-! ### Round trips -/

theorem decoded_eq_ok_iff {fallback : String} {answer : Decoded V} {v : V} :
    decoded fallback answer = .ok v ↔ answer = .value v := by
  cases answer <;> simp [decoded]

/-- What decodes is a well-formed response, and it decodes to what the core reads in its whole body. -/
theorem decodeResponse_eq_ok_iff {msg : List UInt8} {v : V} :
    decodeResponse codec msg = .ok v ↔
      ∃ compressed reserved body, msg = message 2 compressed reserved body ∧ body ≠ [] ∧
        8 + body.length < 2 ^ 32 ∧ codec.decode body (cInt (compressed != 0)) = .value v := by
  rw [decodeResponse, bind_eq_ok]
  constructor
  · rintro ⟨⟨body, c⟩, accepted, answer⟩
    obtain ⟨nonempty, fits, compressed, reserved, rfl, rfl⟩ := responseBody_eq_ok_iff.mp accepted
    exact ⟨compressed, reserved, body, rfl, nonempty, fits, decoded_eq_ok_iff.mp answer⟩
  · rintro ⟨compressed, reserved, body, rfl, nonempty, fits, answer⟩
    refine ⟨(body, cInt (compressed != 0)), ?_, decoded_eq_ok_iff.mpr answer⟩
    exact responseBody_eq_ok_iff.mpr ⟨nonempty, fits, compressed, reserved, rfl, rfl⟩

/-- The codec's side of a round trip: the value is encoded as a synchronous message, and its body
decodes to the value. -/
structure Codec.Inverts (v : V) (compressed reserved : UInt8) (body : List UInt8) : Prop where
  encode : ∃ reason, codec.encode v = ⟨0, some (message 1 compressed reserved body), reason⟩
  nonempty : body ≠ []
  fits : 8 + body.length < 2 ^ 32
  decode : codec.decode body (cInt (compressed != 0)) = .value v

/-- An encoded value whose type byte is overwritten decodes to itself as a response, and is refused
as anything else. -/
theorem decodeResponse_encode {v : V} {compressed reserved : UInt8} {body frame : List UInt8}
    (inverts : codec.Inverts v compressed reserved body) (encoded : encode codec v = .ok frame)
    (kind : UInt8) :
    decodeResponse codec (frame.set 1 kind) =
      if kind ≠ 2 then .error (.binding s!"Q: expected response message type 2, got {kind}")
      else .ok v := by
  obtain ⟨⟨reason, answer⟩, nonempty, fits, decode⟩ := inverts
  have same : frame = message 1 compressed reserved body := by
    simp only [encode, answer] at encoded
    simpa using encoded.symm
  have retyped : (message 1 compressed reserved body).set 1 kind =
      message kind compressed reserved body := rfl
  rw [same, retyped, decodeResponse, responseBody_message kind compressed reserved nonempty fits]
  by_cases response : kind = 2
  · rw [if_neg (not_not.mpr response), if_neg (not_not.mpr response)]
    exact decoded_eq_ok_iff.mpr decode
  · rw [if_pos response, if_pos response]
    rfl

/-- Long atoms, as q serializes them. -/
def longBody (n : Nat) : List UInt8 := 0xF9 :: Bytes.encode 8 n

def decodeLong : List UInt8 → Decoded Nat
  | tag :: bytes =>
    if tag = 0xF9 ∧ bytes.length = 8 then .value (Bytes.decode bytes) else .null "type"
  | [] => .null "length"

def longs : Codec Nat where
  encode n := ⟨0, some (message 1 0 0 (longBody n)), ""⟩
  decode body _ := decodeLong body
  decodeCols body _ _ _ := decodeLong body

theorem decodeResponse_encode_long :
    decodeResponse longs ((message 1 0 0 (longBody 42)).set 1 2) = .ok 42 :=
  decodeResponse_encode longs
    ⟨⟨"", rfl⟩, by decide, by decide, by decide⟩ rfl 2

/-! ### Column names -/

theorem cString_eq_some_iff {text name : List UInt8} :
    cString text = some name ↔ 0 ∉ text ∧ name = text ++ [0] := by
  unfold cString
  split
  next nul => simp [nul]
  next whole => simp [whole, eq_comm]

theorem columnNames_eq_ok_iff {debug : List UInt8 → String} {cols names : List (List UInt8)} :
    columnNames debug cols = .ok names ↔ (∀ c ∈ cols, 0 ∉ c) ∧ names = cols.map (· ++ [0]) := by
  induction cols generalizing names with
  | nil => simp [columnNames, eq_comm]
  | cons c cols ih =>
    unfold columnNames
    split
    next nul =>
      have found : 0 ∈ c := by
        by_contra whole
        rw [cString_eq_some_iff.mpr ⟨whole, rfl⟩] at nul
        cases nul
      simp [found]
    next name whole =>
      obtain ⟨clean, rfl⟩ := cString_eq_some_iff.mp whole
      rw [bind_eq_ok]
      constructor
      · rintro ⟨rest, made, ends⟩
        obtain ⟨cleans, rfl⟩ := ih.mp made
        cases ends
        exact ⟨List.forall_mem_cons.mpr ⟨clean, cleans⟩, rfl⟩
      · rintro ⟨cleans, rfl⟩
        exact ⟨_, ih.mpr ⟨(List.forall_mem_cons.mp cleans).2, rfl⟩, rfl⟩

/-- A name that holds no zero byte is read back whole at its pointer. -/
theorem map_upToZero {cols : List (List UInt8)} (clean : ∀ c ∈ cols, 0 ∉ c) :
    (cols.map (· ++ [0])).map upToZero = cols := by
  rw [List.map_map]
  conv_rhs => rw [← List.map_id cols]
  apply List.map_congr_left
  intro c mem
  exact upToZero_append_zero (clean c mem) []

/-- A decoder that reads its names as C strings is called on the names as they were given, all of
them and in their order, or not at all. -/
theorem decodeResponseCols_eq_ok_iff
    {project : List UInt8 → Int → List (List UInt8) → Decoded V}
    (reads : ∀ body c names n,
      codec.decodeCols body c names n = project body c ((names.take n.toNat).map upToZero))
    {debug : List UInt8 → String} {msg : List UInt8} {cols : List (List UInt8)} {v : V} :
    decodeResponseCols codec debug msg cols = .ok v ↔
      ∃ body c, responseBody msg = .ok (body, c) ∧ (∀ name ∈ cols, 0 ∉ name) ∧
        cols.length < 2 ^ 31 ∧ project body c cols = .value v := by
  have asked (body : List UInt8) (c : Int) (clean : ∀ name ∈ cols, 0 ∉ name) :
      codec.decodeCols body c (cols.map (· ++ [0])) (cols.map (· ++ [(0 : UInt8)])).length =
        project body c cols := by
    rw [reads, Int.toNat_natCast, List.take_length, map_upToZero clean]
  unfold decodeResponseCols
  simp only [bind_eq_ok, Prod.exists]
  constructor
  · rintro ⟨body, c, accepted, names, made, answer⟩
    obtain ⟨clean, rfl⟩ := columnNames_eq_ok_iff.mp made
    split at answer
    next few =>
      rw [decoded_eq_ok_iff, asked body c clean] at answer
      exact ⟨body, c, accepted, clean, by simpa using few, answer⟩
    next => cases answer
  · rintro ⟨body, c, accepted, clean, few, answer⟩
    refine ⟨body, c, accepted, _, columnNames_eq_ok_iff.mpr ⟨clean, rfl⟩, ?_⟩
    rw [if_pos (by simpa using few), decoded_eq_ok_iff, asked body c clean]
    exact answer

theorem decodeResponseCols_eq_ok_long :
    decodeResponseCols longs (fun _ => "") (message 2 0 0 (longBody 42)) [[100, 97, 116, 101]] =
      .ok 42 :=
  (@decodeResponseCols_eq_ok_iff Nat longs (fun body _ _ => decodeLong body) (fun _ _ _ _ => rfl) _ _
    _ _).mpr
    ⟨longBody 42, 0, responseBody_eq_ok_iff.mpr ⟨by decide, by decide, 0, 0, rfl, rfl⟩, by decide,
      by decide, by decide⟩

end Rayforce.Q
