import Rayforce.Serve.Call

/-! What a guarded request makes of its payload.  The guard reads a string through a lossy decoding,
so a request comes through as it was sent exactly when what is read of it is UTF-8. -/

namespace Rayforce.Serve

open Transition Utf8

/-- The call was evaluated as the core evaluates its payload without a hook, gave back the answer it
got, and was recorded, if it was, with the very text of its string. -/
structure Transparent (es : List Event) (k : Nat) (payload : Payload) (answer : Answer) :
    Prop where
  evaluated : ∀ request, .evaluate k request ∈ es ↔ request = payload.direct
  answered : ∃ raw, (∀ raw', .answer k raw' ∈ es ↔ raw' = raw) ∧ answer = owned raw
  recorded : ∀ bytes, payload = .string bytes →
    ∀ now ended, .record k now ended ∈ es → ended.text = bytes

/-- The call found a server installed and no request running. -/
def Registers (es : List Event) (k : Nat) : Prop := ∃ fd now, .begin k fd now true ∈ es

/-- What the guard reads of a string is UTF-8: the whole of it where it records the request, and
what comes before the first NUL where it only evaluates it. -/
def Legible (es : List Event) (k : Nat) : Payload → Prop
  | .string bytes => Valid (upToZero bytes) ∧ (Registers es k → Valid bytes)
  | .object _ _ => True

variable {es : List Event} {k : Nat} {payload : Payload} {answer : Answer} {l l' : Life}
  {budget : Option Duration} {s : State}

/-- What the events of a call that has returned show. -/
structure Whole (es : List Event) (k : Nat) (payload : Payload) (raw : Option Answer) : Prop where
  called : ∀ payload', .call k payload' ∈ es ↔ payload' = payload
  evaluated : ∀ request, .evaluate k request ∈ es ↔ request = evaluate payload
  answered : ∀ raw', .answer k raw' ∈ es ↔ raw' = raw
  returned : ∀ answer, .ret k answer ∈ es ↔ answer = owned raw
  recorded : ∀ now ended, .record k now ended ∈ es → Registers es k ∧ ended.text = textOf payload
  registered : Registers es k → ∃ now ended, .record k now ended ∈ es

theorem life_run_closing {registered : Bool}
    (run : Run (Life.Step k) (.live payload (.evaluating registered)) es .gone) :
    ∃ raw, registered = false ∧ es = [.answer k raw, .ret k (owned raw)] ∨
      registered = true ∧ ∃ r now, es = [.answer k raw, .take k,
        .record k now (requestEnd r (textOf payload) (owned raw) now), .ret k (owned raw)] := by
  cases run with
  | cons first run => cases first with
  | answer raw =>
  refine ⟨raw, ?_⟩
  cases run with
  | cons second run => cases second with
  | retUnregistered =>
    obtain ⟨rfl, _⟩ := life_run_nil run (Nat.le_refl _)
    exact .inl ⟨rfl, rfl⟩
  | take r =>
  cases run with
  | cons third run => cases third with
  | record now =>
  cases run with
  | cons fourth run => cases fourth with
  | ret =>
    obtain ⟨rfl, _⟩ := life_run_nil run (Nat.le_refl _)
    exact .inr ⟨rfl, r, now, rfl⟩

theorem whole_of_life_run (run : Run (Life.Step k) .unborn es .gone) :
    ∃ payload raw, Whole es k payload raw := by
  cases run with
  | cons first run => cases first with
  | call payload installed =>
  cases run with
  | cons second run => cases second with
  | evaluateUninstalled =>
    obtain ⟨raw, ⟨_, rfl⟩ | ⟨impossible, _⟩⟩ := life_run_closing run
    · exact ⟨payload, raw, by constructor <;> simp [Registers]⟩
    · cases impossible
  | ask =>
  cases run with
  | cons third run => cases third with
  | begin fd now registered =>
  cases run with
  | cons fourth run => cases fourth with
  | evaluate =>
    obtain ⟨raw, ⟨rfl, rfl⟩ | ⟨rfl, r, now', rfl⟩⟩ := life_run_closing run
    · exact ⟨payload, raw, by constructor <;> simp [Registers]⟩
    · exact ⟨payload, raw, by constructor <;> simp [Registers, requestEnd]⟩

theorem gone_of_ret (run : Run (Life.Step k) l es l') (ret : .ret k answer ∈ es) :
    l' = .gone := by
  induction run with
  | nil => cases ret
  | cons first rest ih =>
    rcases List.mem_cons.mp ret with rfl | later
    · cases first with
      | retUnregistered | ret =>
        cases rest with
        | nil => rfl
        | cons next _ => cases next
    · exact ih later

theorem Whole.of_filter {raw : Option Answer} (h : Whole (es.filter (Event.about k)) k payload raw) :
    Whole es k payload raw where
  called := by simpa [Event.about] using h.called
  evaluated := by simpa [Event.about] using h.evaluated
  answered := by simpa [Event.about] using h.answered
  returned := by simpa [Event.about] using h.returned
  recorded := by simpa [Event.about, Registers] using h.recorded
  registered := by simpa [Event.about, Registers] using h.registered

theorem whole_of_returned (run : Run Step (initial budget) es s) (ret : .ret k answer ∈ es) :
    ∃ payload raw, Whole es k payload raw := by
  have life := life_run (.refl _) run k
  have gone := gone_of_ret life (List.mem_filter.mpr ⟨ret, beq_self_eq_true k⟩)
  have unborn : (initial budget).life k = .unborn := if_pos (Nat.zero_le k)
  rw [gone, unborn] at life
  obtain ⟨payload, raw, whole⟩ := whole_of_life_run life
  exact ⟨payload, raw, whole.of_filter⟩

theorem valid_upToZero {bytes : List UInt8} (valid : Valid bytes) : Valid (upToZero bytes) := by
  rw [← fromUtf8Lossy_eq_self_iff, ← upToZero_fromUtf8Lossy,
    (fromUtf8Lossy_eq_self_iff bytes).mpr valid]

/-- In every run, a call of the guard that has returned was transparent exactly when its payload was
legible. -/
theorem guard_transparent_iff (run : Run Step (initial budget) es s)
    (called : .call k payload ∈ es) (returned : .ret k answer ∈ es) :
    Transparent es k payload answer ↔ Legible es k payload := by
  obtain ⟨payload', raw, whole⟩ := whole_of_returned run returned
  obtain rfl := (whole.called payload).mp called
  obtain rfl := (whole.returned answer).mp returned
  constructor
  · rintro ⟨evaluated, _, recorded⟩
    cases payload with
    | object id formatted => trivial
    | string bytes =>
      refine ⟨?_, ?_⟩
      · rw [← evaluate_string_eq_direct_iff]
        exact (evaluated _).mp ((whole.evaluated _).mpr rfl)
      · intro registers
        obtain ⟨now, ended, mem⟩ := whole.registered registers
        rw [← textOf_string_eq_iff, ← (whole.recorded now ended mem).2]
        exact recorded bytes rfl now ended mem
  · intro legible
    refine ⟨?_, ⟨raw, whole.answered, rfl⟩, ?_⟩
    · intro request
      rw [whole.evaluated]
      cases payload with
      | object id formatted => rfl
      | string bytes => rw [(evaluate_string_eq_direct_iff bytes).mpr legible.1]
    · rintro bytes rfl now ended mem
      obtain ⟨registers, text⟩ := whole.recorded now ended mem
      rw [text]
      exact (textOf_string_eq_iff bytes).mpr (legible.2 registers)

/-- The events of one guarded request that nothing stops. -/
def guarded (payload : Payload) (raw : Option Answer) : List Event :=
  [.call 0 payload, .ask 0, .begin 0 4 0 true, .evaluate 0 (evaluate payload), .answer 0 raw,
    .take 0, .record 0 1 (requestEnd ⟨4, 0, none⟩ (textOf payload) (owned raw) 1),
    .ret 0 (owned raw)]

theorem guarded_run (budget : Option Duration) (payload : Payload) (raw : Option Answer) :
    Run Step (initial budget) (guarded payload raw) { initial budget with
      shared := ⟨budget, none, [requestEnd ⟨4, 0, none⟩ (textOf payload) (owned raw) 1], false⟩
      calls := 1 } := by
  refine .cons (.call payload (by simp [State.Open, initial])) ?_
  refine .cons (.ask rfl) ?_
  refine .cons (.begin 4 0 rfl) ?_
  refine .cons (.evaluate rfl) ?_
  refine .cons (.answer raw rfl) ?_
  refine .cons (.take rfl) ?_
  refine .cons (.record 1 rfl) ?_
  exact .single (.ret rfl)

/-- The source 1+1 comes through as it was sent. -/
theorem guard_transparent_plain :
    Transparent (guarded (.string [0x31, 0x2B, 0x31]) none) 0 (.string [0x31, 0x2B, 0x31]) .null := by
  have run := guarded_run none (.string [0x31, 0x2B, 0x31]) none
  have valid : Valid [0x31, 0x2B, 0x31] := by
    rw [← fromUtf8Lossy_eq_self_iff]
    decide
  refine (guard_transparent_iff run ?_ ?_).mpr ⟨valid_upToZero valid, fun _ => valid⟩
  · exact List.mem_cons_self ..
  · simp [guarded, owned]

/-- A string literal that holds the byte FF, which UTF-8 does not have, is evaluated as another. -/
theorem guard_not_transparent :
    ¬∀ (budget : Option Duration) (es : List Event) (s : State) (k : Nat) (payload : Payload)
      (answer : Answer), Run Step (initial budget) es s → .call k payload ∈ es →
      .ret k answer ∈ es → Transparent es k payload answer := by
  intro transparent
  have run := guarded_run none (.string [0x22, 0xFF, 0x22]) none
  have bad := transparent _ _ _ 0 (.string [0x22, 0xFF, 0x22]) .null run (List.mem_cons_self ..)
    (by simp [guarded, owned])
  have same := (bad.evaluated (evaluate (.string [0x22, 0xFF, 0x22]))).mp (by simp [guarded])
  revert same
  decide

end Rayforce.Serve
