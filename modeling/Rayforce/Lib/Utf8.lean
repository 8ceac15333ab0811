import Mathlib.Data.List.Basic
import Mathlib.Data.List.TakeWhile

/-! UTF-8 text and its lossy decoding: every sequence that is not UTF-8 is replaced, one
replacement character for each maximal prefix of a character.  Decoding is the identity exactly on
UTF-8 text, and a zero byte splits the text it decodes. -/

namespace Utf8

/-! ### Well-formed text -/

/-- A byte that continues a character. -/
def Tail (b : UInt8) : Prop := 0x80 ≤ b ∧ b ≤ 0xBF

/-- A byte that may follow the first byte `a` of a character of three or four bytes: no overlong
form, no surrogate, nothing past the last code point. -/
def Second (a b : UInt8) : Prop :=
  Tail b ∧ (a = 0xE0 → 0xA0 ≤ b) ∧ (a = 0xED → b ≤ 0x9F) ∧ (a = 0xF0 → 0x90 ≤ b) ∧
    (a = 0xF4 → b ≤ 0x8F)

instance (b : UInt8) : Decidable (Tail b) := inferInstanceAs (Decidable (_ ∧ _))

instance (a b : UInt8) : Decidable (Second a b) := inferInstanceAs (Decidable (_ ∧ _))

/-- The bytes of one character. -/
inductive Char : List UInt8 → Prop
  | one {a : UInt8} : a < 0x80 → Char [a]
  | two {a b : UInt8} : 0xC2 ≤ a → a ≤ 0xDF → Tail b → Char [a, b]
  | three {a b c : UInt8} : 0xE0 ≤ a → a ≤ 0xEF → Second a b → Tail c → Char [a, b, c]
  | four {a b c d : UInt8} : 0xF0 ≤ a → a ≤ 0xF4 → Second a b → Tail c → Tail d →
      Char [a, b, c, d]

/-- Well-formed UTF-8: a sequence of characters. -/
inductive Valid : List UInt8 → Prop
  | nil : Valid []
  | cons {c rest : List UInt8} : Char c → Valid rest → Valid (c ++ rest)

/-! ### Decoding -/

/-- The length that the first byte of a character announces, and 0 for a byte that starts none. -/
def width (a : UInt8) : Nat :=
  if a < 0x80 then 1
  else if 0xC2 ≤ a ∧ a ≤ 0xDF then 2
  else if 0xE0 ≤ a ∧ a ≤ 0xEF then 3
  else if 0xF0 ≤ a ∧ a ≤ 0xF4 then 4
  else 0

/-- How many bytes of the list continue a character of which `n` bytes are missing, and whether
they complete it. -/
def tails : Nat → List UInt8 → Bool × Nat
  | 0, _ => (true, 0)
  | _ + 1, [] => (false, 0)
  | n + 1, b :: rest => if Tail b then ((tails n rest).1, (tails n rest).2 + 1) else (false, 0)

/-- The chunk that starts with `a`: whether it is a character, and how many bytes it has after
`a`.  A chunk that is not a character ends before the first byte that cannot continue it. -/
def chunk (a : UInt8) (rest : List UInt8) : Bool × Nat :=
  match width a, rest with
  | 0, _ => (false, 0)
  | 1, _ => (true, 0)
  | 2, rest => tails 1 rest
  | _ + 3, [] => (false, 0)
  | n + 3, b :: rest =>
    if Second a b then ((tails (n + 1) rest).1, (tails (n + 1) rest).2 + 1) else (false, 0)

def replacement : List UInt8 := [0xEF, 0xBF, 0xBD]

/-- The decoding of the first `fuel` chunks. -/
def lossyChunks : Nat → List UInt8 → List UInt8
  | 0, _ => []
  | _ + 1, [] => []
  | fuel + 1, a :: rest =>
    (if (chunk a rest).1 then a :: rest.take (chunk a rest).2 else replacement) ++
      lossyChunks fuel (rest.drop (chunk a rest).2)

/-- The bytes of the text that the lossy decoding of `bytes` is. -/
def fromUtf8Lossy (bytes : List UInt8) : List UInt8 := lossyChunks bytes.length bytes

theorem lossyChunks_eq {fuel : Nat} {bytes : List UInt8} (enough : bytes.length ≤ fuel) :
    lossyChunks fuel bytes = fromUtf8Lossy bytes := by
  have same : ∀ fuel other bytes, bytes.length ≤ fuel → bytes.length ≤ other →
      lossyChunks fuel bytes = lossyChunks other bytes := by
    intro fuel
    induction fuel with
    | zero =>
      intro other bytes h _
      obtain rfl := List.length_eq_zero_iff.mp (Nat.le_zero.mp h)
      cases other <;> rfl
    | succ fuel ih =>
      intro other bytes h h'
      cases bytes with
      | nil => cases other <;> rfl
      | cons a rest =>
        obtain ⟨other, rfl⟩ : ∃ n, other = n + 1 := ⟨other - 1, by simp at h'; omega⟩
        simp only [List.length_cons] at h h'
        rw [lossyChunks, lossyChunks, ih other]
        · simp only [List.length_drop]; omega
        · simp only [List.length_drop]; omega
  exact same _ _ _ enough (Nat.le_refl _)

@[simp] theorem fromUtf8Lossy_nil : fromUtf8Lossy [] = [] := rfl

theorem fromUtf8Lossy_cons (a : UInt8) (rest : List UInt8) :
    fromUtf8Lossy (a :: rest) =
      (if (chunk a rest).1 then a :: rest.take (chunk a rest).2 else replacement) ++
        fromUtf8Lossy (rest.drop (chunk a rest).2) := by
  rw [fromUtf8Lossy, List.length_cons, lossyChunks, lossyChunks_eq]
  simp only [List.length_drop]
  omega

theorem chunk_induction {P : List UInt8 → Prop} (nil : P [])
    (cons : ∀ a rest, P (rest.drop (chunk a rest).2) → P (a :: rest)) (bytes : List UInt8) :
    P bytes := by
  induction h : bytes.length using Nat.strongRecOn generalizing bytes with
  | ind n ih =>
    cases bytes with
    | nil => exact nil
    | cons a rest =>
      refine cons a rest (ih _ ?_ _ rfl)
      simp only [List.length_cons] at h
      simp only [List.length_drop]
      omega

/-! ### Chunks -/

theorem tails_le (n : Nat) (rest : List UInt8) : (tails n rest).2 ≤ rest.length := by
  induction n generalizing rest with
  | zero => simp [tails]
  | succ n ih =>
    cases rest with
    | nil => simp [tails]
    | cons b rest =>
      rw [tails]
      split
      · simpa using ih rest
      · simp

theorem chunk_le (a : UInt8) (rest : List UInt8) : (chunk a rest).2 ≤ rest.length := by
  unfold chunk
  split
  · simp
  · simp
  · exact tails_le 1 _
  · simp
  · split
    · simpa using tails_le _ _
    · simp

/-- A zero byte continues no character, so a chunk ends before it as it ends with the list. -/
theorem tails_append_zero (n : Nat) (rest after : List UInt8) :
    tails n (rest ++ 0 :: after) = tails n rest := by
  induction n generalizing rest with
  | zero => simp [tails]
  | succ n ih =>
    cases rest with
    | nil => simp [tails, Tail]
    | cons b rest => simp only [List.cons_append, tails, ih]

theorem not_second_zero (a : UInt8) : ¬Second a 0 := by
  simp [Second, Tail]

theorem chunk_append_zero (a : UInt8) (rest after : List UInt8) :
    chunk a (rest ++ 0 :: after) = chunk a rest := by
  unfold chunk
  generalize width a = w
  match w, rest with
  | 0, _ => simp
  | 1, _ => simp
  | 2, _ => simp only [tails_append_zero]
  | _ + 3, [] => simp [not_second_zero]
  | n + 3, b :: rest => simp only [List.cons_append, tails_append_zero]

theorem tails_of_ok {n : Nat} {rest : List UInt8} (ok : (tails n rest).1 = true) :
    (tails n rest).2 = n ∧ (rest.take n).length = n ∧ ∀ b ∈ rest.take n, Tail b := by
  induction n generalizing rest with
  | zero => simp [tails]
  | succ n ih =>
    cases rest with
    | nil => simp [tails] at ok
    | cons b rest =>
      rw [tails] at ok ⊢
      split at ok
      · rename_i tail
        obtain ⟨count, length, all⟩ := ih ok
        simp only [tail, if_true, List.take_succ_cons, List.length_cons, List.mem_cons,
          forall_eq_or_imp]
        exact ⟨by omega, by omega, trivial, all⟩
      · cases ok

theorem tails_append {n : Nat} {bs : List UInt8} (rest : List UInt8) (length : bs.length = n)
    (all : ∀ b ∈ bs, Tail b) : tails n (bs ++ rest) = (true, n) := by
  induction bs generalizing n with
  | nil => subst length; rfl
  | cons b bs ih =>
    subst length
    simp only [List.mem_cons, forall_eq_or_imp] at all
    simp only [List.length_cons, List.cons_append, tails, all.1, if_true, ih rfl all.2]

theorem width_cases (a : UInt8) :
    width a = 0 ∨ (width a = 1 ∧ a < 0x80) ∨ (width a = 2 ∧ 0xC2 ≤ a ∧ a ≤ 0xDF) ∨
      (width a = 3 ∧ 0xE0 ≤ a ∧ a ≤ 0xEF) ∨ (width a = 4 ∧ 0xF0 ≤ a ∧ a ≤ 0xF4) := by
  unfold width
  split
  · exact .inr (.inl ⟨rfl, ‹_›⟩)
  split
  · exact .inr (.inr (.inl ⟨rfl, ‹_›⟩))
  split
  · exact .inr (.inr (.inr (.inl ⟨rfl, ‹_›⟩)))
  split
  · exact .inr (.inr (.inr (.inr ⟨rfl, ‹_›⟩)))
  · exact .inl rfl

theorem width_eq_two {a : UInt8} (low : 0xC2 ≤ a) (high : a ≤ 0xDF) : width a = 2 := by
  unfold width
  grind

theorem width_eq_three {a : UInt8} (low : 0xE0 ≤ a) (high : a ≤ 0xEF) : width a = 3 := by
  unfold width
  grind

theorem width_eq_four {a : UInt8} (low : 0xF0 ≤ a) (high : a ≤ 0xF4) : width a = 4 := by
  unfold width
  grind

/-- An accepted chunk of three or four bytes has a second byte that may stand there. -/
theorem second_of_chunk {a : UInt8} {rest : List UInt8} {n : Nat} (w : width a = n + 3)
    (ok : (chunk a rest).1 = true) :
    ∃ b bs, rest = b :: bs ∧ Second a b ∧ (chunk a rest).2 = n + 2 ∧
      (bs.take (n + 1)).length = n + 1 ∧ ∀ c ∈ bs.take (n + 1), Tail c := by
  unfold chunk at ok ⊢
  simp only [w] at ok ⊢
  cases rest with
  | nil => cases ok
  | cons b bs =>
    simp only at ok ⊢
    split at ok
    · rename_i second
      obtain ⟨count, length, all⟩ := tails_of_ok ok
      exact ⟨b, bs, rfl, second, by simp [second, count], length, all⟩
    · cases ok

theorem char_of_chunk {a : UInt8} {rest : List UInt8} (ok : (chunk a rest).1 = true) :
    Char (a :: rest.take (chunk a rest).2) := by
  rcases width_cases a with w | ⟨w, h⟩ | ⟨w, h⟩ | ⟨w, h⟩ | ⟨w, h⟩
  · simp [chunk, w] at ok
  · simp only [chunk, w]
    exact .one h
  · simp only [chunk, w] at ok ⊢
    obtain ⟨count, length, all⟩ := tails_of_ok ok
    obtain ⟨b, hb⟩ := List.length_eq_one_iff.mp length
    rw [count, hb]
    exact .two h.1 h.2 (all b (by simp [hb]))
  · obtain ⟨b, bs, rfl, second, count, length, all⟩ := second_of_chunk w ok
    obtain ⟨c, hc⟩ := List.length_eq_one_iff.mp length
    rw [count, List.take_succ_cons, hc]
    exact .three h.1 h.2 second (all c (by simp [hc]))
  · obtain ⟨b, bs, rfl, second, count, length, all⟩ := second_of_chunk w ok
    obtain ⟨c, d, hcd⟩ := List.length_eq_two.mp length
    rw [count, List.take_succ_cons, hcd]
    exact .four h.1 h.2 second (all c (by simp [hcd])) (all d (by simp [hcd]))

theorem chunk_of_char {c : List UInt8} (h : Char c) (rest : List UInt8) :
    ∃ a bs, c = a :: bs ∧ chunk a (bs ++ rest) = (true, bs.length) := by
  cases h with
  | @one a h => exact ⟨a, [], rfl, by simp [chunk, width, h]⟩
  | @two a b low high tail =>
    refine ⟨a, [b], rfl, ?_⟩
    simp only [chunk, width_eq_two low high]
    exact tails_append rest rfl (by simpa using tail)
  | @three a b c low high second tail =>
    refine ⟨a, [b, c], rfl, ?_⟩
    have last : tails 1 (c :: rest) = (true, 1) :=
      tails_append rest (show [c].length = 1 from rfl) (by simpa using tail)
    simp [chunk, width_eq_three low high, second, last]
  | @four a b c d low high second tail tail' =>
    refine ⟨a, [b, c, d], rfl, ?_⟩
    have last : tails 2 (c :: d :: rest) = (true, 2) :=
      tails_append rest (show [c, d].length = 2 from rfl) (by simp [tail, tail'])
    simp [chunk, width_eq_four low high, second, last]

/-! ### Lossy decoding -/

/-- The replacement character is itself a character, so no rejected chunk starts like it. -/
theorem replacement_ne_of_rejected {a : UInt8} {rest tail : List UInt8}
    (rejected : (chunk a rest).1 = false) : replacement ++ tail ≠ a :: rest := by
  intro same
  simp only [replacement, List.cons_append, List.nil_append, List.cons.injEq] at same
  obtain ⟨rfl, rfl⟩ := same
  have accepted : chunk 0xEF ([0xBF, 0xBD] ++ tail) = (true, 2) := by
    obtain ⟨a, bs, same, ok⟩ :=
      chunk_of_char (.three (a := 0xEF) (b := 0xBF) (c := 0xBD) (by decide) (by decide)
        (by decide) (by decide)) tail
    cases same
    exact ok
  simp only [List.cons_append, List.nil_append] at accepted
  rw [accepted] at rejected
  cases rejected

theorem fromUtf8Lossy_of_valid {bytes : List UInt8} (valid : Valid bytes) :
    fromUtf8Lossy bytes = bytes := by
  induction valid with
  | nil => rfl
  | @cons c rest char _ ih =>
    obtain ⟨a, bs, rfl, ok⟩ := chunk_of_char char rest
    rw [List.cons_append, fromUtf8Lossy_cons, ok]
    simp [ih]

theorem valid_of_fromUtf8Lossy_eq {bytes : List UInt8} (same : fromUtf8Lossy bytes = bytes) :
    Valid bytes := by
  induction bytes using chunk_induction with
  | nil => exact .nil
  | cons a rest ih =>
    rw [fromUtf8Lossy_cons] at same
    cases ok : (chunk a rest).1 with
    | false =>
      rw [ok] at same
      exact absurd same (replacement_ne_of_rejected ok)
    | true =>
      rw [ok, if_pos rfl, List.cons_append, List.cons.injEq] at same
      have split : rest = rest.take (chunk a rest).2 ++ rest.drop (chunk a rest).2 :=
        (List.take_append_drop _ _).symm
      have decoded : fromUtf8Lossy (rest.drop (chunk a rest).2) = rest.drop (chunk a rest).2 :=
        List.append_cancel_left (same.2.trans split)
      rw [split]
      exact .cons (char_of_chunk ok) (ih decoded)

/-- Lossy decoding leaves bytes as they are exactly when they are UTF-8. -/
theorem fromUtf8Lossy_eq_self_iff (bytes : List UInt8) :
    fromUtf8Lossy bytes = bytes ↔ Valid bytes :=
  ⟨valid_of_fromUtf8Lossy_eq, fromUtf8Lossy_of_valid⟩

/-- Whatever the bytes, their decoding is text. -/
theorem valid_fromUtf8Lossy (bytes : List UInt8) : Valid (fromUtf8Lossy bytes) := by
  induction bytes using chunk_induction with
  | nil => exact .nil
  | cons a rest ih =>
    rw [fromUtf8Lossy_cons]
    refine .cons ?_ ih
    split
    · next ok => exact char_of_chunk ok
    · exact .three (by decide) (by decide) (by decide) (by decide)

theorem mem_fromUtf8Lossy {bytes : List UInt8} {b : UInt8} (h : b ∈ fromUtf8Lossy bytes) :
    b ∈ bytes ∨ b ∈ replacement := by
  induction bytes using chunk_induction with
  | nil => cases h
  | cons a rest ih =>
    rw [fromUtf8Lossy_cons, List.mem_append] at h
    rcases h with h | h
    · split at h
      · rcases List.mem_cons.mp h with rfl | h
        · exact .inl List.mem_cons_self
        · exact .inl (List.mem_cons_of_mem _ (List.mem_of_mem_take h))
      · exact .inr h
    · exact (ih h).imp_left fun h => List.mem_cons_of_mem _ (List.mem_of_mem_drop h)

/-- A zero byte splits the decoded text where it splits the bytes. -/
theorem fromUtf8Lossy_append_zero (bytes after : List UInt8) :
    fromUtf8Lossy (bytes ++ 0 :: after) = fromUtf8Lossy bytes ++ fromUtf8Lossy (0 :: after) := by
  induction bytes using chunk_induction with
  | nil => rfl
  | cons a rest ih =>
    rw [List.cons_append, fromUtf8Lossy_cons, chunk_append_zero, fromUtf8Lossy_cons a rest,
      List.drop_append_of_le_length (chunk_le a rest), ih,
      List.take_append_of_le_length (chunk_le a rest), List.append_assoc]

def upToZero (bytes : List UInt8) : List UInt8 := bytes.takeWhile (· ≠ 0)

theorem zero_not_mem_upToZero (bytes : List UInt8) : 0 ∉ upToZero bytes := fun h => by
  simpa using List.mem_takeWhile_imp h

theorem upToZero_eq_self {bytes : List UInt8} (h : 0 ∉ bytes) : upToZero bytes = bytes := by
  refine List.takeWhile_eq_self_iff.mpr fun b hb => decide_eq_true ?_
  rintro rfl
  exact h hb

theorem upToZero_append_zero {bytes : List UInt8} (h : 0 ∉ bytes) (after : List UInt8) :
    upToZero (bytes ++ 0 :: after) = bytes := by
  have nonzero : ∀ b ∈ bytes, decide (b ≠ 0) = true := by
    intro b hb
    refine decide_eq_true ?_
    rintro rfl
    exact h hb
  rw [upToZero, List.takeWhile_append_of_pos nonzero]
  simp

theorem zero_not_mem_fromUtf8Lossy {bytes : List UInt8} (h : 0 ∉ bytes) :
    0 ∉ fromUtf8Lossy bytes := by
  intro mem
  rcases mem_fromUtf8Lossy mem with mem | mem
  · exact h mem
  · revert mem
    decide

/-- Cutting at the first zero byte and decoding commute. -/
theorem upToZero_fromUtf8Lossy (bytes : List UInt8) :
    upToZero (fromUtf8Lossy bytes) = fromUtf8Lossy (upToZero bytes) := by
  by_cases zero : 0 ∈ bytes
  · obtain ⟨before, after, rfl, clean⟩ := List.eq_append_cons_of_mem zero
    have kept : fromUtf8Lossy (0 :: after) = 0 :: fromUtf8Lossy after := by
      rw [fromUtf8Lossy_cons]
      simp [chunk, width]
    rw [fromUtf8Lossy_append_zero, kept, upToZero_append_zero (zero_not_mem_fromUtf8Lossy clean),
      upToZero_append_zero clean]
  · rw [upToZero_eq_self zero, upToZero_eq_self (zero_not_mem_fromUtf8Lossy zero)]

end Utf8
