import PristonTale.Foundations.Transition
import PristonTale.Network.WiredReads

set_option relaxedAutoImplicit false
set_option autoImplicit false

/-!
# The read cursor

Whether the reads of a `ClientPacket` keep the read position in the content. `PacketBuffer::Read`
asserts that what it reads is there. The reads of a `ClientPacket` do not look: `substr` throws when
it begins past the end, but gives less than was asked for when it ends there, and the position is
moved as if it had given all. A length that is negative as an `int` moves it back.

## Main definitions

* `SteerStone.Network.ClientPacket.readBase64Bool`, `SteerStone.Network.ClientPacket.readSkip` — the
  reads that no field of a packet uses.
* `SteerStone.Network.ReadCall` — a call of a read; `SteerStone.Network.reads` — calls in a row.
* `SteerStone.Network.Kept` — a call that throws and leaves the position, or moves it on in the
  content; `SteerStone.Network.Fits` — what is read is in the content.

## Main results

* `SteerStone.Network.wiredFits_of_complete` — complete wired numbers are in the content.
* `SteerStone.Network.kept_iff_fits` — one call.
* `SteerStone.Network.read_cursor_iff` — every sequence of calls.
-/

namespace SteerStone.Network

open Foundations

namespace ClientPacket

/-- `ReadBase64Bool`. The position is incremented before `substr` is called. -/
def readBase64Bool : Reader ClientPacket Bool := do
  let p ← get
  skip 1
  let i := (decodeBase64 (← substr p.content p.readPosition 1)).toInt64
  return i == 1

/-- The loop of `ReadSkip`, with `n` rounds to go. The numbers are decoded and dropped. -/
def readSkipFrom : ℕ → Reader ClientPacket Unit
  | 0 => pure ()
  | n + 1 => do
    let p ← get
    let _ ← (decodeBase64 <$> substr p.content p.readPosition 2)
    skip 2
    readSkipFrom n

/-- `ReadSkip`. -/
def readSkip (value : UInt8) : Reader ClientPacket Unit := readSkipFrom value.toNat

/-- Whether a read returns, and the packet after it. -/
def outcome {α : Type} (r : Reader ClientPacket α) (p : ClientPacket) : Bool × ClientPacket :=
  ((r.result p).1.isSome, (r.result p).2)

end ClientPacket

open SteerStone.Network.ClientPacket

/-- A call of a read. The wired ones are over what memory holds behind the characters that are
left, which is read where a number ends before its bytes do. -/
inductive ReadCall where
  | string
  | base64Int
  | base64Uint
  | wiredInt (behind : List UInt8)
  | wiredUint (behind : List UInt8)
  | wiredBool (behind : List UInt8)
  | base64Bool
  | skip (value : UInt8)

namespace ReadCall

/-- Whether the call returns, and the packet after it. -/
def result : ReadCall → ClientPacket → Bool × ClientPacket
  | string => outcome readString
  | base64Int => outcome readBase64Int
  | base64Uint => outcome readBase64Uint
  | wiredInt behind => outcome (readWiredOver behind id Int32.toInt64)
  | wiredUint behind => outcome (readWiredOver behind Int32.toUInt32 fun i => i.toUInt64.toInt64)
  | wiredBool behind => outcome ((· == 1) <$> readWiredOver behind Int32.toInt64 id)
  | base64Bool => outcome readBase64Bool
  | skip value => outcome (readSkip value)

end ReadCall

/-- Calls in a row. After one that throws, the caller may go on with the packet as it is then. -/
def reads : Transition ClientPacket ReadCall := ⟨fun p c => some (c.result p).2⟩

/-- A call keeps the cursor: it throws and leaves the read position unchanged, or it leaves it no
smaller and at most the length of the content. -/
def Kept (p : ClientPacket) (c : ReadCall) : Prop :=
  (c.result p).1 = false ∧ (c.result p).2.readPosition = p.readPosition ∨
    p.readPosition ≤ (c.result p).2.readPosition ∧
      (c.result p).2.readPosition ≤ p.content.length

/-- The signed length before a string. -/
def stringLength (p : ClientPacket) : ℤ := (decodeBase64 ((input.remaining p).take 2)).toInt

/-- A wired number, of its type, has no more bytes than are left. -/
def WiredFits {α : Type} (behind : List UInt8) (convert : Int32 → α) (widen : α → Int64)
    (p : ClientPacket) : Prop :=
  p.readPosition < p.content.length ∧
    (widen (convert (decodeWired (input.remaining p ++ 0 :: behind)))).toInt.natAbs <
      4 * 64 ^ (p.content.length - p.readPosition - 1)

/-- What a call reads is in the content. -/
def Fits (p : ClientPacket) : ReadCall → Prop
  | .string => p.content.length < p.readPosition + 2 ∨
      -2 ≤ stringLength p ∧ p.readPosition + 2 + stringLength p ≤ p.content.length
  | .base64Int | .base64Uint => p.readPosition + 2 ≤ p.content.length
  | .wiredInt behind => WiredFits behind id Int32.toInt64 p
  | .wiredUint behind => WiredFits behind Int32.toUInt32 (fun i => i.toUInt64.toInt64) p
  | .wiredBool behind => WiredFits behind Int32.toInt64 id p
  | .base64Bool => p.readPosition < p.content.length
  | .skip value => p.readPosition + 2 * value.toNat ≤ p.content.length

instance (p : ClientPacket) (c : ReadCall) : Decidable (Kept p c) :=
  inferInstanceAs (Decidable (_ ∧ _ ∨ _ ∧ _))

instance {α : Type} (behind : List UInt8) (convert : Int32 → α) (widen : α → Int64)
    (p : ClientPacket) : Decidable (WiredFits behind convert widen p) :=
  inferInstanceAs (Decidable (_ ∧ _))

instance (p : ClientPacket) : ∀ c : ReadCall, Decidable (Fits p c)
  | .string => inferInstanceAs (Decidable (p.content.length < p.readPosition + 2 ∨
      -2 ≤ stringLength p ∧ p.readPosition + 2 + stringLength p ≤ p.content.length))
  | .base64Int | .base64Uint => inferInstanceAs (Decidable (p.readPosition + 2 ≤ p.content.length))
  | .wiredInt behind => inferInstanceAs (Decidable (WiredFits behind id Int32.toInt64 p))
  | .wiredUint behind =>
    inferInstanceAs (Decidable (WiredFits behind Int32.toUInt32 (fun i => i.toUInt64.toInt64) p))
  | .wiredBool behind => inferInstanceAs (Decidable (WiredFits behind Int32.toInt64 id p))
  | .base64Bool => inferInstanceAs (Decidable (p.readPosition < p.content.length))
  | .skip value =>
    inferInstanceAs (Decidable (p.readPosition + 2 * value.toNat ≤ p.content.length))

/-! ## What a call leaves -/

namespace ClientPacket

variable {p : ClientPacket}

/-- The read position is in the content or at its end, and the content is a `std::string`, whose
length is below 2^63. -/
structure InContent (p : ClientPacket) : Prop where
  /-- The position is at most the length. -/
  position_le : p.readPosition ≤ p.content.length
  /-- A `std::string` has no more characters than a `ptrdiff_t` can count. -/
  length_lt : p.content.length < 2 ^ 63

/-- What is in the content can be read. -/
lemma InContent.valid (hp : InContent p) : input.Valid p :=
  ⟨hp.position_le, Nat.lt_trans hp.length_lt (by decide)⟩

/-- Characters from a position in the text on. -/
lemma result_substr_of_le {s : List UInt8} {pos : ℕ} (h : pos ≤ s.length) (length : ℕ) :
    Reader.result (substr s pos length) p = (some ((s.drop pos).take length), p) := by
  rw [substr, if_pos h, Reader.result_pure]

/-- Past the end there are none. -/
lemma result_substr_of_lt {s : List UInt8} {pos : ℕ} (h : s.length < pos) (length : ℕ) :
    Reader.result (substr s pos length) p = (none, p) := by
  rw [substr, if_neg (Nat.not_le.mpr h)]
  rfl

/-- Moving the position by little. -/
lemma result_skip_of_lt (hp : InContent p) {n : ℕ} (hn : n < 2 ^ 63) :
    (ClientPacket.skip n).result p =
      (some (), { p with readPosition := p.readPosition + n }) := by
  have hle := hp.position_le
  have hlt := hp.length_lt
  have hmod : (p.readPosition + n) % 2 ^ 64 = p.readPosition + n := Nat.mod_eq_of_lt (by omega)
  have hresult : (ClientPacket.skip n).result p =
      (some (), { p with readPosition := (p.readPosition + n) % 2 ^ 64 }) := rfl
  rw [hresult, hmod]

/-- The conversion of an `int` to `std::size_t`, modulo 2^64. -/
lemma toSize_eq (i : Int32) : (toSize i : ℤ) = i.toInt % 2 ^ 64 := by
  have hsize : toSize i = (BitVec.ofInt 64 i.toInt).toNat := by
    rw [← Int32.toInt_toInt64, ← Int64.toBitVec_ofInt, Int64.ofInt_toInt]
    rfl
  rw [hsize, BitVec.toNat_ofInt, Int.toNat_of_nonneg (Int.emod_nonneg _ (by decide))]
  rfl

/-- Computing with what was read leaves the position. -/
lemma outcome_map {α γ : Type} (f : α → γ) (r : Reader ClientPacket α) (p : ClientPacket) :
    outcome (f <$> r) p = outcome r p := by
  rw [outcome, outcome, Reader.result_map, Option.isSome_map]

/-- A base64 number moves the position by two, whatever is there. -/
lemma outcome_readBase64 {α : Type} (convert : Int32 → α) (hp : InContent p) :
    outcome (readBase64 convert) p = (true, { p with readPosition := p.readPosition + 2 }) := by
  rw [outcome, readBase64, Reader.result_bind (Reader.result_get p),
    Reader.result_bind (result_substr_of_le hp.position_le 2),
    Reader.result_bind (result_skip_of_lt hp (by decide)), Reader.result_pure]
  rfl

/-- A base64 `bool` moves it by one, also from the end. -/
lemma outcome_readBase64Bool (hp : InContent p) :
    outcome readBase64Bool p = (true, { p with readPosition := p.readPosition + 1 }) := by
  rw [outcome, readBase64Bool, Reader.result_bind (Reader.result_get p),
    Reader.result_bind (result_skip_of_lt hp (by decide)),
    Reader.result_bind (result_substr_of_le hp.position_le 1), Reader.result_pure]
  rfl

/-- A wired number moves it by the length of the number encoded again. -/
lemma outcome_readWiredOver {α : Type} (behind : List UInt8) (convert : Int32 → α)
    (widen : α → Int64) (hwiden : ∀ i, (widen (convert i)).toInt.natAbs < 2 ^ 32)
    (hp : InContent p) :
    outcome (readWiredOver behind convert widen) p = (true, { p with
      readPosition := p.readPosition + (encodeWired (widen (convert
        (decodeWired (input.remaining p ++ 0 :: behind))))).length }) := by
  have hle := hp.position_le
  have hlt := hp.length_lt
  have hmost := (length_encodeWired_le_iff _).mpr
    (hwiden (decodeWired (input.remaining p ++ 0 :: behind)))
  rw [outcome, result_readWiredOver convert widen behind hp.valid, Nat.mod_eq_of_lt (by omega)]
  rfl

/-- A string throws if its length is not there, and else moves the position behind it. -/
lemma outcome_readString (hp : InContent p) :
    outcome readString p =
      if p.content.length < p.readPosition + 2 then (false, p)
      else (true, { p with readPosition := (p.readPosition +
        (toSize (decodeBase64 ((input.remaining p).take 2)) + 2)) % 2 ^ 64 }) := by
  have hle := hp.position_le
  have hlt := hp.length_lt
  have hmod : (2 + p.readPosition) % 2 ^ 64 = p.readPosition + 2 := by omega
  rw [outcome, readString, Reader.result_bind (Reader.result_get p),
    Reader.result_bind (result_substr_of_le hle 2), hmod]
  split
  case isTrue hshort =>
    rw [Reader.result_bind_of_none (result_substr_of_lt hshort _)]
    rfl
  case isFalse hlong =>
    rw [Reader.result_bind (result_substr_of_le (Nat.le_of_not_lt hlong) _)]
    rfl

/-- A round of `ReadSkip`. -/
lemma result_readSkipFrom_succ (n : ℕ) (hp : InContent p) :
    (readSkipFrom (n + 1)).result p =
      (readSkipFrom n).result { p with readPosition := p.readPosition + 2 } := by
  have hdecode : Reader.result (decodeBase64 <$> substr p.content p.readPosition 2) p =
      (some (decodeBase64 ((p.content.drop p.readPosition).take 2)), p) := by
    rw [Reader.result_map, result_substr_of_le hp.position_le]
    rfl
  rw [readSkipFrom, Reader.result_bind (Reader.result_get p), Reader.result_bind hdecode,
    Reader.result_bind (result_skip_of_lt hp (by decide))]

/-- Past the end, the first round of `ReadSkip` throws. -/
lemma outcome_readSkipFrom_of_lt (n : ℕ) (h : p.content.length < p.readPosition) :
    outcome (readSkipFrom n) p = (decide (n = 0), p) := by
  cases n with
  | zero => rfl
  | succ n =>
    have hdecode : Reader.result (decodeBase64 <$> substr p.content p.readPosition 2) p =
        (none, p) := by
      rw [Reader.result_map, result_substr_of_lt h]
      rfl
    rw [outcome, readSkipFrom, Reader.result_bind (Reader.result_get p),
      Reader.result_bind_of_none hdecode]
    rfl

/-- `ReadSkip` moves the position by two each time, and past the end if the pairs are not all there.

**Proof sketch.** Induction on the rounds. From the end or the last character a round moves the
position past the end, where it stays. -/
lemma outcome_readSkipFrom (n : ℕ) (hp : InContent p) :
    ∃ returned pos, outcome (readSkipFrom n) p = (returned, { p with readPosition := pos }) ∧
      (p.readPosition + 2 * n ≤ p.content.length → pos = p.readPosition + 2 * n) ∧
      (p.content.length < p.readPosition + 2 * n → p.content.length < pos) := by
  induction n generalizing p with
  | zero =>
    refine ⟨true, p.readPosition, rfl, fun _ => rfl, fun hlt => ?_⟩
    have := hp.position_le
    omega
  | succ n ih =>
    have hround : outcome (readSkipFrom (n + 1)) p =
        outcome (readSkipFrom n) { p with readPosition := p.readPosition + 2 } := by
      rw [outcome, result_readSkipFrom_succ n hp, outcome]
    rw [hround]
    by_cases hroom : p.readPosition + 2 ≤ p.content.length
    · have hp' : InContent { p with readPosition := p.readPosition + 2 } := ⟨hroom, hp.length_lt⟩
      obtain ⟨returned, pos, houtcome, hall, hpast⟩ := ih hp'
      have hsum : p.readPosition + 2 * (n + 1) = p.readPosition + 2 + 2 * n := by omega
      rw [hsum]
      exact ⟨returned, pos, houtcome, hall, hpast⟩
    · have hlt : p.content.length < p.readPosition + 2 := Nat.lt_of_not_le hroom
      refine ⟨decide (n = 0), p.readPosition + 2, outcome_readSkipFrom_of_lt n hlt, ?_,
        fun _ => hlt⟩
      intro hle
      omega

end ClientPacket

/-! ## The cursor -/

/-- A position that has moved on is kept exactly when it is in the content. -/
lemma kept_forward_iff {pos n length : ℕ} {P : Prop} (hP : P ↔ pos + n ≤ length) :
    (true = false ∧ pos + n = pos ∨ pos ≤ pos + n ∧ pos + n ≤ length) ↔ P := by
  rw [hP]
  simp

/-- What a wired read leaves: the position is in the content exactly when the number has no more
bytes than are left. -/
lemma exists_outcome_readWiredOver {α : Type} (behind : List UInt8) (convert : Int32 → α)
    (widen : α → Int64) (hwiden : ∀ i, (widen (convert i)).toInt.natAbs < 2 ^ 32)
    {p : ClientPacket} (hp : InContent p) :
    ∃ returned pos,
      outcome (readWiredOver behind convert widen) p = (returned, { p with readPosition := pos }) ∧
      ((returned = false ∧ pos = p.readPosition ∨
        p.readPosition ≤ pos ∧ pos ≤ p.content.length) ↔ WiredFits behind convert widen p) := by
  refine ⟨true, _, outcome_readWiredOver behind convert widen hwiden hp, kept_forward_iff ?_⟩
  have hpos : 1 ≤ (encodeWired (widen
      (convert (decodeWired (input.remaining p ++ 0 :: behind))))).length :=
    Nat.succ_le_succ (Nat.zero_le _)
  rw [WiredFits, ← length_encodeWired_le_succ_iff]
  omega

/-- What a string leaves: nothing is changed if its length is not there; else the position is moved
on in the content exactly when the length, as an `int`, is -2 at least and the string is there.

**Proof sketch.** The length is added modulo 2^64. Below -2 it moves the position back or, from near
the start, to less than 2^31 below 2^64, which is past the end of any string. -/
lemma exists_outcome_readString {p : ClientPacket} (hp : InContent p) :
    ∃ returned pos, outcome readString p = (returned, { p with readPosition := pos }) ∧
      ((returned = false ∧ pos = p.readPosition ∨
        p.readPosition ≤ pos ∧ pos ≤ p.content.length) ↔
          (p.content.length < p.readPosition + 2 ∨
            -2 ≤ stringLength p ∧ p.readPosition + 2 + stringLength p ≤ p.content.length)) := by
  have hle := hp.position_le
  have hlt := hp.length_lt
  have hsize : (toSize (decodeBase64 ((input.remaining p).take 2)) : ℤ) =
      stringLength p % 2 ^ 64 := toSize_eq _
  have hlow : -2 ^ 31 ≤ stringLength p := Int32.le_toInt _
  have hhigh : stringLength p < 2 ^ 31 := Int32.toInt_lt _
  rw [outcome_readString hp]
  split
  case isTrue hshort =>
    exact ⟨false, p.readPosition, rfl, iff_of_true (Or.inl ⟨rfl, rfl⟩) (Or.inl hshort)⟩
  case isFalse hlong =>
    refine ⟨true, _, rfl, ?_⟩
    generalize toSize (decodeBase64 ((input.remaining p).take 2)) = size at hsize
    generalize stringLength p = length at *
    simp only [Bool.true_eq_false, false_and, false_or, hlong]
    omega

/-- **What a call leaves**: only the read position has changed, and it is kept exactly when what is
read is in the content.

**Proof sketch.** By the reads. All but `ReadString` and `ReadSkip` return, and the position moves
on. The length of a string is added modulo 2^64, so below -2 it moves the position back, or from the
start to near 2^64. -/
lemma exists_result {p : ClientPacket} (hp : InContent p) (c : ReadCall) :
    ∃ returned pos, c.result p = (returned, { p with readPosition := pos }) ∧
      ((returned = false ∧ pos = p.readPosition ∨
        p.readPosition ≤ pos ∧ pos ≤ p.content.length) ↔ Fits p c) := by
  have hle := hp.position_le
  have hlt := hp.length_lt
  cases c with
  | string => exact exists_outcome_readString hp
  | base64Int =>
    exact ⟨true, p.readPosition + 2, outcome_readBase64 id hp, kept_forward_iff Iff.rfl⟩
  | base64Uint =>
    exact ⟨true, p.readPosition + 2, outcome_readBase64 Int32.toUInt32 hp,
      kept_forward_iff Iff.rfl⟩
  | wiredInt behind =>
    exact exists_outcome_readWiredOver behind id Int32.toInt64 natAbs_toInt64_lt hp
  | wiredUint behind =>
    exact exists_outcome_readWiredOver behind Int32.toUInt32 (fun i => i.toUInt64.toInt64)
      (fun i => natAbs_toUInt64_lt i.toUInt32) hp
  | wiredBool behind =>
    rw [ReadCall.result, outcome_map]
    exact exists_outcome_readWiredOver behind Int32.toInt64 id natAbs_toInt64_lt hp
  | base64Bool =>
    exact ⟨true, p.readPosition + 1, outcome_readBase64Bool hp,
      kept_forward_iff Nat.lt_iff_add_one_le⟩
  | skip value =>
    obtain ⟨returned, pos, houtcome, hall, hpast⟩ := outcome_readSkipFrom value.toNat hp
    refine ⟨returned, pos, houtcome, ?_⟩
    show _ ↔ p.readPosition + 2 * value.toNat ≤ p.content.length
    omega

/-- **A complete wired number** fits when it is read as an `int`, whatever memory holds behind the
content.

**Proof sketch.** The absolute value of the `int` is at most that of the number, which has as many
digits as bytes are there. -/
theorem wiredFits_of_complete {p : ClientPacket} (h : Wired.Complete (input.remaining p))
    (behind : List UInt8) : WiredFits behind id Int32.toInt64 p := by
  obtain ⟨hcomplete, hvalue⟩ := Wired.value_append h (0 :: behind)
  have hremaining : (input.remaining p).length = p.content.length - p.readPosition :=
    List.length_drop
  have hlt := Wired.magnitude_lt h
  have hpow : 64 ^ (Wired.count (input.remaining p) - 1) ≤
      64 ^ (p.content.length - p.readPosition - 1) := by
    apply Nat.pow_le_pow_right (by decide)
    have := h.2.2
    omega
  have habs : ((Wired.value (input.remaining p)).bmod (2 ^ 32)).natAbs ≤
      Wired.magnitude (input.remaining p) := by
    have := Wired.magnitude_lt_two_pow h
    rw [Wired.value, Int.bmod_def]
    split <;> split <;> omega
  refine ⟨?_, ?_⟩
  · have := h.1
    have := h.2.2
    omega
  · rw [Wired.decodeWired_eq hcomplete, hvalue, id_eq, Wired.natAbs_signed]
    omega

/-- **One call** from a position in the content keeps the cursor exactly when what it reads is in
the content. -/
theorem kept_iff_fits {p : ClientPacket} (hp : InContent p) (c : ReadCall) :
    Kept p c ↔ Fits p c := by
  obtain ⟨returned, pos, hresult, hfits⟩ := exists_result hp c
  rw [Kept, hresult]
  exact hfits

/-- A call that keeps the cursor leaves it in the content. -/
lemma inContent_of_kept {p : ClientPacket} (hp : InContent p) {c : ReadCall} (h : Kept p c) :
    InContent (c.result p).2 := by
  obtain ⟨returned, pos, hresult, -⟩ := exists_result hp c
  rw [Kept, hresult] at h
  rw [hresult]
  refine ⟨?_, hp.length_lt⟩
  rcases h with ⟨-, hpos⟩ | ⟨-, hpos⟩
  · exact hpos.trans_le hp.position_le
  · exact hpos

/-- **The read cursor**: for every content and every sequence of calls, whatever memory holds behind
the content, each call throws and leaves the read position or moves it on in the content, if and
only if what each call reads is in the content: two characters for a base64 number, one for a base64
`bool`, two for each round of `ReadSkip`, for a wired number as many as the number has when it is
encoded again; and for a string its length, unless that is cut off, is -2 at least and the string
is there.

**Proof sketch.** As long as the calls keep the cursor, the position is in the content
(`inContent_of_kept`), where a call keeps it exactly when it fits (`kept_iff_fits`). -/
theorem read_cursor_iff {content : List UInt8} (hlength : content.length < 2 ^ 63)
    (header : UInt32) (calls : List ReadCall) :
    reads.Along Kept ⟨0, content, header⟩ calls ↔ reads.Along Fits ⟨0, content, header⟩ calls := by
  have hstep : ∀ p c p', InContent p → Kept p c → reads.step p c = some p' → InContent p' := by
    intro p c p' hp hkept hstep
    obtain rfl : (c.result p).2 = p' := Option.some.inj hstep
    exact inContent_of_kept hp hkept
  exact reads.along_iff_along hstep (fun p c hp => kept_iff_fits hp c)
    ⟨Nat.zero_le _, hlength⟩ calls

/-- The number 1 in base64, a string of one character and a wired 1 are in the content. -/
theorem read_cursor_one : reads.Along Kept ⟨0, [64, 65, 64, 65, 97, 73], 0⟩
    [.base64Int, .string, .wiredInt []] :=
  (read_cursor_iff (by decide) 0 _).mpr (by decide +kernel)

/-- After a base64 number, a string of length -3 moves the read position back from 2 to 1; a base64
`bool` moves it past the end of an empty content. -/
theorem read_cursor_fails :
    ¬ reads.Along Kept ⟨0, [64, 64, 64, 61], 0⟩ [.base64Int, .string] ∧
      ¬ reads.Along Kept ⟨0, [], 0⟩ [.base64Bool] := by
  decide +kernel

end SteerStone.Network
