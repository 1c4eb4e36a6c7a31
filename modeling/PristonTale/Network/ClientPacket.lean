import PristonTale.Foundations.Reader
import PristonTale.Common.SharedDefines

set_option relaxedAutoImplicit false
set_option autoImplicit false

/-!
# Reading the fields of a packet

`ClientPacket` (`Shared/Network/ClientPacket.h`): the header and the content of a packet, with the
position up to which the content has been read. The names are in a namespace of their own, as
`SteerStone.ClientPacket` is a packet of the login protocol.

Each read takes what it needs from the read position on and moves the position past it. A wired
number does not say where it ends except by its first byte, and the source finds out by encoding
again what it has decoded.

## Main definitions

* `SteerStone.Network.ClientPacket` — a packet that is being read.
* `SteerStone.Network.ClientPacket.readString`, `SteerStone.Network.ClientPacket.readWiredInt` and
  the other reads.

## Main results

* `SteerStone.Network.ClientPacket.readsBack_readBase64`,
  `SteerStone.Network.ClientPacket.readsBack_readWired`,
  `SteerStone.Network.ClientPacket.readsBack_readString` — what was encoded is read back, and the
  position is then behind it.
-/

namespace SteerStone.Network

open Foundations

/-- `std::string::substr`: `length` characters from `pos` on, or those there are; past the end it
throws. -/
def substr {m : Type → Type} [Alternative m] (s : List UInt8) (pos length : ℕ) : m (List UInt8) :=
  if pos ≤ s.length then pure ((s.drop pos).take length) else failure

/-- `std::string::substr` without a length: everything from `pos` on. -/
def substrFrom {m : Type → Type} [Alternative m] (s : List UInt8) (pos : ℕ) : m (List UInt8) :=
  substr s pos s.length

/-- The conversion of an `int` to `std::size_t`. -/
def toSize (i : Int32) : ℕ := i.toInt64.toUInt64.toNat

/-- A `ClientPacket`. -/
structure ClientPacket where
  /-- `m_ReadPosition`. -/
  readPosition : ℕ
  /-- `m_Content`. -/
  content : List UInt8
  /-- `m_Header`. -/
  header : UInt32

namespace ClientPacket

/-- The constructor: the first two characters are the header, the others the content. -/
def new (contents : List UInt8) : Option ClientPacket := do
  let header ← substr contents 0 2
  let content ← substrFrom contents 2
  return ⟨0, content, (decodeBase64 header).toUInt32⟩

/-- Move the read position, a `std::size_t`. -/
def skip (n : ℕ) : Reader ClientPacket Unit :=
  modify fun p => { p with readPosition := (p.readPosition + n) % 2 ^ 64 }

/-- `ReadString`. -/
def readString : Reader ClientPacket (List UInt8) := do
  let p ← get
  let length := toSize (decodeBase64 (← substr p.content p.readPosition 2))
  let temp ← substr p.content ((2 + p.readPosition) % 2 ^ 64) length
  skip (length + 2)
  return temp

/-- The reads of a base64 number, which differ in its type. -/
def readBase64 {α : Type} (convert : Int32 → α) : Reader ClientPacket α := do
  let p ← get
  let buffer ← substr p.content p.readPosition 2
  skip 2
  return convert (decodeBase64 buffer)

/-- `ReadBase64Int`. -/
def readBase64Int : Reader ClientPacket Int32 := readBase64 id

/-- `ReadBase64Uint`. -/
def readBase64Uint : Reader ClientPacket UInt32 := readBase64 Int32.toUInt32

/-- The reads of a wired number, which differ in its type: `convert` is the conversion to it and
`widen` the one from it to the `int64` that is encoded again. -/
def readWired {α : Type} (convert : Int32 → α) (widen : α → Int64) : Reader ClientPacket α := do
  let p ← get
  let buffer ← substrFrom p.content p.readPosition
  let i := convert (decodeWired buffer)
  skip (encodeWired (widen i)).length
  return i

/-- `ReadWiredInt`. -/
def readWiredInt : Reader ClientPacket Int32 := readWired id Int32.toInt64

/-- `ReadWiredUint`. -/
def readWiredUint : Reader ClientPacket UInt32 :=
  readWired Int32.toUInt32 fun i => i.toUInt64.toInt64

/-- `ReadWiredBool`. -/
def readWiredBool : Reader ClientPacket Bool := do
  let i ← readWired Int32.toInt64 id
  return i == 1

/-- A length that is not negative as an `int` stays as it is. -/
lemma toSize_ofNat {n : ℕ} (h : n < 2 ^ 31) : toSize (Int32.ofNat n) = n := by
  have hwiden : (Int32.ofNat n).toInt64 = Int64.ofNat n := by
    apply Int64.toInt_inj.mp
    rw [Int32.toInt_toInt64, Int32.toInt_ofNat_of_lt h, Int64.toInt_ofNat_of_lt (by omega)]
  have hsize : (Int64.ofNat n).toUInt64 = UInt64.ofNat n := rfl
  rw [toSize, hwiden, hsize, UInt64.toNat_ofNat', Nat.mod_eq_of_lt (by omega)]

/-! ## The content as an input -/

/-- The content is a text and the read position a cursor in it. -/
def input : Input ClientPacket UInt8 where
  Valid p := p.readPosition ≤ p.content.length ∧ p.content.length < 2 ^ 64
  remaining p := p.content.drop p.readPosition
  advance p n := { p with readPosition := p.readPosition + n }
  valid_advance := by
    intro p n hp hn
    rw [List.length_drop] at hn
    exact ⟨by show p.readPosition + n ≤ p.content.length; have := hp.1; omega, hp.2⟩
  remaining_advance := by
    intro p n _ _
    exact List.drop_drop.symm
  advance_zero _ := rfl
  advance_advance p m n := by rw [Nat.add_assoc]

variable {p : ClientPacket} {text rest : List UInt8}

/-- The text that is next is in the content, at the read position. -/
lemma length_le_of_remaining (hp : input.Valid p) (h : input.remaining p = text ++ rest) :
    p.readPosition + text.length + rest.length = p.content.length := by
  have hlen : (p.content.drop p.readPosition).length = text.length + rest.length := by
    rw [← List.length_append]
    exact congrArg List.length h
  rw [List.length_drop] at hlen
  have := hp.1
  omega

/-- Moving past a text that is next. -/
lemma result_skip (hp : input.Valid p) (h : input.remaining p = text ++ rest) :
    (skip text.length).result p = (some (), input.advance p text.length) := by
  have hlen := length_le_of_remaining hp h
  have hlt := hp.2
  have hmod : (p.readPosition + text.length) % 2 ^ 64 = p.readPosition + text.length :=
    Nat.mod_eq_of_lt (by omega)
  have hresult : (skip text.length).result p =
      (some (), { p with readPosition := (p.readPosition + text.length) % 2 ^ 64 }) := rfl
  rw [hresult, hmod]
  rfl

/-- The characters at the read position, which any reader can take. -/
lemma result_substr (hp : input.Valid p) (h : input.remaining p = text ++ rest)
    (p' : ClientPacket) :
    Reader.result (substr p.content p.readPosition text.length) p' = (some text, p') := by
  have hdrop : p.content.drop p.readPosition = text ++ rest := h
  rw [substr, if_pos hp.1, hdrop, List.take_left, Reader.result_pure]

/-- Everything from the read position on. -/
lemma result_substrFrom (hp : input.Valid p) (h : input.remaining p = text) :
    Reader.result (substrFrom p.content p.readPosition) p = (some text, p) := by
  have hdrop : p.content.drop p.readPosition = text := h
  have hle : text.length ≤ p.content.length := by
    rw [← hdrop, List.length_drop]
    exact Nat.sub_le _ _
  rw [substrFrom, substr, if_pos hp.1, hdrop, List.take_of_length_le hle, Reader.result_pure]

/-! ## Reading back -/

/-- **A base64 number below 4096** is read back. -/
theorem readsBack_readBase64 {α : Type} (convert : Int32 → α) {value : UInt32}
    (h : value < 4096) :
    input.ReadsBack (readBase64 convert) (convert value.toInt32) (encodeBase64 value) := by
  intro p rest hp hrem
  have hsubstr : Reader.result (substr p.content p.readPosition 2) p = _ := result_substr hp hrem p
  have hskip : Reader.result (skip 2) p = _ := result_skip hp hrem
  rw [readBase64, Reader.result_bind (Reader.result_get p), Reader.result_bind hsubstr,
    Reader.result_bind hskip, Reader.result_pure, decodeBase64_encodeBase64 h]

/-- **A wired number** is read back, if the number that is encoded again is the one that was.

**Proof sketch.** Everything from the read position on is decoded, and the text is found at its
front whatever follows (`decodeWired_encodeWired`). The position moves by the length of the text, as
encoding again gives the same text. -/
theorem readsBack_readWired {α : Type} (convert : Int32 → α) (widen : α → Int64) {value : α}
    (hvalue : (widen value).toInt.natAbs < 2 ^ 32)
    (hconvert : convert (widen value).toInt32 = value) :
    input.ReadsBack (readWired convert widen) value (encodeWired (widen value)) := by
  intro p rest hp hrem
  have hdecode : convert (decodeWired (encodeWired (widen value) ++ rest)) = value := by
    rw [decodeWired_encodeWired hvalue, hconvert]
  rw [readWired, Reader.result_bind (Reader.result_get p),
    Reader.result_bind (result_substrFrom hp hrem)]
  simp only [hdecode]
  rw [Reader.result_bind (result_skip hp hrem), Reader.result_pure]

/-- An `int` has 32 bits. -/
lemma natAbs_toInt64_lt (value : Int32) : value.toInt64.toInt.natAbs < 2 ^ 32 := by
  have hle := value.le_toInt
  have hlt := value.toInt_lt
  rw [Int32.toInt_toInt64]
  omega

/-- A signed number of 32 bits is read back. -/
lemma readsBack_readWiredInt (value : Int32) :
    input.ReadsBack readWiredInt value (encodeWired value.toInt64) :=
  readsBack_readWired id Int32.toInt64 (natAbs_toInt64_lt value) (Int32.toInt32_toInt64 value)

/-- An unsigned number of 32 bits as an `int64`. -/
lemma toInt_toUInt64_toInt64 (value : UInt32) : value.toUInt64.toInt64.toInt = value.toNat := by
  have hlt := value.toNat_lt
  have hsmall : 2 * value.toUInt64.toBitVec.toNat < 2 ^ 64 := by
    have : value.toUInt64.toBitVec.toNat = value.toNat := value.toNat_toUInt64
    omega
  exact BitVec.toInt_eq_toNat_of_lt hsmall

/-- A `uint32` has 32 bits. -/
lemma natAbs_toUInt64_lt (value : UInt32) : value.toUInt64.toInt64.toInt.natAbs < 2 ^ 32 := by
  have hlt := value.toNat_lt
  rw [toInt_toUInt64_toInt64]
  omega

/-- An unsigned number of 32 bits is read back. -/
lemma readsBack_readWiredUint (value : UInt32) :
    input.ReadsBack readWiredUint value (encodeWired value.toUInt64.toInt64) := by
  apply readsBack_readWired Int32.toUInt32 fun i => i.toUInt64.toInt64
  · exact natAbs_toUInt64_lt value
  · rw [← Int32.ofInt_int64ToInt, toInt_toUInt64_toInt64, Int32.ofInt_eq_ofNat,
      ← UInt32.toInt32_ofNat', UInt32.ofNat_toNat, UInt32.toUInt32_toInt32]

/-- A `bool` is read back. -/
lemma readsBack_readWiredBool (value : Bool) :
    input.ReadsBack readWiredBool value (encodeWired (if value then 1 else 0)) := by
  have hread : ∀ i : Int64, i.toInt.natAbs < 2 ^ 32 → i.toInt32.toInt64 = i →
      input.ReadsBack readWiredBool (i == 1) (encodeWired i) := by
    intro i hi hi'
    have hmap := (readsBack_readWired Int32.toInt64 id hi hi').map (· == 1)
    rwa [← bind_pure_comp] at hmap
  cases value with
  | false => exact hread 0 (by decide) (by decide)
  | true => exact hread 1 (by decide) (by decide)

/-- **A string of fewer than 4096 characters** is read back from its length and the characters.

**Proof sketch.** The length is a base64 number, so the two characters before the string give it
back; it is then not negative, and the string is what follows up to it. -/
theorem readsBack_readString {s : List UInt8} (h : s.length < 4096) :
    input.ReadsBack readString s (encodeBase64 (UInt32.ofNat s.length) ++ s) := by
  have hlt : UInt32.ofNat s.length < 4096 := by
    rw [UInt32.lt_iff_toNat_lt, UInt32.toNat_ofNat', Nat.mod_eq_of_lt (by omega)]
    exact h
  have hlength : toSize (decodeBase64 (encodeBase64 (UInt32.ofNat s.length))) = s.length := by
    rw [decodeBase64_encodeBase64 hlt, UInt32.toInt32_ofNat', toSize_ofNat (by omega)]
  intro p rest hp hrem
  have hskip : Reader.result (skip (s.length + 2)) p =
      (some (), input.advance p (encodeBase64 (UInt32.ofNat s.length) ++ s).length) := by
    have hsum : (encodeBase64 (UInt32.ofNat s.length) ++ s).length = s.length + 2 := by
      rw [List.length_append, length_encodeBase64, Nat.add_comm]
    rw [← hsum]
    exact result_skip hp hrem
  rw [List.append_assoc] at hrem
  have hsubstr : Reader.result (substr p.content p.readPosition 2) p = _ := result_substr hp hrem p
  obtain ⟨hvalid, hnext⟩ := Input.remaining_advance_append hp hrem
  have hmod : (2 + p.readPosition) % 2 ^ 64 = p.readPosition + 2 := by
    have hle : p.readPosition + 2 ≤ p.content.length := hvalid.1
    have := hp.2
    omega
  have hstring : Reader.result (substr p.content ((2 + p.readPosition) % 2 ^ 64) s.length) p =
      (some s, p) := by
    rw [hmod]
    exact result_substr hvalid hnext p
  rw [readString, Reader.result_bind (Reader.result_get p), Reader.result_bind hsubstr]
  simp only [hlength]
  rw [Reader.result_bind hstring, Reader.result_bind hskip, Reader.result_pure]

end ClientPacket

end SteerStone.Network
