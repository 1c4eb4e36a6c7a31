import PristonTale.Network.StringBuffer
import PristonTale.Network.ClientPacket

set_option relaxedAutoImplicit false
set_option autoImplicit false

/-!
# The field codec

A packet is written field by field into the buffer of a `ServerPacket` and read field by field from
a `ClientPacket`. Nothing in the bytes says of which kind a field is; the reader has to ask for the
kinds in the order in which they were written.

## Main definitions

* `SteerStone.Network.Field` — a field: its kind and a value that the kind has room for.
* `SteerStone.Network.appendField`, `SteerStone.Network.readField` — the `Append` and the `Read`
  functions by the kind.

## Main results

* `SteerStone.Network.readsBack_readField` — a field is read back, whatever follows it.
* `SteerStone.Network.field_codec_round_trip` — a packet is read back.
-/

namespace SteerStone.Network

open Foundations

/-- A field: its kind, and a value that the kind has room for. -/
inductive Field where
  /-- `AppendWired` of an `int32`, to be read by `ReadWiredInt`. -/
  | wiredInt (value : Int32)
  /-- `AppendWired` of a `uint32`, to be read by `ReadWiredUint`. -/
  | wiredUint (value : UInt32)
  /-- `AppendWiredBool`, to be read by `ReadWiredBool`. -/
  | wiredBool (value : Bool)
  /-- `AppendBase64`, to be read by `ReadBase64Int`. -/
  | base64Int (value : Int32) (inRange : 0 ≤ value ∧ value < 4096)
  /-- `AppendBase64`, to be read by `ReadBase64Uint`. -/
  | base64Uint (value : UInt32) (inRange : value < 4096)
  /-- `AppendBase64` of the length and `AppendString` without a delimiter, to be read by
  `ReadString`. -/
  | string (value : List UInt8) (inRange : value.length < 4096)

/-- The kinds of fields. -/
inductive FieldKind where
  | wiredInt | wiredUint | wiredBool | base64Int | base64Uint | string
  deriving DecidableEq

/-- What the reads return. -/
inductive FieldValue where
  | int (value : Int32)
  | uint (value : UInt32)
  | bool (value : Bool)
  | string (value : List UInt8)
  deriving DecidableEq

namespace Field

/-- The kind of a field. -/
def kind : Field → FieldKind
  | wiredInt _ => .wiredInt
  | wiredUint _ => .wiredUint
  | wiredBool _ => .wiredBool
  | base64Int _ _ => .base64Int
  | base64Uint _ _ => .base64Uint
  | string _ _ => .string

/-- The value of a field. -/
def value : Field → FieldValue
  | wiredInt v => .int v
  | wiredUint v => .uint v
  | wiredBool v => .bool v
  | base64Int v _ => .int v
  | base64Uint v _ => .uint v
  | string s _ => .string s

/-- The bytes of a field. -/
def bytes : Field → List UInt8
  | wiredInt v => encodeWired v.toInt64
  | wiredUint v => encodeWired v.toUInt64.toInt64
  | wiredBool v => encodeWired (if v then 1 else 0)
  | base64Int v _ => encodeBase64 v.toUInt32
  | base64Uint v _ => encodeBase64 v
  | string s _ => encodeBase64 (UInt32.ofNat s.length) ++ s

end Field

/-- Append a field. -/
def appendField (b : StringBuffer) : Field → Option StringBuffer
  | .wiredInt v => b.appendWired v.toInt64
  | .wiredUint v => b.appendWired v.toUInt64.toInt64
  | .wiredBool v => b.appendWiredBool v
  | .base64Int v _ => b.appendBase64 v.toUInt32
  | .base64Uint v _ => b.appendBase64 v
  | .string s _ => do
    let b ← b.appendBase64 (UInt32.ofNat s.length)
    b.appendString s false

/-- Append fields in order. -/
def appendFields (b : StringBuffer) (fields : List Field) : Option StringBuffer :=
  fields.foldlM appendField b

/-- Read a field of a kind. -/
def readField : FieldKind → Reader ClientPacket FieldValue
  | .wiredInt => .int <$> ClientPacket.readWiredInt
  | .wiredUint => .uint <$> ClientPacket.readWiredUint
  | .wiredBool => .bool <$> ClientPacket.readWiredBool
  | .base64Int => .int <$> ClientPacket.readBase64Int
  | .base64Uint => .uint <$> ClientPacket.readBase64Uint
  | .string => .string <$> ClientPacket.readString

/-- Read fields of the kinds in order. -/
def readFields (kinds : List FieldKind) : Reader ClientPacket (List FieldValue) :=
  kinds.mapM readField

/-! ## Writing -/

/-- Appending a field puts its bytes at the end, as long as the buffer stays below its limit. -/
lemma appendField_ofBytes {l : List UInt8} (f : Field)
    (h : (l ++ f.bytes).length < StringBuffer.sizeLimit) :
    appendField (.ofBytes l) f = some (.ofBytes (l ++ f.bytes)) := by
  have hl : l.length < StringBuffer.sizeLimit := by
    rw [List.length_append] at h
    exact Nat.lt_of_le_of_lt (Nat.le_add_right _ _) h
  cases f with
  | wiredInt v => exact StringBuffer.append_ofBytes hl (encodeWired v.toInt64)
  | wiredUint v => exact StringBuffer.append_ofBytes hl (encodeWired v.toUInt64.toInt64)
  | wiredBool v =>
    cases v with
    | false => exact StringBuffer.append_ofBytes hl (encodeWired 0)
    | true => exact StringBuffer.append_ofBytes hl (encodeWired 1)
  | base64Int v _ => exact StringBuffer.append_ofBytes hl (encodeBase64 v.toUInt32)
  | base64Uint v _ => exact StringBuffer.append_ofBytes hl (encodeBase64 v)
  | string s _ =>
    have hlength : (l ++ encodeBase64 (UInt32.ofNat s.length)).length < StringBuffer.sizeLimit := by
      simp only [Field.bytes, List.length_append] at h ⊢
      omega
    simp only [appendField, StringBuffer.appendBase64, StringBuffer.append_ofBytes hl,
      StringBuffer.appendString, StringBuffer.append_ofBytes hlength, Option.bind_eq_bind,
      Option.bind_some, Bool.false_eq_true, if_false, Field.bytes, List.append_assoc]

/-- Appending fields puts their bytes at the end, one after the other. -/
lemma appendFields_ofBytes {l : List UInt8} (fields : List Field)
    (h : (l ++ fields.flatMap Field.bytes).length < StringBuffer.sizeLimit) :
    appendFields (.ofBytes l) fields = some (.ofBytes (l ++ fields.flatMap Field.bytes)) := by
  induction fields generalizing l with
  | nil => rw [List.flatMap_nil, List.append_nil]; rfl
  | cons f fields ih =>
    rw [List.flatMap_cons, ← List.append_assoc] at h ⊢
    have hf : (l ++ f.bytes).length < StringBuffer.sizeLimit := by
      rw [List.length_append] at h
      exact Nat.lt_of_le_of_lt (Nat.le_add_right _ _) h
    rw [appendFields, List.foldlM_cons, appendField_ofBytes f hf]
    exact ih h

/-! ## Reading -/

/-- A field is read back, whatever follows it. -/
lemma readsBack_readField (f : Field) :
    ClientPacket.input.ReadsBack (readField f.kind) f.value f.bytes := by
  cases f with
  | wiredInt v => exact (ClientPacket.readsBack_readWiredInt v).map FieldValue.int
  | wiredUint v => exact (ClientPacket.readsBack_readWiredUint v).map FieldValue.uint
  | wiredBool v => exact (ClientPacket.readsBack_readWiredBool v).map FieldValue.bool
  | base64Int v h =>
    have hlt : v.toUInt32 < 4096 := by
      have hbound : (4096 : Int32).toInt = 4096 := by decide
      have hint := Int32.lt_iff_toInt_lt.mp h.2
      rw [UInt32.lt_iff_toNat_lt, Int32.toNat_toUInt32_of_le h.1, ← Int32.toNat_toInt]
      show v.toInt.toNat < 4096
      omega
    exact (ClientPacket.readsBack_readBase64 id hlt).map FieldValue.int
  | base64Uint v h => exact (ClientPacket.readsBack_readBase64 Int32.toUInt32 h).map FieldValue.uint
  | string s h => exact (ClientPacket.readsBack_readString h).map FieldValue.string

/-- Fields are read back in order. -/
lemma readsBack_readFields (fields : List Field) :
    ClientPacket.input.ReadsBack (readFields (fields.map Field.kind)) (fields.map Field.value)
      (fields.flatMap Field.bytes) := by
  rw [readFields, List.mapM_map]
  exact Input.ReadsBack.mapM fun f _ => readsBack_readField f

/-! ## The round trip -/

/-- A packet of the bytes of a header and of what follows. -/
lemma ClientPacket.new_eq {header : UInt32} (h : header < 4096) (content : List UInt8) :
    ClientPacket.new (encodeBase64 header ++ content) = some ⟨0, content, header⟩ := by
  have hle : 2 ≤ (encodeBase64 header ++ content).length := by
    rw [List.length_append, length_encodeBase64]
    exact Nat.le_add_right 2 _
  have hheader : (substr (encodeBase64 header ++ content) 0 2 : Option _) =
      some (encodeBase64 header) := rfl
  have hcontent : (substrFrom (encodeBase64 header ++ content) 2 : Option _) = some content := by
    have hdrop : (encodeBase64 header ++ content).drop 2 = content := rfl
    rw [substrFrom, substr, if_pos hle, hdrop, List.take_of_length_le (by simp)]
    rfl
  rw [ClientPacket.new, hheader, hcontent, Option.bind_eq_bind, Option.bind_some,
    Option.bind_some, decodeBase64_encodeBase64 h, UInt32.toUInt32_toInt32]
  rfl

/-- **The field codec**: a packet with a header below 4096 and any fields, as long as it is smaller
than the buffer's limit, is read back. The reads of the kinds of the fields return their values, the
header is the one that was written, and the read position is then the length of the content.

**Proof sketch.** The buffer holds the bytes of the header and of the fields one after the other
(`appendFields_ofBytes`). The header is its first two bytes. Each field is read back whatever
follows it (`readsBack_readField`), and so are the fields in order. -/
theorem field_codec_round_trip {header : UInt32} {fields : List Field} (hheader : header < 4096)
    (hsize : (encodeBase64 header ++ fields.flatMap Field.bytes).length < StringBuffer.sizeLimit) :
    ∃ server buffer client client',
      ServerPacket.new header = some server ∧
      appendFields server.buffer fields = some buffer ∧
      buffer.storage = encodeBase64 header ++ fields.flatMap Field.bytes ∧
      ClientPacket.new buffer.storage = some client ∧
      client.header = header ∧
      (readFields (fields.map Field.kind)).result client =
        (some (fields.map Field.value), client') ∧
      client'.header = header ∧ client'.content = client.content ∧
      client'.readPosition = client'.content.length := by
  set content := fields.flatMap Field.bytes with hcontent
  have hvalid : ClientPacket.input.Valid ⟨0, content, header⟩ := by
    refine ⟨Nat.zero_le _, ?_⟩
    rw [List.length_append] at hsize
    have hlimit : StringBuffer.sizeLimit < 2 ^ 64 := by decide
    show content.length < 2 ^ 64
    omega
  have hread := readsBack_readFields fields ⟨0, content, header⟩ [] hvalid
    (List.append_nil _).symm
  refine ⟨_, _, _, _, ServerPacket.new_eq header, appendFields_ofBytes fields hsize, rfl,
    ClientPacket.new_eq hheader content, rfl, hread, rfl, rfl, Nat.zero_add _⟩

/-- The round trip for a field of each kind, with the numbers of the largest size. -/
theorem field_codec_round_trip_kinds :
    ∃ fields : List Field, fields.map Field.value =
        [.int (-2147483648), .uint 4294967295, .bool true, .int 4095, .uint 0, .string [65, 0]] ∧
      ∃ server buffer client client',
        ServerPacket.new 206 = some server ∧
        appendFields server.buffer fields = some buffer ∧
        buffer.storage = encodeBase64 206 ++ fields.flatMap Field.bytes ∧
        ClientPacket.new buffer.storage = some client ∧
        client.header = 206 ∧
        (readFields (fields.map Field.kind)).result client =
          (some (fields.map Field.value), client') ∧
        client'.header = 206 ∧ client'.content = client.content ∧
        client'.readPosition = client'.content.length :=
  ⟨[.wiredInt (-2147483648), .wiredUint 4294967295, .wiredBool true,
      .base64Int 4095 (by decide), .base64Uint 0 (by decide), .string [65, 0] (by decide)], rfl,
    field_codec_round_trip (by decide) (by decide +kernel)⟩

end SteerStone.Network
