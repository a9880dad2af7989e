import AlienIdTransferHook.WireFields
import AlienIdTransferHook.Utf16

/-!
# The attestation data and its schema

`sdk/schema.ts` describes the attestation data twice: as the layout bytes the
schema account declares, and as the encoder the SDK calls. What the encoder
writes is read back here along the layout. JavaScript's numbers and bigints are
integers, its strings are code units, and a Node write out of range is `none`.
-/
namespace AlienIdTransferHook
open ByteCodec WireFields Utf16

/-- `VecU8`, `U8`, `String`, `String`, `VecU8`, `U64`. -/
def SCHEMA_LAYOUT : List UInt8 := [13, 0, 12, 12, 13, 3]

structure AlienIdAttestationData where
  alienAccountAddress : List UInt8
  alienIDVersion : ℤ
  alienChainId : List UInt16
  solanaAddress : List UInt16
  linkageProof : List UInt8
  timestamp : ℤ
deriving DecidableEq

/-- `writeUInt32LE`, which throws from `2 ^ 32` on. -/
def u32LE (value : ℕ) : Option (List UInt8) :=
  if value < 2 ^ 32 then some (toLE 4 value) else none

/-- `writeBigInt64LE`, which throws outside the signed range. -/
def i64LE (value : ℤ) : Option (List UInt8) :=
  if -2 ^ 63 ≤ value ∧ value < 2 ^ 63 then some (i64ToLE value) else none

/-- `Buffer.from([value])`, which keeps the value modulo 256. -/
def bufferFromByte (value : ℤ) : List UInt8 := [UInt8.ofNat (value % 256).toNat]

def encodeAlienIdAttestationData (params : AlienIdAttestationData) : Option (List UInt8) := do
  let alienAccountAddressBytes := params.alienAccountAddress
  let alienChainIdBytes := toUtf8 params.alienChainId
  let solanaAddressBytes := toUtf8 params.solanaAddress
  let linkageProofBytes := params.linkageProof
  let alienAccountAddressLength ← u32LE alienAccountAddressBytes.length
  let alienChainIdLength ← u32LE alienChainIdBytes.length
  let solanaAddressLength ← u32LE solanaAddressBytes.length
  let linkageProofLength ← u32LE linkageProofBytes.length
  let timestamp ← i64LE params.timestamp
  return [alienAccountAddressLength, alienAccountAddressBytes,
    bufferFromByte params.alienIDVersion,
    alienChainIdLength, alienChainIdBytes,
    solanaAddressLength, solanaAddressBytes,
    linkageProofLength, linkageProofBytes,
    timestamp].flatten

/-! ## Reading along the layout -/

inductive FieldValue
  | u8 (value : ℤ)
  | u64 (value : ℤ)
  | string (value : List UInt16)
  | vecU8 (value : List UInt8)
deriving DecidableEq

/-- A field of the type a layout byte declares. -/
def readField (dataType : UInt8) : Reader FieldValue := fun bs =>
  if dataType = 13 then do
    let (bytes, rest) ← readSized bs
    return (.vecU8 bytes, rest)
  else if dataType = 0 then do
    let (value, rest) ← readLE 1 bs
    return (.u8 value, rest)
  else if dataType = 12 then do
    let (bytes, rest) ← readSized bs
    let value ← ofUtf8? bytes
    return (.string value, rest)
  else if dataType = 3 then do
    let (value, rest) ← readLE 8 bs
    return (.u64 value, rest)
  else none

def decodeLayout (layout : List UInt8) : Reader (List FieldValue) := readFields readField layout

lemma readField_vecU8 {bytes : List UInt8} (h : bytes.length < 2 ^ 32) :
    ReadsAs (readField 13) (toLE 4 bytes.length ++ bytes) (.vecU8 bytes) := by
  intro rest
  rw [readField, if_pos rfl, readSized_readsAs h rest]
  rfl

lemma readField_u8 (value : ℤ) :
    ReadsAs (readField 0) (bufferFromByte value) (.u8 (value % 256)) := by
  intro rest
  have hlt : (value % 256).toNat < 256 ^ 1 := by omega
  have hbytes : bufferFromByte value = toLE 1 (value % 256).toNat := by
    rw [bufferFromByte, toLE, toLE, Nat.mod_eq_of_lt (by omega)]
  have hvalue : ((value % 256).toNat : ℤ) = value % 256 := by omega
  rw [readField, if_neg (by decide), if_pos rfl, hbytes, readLE_readsAs hlt rest, ← hvalue]
  rfl

lemma readField_string {s : List UInt16} (h : (toUtf8 s).length < 2 ^ 32) :
    ReadsAs (readField 12) (toLE 4 (toUtf8 s).length ++ toUtf8 s) (.string (toWellFormed s)) := by
  intro rest
  rw [readField, if_neg (by decide), if_neg (by decide), if_pos rfl, readSized_readsAs h rest]
  dsimp only [Option.bind_eq_bind, Option.bind_some]
  rw [ofUtf8?_toUtf8]
  rfl

lemma readField_u64 (value : ℤ) :
    ReadsAs (readField 3) (i64ToLE value) (.u64 (value % 2 ^ 64)) := by
  intro rest
  have hlt : (value % 2 ^ 64).toNat < 256 ^ 8 := by omega
  have hvalue : ((value % 2 ^ 64).toNat : ℤ) = value % 2 ^ 64 := by omega
  rw [readField, if_neg (by decide), if_neg (by decide), if_neg (by decide), if_pos rfl, i64ToLE,
    readLE_readsAs hlt rest, ← hvalue]
  rfl

namespace AlienIdAttestationData

/-- The six fields, in the order of the layout. -/
def fields (a : AlienIdAttestationData) : List FieldValue :=
  [.vecU8 a.alienAccountAddress, .u8 a.alienIDVersion, .string a.alienChainId,
    .string a.solanaAddress, .vecU8 a.linkageProof, .u64 a.timestamp]

lemma fields_injective {a b : AlienIdAttestationData} (h : a.fields = b.fields) : a = b := by
  cases a
  cases b
  simpa [fields] using h

/-- Every length and the timestamp are in the range of the Node function that writes them. -/
structure Writable (a : AlienIdAttestationData) : Prop where
  alienAccountAddress : a.alienAccountAddress.length < 2 ^ 32
  alienChainId : (toUtf8 a.alienChainId).length < 2 ^ 32
  solanaAddress : (toUtf8 a.solanaAddress).length < 2 ^ 32
  linkageProof : a.linkageProof.length < 2 ^ 32
  timestamp : -2 ^ 63 ≤ a.timestamp ∧ a.timestamp < 2 ^ 63

/-- Each field's bytes, in the order of the layout. -/
def fieldBytes (a : AlienIdAttestationData) : List (List UInt8) :=
  [toLE 4 a.alienAccountAddress.length ++ a.alienAccountAddress,
    bufferFromByte a.alienIDVersion,
    toLE 4 (toUtf8 a.alienChainId).length ++ toUtf8 a.alienChainId,
    toLE 4 (toUtf8 a.solanaAddress).length ++ toUtf8 a.solanaAddress,
    toLE 4 a.linkageProof.length ++ a.linkageProof,
    i64ToLE a.timestamp]

/-- What the bytes of a field keep of it. -/
def stored (a : AlienIdAttestationData) : AlienIdAttestationData :=
  { a with
    alienIDVersion := a.alienIDVersion % 256
    alienChainId := toWellFormed a.alienChainId
    solanaAddress := toWellFormed a.solanaAddress
    timestamp := a.timestamp % 2 ^ 64 }

/-- Along the layout, the fields' bytes read as what they keep. -/
theorem fieldBytes_readsAs {a : AlienIdAttestationData} (h : a.Writable) :
    ReadsAs (decodeLayout SCHEMA_LAYOUT) a.fieldBytes.flatten a.stored.fields := by
  have hfields : ∀ f ∈ SCHEMA_LAYOUT.zip (a.fieldBytes.zip a.stored.fields),
      ReadsAs (readField f.1) f.2.1 f.2.2 := by
    intro f hf
    simp only [SCHEMA_LAYOUT, fieldBytes, fields, List.zip_cons_cons, List.zip_nil_right,
      List.mem_cons, List.not_mem_nil, or_false] at hf
    obtain rfl | rfl | rfl | rfl | rfl | rfl := hf
    · exact readField_vecU8 h.alienAccountAddress
    · exact readField_u8 a.alienIDVersion
    · exact readField_string h.alienChainId
    · exact readField_string h.solanaAddress
    · exact readField_vecU8 h.linkageProof
    · exact readField_u64 a.timestamp
  simpa [SCHEMA_LAYOUT, fieldBytes, fields, decodeLayout] using readFields_readsAs hfields

/-- The encoder returns the fields' bytes, or throws where one of its writes does. -/
theorem encode_eq_some_iff {a : AlienIdAttestationData} {bytes : List UInt8} :
    encodeAlienIdAttestationData a = some bytes ↔ a.Writable ∧ bytes = a.fieldBytes.flatten := by
  constructor
  · intro h
    simp only [encodeAlienIdAttestationData, u32LE, i64LE, Option.bind_eq_bind,
      Option.bind_eq_some_iff, Option.ite_none_right_eq_some, Option.pure_def,
      Option.some.injEq] at h
    obtain ⟨_, ⟨haddress, rfl⟩, _, ⟨hchain, rfl⟩, _, ⟨hsolana, rfl⟩, _, ⟨hproof, rfl⟩,
      _, ⟨htime, rfl⟩, rfl⟩ := h
    refine ⟨⟨haddress, hchain, hsolana, hproof, htime⟩, ?_⟩
    simp [fieldBytes]
  · rintro ⟨h, rfl⟩
    simp only [encodeAlienIdAttestationData, u32LE, i64LE, if_pos h.alienAccountAddress,
      if_pos h.alienChainId, if_pos h.solanaAddress, if_pos h.linkageProof, if_pos h.timestamp]
    simp [fieldBytes]

/-- What the encoder returns reads back as what its bytes keep, to the last byte. -/
theorem decode_encode {a : AlienIdAttestationData} {bytes : List UInt8}
    (h : encodeAlienIdAttestationData a = some bytes) :
    decodeLayout SCHEMA_LAYOUT bytes = some (a.stored.fields, []) := by
  obtain ⟨hwritable, rfl⟩ := encode_eq_some_iff.mp h
  simpa using fieldBytes_readsAs hwritable []

/-- The version, the strings and the timestamp are values of the types in the layout. -/
structure Representable (a : AlienIdAttestationData) : Prop where
  alienIDVersion : 0 ≤ a.alienIDVersion ∧ a.alienIDVersion < 256
  alienChainId : WellFormed a.alienChainId
  solanaAddress : WellFormed a.solanaAddress
  timestamp : 0 ≤ a.timestamp ∧ a.timestamp < 2 ^ 64

theorem stored_eq_iff {a : AlienIdAttestationData} : a.stored = a ↔ a.Representable := by
  constructor
  · intro h
    have hversion : a.alienIDVersion % 256 = a.alienIDVersion := congrArg (·.alienIDVersion) h
    have hchain : toWellFormed a.alienChainId = a.alienChainId := congrArg (·.alienChainId) h
    have hsolana : toWellFormed a.solanaAddress = a.solanaAddress :=
      congrArg (·.solanaAddress) h
    have htime : a.timestamp % 2 ^ 64 = a.timestamp := congrArg (·.timestamp) h
    exact ⟨by omega, toWellFormed_eq_iff.mp hchain, toWellFormed_eq_iff.mp hsolana, by omega⟩
  · intro h
    have hversion : a.alienIDVersion % 256 = a.alienIDVersion :=
      Int.emod_eq_of_lt h.alienIDVersion.1 h.alienIDVersion.2
    have htime : a.timestamp % 2 ^ 64 = a.timestamp :=
      Int.emod_eq_of_lt h.timestamp.1 h.timestamp.2
    rw [stored, hversion, htime, toWellFormed_eq_iff.mpr h.alienChainId,
      toWellFormed_eq_iff.mpr h.solanaAddress]

theorem decode_encode_iff {a : AlienIdAttestationData} {bytes : List UInt8}
    (h : encodeAlienIdAttestationData a = some bytes) :
    decodeLayout SCHEMA_LAYOUT bytes = some (a.fields, []) ↔ a.Representable := by
  rw [decode_encode h, Option.some.injEq, Prod.mk.injEq, and_iff_left rfl, ← stored_eq_iff]
  exact ⟨fields_injective, congrArg fields⟩

lemma fieldBytes_stored (a : AlienIdAttestationData) : a.stored.fieldBytes = a.fieldBytes := by
  have hutf8 : ∀ s, toUtf8 (toWellFormed s) = toUtf8 s := by
    intro s
    rw [toUtf8, toWellFormed, Utf16.decode_encode, toUtf8]
  have hversion : bufferFromByte (a.alienIDVersion % 256) = bufferFromByte a.alienIDVersion := by
    rw [bufferFromByte, Int.emod_emod_of_dvd _ dvd_rfl, bufferFromByte]
  have htime : i64ToLE (a.timestamp % 2 ^ 64) = i64ToLE a.timestamp := by
    rw [i64ToLE, Int.emod_emod_of_dvd _ dvd_rfl, i64ToLE]
  simp only [fieldBytes, stored, hutf8, hversion, htime]

/-- Two attestations share their encoding exactly when the bytes keep the same of both. -/
theorem encode_eq_encode_iff {a b : AlienIdAttestationData} (ha : a.Writable) (hb : b.Writable) :
    encodeAlienIdAttestationData a = encodeAlienIdAttestationData b ↔ a.stored = b.stored := by
  have hencode : encodeAlienIdAttestationData b = some b.fieldBytes.flatten :=
    encode_eq_some_iff.mpr ⟨hb, rfl⟩
  constructor
  · intro h
    have hread := decode_encode (h.trans hencode)
    rw [decode_encode hencode, Option.some.injEq, Prod.mk.injEq] at hread
    exact (fields_injective hread.1).symm
  · intro h
    rw [hencode, encode_eq_some_iff, ← fieldBytes_stored b, ← h, fieldBytes_stored]
    exact ⟨ha, rfl⟩

/-- The lengths, the version, the strings and the timestamp are values of the types the layout
declares. -/
structure InLayout (a : AlienIdAttestationData) : Prop where
  alienAccountAddress : a.alienAccountAddress.length < 2 ^ 32
  linkageProof : a.linkageProof.length < 2 ^ 32
  representable : a.Representable

/-- The encoder throws, or the fields it writes are values of the types it writes them as. -/
def ThrowsOrFits (a : AlienIdAttestationData) : Prop := a.Writable → a.Representable

end AlienIdAttestationData
open AlienIdAttestationData

/-- Data of the layout's types goes through the encoder and comes back whole exactly when the
strings leave room for their lengths and the timestamp, a `U64` written as a signed integer, is
below `2 ^ 63`. -/
theorem schema_round_trip_iff {a : AlienIdAttestationData} (h : a.InLayout) :
    (∃ bytes, encodeAlienIdAttestationData a = some bytes ∧
      decodeLayout SCHEMA_LAYOUT bytes = some (a.fields, [])) ↔
    a.timestamp < 2 ^ 63 ∧ (toUtf8 a.alienChainId).length < 2 ^ 32 ∧
      (toUtf8 a.solanaAddress).length < 2 ^ 32 := by
  constructor
  · rintro ⟨bytes, hencode, -⟩
    have hwritable := (encode_eq_some_iff.mp hencode).1
    exact ⟨hwritable.timestamp.2, hwritable.alienChainId, hwritable.solanaAddress⟩
  · rintro ⟨htime, hchain, hsolana⟩
    have hwritable : a.Writable :=
      { alienAccountAddress := h.alienAccountAddress
        alienChainId := hchain
        solanaAddress := hsolana
        linkageProof := h.linkageProof
        timestamp := ⟨by have := h.representable.timestamp.1; omega, htime⟩ }
    have hencode := encode_eq_some_iff.mpr ⟨hwritable, rfl⟩
    exact ⟨_, hencode, (decode_encode_iff hencode).mpr h.representable⟩

/-- A linkage signed at the given second by the key of an account on `ethereum:1`. -/
def linkage (version timestamp : ℤ) : AlienIdAttestationData where
  alienAccountAddress := List.replicate 32 7
  alienIDVersion := version
  alienChainId := encode ['e', 't', 'h', 'e', 'r', 'e', 'u', 'm', ':', '1']
  solanaAddress := encode ['0', 'a', '1', 'b']
  linkageProof := List.replicate 64 9
  timestamp := timestamp

lemma linkage_representable {version timestamp : ℤ} (hv : 0 ≤ version ∧ version < 256)
    (ht : 0 ≤ timestamp ∧ timestamp < 2 ^ 64) : (linkage version timestamp).Representable :=
  ⟨hv, wellFormed_encode _, wellFormed_encode _, ht⟩

lemma linkage_utf8 (version timestamp : ℤ) :
    (toUtf8 (linkage version timestamp).alienChainId).length = 10 ∧
      (toUtf8 (linkage version timestamp).solanaAddress).length = 4 := by
  constructor
  · rw [toUtf8, linkage, Utf16.decode_encode]
    decide
  · rw [toUtf8, linkage, Utf16.decode_encode]
    decide

lemma linkage_inLayout {version timestamp : ℤ} (hv : 0 ≤ version ∧ version < 256)
    (ht : 0 ≤ timestamp ∧ timestamp < 2 ^ 64) : (linkage version timestamp).InLayout :=
  ⟨by simp [linkage], by simp [linkage], linkage_representable hv ht⟩

lemma linkage_writable {version timestamp : ℤ} (ht : -2 ^ 63 ≤ timestamp ∧ timestamp < 2 ^ 63) :
    (linkage version timestamp).Writable := by
  obtain ⟨hchain, hsolana⟩ := linkage_utf8 version timestamp
  exact ⟨by simp [linkage], by omega, by omega, by simp [linkage], ht⟩

/-- A linkage of today is encoded and read back. -/
theorem schema_round_trip_iff_linkage :
    (linkage 2 1735689600).InLayout ∧
      ∃ bytes, encodeAlienIdAttestationData (linkage 2 1735689600) = some bytes ∧
        decodeLayout SCHEMA_LAYOUT bytes = some ((linkage 2 1735689600).fields, []) := by
  have hlayout : (linkage 2 1735689600).InLayout := linkage_inLayout (by omega) (by omega)
  obtain ⟨hchain, hsolana⟩ := linkage_utf8 2 1735689600
  exact ⟨hlayout, (schema_round_trip_iff hlayout).mpr
    ⟨by norm_num [linkage], by omega, by omega⟩⟩

/-- A `U64` timestamp of `2 ^ 63` makes the encoder throw. -/
theorem timestamp_throws :
    (linkage 2 (2 ^ 63)).InLayout ∧ encodeAlienIdAttestationData (linkage 2 (2 ^ 63)) = none := by
  refine ⟨linkage_inLayout (by omega) (by omega), ?_⟩
  rw [Option.eq_none_iff_forall_ne_some]
  intro bytes h
  have htime := (encode_eq_some_iff.mp h).1.timestamp.2
  exact absurd htime (by norm_num [linkage])

/-- What the encoder returns for the data reads back as the data, and is what it returns for no
other data that meets the same condition, exactly when a write throws or the fields are values
of the types they are written as. -/
theorem encoder_keeps_data_iff (a : AlienIdAttestationData) :
    (∀ bytes, encodeAlienIdAttestationData a = some bytes →
      decodeLayout SCHEMA_LAYOUT bytes = some (a.fields, []) ∧
        ∀ b : AlienIdAttestationData, b.ThrowsOrFits →
          encodeAlienIdAttestationData b = some bytes → b = a) ↔ a.ThrowsOrFits := by
  constructor
  · intro h hwritable
    have hencode := encode_eq_some_iff.mpr ⟨hwritable, rfl⟩
    exact (decode_encode_iff hencode).mp (h _ hencode).1
  · intro h bytes hencode
    have hwritable := (encode_eq_some_iff.mp hencode).1
    refine ⟨(decode_encode_iff hencode).mpr (h hwritable), ?_⟩
    intro b hb hencode'
    have hwritable' := (encode_eq_some_iff.mp hencode').1
    have hstored := (encode_eq_encode_iff hwritable' hwritable).mp (hencode'.trans hencode.symm)
    rwa [stored_eq_iff.mpr (hb hwritable'), stored_eq_iff.mpr (h hwritable)] at hstored

/-- Version 256 is written as version 0: the encoding reads back as another version, and two
attestations share it. -/
theorem version_wraps : ∃ bytes,
    encodeAlienIdAttestationData (linkage 256 1735689600) = some bytes ∧
    decodeLayout SCHEMA_LAYOUT bytes = some ((linkage 0 1735689600).fields, []) ∧
    (linkage 0 1735689600).fields ≠ (linkage 256 1735689600).fields ∧
    encodeAlienIdAttestationData (linkage 0 1735689600) = some bytes := by
  have hwritable : (linkage 0 1735689600).Writable := linkage_writable (by omega)
  have hencode := encode_eq_some_iff.mpr ⟨hwritable, rfl⟩
  have hsame : encodeAlienIdAttestationData (linkage 256 1735689600) =
      encodeAlienIdAttestationData (linkage 0 1735689600) :=
    (encode_eq_encode_iff (linkage_writable (by omega)) hwritable).mpr rfl
  have hread := (decode_encode_iff hencode).mpr (linkage_representable (by omega) (by omega))
  refine ⟨_, hsame.trans hencode, hread, ?_, hencode⟩
  intro h
  have hversion : (0 : ℤ) = 256 := congrArg (·.alienIDVersion) (fields_injective h)
  omega

end AlienIdTransferHook
