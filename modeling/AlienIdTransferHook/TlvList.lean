import AlienIdTransferHook.AccountResolution
import AlienIdTransferHook.ByteCodec

/-!
# The library's byte layout

The account resolution library with the layout it publishes: seeds are packed one
after the other into 32 bytes, and a list is one type-length-value entry. That it
obeys the laws of `AccountResolution` shows that they can be met together.
-/
namespace AlienIdTransferHook.Solana.TlvList
open ByteCodec

/-! ## Seeds -/

def packSeed : Seed → List UInt8
  | .literal bytes => 1 :: UInt8.ofNat bytes.length :: bytes
  | .accountKey index => [3, index]

/-- Reads seeds until the padding begins. -/
def readSeeds : ℕ → List UInt8 → Option (List Seed)
  | _, [] => some []
  | 0, _ => none
  | n + 1, kind :: rest =>
      if kind = 0 then some []
      else if kind = 1 then do
        let (length, rest) ← readU8 rest
        if length.toNat ≤ rest.length then
          (readSeeds n (rest.drop length.toNat)).map (.literal (rest.take length.toNat) :: ·)
        else none
      else if kind = 3 then do
        let (index, rest) ← readU8 rest
        (readSeeds n rest).map (.accountKey index :: ·)
      else none

lemma length_packSeed (s : Seed) : (packSeed s).length = s.packedLength := by
  cases s <;> simp [packSeed, Seed.packedLength]
  omega

lemma length_flatMap_packSeed (seeds : List Seed) :
    (seeds.flatMap packSeed).length = (seeds.map Seed.packedLength).sum := by
  simp [List.length_flatMap, length_packSeed]

theorem readSeeds_packed (seeds : List Seed) (padding n : ℕ) (hn : seeds.length < n)
    (hlen : (seeds.map Seed.packedLength).sum ≤ 32) :
    readSeeds n (seeds.flatMap packSeed ++ List.replicate padding 0) = some seeds := by
  induction seeds generalizing n with
  | nil =>
      obtain ⟨n, rfl⟩ : ∃ n', n = n' + 1 := ⟨n - 1, by simp at hn; omega⟩
      cases padding <;> simp [readSeeds, List.replicate_succ]
  | cons s seeds ih =>
      obtain ⟨n, rfl⟩ : ∃ n', n = n' + 1 := ⟨n - 1, by simp at hn; omega⟩
      simp only [List.length_cons, Nat.add_lt_add_iff_right] at hn
      simp only [List.map_cons, List.sum_cons] at hlen
      have hrest := ih n hn (by omega)
      cases s with
      | accountKey index =>
          simp [packSeed, readSeeds, hrest]
      | literal bytes =>
          have hbytes : (UInt8.ofNat bytes.length).toNat = bytes.length := by
            simp only [Seed.packedLength] at hlen
            rw [UInt8.toNat_ofNat']
            omega
          simp [packSeed, readSeeds, hbytes, hrest, List.append_assoc]

def packSeeds (seeds : List Seed) : Outcome Pubkey :=
  if h : (seeds.flatMap packSeed).length ≤ 32 then
    .ok ⟨seeds.flatMap packSeed ++ List.replicate (32 - (seeds.flatMap packSeed).length) 0,
      by rw [List.length_append, List.length_replicate]; omega⟩
  else .error (.library 3)

def unpackSeeds (config : Pubkey) : Outcome (List Seed) :=
  expect (readSeeds 33 config.bytes) (.library 4)

theorem packSeeds_ok (seeds : List Seed) (h : (seeds.map Seed.packedLength).sum ≤ 32) :
    ∃ config, packSeeds seeds = .ok config :=
  ⟨_, dif_pos (by rwa [length_flatMap_packSeed])⟩

/-- A seed takes at least two bytes. -/
lemma length_le_packedLength (seeds : List Seed) :
    2 * seeds.length ≤ (seeds.map Seed.packedLength).sum := by
  induction seeds with
  | nil => simp
  | cons s seeds ih =>
      have hs : 2 ≤ s.packedLength := by cases s <;> simp [Seed.packedLength]
      simp only [List.length_cons, List.map_cons, List.sum_cons]
      omega

theorem unpackSeeds_packSeeds (seeds : List Seed) (config : Pubkey)
    (h : packSeeds seeds = .ok config) : unpackSeeds config = .ok seeds := by
  unfold packSeeds at h
  split_ifs at h with hlen
  obtain rfl := Except.ok.inj h
  rw [length_flatMap_packSeed] at hlen
  have hcount := length_le_packedLength seeds
  exact expect_eq_ok.mpr (readSeeds_packed seeds _ 33 (by omega) hlen)

/-! ## Lists -/

/-- The discriminator of the interface's `Execute` instruction. -/
def executeDiscriminator : List UInt8 := [105, 37, 101, 197, 75, 251, 102, 26]

def boolByte (b : Bool) : UInt8 := if b then 1 else 0

def encodeMeta (m : ExtraAccountMeta) : List UInt8 :=
  m.discriminator :: (m.addressConfig.bytes ++ [boolByte m.isSigner, boolByte m.isWritable])

def readMetas : ℕ → List UInt8 → Option (List ExtraAccountMeta)
  | 0, _ => some []
  | n + 1, bs => do
      let (discriminator, bs) ← readU8 bs
      let (addressConfig, bs) ← readPubkey bs
      let (isSigner, bs) ← readU8 bs
      let (isWritable, bs) ← readU8 bs
      let metas ← readMetas n bs
      pure (⟨discriminator, addressConfig, isSigner != 0, isWritable != 0⟩ :: metas)

lemma length_encodeMeta (m : ExtraAccountMeta) : (encodeMeta m).length = 35 := by
  simp [encodeMeta, Pubkey.length_bytes]

lemma boolByte_ne_zero (b : Bool) : (boolByte b != 0) = b := by cases b <;> rfl

theorem readMetas_encoded (metas : List ExtraAccountMeta) (rest : List UInt8) :
    readMetas metas.length (metas.flatMap encodeMeta ++ rest) = some metas := by
  induction metas with
  | nil => rfl
  | cons m metas ih =>
      simp [readMetas, encodeMeta, List.append_assoc, ih, boolByte_ne_zero]

def size (n : ℕ) : ℕ := 16 + 35 * n

/-- Discriminator, length of the value, count and metas. -/
def executeEntry (metas : List ExtraAccountMeta) : List UInt8 :=
  executeDiscriminator ++ (toLE 4 (4 + 35 * metas.length) ++ (toLE 4 metas.length ++
    metas.flatMap encodeMeta))

/-- The entry is allocated in front of unused space, once. -/
def init (data : List UInt8) (metas : List ExtraAccountMeta) : Outcome (List UInt8) := do
  require (data.take 8 ≠ executeDiscriminator) (.library 5)
  require (size metas.length ≤ data.length ∧ data.take 8 = List.replicate 8 0) (.library 6)
  pure (executeEntry metas ++ data.drop (size metas.length))

def unpackMetas (data : List UInt8) : Outcome (List ExtraAccountMeta) := do
  require (data.take 8 = executeDiscriminator) (.library 7)
  expect (readMetas (fromLE ((data.drop 12).take 4)) (data.drop 16)) (.library 8)

theorem length_executeEntry (metas : List ExtraAccountMeta) :
    (executeEntry metas).length = size metas.length := by
  have hmetas : (metas.flatMap encodeMeta).length = 35 * metas.length := by
    simp [List.length_flatMap, length_encodeMeta, mul_comm]
  simp [executeEntry, executeDiscriminator, size, hmetas]
  omega

lemma take_executeEntry (metas : List ExtraAccountMeta) :
    (executeEntry metas).take 8 = executeDiscriminator := List.take_left' rfl

lemma take_zeroed (n : ℕ) :
    (List.replicate (size n) (0 : UInt8)).take 8 = List.replicate 8 0 := by
  rw [List.take_replicate, Nat.min_eq_left (by unfold size; omega)]

theorem unpackMetas_executeEntry (metas : List ExtraAccountMeta) (h : metas.length ≤ 255) :
    unpackMetas (executeEntry metas) = .ok metas := by
  have hcount : fromLE (toLE 4 metas.length) = metas.length := by
    rw [fromLE_toLE]
    exact Nat.mod_eq_of_lt (by omega)
  have htail : (executeEntry metas).drop 12 =
      toLE 4 metas.length ++ metas.flatMap encodeMeta := by
    rw [executeEntry, ← List.append_assoc]
    exact List.drop_left' (by simp [executeDiscriminator])
  have hdrop : (executeEntry metas).drop 16 = metas.flatMap encodeMeta := by
    rw [show 16 = 12 + 4 from rfl, ← List.drop_drop, htail]
    exact List.drop_left' (length_toLE _ _)
  have hmetas := readMetas_encoded metas []
  rw [List.append_nil] at hmetas
  unfold unpackMetas
  rw [require_pos (take_executeEntry metas), ok_bind, htail,
    List.take_left' (length_toLE _ _), hcount, hdrop, hmetas]
  rfl

/-- The library on this layout. -/
def library : AccountResolution where
  packSeeds := packSeeds
  unpackSeeds := unpackSeeds
  sizeOf n := .ok (size n)
  init := init
  executeEntry := executeEntry
  unpackMetas := unpackMetas
  packSeeds_ok := packSeeds_ok
  unpackSeeds_packSeeds := unpackSeeds_packSeeds
  sizeOf_executeEntry metas _ := by rw [length_executeEntry]
  init_zeroed metas _ := by
    rw [length_executeEntry, init, require_pos (by rw [take_zeroed]; decide), ok_bind,
      require_pos ⟨by simp, take_zeroed _⟩, ok_bind]
    simp [pure, Except.pure]
  init_empty metas := ⟨.library 6, by simp [init, size, require, executeDiscriminator]⟩
  init_repeated metas metas' _ := ⟨.library 5, by
    rw [init, require_neg (not_not.mpr (take_executeEntry metas)), error_bind]⟩
  unpackMetas_executeEntry := unpackMetas_executeEntry

end AlienIdTransferHook.Solana.TlvList
