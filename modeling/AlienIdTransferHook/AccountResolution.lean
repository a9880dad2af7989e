import AlienIdTransferHook.Anchor

/-!
# Extra account metas

The interface of spl-tlv-account-resolution 0.9 that transfer-hook programs
use. How seeds are packed into 32 bytes and how the list is laid out as a TLV
entry belong to the library: they are parameters, with the behaviour it
documents as laws. Resolving a list is what Token-2022 does with it.
-/
namespace AlienIdTransferHook.Solana

inductive Seed where
  | literal (bytes : List UInt8)
  | accountKey (index : UInt8)
  deriving DecidableEq

/-- Space a seed takes in the address configuration. -/
def Seed.packedLength : Seed → ℕ
  | literal bytes => 2 + bytes.length
  | accountKey _ => 2

/-- `discriminator` 0 holds a fixed key, 1 seeds of the hook program's own
address, 128 + i seeds of an address of the program at account index i. -/
structure ExtraAccountMeta where
  discriminator : UInt8
  addressConfig : Pubkey
  isSigner : Bool
  isWritable : Bool
  deriving DecidableEq

/-- The library's functions, for the `Execute` entry of a list. -/
structure AccountResolution where
  packSeeds : List Seed → Outcome Pubkey
  unpackSeeds : Pubkey → Outcome (List Seed)
  /-- `ExtraAccountMetaList::size_of`. -/
  sizeOf : ℕ → Outcome ℕ
  /-- `ExtraAccountMetaList::init::<ExecuteInstruction>` on the account's data. -/
  init : List UInt8 → List ExtraAccountMeta → Outcome (List UInt8)
  /-- The single `Execute` entry holding the metas, and nothing else. -/
  executeEntry : List ExtraAccountMeta → List UInt8
  /-- The metas of the `Execute` entry. -/
  unpackMetas : List UInt8 → Outcome (List ExtraAccountMeta)
  packSeeds_ok : ∀ seeds, (seeds.map Seed.packedLength).sum ≤ 32 →
    ∃ config, packSeeds seeds = .ok config
  unpackSeeds_packSeeds : ∀ seeds config, packSeeds seeds = .ok config →
    unpackSeeds config = .ok seeds
  sizeOf_executeEntry : ∀ metas, metas.length ≤ 255 →
    sizeOf metas.length = .ok (executeEntry metas).length
  init_zeroed : ∀ metas, metas.length ≤ 255 →
    init (List.replicate (executeEntry metas).length 0) metas = .ok (executeEntry metas)
  init_empty : ∀ metas, ∃ e, init [] metas = .error e
  init_repeated : ∀ metas metas', metas.length ≤ 255 →
    ∃ e, init (executeEntry metas) metas' = .error e
  unpackMetas_executeEntry : ∀ metas, metas.length ≤ 255 →
    unpackMetas (executeEntry metas) = .ok metas

namespace AccountResolution
variable (R : AccountResolution)

/-- `ExtraAccountMeta::new_with_pubkey`. -/
def newWithPubkey (k : Pubkey) (isSigner isWritable : Bool) : Outcome ExtraAccountMeta :=
  .ok ⟨0, k, isSigner, isWritable⟩

/-- `ExtraAccountMeta::new_with_seeds`. -/
def newWithSeeds (seeds : List Seed) (isSigner isWritable : Bool) :
    Outcome ExtraAccountMeta := do
  let config ← R.packSeeds seeds
  pure ⟨1, config, isSigner, isWritable⟩

/-- `ExtraAccountMeta::new_external_pda_with_seeds`. -/
def newExternalPdaWithSeeds (programIndex : UInt8) (seeds : List Seed)
    (isSigner isWritable : Bool) : Outcome ExtraAccountMeta := do
  require (programIndex < 128) .invalidSeeds
  let config ← R.packSeeds seeds
  pure ⟨128 + programIndex, config, isSigner, isWritable⟩

/-! ## Resolution -/

def resolveSeed (accounts : List Pubkey) : Seed → Outcome (List UInt8)
  | .literal bytes => .ok bytes
  | .accountKey index => do
      let k ← expect accounts[index.toNat]? .invalidArgument
      pure k.bytes

/-- `resolve_pda`. -/
def resolvePda (H : Host) (accounts : List Pubkey) (program config : Pubkey) :
    Outcome Pubkey := do
  let seeds ← R.unpackSeeds config
  let bytes ← seeds.mapM (resolveSeed accounts)
  let pda ← expect (H.findProgramAddress bytes program) .panicked
  pure pda.1

/-- `ExtraAccountMeta::resolve`, against the accounts resolved so far. -/
def resolve (H : Host) (accounts : List Pubkey) (m : ExtraAccountMeta) : Outcome Pubkey :=
  if m.discriminator = 0 then .ok m.addressConfig
  else if m.discriminator = 1 then R.resolvePda H accounts H.programId m.addressConfig
  else do
    require (128 ≤ m.discriminator) .invalidArgument
    let program ← expect accounts[(m.discriminator - 128).toNat]? .invalidArgument
    R.resolvePda H accounts program m.addressConfig

theorem resolve_ownPda (H : Host) (accounts : List Pubkey) (config : Pubkey) (s w : Bool) :
    R.resolve H accounts ⟨1, config, s, w⟩ = R.resolvePda H accounts H.programId config := rfl

theorem resolve_externalPda (H : Host) {accounts : List Pubkey} {program : Pubkey} {i : UInt8}
    (hi : i < 128) (h : accounts[i.toNat]? = some program) (config : Pubkey) (s w : Bool) :
    R.resolve H accounts ⟨128 + i, config, s, w⟩ =
      R.resolvePda H accounts program config := by
  have hsmall : i.toNat < 128 := UInt8.lt_iff_toNat_lt.mp hi
  have h128 : (128 : UInt8).toNat = 128 := rfl
  have hnat : (128 + i).toNat = 128 + i.toNat := by
    rw [UInt8.toNat_add, h128]
    omega
  have hzero : 128 + i ≠ 0 := fun heq => by
    rw [heq, show (0 : UInt8).toNat = 0 from rfl] at hnat
    omega
  have hone : 128 + i ≠ 1 := fun heq => by
    rw [heq, show (1 : UInt8).toNat = 1 from rfl] at hnat
    omega
  have hle : 128 ≤ 128 + i := UInt8.le_iff_toNat_le.mpr (by omega)
  have hindex : (128 + i - 128).toNat = i.toNat := by
    rw [UInt8.toNat_sub, hnat, h128]
    omega
  unfold resolve
  rw [if_neg hzero, if_neg hone, require_pos hle, ok_bind, hindex, h]
  rfl

/-- Appends what a meta resolves to. -/
def push (H : Host) (accounts : List Pubkey) (m : ExtraAccountMeta) : Outcome (List Pubkey) := do
  let k ← R.resolve H accounts m
  pure (accounts ++ [k])

/-- Token-2022 appends the stored metas to the accounts of the `Execute` call. -/
def resolveList (H : Host) (data : List UInt8) (accounts : List Pubkey) :
    Outcome (List Pubkey) := do
  let metas ← R.unpackMetas data
  metas.foldlM (R.push H) accounts

/-- The first meta is resolved against the accounts so far, the rest after it. -/
theorem foldlM_push_cons {H : Host} {accounts keys : List Pubkey} {m : ExtraAccountMeta}
    {metas : List ExtraAccountMeta} :
    (m :: metas).foldlM (R.push H) accounts = .ok keys ↔
      ∃ k, R.resolve H accounts m = .ok k ∧
        metas.foldlM (R.push H) (accounts ++ [k]) = .ok keys := by
  rw [List.foldlM_cons, push, bind_assoc, bind_eq_ok]
  rfl

end AccountResolution

end AlienIdTransferHook.Solana
