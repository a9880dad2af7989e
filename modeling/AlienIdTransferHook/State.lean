import AlienIdTransferHook.Anchor
import AlienIdTransferHook.ByteCodec

/-!
# On-chain state of the transfer hook

The program's errors, constants, account types and the seeds of its addresses.
-/
namespace AlienIdTransferHook
open Solana ByteCodec

/-- The program's own errors, in declaration order. -/
inductive TransferHookError where
  | InvalidAttestation
  | AttestationExpired
  | CredentialMismatch
  | SchemaMismatch
  | SasProgramMismatch
  | UnauthorizedMintAuthority
  | InvalidWhitelistEntry
  | Unauthorized
  | IsNotCurrentlyTransferring
  | UnauthorizedTransferAuthority
  | NoPendingAuthority
  deriving DecidableEq, Repr

namespace TransferHookError

/-- `#[error_code]` numbers the variants from 6000. -/
def code (e : TransferHookError) : ℕ := 6000 + e.ctorIdx

def toError (e : TransferHookError) : ProgramError := .custom e.code

theorem toError_injective : Function.Injective toError := by
  intro e e' h
  have hcode : 6000 + e.ctorIdx = 6000 + e'.ctorIdx := ProgramError.custom.inj h
  have hidx : e.ctorIdx = e'.ctorIdx := by omega
  rw [← TransferHookError.ofNat_ctorIdx e, hidx, TransferHookError.ofNat_ctorIdx]

end TransferHookError

/-! ## Constants -/

/-- b"attestation" -/
def ATTESTATION_SEED : List UInt8 := [97, 116, 116, 101, 115, 116, 97, 116, 105, 111, 110]

def ATTESTATION_DISCRIMINATOR : UInt8 := 2

/-- b"config" -/
def configSeed : List UInt8 := [99, 111, 110, 102, 105, 103]

/-- b"extra-account-metas" -/
def extraAccountMetasSeed : List UInt8 :=
  [101, 120, 116, 114, 97, 45, 97, 99, 99, 111, 117, 110, 116, 45, 109, 101, 116, 97, 115]

/-- b"whitelist" -/
def whitelistSeed : List UInt8 := [119, 104, 105, 116, 101, 108, 105, 115, 116]

/-! ## Account types -/

/-- Which SAS credential and schema a transfer of the mint needs, per mint.
An all-zero `pendingAuthority` means that no hand-over is pending. -/
structure HookConfig where
  authority : Pubkey
  credential : Pubkey
  schema : Pubkey
  sasProgram : Pubkey
  bump : UInt8
  pendingAuthority : Pubkey
  deriving DecidableEq

def HookConfig.LEN : ℕ := 8 + 32 + 32 + 32 + 32 + 1 + 32

/-- Marks a wallet as whitelisted for a mint. -/
structure WhitelistEntry where
  wallet : Pubkey
  bump : UInt8
  deriving DecidableEq

def WhitelistEntry.LEN : ℕ := 8 + 32 + 1

/-- The discriminator is the start of SHA-256 of "account:HookConfig". -/
instance : AnchorAccount HookConfig where
  discriminator := [137, 155, 101, 95, 138, 72, 8, 182]
  serialize c := c.authority.bytes ++ (c.credential.bytes ++ (c.schema.bytes ++
    (c.sasProgram.bytes ++ (c.bump :: c.pendingAuthority.bytes))))
  deserialize bs := do
    let (authority, bs) ← readPubkey bs
    let (credential, bs) ← readPubkey bs
    let (schema, bs) ← readPubkey bs
    let (sasProgram, bs) ← readPubkey bs
    let (bump, bs) ← readU8 bs
    let (pendingAuthority, _) ← readPubkey bs
    pure ⟨authority, credential, schema, sasProgram, bump, pendingAuthority⟩
  size := 161
  length_discriminator := rfl
  length_serialize c := by simp [Pubkey.length_bytes]
  deserialize_serialize c rest := by simp [List.append_assoc]

/-- The discriminator is the start of SHA-256 of "account:WhitelistEntry". -/
instance : AnchorAccount WhitelistEntry where
  discriminator := [51, 70, 173, 81, 219, 192, 234, 62]
  serialize e := e.wallet.bytes ++ [e.bump]
  deserialize bs := do
    let (wallet, bs) ← readPubkey bs
    let (bump, _) ← readU8 bs
    pure ⟨wallet, bump⟩
  size := 33
  length_discriminator := rfl
  length_serialize e := by simp [Pubkey.length_bytes]
  deserialize_serialize e rest := by simp [List.append_assoc]

theorem HookConfig.length_image (c : HookConfig) : (image c).length = HookConfig.LEN :=
  Solana.length_image c

theorem WhitelistEntry.length_image (e : WhitelistEntry) :
    (image e).length = WhitelistEntry.LEN := Solana.length_image e

/-! ## Addresses -/

/-- The accounts the program keeps, by what their addresses are derived from. -/
inductive HookSeeds where
  | config (mint : Pubkey)
  | extraAccountMetas (mint : Pubkey)
  | whitelist (mint wallet : Pubkey)
  deriving DecidableEq

namespace HookSeeds

def toList : HookSeeds → List (List UInt8)
  | config mint => [configSeed, mint.bytes]
  | extraAccountMetas mint => [extraAccountMetasSeed, mint.bytes]
  | whitelist mint wallet => [whitelistSeed, mint.bytes, wallet.bytes]

def mint : HookSeeds → Pubkey
  | config mint => mint
  | extraAccountMetas mint => mint
  | whitelist mint _ => mint

/-- The keys in the seeds. -/
def keys : HookSeeds → List Pubkey
  | config mint => [mint]
  | extraAccountMetas mint => [mint]
  | whitelist mint wallet => [mint, wallet]

/-- The seeds and the bump can be read off the bytes that are hashed: the three
families have different lengths, and within one the fields have fixed places. -/
theorem preimage_injective {s s' : HookSeeds} {b b' : UInt8} {p p' : Pubkey}
    (h : pdaPreimage (s.toList ++ [[b]]) p = pdaPreimage (s'.toList ++ [[b']]) p') :
    s = s' ∧ b = b' := by
  have hlen := congrArg List.length h
  cases s <;> cases s' <;>
    simp [pdaPreimage, toList, Pubkey.length_bytes, Pubkey.append_inj, configSeed,
      extraAccountMetasSeed, whitelistSeed, pdaMarker] at hlen h ⊢
  case config.config => exact ⟨h.1, h.2.1⟩
  case extraAccountMetas.extraAccountMetas => exact ⟨h.1, h.2.1⟩
  case whitelist.whitelist => exact ⟨⟨h.1, h.2.1⟩, h.2.2.1⟩

end HookSeeds

end AlienIdTransferHook
