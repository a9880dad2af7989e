import AlienIdTransferHook.Deployment

/-!
# The transfer hook

`transfer_hook`, the instruction Token-2022 calls during a transfer, with the
attestation reader. It changes no account.
-/
namespace AlienIdTransferHook
open Solana ByteCodec

structure TransferHook where
  sourceToken : Pubkey
  mint : Pubkey
  destinationToken : Pubkey
  transferAuthority : Pubkey
  extraAccountMetaList : Pubkey
  config : Pubkey
  credential : Pubkey
  schema : Pubkey
  sasProgram : Pubkey
  attestation : Pubkey
  whitelistEntry : Pubkey

namespace TransferHook

/-- The order of the accounts is the order of the fields. -/
def ofKeys : List Pubkey → Outcome TransferHook
  | sourceToken :: mint :: destinationToken :: transferAuthority :: extraAccountMetaList ::
      config :: credential :: schema :: sasProgram :: attestation :: whitelistEntry :: _ =>
      .ok ⟨sourceToken, mint, destinationToken, transferAuthority, extraAccountMetaList,
        config, credential, schema, sasProgram, attestation, whitelistEntry⟩
  | _ => .error (.anchor .accountNotEnoughKeys)

lemma ofKeys_eq_ok {keys : List Pubkey} {a : TransferHook} : ofKeys keys = .ok a →
    ∃ rest, keys = a.sourceToken :: a.mint :: a.destinationToken :: a.transferAuthority ::
      a.extraAccountMetaList :: a.config :: a.credential :: a.schema :: a.sasProgram ::
      a.attestation :: a.whitelistEntry :: rest := by
  fun_cases ofKeys keys <;> rintro ⟨⟩
  exact ⟨_, rfl⟩

/-- The source account and the config, once all constraints hold. -/
def tryAccounts (d : Deployment) (l : Ledger) (a : TransferHook) :
    Outcome (TokenAccount × HookConfig) := do
  let source ← d.interfaceTokenAccount l a.sourceToken
  let _ ← d.interfaceMint l a.mint
  let destination ← d.interfaceTokenAccount l a.destinationToken
  let config ← loadAccount HookConfig d.toHost l a.config
  require (source.mint = a.mint) (.anchor .constraintTokenMint)
  require (destination.mint = a.mint) (.anchor .constraintTokenMint)
  let _ ← seedsCanonical d.toHost (HookSeeds.extraAccountMetas a.mint).toList
    a.extraAccountMetaList
  seedsWithBump d.toHost (HookSeeds.config a.mint).toList config.bump a.config
  pure (source, config)

def assertIsTransferring (d : Deployment) (l : Ledger) (a : TransferHook) : Outcome Unit := do
  let transferring ← d.token.transferring (l.account a.sourceToken).data
  require (transferring = true) TransferHookError.IsNotCurrentlyTransferring.toError

def isDirectOwner (source : TokenAccount) (ownerKey : Pubkey) : Bool :=
  source.owner = ownerKey

def isApprovedDelegate (source : TokenAccount) (ownerKey : Pubkey) : Bool :=
  (source.delegate.map (fun k => decide (k = ownerKey))).getD false &&
    decide (source.delegatedAmount > 0)

/-- The `require!` on the transfer authority. -/
def checkAuthority (source : TokenAccount) (ownerKey : Pubkey) : Outcome Unit :=
  require (isDirectOwner source ownerKey || isApprovedDelegate source ownerKey)
    TransferHookError.UnauthorizedTransferAuthority.toError

/-- `true` when the handler returns early for a whitelisted authority. -/
def whitelisted (d : Deployment) (l : Ledger) (a : TransferHook) : Outcome Bool :=
  if (l.account a.whitelistEntry).owner = d.programId then do
    let expectedPda ← expect (d.findProgramAddress
      (HookSeeds.whitelist a.mint a.transferAuthority).toList d.programId) .panicked
    require (a.whitelistEntry = expectedPda.1) TransferHookError.InvalidWhitelistEntry.toError
    pure true
  else .ok false

/-- The seeds of an attestation's address under the SAS program. -/
def attestationSeeds (credential schema owner : Pubkey) : List (List UInt8) :=
  [ATTESTATION_SEED, credential.bytes, schema.bytes, owner.bytes]

/-- The accounts of the attestation path are the configured ones. -/
def checkAttestationAccounts (d : Deployment) (l : Ledger) (a : TransferHook)
    (config : HookConfig) : Outcome Unit := do
  require (a.credential = config.credential) TransferHookError.CredentialMismatch.toError
  require (a.schema = config.schema) TransferHookError.SchemaMismatch.toError
  require (a.sasProgram = config.sasProgram) TransferHookError.SasProgramMismatch.toError
  let expectedPda ← expect (d.findProgramAddress
    (attestationSeeds config.credential config.schema a.transferAuthority)
    config.sasProgram) .panicked
  require (a.attestation = expectedPda.1) TransferHookError.InvalidAttestation.toError
  require ((l.account a.attestation).owner = config.sasProgram)
    TransferHookError.InvalidAttestation.toError

/-- From `data.len() > 1` to the expiry. The layout after the discriminator is
nonce(32) + credential(32) + schema(32) + data_len(4) + data(n) + signer(32) + expiry(8). -/
def readExpiry (data : List UInt8) : Outcome ℤ := do
  require (data.length > 1) TransferHookError.InvalidAttestation.toError
  let discriminator ← index data 0
  require (discriminator = ATTESTATION_DISCRIMINATOR)
    TransferHookError.InvalidAttestation.toError
  let baseOffset := 1 + 32 + 32 + 32
  let lengthEnd ← usizeAdd baseOffset 4
  require (data.length ≥ lengthEnd) TransferHookError.InvalidAttestation.toError
  let lengthBytes ← slice data baseOffset lengthEnd
  let lengthBytes ← tryIntoArray 4 lengthBytes
  let dataFieldLen := fromLE lengthBytes
  let payloadEnd ← usizeAdd lengthEnd dataFieldLen
  let expiryOffset ← usizeAdd payloadEnd 32
  let expiryEnd ← usizeAdd expiryOffset 8
  require (data.length ≥ expiryEnd) TransferHookError.InvalidAttestation.toError
  let expiryBytes ← slice data expiryOffset expiryEnd
  let expiryBytes ← tryIntoArray 8 expiryBytes
  pure (i64FromLE expiryBytes)

/-- An `expiry` of 0 never expires and the clock is not read. -/
def checkExpiry (l : Ledger) (expiry : ℤ) : Outcome Unit :=
  if expiry ≠ 0 then
    require (expiry > l.unixTimestamp) TransferHookError.AttestationExpired.toError
  else .ok ()

/-- What the handler does for an authority that is not whitelisted. -/
def verifyAttestation (d : Deployment) (l : Ledger) (a : TransferHook)
    (config : HookConfig) : Outcome Unit := do
  checkAttestationAccounts d l a config
  let expiry ← readExpiry (l.account a.attestation).data
  checkExpiry l expiry

def handler (d : Deployment) (l : Ledger) (a : TransferHook) (source : TokenAccount)
    (config : HookConfig) : Outcome Unit := do
  assertIsTransferring d l a
  checkAuthority source a.transferAuthority
  let skip ← whitelisted d l a
  if skip then .ok () else verifyAttestation d l a config

end TransferHook

def transferHook (d : Deployment) (l : Ledger) (keys : List Pubkey) (_amount : ℕ) :
    Outcome Unit := do
  let a ← TransferHook.ofKeys keys
  let loaded ← a.tryAccounts d l
  a.handler d l loaded.1 loaded.2

end AlienIdTransferHook
