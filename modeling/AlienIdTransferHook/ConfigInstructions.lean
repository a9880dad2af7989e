import AlienIdTransferHook.Deployment

/-!
# Config and account-list instructions

`initialize_config`, `update_config` and `initialize_extra_account_meta_list`,
each as Anchor runs it: the accounts are taken from the list in field order and
deserialised, `init` comes before the other constraints, then the constraints of
each field, the handler, and the write-back of the mutable accounts.
-/
namespace AlienIdTransferHook
open Solana

/-! ## initialize_config -/

structure InitializeConfig where
  authority : Pubkey
  config : Pubkey
  mint : Pubkey
  systemProgram : Pubkey

namespace InitializeConfig

def ofKeys : List Pubkey → Outcome InitializeConfig
  | authority :: config :: mint :: systemProgram :: _ =>
      .ok ⟨authority, config, mint, systemProgram⟩
  | _ => .error (.anchor .accountNotEnoughKeys)

lemma ofKeys_eq_ok {keys : List Pubkey} {a : InitializeConfig} : ofKeys keys = .ok a →
    ∃ rest, keys = a.authority :: a.config :: a.mint :: a.systemProgram :: rest := by
  fun_cases ofKeys keys <;> rintro ⟨⟩
  exact ⟨_, rfl⟩

/-- The deserialised config and the derived bump, once all constraints hold. -/
def tryAccounts (d : Deployment) (p : Privileges) (l : Ledger) (a : InitializeConfig) :
    Outcome (Ledger × UInt8) := do
  signer p a.authority
  let mint ← d.interfaceMint l a.mint
  systemProgramAccount a.systemProgram
  let opened ← initConstraint d.toHost p l a.authority a.config HookConfig.LEN
    (HookSeeds.config a.mint).toList
  mutable p a.authority
  require (mint.mintAuthority = some a.authority)
    TransferHookError.UnauthorizedMintAuthority.toError
  pure opened

def handler (a : InitializeConfig) (bump : UInt8) (config : HookConfig)
    (credential schema sasProgram : Pubkey) : HookConfig :=
  { config with
    authority := a.authority
    credential := credential
    schema := schema
    sasProgram := sasProgram
    bump := bump }

end InitializeConfig

def initializeConfig (d : Deployment) (p : Privileges) (l : Ledger) (keys : List Pubkey)
    (credential schema sasProgram : Pubkey) : Outcome Ledger := do
  let a ← InitializeConfig.ofKeys keys
  let opened ← a.tryAccounts d p l
  let config ← tryDeserializeUnchecked HookConfig (opened.1.account a.config).data
  exitAccount opened.1 a.config (a.handler opened.2 config credential schema sasProgram)

/-! ## update_config -/

structure UpdateConfig where
  authority : Pubkey
  config : Pubkey
  mint : Pubkey
  extraAccountMetaList : Pubkey

namespace UpdateConfig

def ofKeys : List Pubkey → Outcome UpdateConfig
  | authority :: config :: mint :: extraAccountMetaList :: _ =>
      .ok ⟨authority, config, mint, extraAccountMetaList⟩
  | _ => .error (.anchor .accountNotEnoughKeys)

lemma ofKeys_eq_ok {keys : List Pubkey} {a : UpdateConfig} : ofKeys keys = .ok a →
    ∃ rest, keys = a.authority :: a.config :: a.mint :: a.extraAccountMetaList :: rest := by
  fun_cases ofKeys keys <;> rintro ⟨⟩
  exact ⟨_, rfl⟩

def tryAccounts (d : Deployment) (p : Privileges) (l : Ledger) (a : UpdateConfig) :
    Outcome HookConfig := do
  signer p a.authority
  let config ← loadAccount HookConfig d.toHost l a.config
  let _ ← d.interfaceMint l a.mint
  require (a.authority = config.authority) (.anchor .constraintRaw)
  seedsWithBump d.toHost (HookSeeds.config a.mint).toList config.bump a.config
  mutable p a.config
  let _ ← seedsCanonical d.toHost (HookSeeds.extraAccountMetas a.mint).toList
    a.extraAccountMetaList
  mutable p a.extraAccountMetaList
  pure config

/-- The `account_metas` of the handler, built from its arguments. -/
def accountMetas (R : AccountResolution) (credential schema sasProgram : Pubkey) :
    Outcome (List ExtraAccountMeta) := do
  let m₅ ← R.newWithSeeds [.literal configSeed, .accountKey 1] false false
  let m₆ ← AccountResolution.newWithPubkey credential false false
  let m₇ ← AccountResolution.newWithPubkey schema false false
  let m₈ ← AccountResolution.newWithPubkey sasProgram false false
  let m₉ ← R.newExternalPdaWithSeeds 8
    [.literal ATTESTATION_SEED, .accountKey 6, .accountKey 7, .accountKey 3] false false
  let m₁₀ ← R.newWithSeeds [.literal whitelistSeed, .accountKey 1, .accountKey 3] false false
  pure [m₅, m₆, m₇, m₈, m₉, m₁₀]

/-- Updates the config in memory and rewrites the list account. -/
def handler (d : Deployment) (l : Ledger) (a : UpdateConfig) (config : HookConfig)
    (credential schema sasProgram : Pubkey) : Outcome (Ledger × HookConfig) := do
  let config := { config with
    credential := credential
    schema := schema
    sasProgram := sasProgram }
  let metas ← accountMetas d.resolution credential schema sasProgram
  let data ← d.resolution.init
    (List.replicate (l.account a.extraAccountMetaList).data.length 0) metas
  let l ← writeData d.toHost l a.extraAccountMetaList data
  pure (l, config)

end UpdateConfig

def updateConfig (d : Deployment) (p : Privileges) (l : Ledger) (keys : List Pubkey)
    (credential schema sasProgram : Pubkey) : Outcome Ledger := do
  let a ← UpdateConfig.ofKeys keys
  let config ← a.tryAccounts d p l
  let done ← UpdateConfig.handler d l a config credential schema sasProgram
  exitAccount done.1 a.config done.2

/-! ## initialize_extra_account_meta_list -/

structure InitializeExtraAccountMetaList where
  payer : Pubkey
  extraAccountMetaList : Pubkey
  mint : Pubkey
  config : Pubkey
  systemProgram : Pubkey

namespace InitializeExtraAccountMetaList

def ofKeys : List Pubkey → Outcome InitializeExtraAccountMetaList
  | payer :: extraAccountMetaList :: mint :: config :: systemProgram :: _ =>
      .ok ⟨payer, extraAccountMetaList, mint, config, systemProgram⟩
  | _ => .error (.anchor .accountNotEnoughKeys)

lemma ofKeys_eq_ok {keys : List Pubkey} {a : InitializeExtraAccountMetaList} : ofKeys keys = .ok a →
    ∃ rest, keys = a.payer :: a.extraAccountMetaList :: a.mint :: a.config ::
      a.systemProgram :: rest := by
  fun_cases ofKeys keys <;> rintro ⟨⟩
  exact ⟨_, rfl⟩

/-- The config and the bump of the list's address. -/
def tryAccounts (d : Deployment) (p : Privileges) (l : Ledger)
    (a : InitializeExtraAccountMetaList) : Outcome (HookConfig × UInt8) := do
  signer p a.payer
  let _ ← d.interfaceMint l a.mint
  let config ← loadAccount HookConfig d.toHost l a.config
  systemProgramAccount a.systemProgram
  mutable p a.payer
  require (a.payer = config.authority) TransferHookError.Unauthorized.toError
  let bump ← seedsCanonical d.toHost (HookSeeds.extraAccountMetas a.mint).toList
    a.extraAccountMetaList
  mutable p a.extraAccountMetaList
  seedsWithBump d.toHost (HookSeeds.config a.mint).toList config.bump a.config
  pure (config, bump)

/-- The `account_metas` of the handler, built from the stored config. Indexes 0 to
3 are source, mint, destination and owner, 4 is the list account itself. -/
def accountMetas (R : AccountResolution) (config : HookConfig) :
    Outcome (List ExtraAccountMeta) := do
  let m₅ ← R.newWithSeeds [.literal configSeed, .accountKey 1] false false
  let m₆ ← AccountResolution.newWithPubkey config.credential false false
  let m₇ ← AccountResolution.newWithPubkey config.schema false false
  let m₈ ← AccountResolution.newWithPubkey config.sasProgram false false
  let m₉ ← R.newExternalPdaWithSeeds 8
    [.literal ATTESTATION_SEED, .accountKey 6, .accountKey 7, .accountKey 3] false false
  let m₁₀ ← R.newWithSeeds [.literal whitelistSeed, .accountKey 1, .accountKey 3] false false
  pure [m₅, m₆, m₇, m₈, m₉, m₁₀]

/-- `create_account` with the list's seeds, only where the account has no data. -/
def createIfEmpty (d : Deployment) (p : Privileges) (l : Ledger)
    (a : InitializeExtraAccountMetaList) (bump : UInt8) (accountSize : ℕ) : Outcome Ledger :=
  if (l.account a.extraAccountMetaList).data = [] then
    createAccount (p.invokeSigned d.toHost
        ((HookSeeds.extraAccountMetas a.mint).toList ++ [[bump]])) l a.payer
      a.extraAccountMetaList (d.minimumBalance accountSize) accountSize d.programId
  else .ok l

def handler (d : Deployment) (p : Privileges) (l : Ledger)
    (a : InitializeExtraAccountMetaList) (config : HookConfig) (bump : UInt8) :
    Outcome Ledger := do
  let metas ← accountMetas d.resolution config
  let accountSize ← d.resolution.sizeOf metas.length
  let l ← a.createIfEmpty d p l bump accountSize
  let data ← d.resolution.init (l.account a.extraAccountMetaList).data metas
  writeData d.toHost l a.extraAccountMetaList data

end InitializeExtraAccountMetaList

def initializeExtraAccountMetaList (d : Deployment) (p : Privileges) (l : Ledger)
    (keys : List Pubkey) : Outcome Ledger := do
  let a ← InitializeExtraAccountMetaList.ofKeys keys
  let loaded ← a.tryAccounts d p l
  a.handler d p l loaded.1 loaded.2

end AlienIdTransferHook
