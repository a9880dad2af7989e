import AlienIdTransferHook.Deployment

/-!
# Authority and whitelist instructions

`transfer_authority`, `accept_authority`, `add_to_whitelist` and
`remove_from_whitelist`.
-/
namespace AlienIdTransferHook
open Solana

/-! ## transfer_authority -/

structure TransferAuthority where
  authority : Pubkey
  newAuthority : Pubkey
  config : Pubkey
  mint : Pubkey
  systemProgram : Pubkey

namespace TransferAuthority

def ofKeys : List Pubkey → Outcome TransferAuthority
  | authority :: newAuthority :: config :: mint :: systemProgram :: _ =>
      .ok ⟨authority, newAuthority, config, mint, systemProgram⟩
  | _ => .error (.anchor .accountNotEnoughKeys)

lemma ofKeys_eq_ok {keys : List Pubkey} {a : TransferAuthority} : ofKeys keys = .ok a →
    ∃ rest, keys = a.authority :: a.newAuthority :: a.config :: a.mint ::
      a.systemProgram :: rest := by
  fun_cases ofKeys keys <;> rintro ⟨⟩
  exact ⟨_, rfl⟩

/-- The config is deserialised before its `realloc` constraint resizes the account. -/
def tryAccounts (d : Deployment) (p : Privileges) (l : Ledger) (a : TransferAuthority) :
    Outcome (Ledger × HookConfig) := do
  signer p a.authority
  let config ← loadAccount HookConfig d.toHost l a.config
  let _ ← d.interfaceMint l a.mint
  systemProgramAccount a.systemProgram
  mutable p a.authority
  require (a.authority = config.authority) (.anchor .constraintRaw)
  let l ← reallocConstraint d.toHost p l a.authority a.config HookConfig.LEN
  seedsWithBump d.toHost (HookSeeds.config a.mint).toList config.bump a.config
  mutable p a.config
  pure (l, config)

def handler (a : TransferAuthority) (config : HookConfig) : HookConfig :=
  { config with pendingAuthority := a.newAuthority }

end TransferAuthority

def transferAuthority (d : Deployment) (p : Privileges) (l : Ledger) (keys : List Pubkey) :
    Outcome Ledger := do
  let a ← TransferAuthority.ofKeys keys
  let loaded ← a.tryAccounts d p l
  exitAccount loaded.1 a.config (a.handler loaded.2)

/-! ## accept_authority -/

structure AcceptAuthority where
  pendingAuthority : Pubkey
  config : Pubkey
  mint : Pubkey

namespace AcceptAuthority

def ofKeys : List Pubkey → Outcome AcceptAuthority
  | pendingAuthority :: config :: mint :: _ => .ok ⟨pendingAuthority, config, mint⟩
  | _ => .error (.anchor .accountNotEnoughKeys)

lemma ofKeys_eq_ok {keys : List Pubkey} {a : AcceptAuthority} : ofKeys keys = .ok a →
    ∃ rest, keys = a.pendingAuthority :: a.config :: a.mint :: rest := by
  fun_cases ofKeys keys <;> rintro ⟨⟩
  exact ⟨_, rfl⟩

def tryAccounts (d : Deployment) (p : Privileges) (l : Ledger) (a : AcceptAuthority) :
    Outcome HookConfig := do
  signer p a.pendingAuthority
  let config ← loadAccount HookConfig d.toHost l a.config
  let _ ← d.interfaceMint l a.mint
  require (a.pendingAuthority = config.pendingAuthority)
    TransferHookError.NoPendingAuthority.toError
  seedsWithBump d.toHost (HookSeeds.config a.mint).toList config.bump a.config
  mutable p a.config
  pure config

def handler (config : HookConfig) : Outcome HookConfig := do
  require (config.pendingAuthority ≠ Pubkey.default)
    TransferHookError.NoPendingAuthority.toError
  pure { config with
    authority := config.pendingAuthority
    pendingAuthority := Pubkey.default }

end AcceptAuthority

def acceptAuthority (d : Deployment) (p : Privileges) (l : Ledger) (keys : List Pubkey) :
    Outcome Ledger := do
  let a ← AcceptAuthority.ofKeys keys
  let config ← a.tryAccounts d p l
  let config ← AcceptAuthority.handler config
  exitAccount l a.config config

/-! ## add_to_whitelist -/

structure AddToWhitelist where
  authority : Pubkey
  config : Pubkey
  whitelistEntry : Pubkey
  mint : Pubkey
  systemProgram : Pubkey

namespace AddToWhitelist

def ofKeys : List Pubkey → Outcome AddToWhitelist
  | authority :: config :: whitelistEntry :: mint :: systemProgram :: _ =>
      .ok ⟨authority, config, whitelistEntry, mint, systemProgram⟩
  | _ => .error (.anchor .accountNotEnoughKeys)

lemma ofKeys_eq_ok {keys : List Pubkey} {a : AddToWhitelist} : ofKeys keys = .ok a →
    ∃ rest, keys = a.authority :: a.config :: a.whitelistEntry :: a.mint ::
      a.systemProgram :: rest := by
  fun_cases ofKeys keys <;> rintro ⟨⟩
  exact ⟨_, rfl⟩

def tryAccounts (d : Deployment) (p : Privileges) (l : Ledger) (a : AddToWhitelist)
    (wallet : Pubkey) : Outcome (Ledger × UInt8) := do
  signer p a.authority
  let config ← loadAccount HookConfig d.toHost l a.config
  let _ ← d.interfaceMint l a.mint
  systemProgramAccount a.systemProgram
  let opened ← initConstraint d.toHost p l a.authority a.whitelistEntry WhitelistEntry.LEN
    (HookSeeds.whitelist a.mint wallet).toList
  mutable p a.authority
  seedsWithBump d.toHost (HookSeeds.config a.mint).toList config.bump a.config
  require (a.authority = config.authority) (.anchor .constraintRaw)
  pure opened

def handler (bump : UInt8) (entry : WhitelistEntry) (wallet : Pubkey) : WhitelistEntry :=
  { entry with
    wallet := wallet
    bump := bump }

end AddToWhitelist

def addToWhitelist (d : Deployment) (p : Privileges) (l : Ledger) (keys : List Pubkey)
    (wallet : Pubkey) : Outcome Ledger := do
  let a ← AddToWhitelist.ofKeys keys
  let opened ← a.tryAccounts d p l wallet
  let entry ← tryDeserializeUnchecked WhitelistEntry (opened.1.account a.whitelistEntry).data
  exitAccount opened.1 a.whitelistEntry (AddToWhitelist.handler opened.2 entry wallet)

/-! ## remove_from_whitelist -/

structure RemoveFromWhitelist where
  authority : Pubkey
  config : Pubkey
  whitelistEntry : Pubkey
  mint : Pubkey
  systemProgram : Pubkey

namespace RemoveFromWhitelist

def ofKeys : List Pubkey → Outcome RemoveFromWhitelist
  | authority :: config :: whitelistEntry :: mint :: systemProgram :: _ =>
      .ok ⟨authority, config, whitelistEntry, mint, systemProgram⟩
  | _ => .error (.anchor .accountNotEnoughKeys)

lemma ofKeys_eq_ok {keys : List Pubkey} {a : RemoveFromWhitelist} : ofKeys keys = .ok a →
    ∃ rest, keys = a.authority :: a.config :: a.whitelistEntry :: a.mint ::
      a.systemProgram :: rest := by
  fun_cases ofKeys keys <;> rintro ⟨⟩
  exact ⟨_, rfl⟩

def tryAccounts (d : Deployment) (p : Privileges) (l : Ledger) (a : RemoveFromWhitelist)
    (wallet : Pubkey) : Outcome Unit := do
  signer p a.authority
  let config ← loadAccount HookConfig d.toHost l a.config
  let entry ← loadAccount WhitelistEntry d.toHost l a.whitelistEntry
  let _ ← d.interfaceMint l a.mint
  systemProgramAccount a.systemProgram
  seedsWithBump d.toHost (HookSeeds.config a.mint).toList config.bump a.config
  require (a.authority = config.authority) (.anchor .constraintRaw)
  seedsWithBump d.toHost (HookSeeds.whitelist a.mint wallet).toList entry.bump
    a.whitelistEntry
  mutable p a.whitelistEntry
  require (a.whitelistEntry ≠ a.authority) (.anchor .constraintClose)

end RemoveFromWhitelist

/-- The handler does nothing; the entry is closed on exit. -/
def removeFromWhitelist (d : Deployment) (p : Privileges) (l : Ledger) (keys : List Pubkey)
    (wallet : Pubkey) : Outcome Ledger := do
  let a ← RemoveFromWhitelist.ofKeys keys
  a.tryAccounts d p l wallet
  pure (closeAccount l a.whitelistEntry a.authority)

end AlienIdTransferHook
