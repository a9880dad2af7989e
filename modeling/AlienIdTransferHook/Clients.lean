import AlienIdTransferHook.Sdk
import AlienIdTransferHook.SetUp

/-!
# The clients

The rest of the SDK class, the stand-alone builders of `sdk/instructions.ts` and
the handlers of the admin client. Three sources derive the same addresses and
list the same accounts, so the instructions they build are the same.
-/
namespace AlienIdTransferHook
open Solana History TransferPolicy

/-! ## The IDL -/

def UpdateConfig.fields : List Field :=
  [{ isSigner := true }, { hasMut := true }, {}, { hasMut := true }]

def AddToWhitelist.fields : List Field :=
  [{ isSigner := true, hasMut := true }, {}, { hasInit := true }, {}, {}]

def TransferAuthority.fields : List Field :=
  [{ isSigner := true, hasMut := true }, {}, { hasMut := true }, {}, {}]

def AcceptAuthority.fields : List Field := [{ isSigner := true }, { hasMut := true }, {}]

/-! ## sdk/transfer-hook-sdk.ts -/

namespace TransferHookSdk

/-- Anchor derives the entry's address from the seeds in the IDL. -/
def addToWhitelistIx (d : Deployment) (authority mint wallet : Pubkey) :
    Option TransactionInstruction := do
  let config ← hookConfigPda d mint
  let whitelistEntry ← whitelistEntryPda d mint wallet
  pure ⟨.addToWhitelist wallet,
    AddToWhitelist.fields.zipWith accountMeta
      [authority, config.1, whitelistEntry.1, mint, systemProgram]⟩

def transferAuthorityIx (d : Deployment) (authority newAuthority mint : Pubkey) :
    Option TransactionInstruction := do
  let config ← hookConfigPda d mint
  pure ⟨.transferAuthority,
    TransferAuthority.fields.zipWith accountMeta
      [authority, newAuthority, config.1, mint, systemProgram]⟩

def acceptAuthorityIx (d : Deployment) (pendingAuthority mint : Pubkey) :
    Option TransactionInstruction := do
  let config ← hookConfigPda d mint
  pure ⟨.acceptAuthority,
    AcceptAuthority.fields.zipWith accountMeta [pendingAuthority, config.1, mint]⟩

def updateConfigIx (d : Deployment) (authority mint credential schema sasProgram : Pubkey) :
    Option TransactionInstruction := do
  let config ← hookConfigPda d mint
  let extraAccountMetaList ← extraAccountMetaListPda d mint
  pure ⟨.updateConfig credential schema sasProgram,
    UpdateConfig.fields.zipWith accountMeta
      [authority, config.1, mint, extraAccountMetaList.1]⟩

end TransferHookSdk

/-! ## sdk/pda.ts and sdk/instructions.ts -/

namespace SdkInstructions

def findHookConfigPda (H : Host) (mint programId : Pubkey) : Option (Pubkey × UInt8) :=
  H.findProgramAddress [configSeed, mint.bytes] programId

def findExtraAccountMetaListPda (H : Host) (mint programId : Pubkey) :
    Option (Pubkey × UInt8) :=
  H.findProgramAddress [extraAccountMetasSeed, mint.bytes] programId

def findWhitelistEntryPda (H : Host) (mint wallet programId : Pubkey) :
    Option (Pubkey × UInt8) :=
  H.findProgramAddress [whitelistSeed, mint.bytes, wallet.bytes] programId

def buildInitializeConfigIx (d : Deployment)
    (authority mint credential schema sasProgram : Pubkey) : Option TransactionInstruction := do
  let hookConfigPda ← findHookConfigPda d.toHost mint d.programId
  pure ⟨.initializeConfig credential schema sasProgram,
    InitializeConfig.fields.zipWith accountMeta
      [authority, hookConfigPda.1, mint, systemProgram]⟩

def buildInitializeExtraAccountMetaListIx (d : Deployment) (payer mint : Pubkey) :
    Option TransactionInstruction := do
  let hookConfigPda ← findHookConfigPda d.toHost mint d.programId
  let extraAccountMetaListPda ← findExtraAccountMetaListPda d.toHost mint d.programId
  pure ⟨.initializeExtraAccountMetaList,
    InitializeExtraAccountMetaList.fields.zipWith accountMeta
      [payer, extraAccountMetaListPda.1, mint, hookConfigPda.1, systemProgram]⟩

/-- The entry is not passed; Anchor derives it. -/
def buildAddToWhitelistIx (d : Deployment) (authority mint wallet : Pubkey) :
    Option TransactionInstruction := do
  let hookConfigPda ← findHookConfigPda d.toHost mint d.programId
  let whitelistEntryPda ← findWhitelistEntryPda d.toHost mint wallet d.programId
  pure ⟨.addToWhitelist wallet,
    AddToWhitelist.fields.zipWith accountMeta
      [authority, hookConfigPda.1, whitelistEntryPda.1, mint, systemProgram]⟩

/-- The entry is not passed; Anchor derives it. -/
def buildRemoveFromWhitelistIx (d : Deployment) (authority mint wallet : Pubkey) :
    Option TransactionInstruction := do
  let hookConfigPda ← findHookConfigPda d.toHost mint d.programId
  let whitelistEntryPda ← findWhitelistEntryPda d.toHost mint wallet d.programId
  pure ⟨.removeFromWhitelist wallet,
    RemoveFromWhitelist.fields.zipWith accountMeta
      [authority, hookConfigPda.1, whitelistEntryPda.1, mint, systemProgram]⟩

/-- The system program is not passed; Anchor has its address from the IDL. -/
def buildTransferHookAuthorityIx (d : Deployment) (authority newAuthority mint : Pubkey) :
    Option TransactionInstruction := do
  let hookConfigPda ← findHookConfigPda d.toHost mint d.programId
  pure ⟨.transferAuthority,
    TransferAuthority.fields.zipWith accountMeta
      [authority, newAuthority, hookConfigPda.1, mint, systemProgram]⟩

def buildUpdateConfigIx (d : Deployment)
    (authority mint credential schema sasProgram : Pubkey) : Option TransactionInstruction := do
  let hookConfigPda ← findHookConfigPda d.toHost mint d.programId
  let extraAccountMetaListPda ← findExtraAccountMetaListPda d.toHost mint d.programId
  pure ⟨.updateConfig credential schema sasProgram,
    UpdateConfig.fields.zipWith accountMeta
      [authority, hookConfigPda.1, mint, extraAccountMetaListPda.1]⟩

end SdkInstructions

/-! ## admin-cli -/

namespace AdminCli

def getConfigAddress (H : Host) (mint programId : Pubkey) : Option (Pubkey × UInt8) :=
  H.findProgramAddress [configSeed, mint.bytes] programId

def getExtraAccountMetaListAddress (H : Host) (mint programId : Pubkey) :
    Option (Pubkey × UInt8) :=
  H.findProgramAddress [extraAccountMetasSeed, mint.bytes] programId

def getWhitelistEntryAddress (H : Host) (mint wallet programId : Pubkey) :
    Option (Pubkey × UInt8) :=
  H.findProgramAddress [whitelistSeed, mint.bytes, wallet.bytes] programId

/-- The subcommands that send a transaction, with their keys parsed. -/
inductive Commands where
  | initializeConfig (mint credential schema sasProgram : Pubkey)
  | updateConfig (mint credential schema sasProgram : Pubkey)
  | initExtraAccountMetaList (mint : Pubkey)
  | addToWhitelist (mint wallet : Pubkey)
  | removeFromWhitelist (mint wallet : Pubkey)
  | transferAuthority (mint newAuthority : Pubkey)
  | acceptAuthority (mint : Pubkey)
  deriving DecidableEq

/-- What each handler hands to `program.request()`; `payer` is the client's keypair. -/
def Commands.request (d : Deployment) (payer : Pubkey) :
    Commands → Option TransactionInstruction
  | .initializeConfig mint credential schema sasProgram => do
      let configAddress ← getConfigAddress d.toHost mint d.programId
      pure ⟨.initializeConfig credential schema sasProgram,
        InitializeConfig.fields.zipWith accountMeta
          [payer, configAddress.1, mint, systemProgram]⟩
  | .updateConfig mint credential schema sasProgram => do
      let configAddress ← getConfigAddress d.toHost mint d.programId
      let extraAccountMetaListAddress ← getExtraAccountMetaListAddress d.toHost mint d.programId
      pure ⟨.updateConfig credential schema sasProgram,
        UpdateConfig.fields.zipWith accountMeta
          [payer, configAddress.1, mint, extraAccountMetaListAddress.1]⟩
  | .initExtraAccountMetaList mint => do
      let configAddress ← getConfigAddress d.toHost mint d.programId
      let extraAccountMetaListAddress ← getExtraAccountMetaListAddress d.toHost mint d.programId
      pure ⟨.initializeExtraAccountMetaList,
        InitializeExtraAccountMetaList.fields.zipWith accountMeta
          [payer, extraAccountMetaListAddress.1, mint, configAddress.1, systemProgram]⟩
  | .addToWhitelist mint wallet => do
      let configAddress ← getConfigAddress d.toHost mint d.programId
      let whitelistEntryAddress ← getWhitelistEntryAddress d.toHost mint wallet d.programId
      pure ⟨.addToWhitelist wallet,
        AddToWhitelist.fields.zipWith accountMeta
          [payer, configAddress.1, whitelistEntryAddress.1, mint, systemProgram]⟩
  | .removeFromWhitelist mint wallet => do
      let configAddress ← getConfigAddress d.toHost mint d.programId
      let whitelistEntryAddress ← getWhitelistEntryAddress d.toHost mint wallet d.programId
      pure ⟨.removeFromWhitelist wallet,
        RemoveFromWhitelist.fields.zipWith accountMeta
          [payer, configAddress.1, whitelistEntryAddress.1, mint, systemProgram]⟩
  | .transferAuthority mint newAuthority => do
      let configAddress ← getConfigAddress d.toHost mint d.programId
      pure ⟨.transferAuthority,
        TransferAuthority.fields.zipWith accountMeta
          [payer, newAuthority, configAddress.1, mint, systemProgram]⟩
  | .acceptAuthority mint => do
      let configAddress ← getConfigAddress d.toHost mint d.programId
      pure ⟨.acceptAuthority,
        AcceptAuthority.fields.zipWith accountMeta [payer, configAddress.1, mint]⟩

/-- A handler: the client's keypair pays and signs alone; `none` where it returns an error. -/
def Commands.run (d : Deployment) (payer : Pubkey) (l : Ledger) (cmd : Commands) :
    Option Ledger := do
  let ix ← cmd.request d payer
  sendAndConfirm d payer l ix

namespace Commands

def mint : Commands → Pubkey
  | initializeConfig m .. | updateConfig m .. | initExtraAccountMetaList m | addToWhitelist m _
  | removeFromWhitelist m _ | transferAuthority m _ | acceptAuthority m => m

def wallet : Commands → Option Pubkey
  | addToWhitelist _ w | removeFromWhitelist _ w => some w
  | _ => none

/-- What the holder of the keypair `a` means by the command. -/
def op (a : Pubkey) : Commands → Op Pubkey Rule
  | initializeConfig _ credential schema sasProgram => .create a ⟨credential, schema, sasProgram⟩
  | updateConfig _ credential schema sasProgram => .setRule a ⟨credential, schema, sasProgram⟩
  | initExtraAccountMetaList _ => .publish a
  | addToWhitelist _ w => .exempt a w
  | removeFromWhitelist _ w => .revoke a w
  | transferAuthority _ k => .nominate a (nominee k)
  | acceptAuthority _ => .accept a

end Commands

end AdminCli

/-! ## One instruction from three sources -/

/-- What the SDK's builders, those of its class and the stand-alone ones, give the holder of
the keypair `a` in place of a command. -/
inductive BuiltFor (d : Deployment) (a : Pubkey) :
    AdminCli.Commands → Option TransactionInstruction → Prop where
  | initializeConfigIx (m credential schema sasProgram : Pubkey) :
      BuiltFor d a (.initializeConfig m credential schema sasProgram)
        (TransferHookSdk.initializeConfigIx d a m credential schema sasProgram)
  | buildInitializeConfigIx (m credential schema sasProgram : Pubkey) :
      BuiltFor d a (.initializeConfig m credential schema sasProgram)
        (SdkInstructions.buildInitializeConfigIx d a m credential schema sasProgram)
  | updateConfigIx (m credential schema sasProgram : Pubkey) :
      BuiltFor d a (.updateConfig m credential schema sasProgram)
        (TransferHookSdk.updateConfigIx d a m credential schema sasProgram)
  | buildUpdateConfigIx (m credential schema sasProgram : Pubkey) :
      BuiltFor d a (.updateConfig m credential schema sasProgram)
        (SdkInstructions.buildUpdateConfigIx d a m credential schema sasProgram)
  | initializeExtraAccountMetaListIx (m : Pubkey) :
      BuiltFor d a (.initExtraAccountMetaList m)
        (TransferHookSdk.initializeExtraAccountMetaListIx d a m)
  | buildInitializeExtraAccountMetaListIx (m : Pubkey) :
      BuiltFor d a (.initExtraAccountMetaList m)
        (SdkInstructions.buildInitializeExtraAccountMetaListIx d a m)
  | addToWhitelistIx (m w : Pubkey) :
      BuiltFor d a (.addToWhitelist m w) (TransferHookSdk.addToWhitelistIx d a m w)
  | buildAddToWhitelistIx (m w : Pubkey) :
      BuiltFor d a (.addToWhitelist m w) (SdkInstructions.buildAddToWhitelistIx d a m w)
  | removeFromWhitelistIx (m w : Pubkey) :
      BuiltFor d a (.removeFromWhitelist m w) (TransferHookSdk.removeFromWhitelistIx d a m w)
  | buildRemoveFromWhitelistIx (m w : Pubkey) :
      BuiltFor d a (.removeFromWhitelist m w)
        (SdkInstructions.buildRemoveFromWhitelistIx d a m w)
  | transferAuthorityIx (m k : Pubkey) :
      BuiltFor d a (.transferAuthority m k) (TransferHookSdk.transferAuthorityIx d a k m)
  | buildTransferHookAuthorityIx (m k : Pubkey) :
      BuiltFor d a (.transferAuthority m k)
        (SdkInstructions.buildTransferHookAuthorityIx d a k m)
  | acceptAuthorityIx (m : Pubkey) :
      BuiltFor d a (.acceptAuthority m) (TransferHookSdk.acceptAuthorityIx d a m)

/-- The instruction is the one the handler of the command sends. -/
lemma BuiltFor.eq_request {d : Deployment} {a : Pubkey} {cmd : AdminCli.Commands}
    {built : Option TransactionInstruction} (h : BuiltFor d a cmd built) :
    built = cmd.request d a := by
  cases h <;> rfl

end AlienIdTransferHook
