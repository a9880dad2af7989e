import AlienIdTransferHook.Program

/-!
# The client

Instructions as the SDK builds them and transactions as the runtime takes them
apart. The flags of an account come from the IDL, and the IDL has them from the
attributes of the account's field.
-/
namespace AlienIdTransferHook
open Solana

/-! ## The IDL -/

/-- What decides the flags of an account: whether its field is a `Signer` and which
attributes it carries. -/
structure Field where
  isSigner : Bool := false
  hasMut : Bool := false
  hasInit : Bool := false
  hasClose : Bool := false

/-- Anchor marks these fields writable, and no others. -/
def Field.isWritable (f : Field) : Bool := f.hasMut || f.hasInit || f.hasClose

def InitializeConfig.fields : List Field :=
  [{ isSigner := true, hasMut := true }, { hasInit := true }, {}, {}]

def InitializeExtraAccountMetaList.fields : List Field :=
  [{ isSigner := true, hasMut := true }, { hasMut := true }, {}, {}, {}]

/-- The authority, to which the entry's balance goes, does not carry `mut`. -/
def RemoveFromWhitelist.fields : List Field :=
  [{ isSigner := true }, {}, { hasMut := true, hasClose := true }, {}, {}]

/-! ## Instructions -/

structure AccountMeta where
  pubkey : Pubkey
  isSigner : Bool
  isWritable : Bool
  deriving DecidableEq

/-- An instruction for the hook program. -/
structure TransactionInstruction where
  instruction : Instruction
  keys : List AccountMeta
  deriving DecidableEq

def accountMeta (f : Field) (k : Pubkey) : AccountMeta := ⟨k, f.isSigner, f.isWritable⟩

namespace TransferHookSdk

/-- `none` where `findProgramAddressSync` throws. -/
def hookConfigPda (d : Deployment) (mint : Pubkey) : Option (Pubkey × UInt8) :=
  d.find (.config mint)

def extraAccountMetaListPda (d : Deployment) (mint : Pubkey) : Option (Pubkey × UInt8) :=
  d.find (.extraAccountMetas mint)

def whitelistEntryPda (d : Deployment) (mint wallet : Pubkey) : Option (Pubkey × UInt8) :=
  d.find (.whitelist mint wallet)

def initializeConfigIx (d : Deployment) (authority mint credential schema sasProgram : Pubkey) :
    Option TransactionInstruction := do
  let config ← hookConfigPda d mint
  pure ⟨.initializeConfig credential schema sasProgram,
    InitializeConfig.fields.zipWith accountMeta [authority, config.1, mint, systemProgram]⟩

def initializeExtraAccountMetaListIx (d : Deployment) (payer mint : Pubkey) :
    Option TransactionInstruction := do
  let config ← hookConfigPda d mint
  let extraAccountMetaList ← extraAccountMetaListPda d mint
  pure ⟨.initializeExtraAccountMetaList,
    InitializeExtraAccountMetaList.fields.zipWith accountMeta
      [payer, extraAccountMetaList.1, mint, config.1, systemProgram]⟩

/-- Anchor derives the entry's address from the seeds in the IDL. -/
def removeFromWhitelistIx (d : Deployment) (authority mint wallet : Pubkey) :
    Option TransactionInstruction := do
  let config ← hookConfigPda d mint
  let whitelistEntry ← whitelistEntryPda d mint wallet
  pure ⟨.removeFromWhitelist wallet,
    RemoveFromWhitelist.fields.zipWith accountMeta
      [authority, config.1, whitelistEntry.1, mint, systemProgram]⟩

end TransferHookSdk

/-! ## Transactions -/

/-- The instruction alone in a transaction that `payer` pays, once the fee has been taken.
An account has a flag if one of its occurrences has it; the fee payer signs and is
writable; the runtime never lets the system program be writable. -/
def TransactionInstruction.paidBy (ix : TransactionInstruction) (payer : Pubkey) : Call where
  instruction := ix.instruction
  accounts := ix.keys.map (·.pubkey)
  privileges :=
    { signers := payer :: (ix.keys.filter (·.isSigner)).map (·.pubkey)
      writable := (payer :: (ix.keys.filter (·.isWritable)).map (·.pubkey)).filter
        (· ≠ systemProgram) }

namespace TransactionInstruction
variable {ix : TransactionInstruction} {k payer : Pubkey}

theorem mem_signers_paidBy : k ∈ (ix.paidBy payer).privileges.signers ↔
    k = payer ∨ ∃ a ∈ ix.keys, a.isSigner = true ∧ a.pubkey = k := by
  simp [paidBy, and_assoc]

theorem mem_writable_paidBy : k ∈ (ix.paidBy payer).privileges.writable ↔
    (k = payer ∨ ∃ a ∈ ix.keys, a.isWritable = true ∧ a.pubkey = k) ∧ k ≠ systemProgram := by
  simp [paidBy, and_assoc]

end TransactionInstruction

/-! ## What the builders give -/

namespace TransferHookSdk
variable {d : Deployment} {a m w kc kl k credential schema sasProgram : Pubkey}
  {bc bl b : UInt8}

lemma initializeConfigIx_eq (hconfig : d.find (.config m) = some (kc, bc)) :
    initializeConfigIx d a m credential schema sasProgram =
      some ⟨.initializeConfig credential schema sasProgram,
        [⟨a, true, true⟩, ⟨kc, false, true⟩, ⟨m, false, false⟩,
          ⟨systemProgram, false, false⟩]⟩ := by
  rw [initializeConfigIx, hookConfigPda, hconfig]
  rfl

lemma initializeExtraAccountMetaListIx_eq (hconfig : d.find (.config m) = some (kc, bc))
    (hlist : d.find (.extraAccountMetas m) = some (kl, bl)) :
    initializeExtraAccountMetaListIx d a m =
      some ⟨.initializeExtraAccountMetaList,
        [⟨a, true, true⟩, ⟨kl, false, true⟩, ⟨m, false, false⟩, ⟨kc, false, false⟩,
          ⟨systemProgram, false, false⟩]⟩ := by
  rw [initializeExtraAccountMetaListIx, hookConfigPda, extraAccountMetaListPda, hconfig, hlist]
  rfl

/-- Of the accounts only the entry is writable. -/
lemma removeFromWhitelistIx_eq (hconfig : d.find (.config m) = some (kc, bc))
    (hentry : d.find (.whitelist m w) = some (k, b)) :
    removeFromWhitelistIx d a m w =
      some ⟨.removeFromWhitelist w,
        [⟨a, true, false⟩, ⟨kc, false, false⟩, ⟨k, false, true⟩, ⟨m, false, false⟩,
          ⟨systemProgram, false, false⟩]⟩ := by
  rw [removeFromWhitelistIx, hookConfigPda, whitelistEntryPda, hconfig, hentry]
  rfl

end TransferHookSdk

end AlienIdTransferHook
