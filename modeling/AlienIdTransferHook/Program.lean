import AlienIdTransferHook.ConfigInstructions
import AlienIdTransferHook.AuthorityInstructions
import AlienIdTransferHook.TransferHook
import AlienIdTransferHook.TransferPolicy

/-!
# The program as a transition system

Calls of the eight instructions with any account list, the other programs, the
donors and the clock, and the policy that a ledger implements for each mint.
-/
namespace AlienIdTransferHook
open Solana History TransferPolicy

inductive Instruction where
  | initializeConfig (credential schema sasProgram : Pubkey)
  | updateConfig (credential schema sasProgram : Pubkey)
  | addToWhitelist (wallet : Pubkey)
  | removeFromWhitelist (wallet : Pubkey)
  | transferAuthority
  | acceptAuthority
  | initializeExtraAccountMetaList
  | transferHook (amount : ℕ)
  deriving DecidableEq

/-- An instruction as it arrives: the keys passed, in order, and their flags. -/
structure Call where
  instruction : Instruction
  accounts : List Pubkey
  privileges : Privileges

namespace Call

def run (d : Deployment) (l : Ledger) (c : Call) : Outcome Ledger :=
  match c.instruction with
  | .initializeConfig credential schema sasProgram =>
      initializeConfig d c.privileges l c.accounts credential schema sasProgram
  | .updateConfig credential schema sasProgram =>
      updateConfig d c.privileges l c.accounts credential schema sasProgram
  | .addToWhitelist wallet => addToWhitelist d c.privileges l c.accounts wallet
  | .removeFromWhitelist wallet => removeFromWhitelist d c.privileges l c.accounts wallet
  | .transferAuthority => transferAuthority d c.privileges l c.accounts
  | .acceptAuthority => acceptAuthority d c.privileges l c.accounts
  | .initializeExtraAccountMetaList =>
      initializeExtraAccountMetaList d c.privileges l c.accounts
  | .transferHook amount => do
      transferHook d l c.accounts amount
      pure l

/-- The instruction followed by the runtime's check of what it changed. -/
def process (d : Deployment) (l : Ledger) (c : Call) : Outcome Ledger := do
  let l' ← c.run d l
  commit c.privileges c.accounts l l'

/-- The position of the mint in each instruction's accounts. -/
def mint (c : Call) : Option Pubkey :=
  match c.instruction with
  | .initializeConfig .. | .updateConfig .. | .acceptAuthority
  | .initializeExtraAccountMetaList => c.accounts[2]?
  | .addToWhitelist _ | .removeFromWhitelist _ | .transferAuthority => c.accounts[3]?
  | .transferHook _ => c.accounts[1]?

/-- The wallet whose whitelist address the instruction derives. -/
def wallet (c : Call) : Option Pubkey :=
  match c.instruction with
  | .addToWhitelist w | .removeFromWhitelist w => some w
  | .transferHook _ => c.accounts[3]?
  | _ => none

/-- What the runtime guarantees of a call: nobody but the program signs for its
derived addresses, and the system program's own account is never writable. The
last two fields keep the run inside the keys in play. -/
structure Admissible {d : Deployment} (K : KeysInPlay d) (c : Call) : Prop where
  signers : ∀ k ∈ c.privileges.signers, ¬ K.Derived k
  reserved : systemProgram ∉ c.privileges.writable
  mint : ∀ m, c.mint = some m → m ∈ K.keys
  wallet : ∀ w, c.wallet = some w → w ∈ K.keys

theorem Admissible.unsigned {d : Deployment} {K : KeysInPlay d} {c : Call}
    (h : c.Admissible K) {s : HookSeeds} (hs : K.Covers s) : c.privileges.Unsigned d s :=
  fun _ _ hfind hsigned => h.signers _ hsigned (KeysInPlay.derived_of_find hs hfind)

end Call

/-! ## Runs -/

inductive Event where
  | invoked (c : Call)
  | rejected (c : Call)
  | donated (k : Pubkey) (lamports : ℕ)
  | written (k : Pubkey) (a : Account)
  | ticked (time : ℤ)

variable {d : Deployment}

inductive LedgerStep (K : KeysInPlay d) : Ledger → Event → Ledger → Prop
  | invoked {l l' : Ledger} {c : Call} (ha : c.Admissible K) (h : c.process d l = .ok l') :
      LedgerStep K l (.invoked c) l'
  | rejected {l : Ledger} {c : Call} {e : ProgramError} (h : c.process d l = .error e) :
      LedgerStep K l (.rejected c) l
  | donated (l : Ledger) (k : Pubkey) (n : ℕ) : LedgerStep K l (.donated k n) (l.credit k n)
  | written {l : Ledger} {k : Pubkey} (h : K.ForeignWrite l k) (a : Account) :
      LedgerStep K l (.written k a) (l.set k a)
  | ticked (l : Ledger) (t : ℤ) : LedgerStep K l (.ticked t) { l with unixTimestamp := t }

/-- Every run of the program and its surroundings, from before its first instruction. -/
def hookSystem (K : KeysInPlay d) : System Ledger Event where
  start := K.Fresh
  step := LedgerStep K

/-! ## The policy of a ledger -/

/-- What a transfer is checked against. -/
structure Rule where
  credential : Pubkey
  schema : Pubkey
  sasProgram : Pubkey
  deriving DecidableEq

def HookConfig.rule (c : HookConfig) : Rule := ⟨c.credential, c.schema, c.sasProgram⟩

/-- `pending_authority` read as an optional key. -/
def nominee (k : Pubkey) : Option Pubkey := if k = Pubkey.default then none else some k

/-- Whether the program owns the account at the canonical address. -/
def Deployment.holds (d : Deployment) (l : Ledger) (s : HookSeeds) : Bool :=
  match d.find s with
  | some pda => (l.account pda.1).owner = d.programId
  | none => false

/-- The policy for mint `m` under the config `c`, with the list and the entries there are. -/
def policyOf (K : KeysInPlay d) (m : Pubkey) (l : Ledger) (c : HookConfig) :
    Policy Pubkey Rule where
  authority := c.authority
  pending := nominee c.pendingAuthority
  rule := c.rule
  published := d.holds l (.extraAccountMetas m)
  exempt := {w | w ∈ K.keys ∧ d.holds l (.whitelist m w) = true}

/-- The policy for mint `m` that the accounts of a ledger encode. -/
def policy (K : KeysInPlay d) (m : Pubkey) (l : Ledger) : Option (Policy Pubkey Rule) :=
  (d.hookConfig l m).map (policyOf K m l)

/-- The operation on mint `m`'s policy that a successful call performs. -/
def Call.op (m : Pubkey) (c : Call) : Option (Op Pubkey Rule) :=
  if c.mint = some m then
    match c.instruction, c.accounts with
    | .initializeConfig credential schema sasProgram, a :: _ =>
        some (.create a ⟨credential, schema, sasProgram⟩)
    | .updateConfig credential schema sasProgram, a :: _ =>
        some (.setRule a ⟨credential, schema, sasProgram⟩)
    | .initializeExtraAccountMetaList, a :: _ => some (.publish a)
    | .transferAuthority, a :: k :: _ => some (.nominate a (nominee k))
    | .acceptAuthority, a :: _ => some (.accept a)
    | .addToWhitelist w, a :: _ => some (.exempt a w)
    | .removeFromWhitelist w, a :: _ => some (.revoke a w)
    | _, _ => none
  else none

def Event.op (m : Pubkey) : Event → Option (Op Pubkey Rule)
  | .invoked c => c.op m
  | _ => none

end AlienIdTransferHook
