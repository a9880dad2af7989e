import AlienIdTransferHook.State
import AlienIdTransferHook.AccountResolution
import Mathlib.Data.Set.Function

/-!
# A deployment of the program

What the program runs on: the chain, the token programs and the account
resolution library. The token programs' layouts are parameters. No hash into 32
bytes is injective on all seeds, so collision freedom is stated for the keys
in play: the mints and wallets that occur in the run under discussion.
-/
namespace AlienIdTransferHook
open Solana

/-- The field of a mint that the program reads. -/
structure Mint where
  mintAuthority : Option Pubkey
  deriving DecidableEq

/-- The fields of a token account that the program and a transfer touch. -/
structure TokenAccount where
  mint : Pubkey
  owner : Pubkey
  amount : ℕ
  delegate : Option Pubkey
  delegatedAmount : ℕ
  deriving DecidableEq

/-- How unpacking an account of a token program fails. -/
def UnpackError (e : ProgramError) : Prop := e = .invalidAccountData ∨ e = .uninitializedAccount

/-- The token programs as `anchor_spl::token_interface` sees them. -/
structure TokenInterface where
  /-- The ids of the Token and Token-2022 programs. -/
  ids : List Pubkey
  /-- `StateWithExtensions::unpack` of a mint. -/
  unpackMint : List UInt8 → Outcome Mint
  /-- `StateWithExtensions::unpack` of a token account. -/
  unpackAccount : List UInt8 → Outcome TokenAccount
  unpackMint_error : ∀ data, FailsWith UnpackError (unpackMint data)
  unpackAccount_error : ∀ data, FailsWith UnpackError (unpackAccount data)
  /-- The flag of the `TransferHookAccount` extension; fails where it is missing. -/
  transferring : List UInt8 → Outcome Bool
  transferring_error : ∀ data e, transferring data = .error e → ∃ code, e = .library code

structure Deployment extends Host where
  token : TokenInterface
  resolution : AccountResolution

namespace Deployment

/-- The account's data under a token program's layout. -/
def interfaceAccount {α : Type} (d : Deployment) (unpack : List UInt8 → Outcome α)
    (l : Ledger) (k : Pubkey) : Outcome α := do
  require (¬ ((l.account k).owner = systemProgram ∧ (l.account k).lamports = 0))
    (.anchor .accountNotInitialized)
  require ((l.account k).owner ∈ d.token.ids) (.anchor .accountOwnedByWrongProgram)
  unpack (l.account k).data

/-- `InterfaceAccount<Mint>`. -/
def interfaceMint (d : Deployment) : Ledger → Pubkey → Outcome Mint :=
  d.interfaceAccount d.token.unpackMint

/-- `InterfaceAccount<TokenAccount>`. -/
def interfaceTokenAccount (d : Deployment) : Ledger → Pubkey → Outcome TokenAccount :=
  d.interfaceAccount d.token.unpackAccount

/-- The canonical address of one of the program's accounts, and its bump. -/
def find (d : Deployment) (s : HookSeeds) : Option (Pubkey × UInt8) :=
  d.findProgramAddress s.toList d.programId

/-- There is one canonical address. -/
theorem find_unique {d : Deployment} {s : HookSeeds} {k k' : Pubkey} {b b' : UInt8}
    (h : d.find s = some (k, b)) (h' : d.find s = some (k', b')) : k = k' := by
  rw [h] at h'
  exact (Prod.mk.inj (Option.some.inj h')).1

theorem create_of_find {d : Deployment} {s : HookSeeds} {k : Pubkey} {b : UInt8}
    (h : d.find s = some (k, b)) :
    d.createProgramAddress (s.toList ++ [[b]]) d.programId = some k :=
  Host.createProgramAddress_of_find h

/-- The typed account at the canonical address, if the program owns it. -/
def stored (α : Type) [AnchorAccount α] (d : Deployment) (l : Ledger) (s : HookSeeds) :
    Option α := do
  let pda ← d.find s
  (loadAccount α d.toHost l pda.1).toOption

/-- `HookConfig(m)`. -/
def hookConfig (d : Deployment) (l : Ledger) (m : Pubkey) : Option HookConfig :=
  d.stored HookConfig l (.config m)

end Deployment

/-- Mints and wallets of a run, without a collision among the program's addresses for
them, whatever the bump. -/
structure KeysInPlay (d : Deployment) where
  keys : Set Pubkey
  collisionFree : Set.InjOn d.hash
    {bs | ∃ (s : HookSeeds) (b : UInt8), (∀ k ∈ s.keys, k ∈ keys) ∧
      bs = pdaPreimage (s.toList ++ [[b]]) d.programId}
  /-- Further seeds under the program's id: those of attestations, where a config names the
  program itself as its attestation service. -/
  others : Set (List (List UInt8))

namespace KeysInPlay
variable {d : Deployment} (K : KeysInPlay d)

/-- The seeds use only keys in play. -/
def Covers (s : HookSeeds) : Prop := ∀ k ∈ s.keys, k ∈ K.keys

@[simp] theorem covers_config {m : Pubkey} : K.Covers (.config m) ↔ m ∈ K.keys := by
  simp [Covers, HookSeeds.keys]

@[simp] theorem covers_extraAccountMetas {m : Pubkey} :
    K.Covers (.extraAccountMetas m) ↔ m ∈ K.keys := by simp [Covers, HookSeeds.keys]

@[simp] theorem covers_whitelist {m w : Pubkey} :
    K.Covers (.whitelist m w) ↔ m ∈ K.keys ∧ w ∈ K.keys := by
  simp [Covers, HookSeeds.keys]

variable {K} in
theorem mint_mem {s : HookSeeds} (hs : K.Covers s) : s.mint ∈ K.keys := by
  cases s with
  | config m | extraAccountMetas m => exact hs m (.head _)
  | whitelist m w => exact hs m (.head _)

/-- One address, one kind of account, one mint, one wallet and one bump. -/
theorem create_injective {s s' : HookSeeds} {b b' : UInt8} {k : Pubkey} (hs : K.Covers s)
    (hs' : K.Covers s') (h : d.createProgramAddress (s.toList ++ [[b]]) d.programId = some k)
    (h' : d.createProgramAddress (s'.toList ++ [[b']]) d.programId = some k) :
    s = s' ∧ b = b' := by
  have heq := (Host.hash_of_create h).trans (Host.hash_of_create h').symm
  exact HookSeeds.preimage_injective (K.collisionFree ⟨s, b, hs, rfl⟩ ⟨s', b', hs', rfl⟩ heq)

theorem find_ne {s s' : HookSeeds} {k k' : Pubkey} {b b' : UInt8} (hs : K.Covers s)
    (hs' : K.Covers s') (hne : s ≠ s') (h : d.find s = some (k, b))
    (h' : d.find s' = some (k', b')) : k ≠ k' := by
  rintro rfl
  exact hne (K.create_injective hs hs' (Deployment.create_of_find h)
    (Deployment.create_of_find h')).1

/-! ## What everybody else can do -/

/-- An address in play under the program's id, for whatever bump. Only the program itself
can sign for it. -/
inductive Derived (k : Pubkey) : Prop
  | record {s : HookSeeds} {b : UInt8} (hs : K.Covers s)
      (h : d.createProgramAddress (s.toList ++ [[b]]) d.programId = some k)
  | other {seeds : List (List UInt8)} {b : UInt8} (hs : seeds ∈ K.others)
      (h : d.createProgramAddress (seeds ++ [[b]]) d.programId = some k)

variable {K} in
theorem derived_of_find {s : HookSeeds} {k : Pubkey} {b : UInt8} (hs : K.Covers s)
    (h : d.find s = some (k, b)) : K.Derived k := .record hs (Deployment.create_of_find h)

/-- Before the program's first instruction its addresses hold at most donated lamports. -/
def Fresh (l : Ledger) : Prop := ∀ k, K.Derived k → (l.account k).Unallocated

/-- Another program may leave any account at `k`, even one it hands over to this
program. The runtime lets it write only what this program does not own, and asks for
the address's signature when the account is system-owned. -/
structure ForeignWrite (l : Ledger) (k : Pubkey) : Prop where
  not_owned : (l.account k).owner ≠ d.programId
  signed : (l.account k).owner = systemProgram → ¬ K.Derived k

end KeysInPlay

/-- Nobody signs for the address of the record. -/
def Solana.Privileges.Unsigned (p : Privileges) (d : Deployment) (s : HookSeeds) : Prop :=
  ∀ k b, d.find s = some (k, b) → k ∉ p.signers

/-- A signer is not the record. -/
theorem Solana.Privileges.Unsigned.ne {p : Privileges} {d : Deployment} {s : HookSeeds}
    {signer k : Pubkey} {b : UInt8} (h : p.Unsigned d s) (hfind : d.find s = some (k, b))
    (hsigned : signer ∈ p.signers) : signer ≠ k := by
  rintro rfl
  exact h _ _ hfind hsigned

end AlienIdTransferHook
