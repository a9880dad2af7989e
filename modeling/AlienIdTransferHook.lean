import AlienIdTransferHook.History
import AlienIdTransferHook.TransferPolicy
import AlienIdTransferHook.Solana
import AlienIdTransferHook.ByteCodec
import AlienIdTransferHook.Anchor
import AlienIdTransferHook.AccountResolution
import AlienIdTransferHook.TlvList
import AlienIdTransferHook.State
import AlienIdTransferHook.Deployment
import AlienIdTransferHook.ConfigInstructions
import AlienIdTransferHook.AuthorityInstructions
import AlienIdTransferHook.TransferHook
import AlienIdTransferHook.Program
import AlienIdTransferHook.InstructionSpecs
import AlienIdTransferHook.Invariant
import AlienIdTransferHook.Effect
import AlienIdTransferHook.Frame
import AlienIdTransferHook.Refinement
import AlienIdTransferHook.Runs
import AlienIdTransferHook.Authority
import AlienIdTransferHook.MetaList
import AlienIdTransferHook.Whitelist
import AlienIdTransferHook.Attestation
import AlienIdTransferHook.Enforcement
import AlienIdTransferHook.ExecuteAccounts
import AlienIdTransferHook.Delegate
import AlienIdTransferHook.PdaDomains
import AlienIdTransferHook.PoolAuthority
import AlienIdTransferHook.Sdk
import AlienIdTransferHook.Revocation
import AlienIdTransferHook.ConfigUpdate
import AlienIdTransferHook.ConfigUpgrade
import AlienIdTransferHook.SetUp
import AlienIdTransferHook.SetUpRaces
import AlienIdTransferHook.AttestationFields
import AlienIdTransferHook.Issuance
import AlienIdTransferHook.Utf16
import AlienIdTransferHook.WireFields
import AlienIdTransferHook.AttestationSchema
import AlienIdTransferHook.Locality
import AlienIdTransferHook.Lamports
import AlienIdTransferHook.AccountLocks
import AlienIdTransferHook.Accounting
import AlienIdTransferHook.Clients
import AlienIdTransferHook.Info
import AlienIdTransferHook.PolicyCommands
import AlienIdTransferHook.PolicyHistories
import AlienIdTransferHook.Clearance
import AlienIdTransferHook.StaleAccounts
import AlienIdTransferHook.Replay
import AlienIdTransferHook.TagDispatch
import AlienIdTransferHook.Entrypoint
