import AlienIdTransferHook.Attestation
import AlienIdTransferHook.Whitelist

/-!
# Enforcement

A transfer that the hook lets through was a transfer in progress, by a wallet that may
move the tokens and that is whitelisted or attested under the rule last set for the
mint, whatever accounts were passed and whatever happened before.
-/
namespace AlienIdTransferHook
open Solana History TransferPolicy

variable {d : Deployment} {K : KeysInPlay d} {l l' : Ledger} {m w : Pubkey} {c : Call}

/-- The wallet's attestation under a rule: the account at the derived address is the
service's and holds an attestation that has not expired. -/
def Attested (d : Deployment) (l : Ledger) (rule : Rule) (w : Pubkey) : Prop :=
  ∃ k b n e, d.findProgramAddress
      (TransferHook.attestationSeeds rule.credential rule.schema w) rule.sasProgram =
        some (k, b) ∧
    (l.account k).owner = rule.sasProgram ∧ IsAttestation (l.account k).data n e ∧
    (e = 0 ∨ l.unixTimestamp < e)

/-- The newest `initialize_config` or `update_config` for `m` in a history wrote the rule. -/
def RuleWritten (m : Pubkey) (rule : Rule) (h : List (Ledger × Event)) : Prop :=
  ∃ newer l₀ c older, h = newer ++ (l₀, .invoked c) :: older ∧ c.mint = some m ∧
    (c.instruction = .initializeConfig rule.credential rule.schema rule.sasProgram ∨
      c.instruction = .updateConfig rule.credential rule.schema rule.sasProgram) ∧
    ∀ e ∈ newer, ¬ e.2.For m Instruction.SetsRule

theorem ruleWritten (hm : m ∈ K.keys) {h : List (Ledger × Event)}
    (hr : Reaches (hookSystem K) h l) {config : HookConfig}
    (hc : d.hookConfig l m = some config) : RuleWritten m config.rule h := by
  have hreach := policy_reaches hm hr
  have hp : policy K m l = some (policyOf K m l config) := by simp [policy, hc]
  rw [hp] at hreach
  obtain ⟨newer, s, op, older, a, himage, hop, hnewer⟩ := rule_provenance hreach
  obtain ⟨hnew, l₀, c, hold, rfl, hlabel, -, -, -, -, rfl, -⟩ := exists_call hm hr himage
  refine ⟨hnew, l₀, c, hold, rfl, Call.mint_of_op hlabel, ?_,
    not_for_of_image hm (fun _ => Call.op_setsRule) hnewer⟩
  rcases hop with rfl | rfl
  · exact .inl (Call.instruction_of_op hlabel).1
  · exact .inr (Call.instruction_of_op hlabel).1

namespace TransferHook
variable {a : TransferHook} {config : HookConfig}

/-- The attestation path passes exactly for an attested wallet with the accounts of
the config. -/
theorem verifyAttestation_eq_ok {u : Unit} :
    a.verifyAttestation d l config = .ok u ↔
      a.credential = config.credential ∧ a.schema = config.schema ∧
      a.sasProgram = config.sasProgram ∧
      (∃ b, d.findProgramAddress
        (attestationSeeds config.credential config.schema a.transferAuthority)
        config.sasProgram = some (a.attestation, b)) ∧
      Attested d l config.rule a.transferAuthority := by
  unfold verifyAttestation
  constructor
  · intro h
    obtain ⟨⟨⟩, haccounts, h⟩ := bind_eq_ok.mp h
    obtain ⟨e, hexpiry, h⟩ := bind_eq_ok.mp h
    obtain ⟨hcredential, hschema, hsas, ⟨b, hfind⟩, howner⟩ :=
      checkAttestationAccounts_eq_ok.mp haccounts
    exact ⟨hcredential, hschema, hsas, ⟨b, hfind⟩, a.attestation, b, _, e, hfind, howner,
      isAttestation_of_readExpiry hexpiry, checkExpiry_eq_ok.mp h⟩
  · rintro ⟨hcredential, hschema, hsas, ⟨b, hfind⟩, k, b', n, e, hfind', howner, hdata, hlive⟩
    obtain ⟨rfl, -⟩ : k = a.attestation ∧ b' = b := by
      simpa [HookConfig.rule, hfind] using hfind'.symm
    have haccounts : a.checkAttestationAccounts d l config = .ok () :=
      checkAttestationAccounts_eq_ok.mpr ⟨hcredential, hschema, hsas, ⟨b, hfind⟩, howner⟩
    rw [haccounts, ok_bind, (readExpiry_of_isAttestation hdata).2, ok_bind]
    exact checkExpiry_eq_ok.mpr hlive

end TransferHook

/-- What a successful run of the hook means. -/
structure Enforced (d : Deployment) (h : List (Ledger × Event)) (l : Ledger)
    (sourceToken m w : Pubkey) : Prop where
  transferring : d.token.transferring (l.account sourceToken).data = .ok true
  authority : ∃ source, d.interfaceTokenAccount l sourceToken = .ok source ∧
    source.mint = m ∧ (source.owner = w ∨ source.delegate = some w ∧ 0 < source.delegatedAmount)
  /-- The newest whitelist instruction for the wallet added it, or the wallet is
  attested under the values last written to the config. -/
  cleared : Listed d m w h ∨ ∃ rule, RuleWritten m rule h ∧ Attested d l rule w

/-- The hook cannot be bypassed: in every reachable state and for every account list, its
success for a mint and a transfer authority means that the transfer is allowed. -/
theorem hook_enforces {h : List (Ledger × Event)} (hr : Reaches (hookSystem K) h l)
    (ha : c.Admissible K) {amount : ℕ} (hi : c.instruction = .transferHook amount)
    (hok : c.process d l = .ok l') :
    ∃ sourceToken m destinationToken w rest,
      c.accounts = sourceToken :: m :: destinationToken :: w :: rest ∧
        Enforced d h l sourceToken m w := by
  have hinv : Inv K l := inv_of_reaches hr
  obtain ⟨i, keys, p⟩ := c
  obtain rfl : i = .transferHook amount := hi
  obtain ⟨l₁, hrun, -⟩ := bind_eq_ok.mp hok
  obtain ⟨⟨⟩, hhook, -⟩ := bind_eq_ok.mp hrun
  obtain ⟨a, source, config, hkeys, htry, hhandler⟩ := transferHook_ok hhook
  obtain ⟨rest, rfl⟩ := TransferHook.ofKeys_eq_ok hkeys
  have hm : a.mint ∈ K.keys := ha.mint _ rfl
  have hw : a.transferAuthority ∈ K.keys := ha.wallet _ rfl
  obtain ⟨hsource, hsourceMint, -, -, hload, -, hcreate⟩ :=
    TransferHook.tryAccounts_eq_ok.mp htry
  obtain ⟨hflag, hauthority, hcleared⟩ := TransferHook.handler_eq_ok.mp hhandler
  refine ⟨a.sourceToken, a.mint, a.destinationToken, a.transferAuthority, _, rfl, hflag,
    ⟨source, hsource, hsourceMint, hauthority⟩, ?_⟩
  rcases hcleared with hlisted | ⟨-, hverify⟩
  · exact .inl ((whitelist_skipped hm hw hr) hlisted)
  · have hconfig := (hinv.configAt hm hload hcreate).hookConfig
    exact .inr ⟨config.rule, ruleWritten hm hr hconfig,
      (TransferHook.verifyAttestation_eq_ok.mp hverify).2.2.2.2⟩

/-- The whitelisted wallet's transfer on the local chain. -/
theorem hook_enforces_listed :
    ∃ sourceToken m destinationToken w rest,
      LocalChain.transferHookCall.accounts = sourceToken :: m :: destinationToken :: w :: rest ∧
        Enforced LocalChain.chain
          [(LocalChain.published, .invoked LocalChain.addToWhitelistCall),
            (LocalChain.configured, .invoked LocalChain.initializeListCall),
            (LocalChain.genesis, .invoked LocalChain.initializeConfigCall)]
          LocalChain.listed sourceToken m w :=
  hook_enforces LocalChain.reaches_listed LocalChain.admissible_transferHook rfl
    LocalChain.process_transferHook

end AlienIdTransferHook
