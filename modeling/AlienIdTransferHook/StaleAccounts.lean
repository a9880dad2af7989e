import AlienIdTransferHook.Clearance

/-!
# Transfers built from an older list

A client resolves the accounts of a transfer from the list as it finds it, and the
transfer runs later. Until the rule of the mint is set anew those accounts do as well as
fresh ones; after that they serve exempt wallets only.
-/
namespace AlienIdTransferHook
open Solana History TransferPolicy

variable {d : Deployment} {K : KeysInPlay d} {l l₀ : Ledger} {m w source destination kl : Pubkey}
  {bl : UInt8} {rule : Rule} {keys : List Pubkey} {newer older : List (Ledger × Event)}

/-- The rule in force, as what sets it leaves it. -/
def ruleInForce (K : KeysInPlay d) (hm : m ∈ K.keys) :
    Register (hookSystem K) (Option Rule) :=
  (policySimulation K hm).pull (ruleRegister Pubkey Rule)

lemma ruleInForce_write {e : Event} (hm : m ∈ K.keys)
    (hquiet : ¬ e.For m Instruction.SetsRule) : (ruleInForce K hm).write l e = none := by
  cases e with
  | invoked c =>
      cases hop : c.op m with
      | none => exact congrArg (Option.bind · _) hop
      | some op =>
          have hinstr := Call.instruction_of_op hop
          have hsets : ¬ op.SetsRule := by
            intro hsets
            refine hquiet ⟨Call.mint_of_op hop, ?_⟩
            cases op with
            | create _ _ | setRule _ _ => rw [hinstr.1]; trivial
            | _ => cases hsets
          exact (congrArg (Option.bind · _) hop).trans (rule_write_eq_none hsets)
  | _ => rfl

/-- The rule stays the same while nothing sets it. -/
lemma rule_origin (hm : m ∈ K.keys) (hr : Reaches (hookSystem K) (newer ++ older) l)
    (hquiet : ∀ e ∈ newer, ¬ e.2.For m Instruction.SetsRule) :
    (policy K m l).map (·.rule) = (policy K m (origin newer l)).map (·.rule) :=
  (ruleInForce K hm).view_origin hr fun e he => ruleInForce_write hm (hquiet e he)

/-- Accounts resolved from the list at one moment, used at a later one: the transfer passes
for an exempt wallet, or for an attested one if the rule is still the same. While
nothing has set the rule they are as good as any accounts. -/
theorem stale_accounts {p₀ : Policy Pubkey Rule} {ke : Pubkey} {be : UInt8}
    (hr : Reaches (hookSystem K) (newer ++ older) l) (hl₀ : origin newer l = l₀)
    (hm : m ∈ K.keys) (hw : w ∈ K.keys)
    (hp₀ : policy K m l₀ = some p₀) (hlist : d.find (.extraAccountMetas m) = some (kl, bl))
    (hentry : d.find (.whitelist m w) = some (ke, be))
    (howner : (l₀.account kl).owner = d.programId)
    (hresolve : d.resolution.resolveList d.toHost (l₀.account kl).data
      [source, m, destination, w, kl] = .ok keys) (amount : ℕ) :
    (transferHook d l keys amount = .ok () ↔ Moving d l source m destination w ∧
      ∃ p, policy K m l = some p ∧
        (w ∈ p.exempt ∨ p.rule = p₀.rule ∧ Attested d l p.rule w)) ∧
    ((∀ e ∈ newer, ¬ e.2.For m Instruction.SetsRule) →
      (transferHook d l keys amount = .ok () ↔ Accepts d l source m destination w)) := by
  have hinv := inv_of_reaches hr
  have hr₀ : Reaches (hookSystem K) older l₀ := hl₀ ▸ hr.to_origin
  obtain ⟨config, hconfig, rfl⟩ := hookConfig_of_policy hp₀
  obtain ⟨a, hkeys, hfields, -⟩ := published_hook hr₀ hm hconfig hlist howner hresolve
  have hhook := transferHook_for_rule hinv hm hw hlist hkeys hfields amount
  refine ⟨hhook, fun hquiet => ?_⟩
  rw [hhook]
  have hrule := rule_origin hm hr hquiet
  rw [hl₀, hp₀, Option.map_some] at hrule
  constructor
  · rintro ⟨hmoving, p, hp, hcleared⟩
    exact accepts_of_cleared hinv hm hlist hentry hmoving ⟨p, hp, hcleared.imp_right And.right⟩
  · intro haccepts
    obtain ⟨hmoving, p, hp, hcleared⟩ := cleared_of_accepts hinv hm hw haccepts
    rw [hp, Option.map_some] at hrule
    exact ⟨hmoving, p, hp, hcleared.imp_right fun hattested => ⟨Option.some.inj hrule, hattested⟩⟩

/-- The accounts resolved before the holder's account was emptied. -/
theorem stale_accounts_drained :
    (transferHook LocalChain.chain LocalChain.drained LocalChain.executeKeys 100 = .ok () ↔
      Moving LocalChain.chain LocalChain.drained LocalChain.source LocalChain.mint
          LocalChain.destination LocalChain.wallet ∧
        ∃ p, policy LocalChain.keysInPlay LocalChain.mint LocalChain.drained = some p ∧
          (LocalChain.wallet ∈ p.exempt ∨ p.rule = LocalChain.firstConfig.rule ∧
            Attested LocalChain.chain LocalChain.drained p.rule LocalChain.wallet)) ∧
    ((∀ e ∈ [(LocalChain.listed, Event.written LocalChain.source
        (LocalChain.tokenAccount LocalChain.exhausted))],
          ¬ e.2.For LocalChain.mint Instruction.SetsRule) →
      (transferHook LocalChain.chain LocalChain.drained LocalChain.executeKeys 100 = .ok () ↔
        Accepts LocalChain.chain LocalChain.drained LocalChain.source LocalChain.mint
          LocalChain.destination LocalChain.wallet)) := by
  obtain ⟨hconfig, howner, hresolve, -⟩ := LocalChain.listed_eval
  have hr : Reaches (hookSystem LocalChain.keysInPlay)
      ([(LocalChain.listed, .written LocalChain.source
          (LocalChain.tokenAccount LocalChain.exhausted))] ++
        [(LocalChain.published, .invoked LocalChain.addToWhitelistCall),
          (LocalChain.configured, .invoked LocalChain.initializeListCall),
          (LocalChain.genesis, .invoked LocalChain.initializeConfigCall)])
      LocalChain.drained := LocalChain.reaches_drained
  have hp₀ : policy LocalChain.keysInPlay LocalChain.mint LocalChain.listed = some
      (policyOf LocalChain.keysInPlay LocalChain.mint LocalChain.listed
        LocalChain.firstConfig) := by
    rw [policy, hconfig, Option.map_some]
  exact stale_accounts hr (by simp only [origin]) LocalChain.mint_mem LocalChain.wallet_mem hp₀
    LocalChain.find_list (LocalChain.find_eq _) howner hresolve 100

end AlienIdTransferHook
