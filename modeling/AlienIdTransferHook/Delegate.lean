import AlienIdTransferHook.ExecuteAccounts

/-!
# Delegates

Token-2022 charges a delegate's allowance before it calls the hook, and the hook reads
the source account as it is then. A delegate who spends the whole allowance is no
longer a delegate when the hook looks.
-/
namespace AlienIdTransferHook
open Solana History

variable {d : Deployment} {K : KeysInPlay d} {l : Ledger} {m w source destination kl : Pubkey}
  {b : UInt8} {config : HookConfig} {keys : List Pubkey} {before after : TokenAccount}
  {amount : ℕ}

/-- A transfer that Token-2022 has authorised: signed by the delegate, who is not the
owner, for an amount within the allowance and the balance. -/
structure DelegateTransfer (before : TokenAccount) (w : Pubkey) (amount : ℕ) : Prop where
  delegate : before.delegate = some w
  not_owner : w ≠ before.owner
  positive : 1 ≤ amount
  allowance : amount ≤ before.delegatedAmount
  balance : amount ≤ before.amount

/-- The source account as Token-2022 leaves it before the call of the hook: the allowance
is charged, and a delegate without allowance is removed. -/
structure Debited (before after : TokenAccount) (amount : ℕ) : Prop where
  mint : after.mint = before.mint
  owner : after.owner = before.owner
  delegatedAmount : after.delegatedAmount = before.delegatedAmount - amount
  delegate : after.delegate =
    if before.delegatedAmount - amount = 0 then none else before.delegate

/-- The hook recognises the delegate exactly when some allowance is left. -/
theorem checkAuthority_debited (ht : DelegateTransfer before w amount)
    (hd : Debited before after amount) :
    TransferHook.checkAuthority after w = .ok () ↔ amount < before.delegatedAmount := by
  rw [TransferHook.checkAuthority_eq_ok, hd.owner, hd.delegatedAmount, hd.delegate]
  have hle := ht.allowance
  constructor
  · rintro (howner | ⟨-, hleft⟩)
    · exact absurd howner.symm ht.not_owner
    · omega
  · intro hlt
    exact .inr ⟨by rw [if_neg (by omega), ht.delegate], by omega⟩

/-- In every reachable state the hook lets a whitelisted or attested delegate's transfer
through exactly when it leaves some of the allowance; the authority check alone
decides. -/
theorem delegate_accepted_iff {h : List (Ledger × Event)} (hr : Reaches (hookSystem K) h l)
    (hm : m ∈ K.keys) (hconfig : d.hookConfig l m = some config)
    (hlist : d.find (.extraAccountMetas m) = some (kl, b))
    (howner : (l.account kl).owner = d.programId)
    (hresolve : d.resolution.resolveList d.toHost (l.account kl).data
      [source, m, destination, w, kl] = .ok keys)
    (ht : DelegateTransfer before w amount) (hdebited : Debited before after amount)
    (hsource : d.interfaceTokenAccount l source = .ok after) (hsm : after.mint = m)
    {dst : TokenAccount} (hdestination : d.interfaceTokenAccount l destination = .ok dst)
    (hdm : dst.mint = m) {mint : Mint} (hmint : d.interfaceMint l m = .ok mint)
    (hflag : d.token.transferring (l.account source).data = .ok true) :
    (TransferHook.checkAuthority after w = .ok () ↔ amount < before.delegatedAmount) ∧
      (d.holds l (.whitelist m w) = true ∨ Attested d l config.rule w →
        (transferHook d l keys amount = .ok () ↔ amount < before.delegatedAmount)) := by
  refine ⟨checkAuthority_debited ht hdebited, fun hcleared => ?_⟩
  obtain ⟨a, -, hfields, hhook⟩ := published_hook hr hm hconfig hlist howner hresolve
  rw [hhook, resolvedHook_eq_ok hsource hsm hdestination hdm hmint hfields.attestation,
    ← checkAuthority_debited ht hdebited, TransferHook.checkAuthority_eq_ok]
  exact ⟨fun h => h.2.1, fun h => ⟨hflag, h, hcleared⟩⟩

/-- The wallet moves 25 tokens out of an allowance of 100. -/
theorem delegate_accepted_iff_listed :
    (TransferHook.checkAuthority LocalChain.debited LocalChain.wallet = .ok () ↔ 25 < 100) ∧
      (LocalChain.chain.holds LocalChain.listed (.whitelist LocalChain.mint LocalChain.wallet) =
            true ∨
          Attested LocalChain.chain LocalChain.listed LocalChain.firstConfig.rule
            LocalChain.wallet →
        (transferHook LocalChain.chain LocalChain.listed LocalChain.executeKeys 25 = .ok () ↔
          25 < 100)) := by
  have ht : DelegateTransfer
      ⟨LocalChain.mint, LocalChain.holder, 1000, some LocalChain.wallet, 100⟩ LocalChain.wallet
      25 := ⟨rfl, by decide, by norm_num, by norm_num, by norm_num⟩
  obtain ⟨hconfig, howner, hresolve, hsource, hdestination, hmint, hflag⟩ :=
    LocalChain.listed_eval
  exact delegate_accepted_iff LocalChain.reaches_listed LocalChain.mint_mem hconfig
    LocalChain.find_list howner hresolve ht ⟨rfl, rfl, rfl, rfl⟩ hsource rfl hdestination rfl
    hmint hflag

/-- What the hook reads when the wallet has spent all of its allowance. -/
lemma drained_eval :
    LocalChain.chain.hookConfig LocalChain.drained LocalChain.mint =
        some LocalChain.firstConfig ∧
      (LocalChain.drained.account LocalChain.listKey).owner = LocalChain.programId ∧
      LocalChain.chain.resolution.resolveList LocalChain.chain.toHost
        (LocalChain.drained.account LocalChain.listKey).data
        [LocalChain.source, LocalChain.mint, LocalChain.destination, LocalChain.wallet,
          LocalChain.listKey] = .ok LocalChain.executeKeys ∧
      LocalChain.chain.interfaceTokenAccount LocalChain.drained LocalChain.source =
        .ok LocalChain.exhausted ∧
      LocalChain.chain.token.transferring
        (LocalChain.drained.account LocalChain.source).data = .ok true ∧
      LocalChain.chain.holds LocalChain.drained
        (.whitelist LocalChain.mint LocalChain.wallet) = true ∧
      TransferHook.checkAuthority LocalChain.exhausted LocalChain.wallet =
        .error TransferHookError.UnauthorizedTransferAuthority.toError ∧
      transferHook LocalChain.chain LocalChain.drained LocalChain.executeKeys 100 =
        .error TransferHookError.UnauthorizedTransferAuthority.toError := by
  decide +kernel

/-- A whitelisted delegate moves all of an allowance of 100 and is rejected. -/
theorem delegate_rejected :
    ∃ h before, Reaches (hookSystem LocalChain.keysInPlay) h LocalChain.drained ∧
      DelegateTransfer before LocalChain.wallet 100 ∧
      Debited before LocalChain.exhausted 100 ∧
      LocalChain.chain.resolution.resolveList LocalChain.chain.toHost
        (LocalChain.drained.account LocalChain.listKey).data
        [LocalChain.source, LocalChain.mint, LocalChain.destination, LocalChain.wallet,
          LocalChain.listKey] = .ok LocalChain.executeKeys ∧
      LocalChain.chain.interfaceTokenAccount LocalChain.drained LocalChain.source =
        .ok LocalChain.exhausted ∧
      LocalChain.chain.token.transferring
        (LocalChain.drained.account LocalChain.source).data = .ok true ∧
      LocalChain.chain.holds LocalChain.drained
        (.whitelist LocalChain.mint LocalChain.wallet) = true ∧
      TransferHook.checkAuthority LocalChain.exhausted LocalChain.wallet =
        .error TransferHookError.UnauthorizedTransferAuthority.toError ∧
      transferHook LocalChain.chain LocalChain.drained LocalChain.executeKeys 100 =
        .error TransferHookError.UnauthorizedTransferAuthority.toError := by
  obtain ⟨-, -, hresolve, hsource, hflag, hlisted, hauthority, hhook⟩ := drained_eval
  exact ⟨_, ⟨LocalChain.mint, LocalChain.holder, 1000, some LocalChain.wallet, 100⟩,
    LocalChain.reaches_drained, ⟨rfl, by decide, by norm_num, by norm_num, by norm_num⟩,
    ⟨rfl, rfl, rfl, rfl⟩, hresolve, hsource, hflag, hlisted, hauthority, hhook⟩

end AlienIdTransferHook
