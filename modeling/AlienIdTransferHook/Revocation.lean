import AlienIdTransferHook.Sdk
import AlienIdTransferHook.Whitelist

/-!
# Revoking an exemption

When the SDK's `removeFromWhitelistIx` goes through. Closing the entry credits the
config authority, which the instruction does not mark writable.
-/
namespace AlienIdTransferHook
open Solana History

variable {d : Deployment} {K : KeysInPlay d} {l l' : Ledger} {m w k kc p : Pubkey} {b : UInt8}
  {config : HookConfig}

/-- An entry was created through a writable account, so it is not the system program's. -/
lemma entry_ne_systemProgram {h : List (Ledger × Event)} (hr : Reaches (hookSystem K) h l)
    (hm : m ∈ K.keys) (hw : w ∈ K.keys) (hentry : d.find (.whitelist m w) = some (k, b))
    (howner : (l.account k).owner = d.programId) : k ≠ systemProgram := by
  obtain ⟨newer, l₀, c, older, rfl, hmint, hi, -, -⟩ :=
    (holds_iff_listed hm hw hr).mp ((Deployment.holds_iff hentry).mpr howner)
  obtain ⟨hold, l₁, hstep, -⟩ := hr.cut
  cases hstep with
  | invoked ha hprocess =>
      have heffect := effect_of_process (inv_of_reaches hold) ha hprocess
      obtain ⟨l₂, -, hcommit⟩ := bind_eq_ok.mp hprocess
      obtain ⟨hchanged, rfl⟩ := commit_eq_ok.mp hcommit
      cases heffect with
      | addToWhitelist hc _ _ hentry' hu =>
          obtain rfl := Option.some.inj hmint
          obtain rfl := Instruction.addToWhitelist.inj hi
          obtain ⟨rfl, -⟩ : _ = k ∧ _ = b := by simpa [hentry] using hentry'.symm
          rintro rfl
          rcases hchanged systemProgram (by simp) with hsame | hwritable
          · have hnew : (l₀.account systemProgram).owner = d.programId := by
              rw [← hsame]
              simp [Ledger.opened]
            exact d.programId_ne (hnew.symm.trans hu.1)
          · exact ha.reserved hwritable
      | _ => cases hi

/-- With the right accounts the instruction closes the entry, and what remains is the
runtime's check of the accounts that changed. -/
lemma removeFromWhitelist_process {privileges : Privileges} {mint : Mint}
    (hc : ConfigAt K l m kc config) (hentry : d.find (.whitelist m w) = some (k, b))
    (hload : loadAccount WhitelistEntry d.toHost l k = .ok ⟨w, b⟩)
    (hmint : d.interfaceMint l m = .ok mint) (hsigned : config.authority ∈ privileges.signers)
    (hwritable : k ∈ privileges.writable) (hne : k ≠ config.authority) :
    Call.process d l ⟨.removeFromWhitelist w,
        [config.authority, kc, k, m, systemProgram], privileges⟩ =
      commit privileges [config.authority, kc, k, m, systemProgram] l
        (closeAccount l k config.authority) := by
  have htry : RemoveFromWhitelist.tryAccounts d privileges l
      ⟨config.authority, kc, k, m, systemProgram⟩ w = .ok () := by
    unfold RemoveFromWhitelist.tryAccounts
    rw [signer, require_pos hsigned, ok_bind, hc.load, ok_bind, hload, ok_bind, hmint, ok_bind,
      systemProgramAccount, require_pos rfl, ok_bind, seedsWithBump,
      require_pos (Deployment.create_of_find hc.find), ok_bind, require_pos rfl, ok_bind,
      seedsWithBump, require_pos (Deployment.create_of_find hentry), ok_bind, mutable,
      require_pos hwritable, ok_bind, require_pos hne]
  simp only [Call.process, Call.run, removeFromWhitelist, RemoveFromWhitelist.ofKeys, ok_bind,
    htry]
  rfl

/-- The instruction reads the mint. -/
lemma mint_of_removal {privileges : Privileges} {a system : Pubkey}
    (h : Call.process d l ⟨.removeFromWhitelist w, [a, kc, k, m, system], privileges⟩ = .ok l') :
    ∃ mint, d.interfaceMint l m = .ok mint := by
  obtain ⟨l₁, hrun, -⟩ := bind_eq_ok.mp h
  obtain ⟨accounts, _, _, hkeys, -, -, -, -, -, -, hmint, -⟩ := removeFromWhitelist_ok hrun
  obtain ⟨rest, heq⟩ := RemoveFromWhitelist.ofKeys_eq_ok hkeys
  simp only [List.cons.injEq] at heq
  obtain ⟨-, -, -, hm, -⟩ := heq
  rwa [hm]

/-- The call that the transaction makes: the authority signs, the entry is writable, and the
authority is writable only as the payer. -/
lemma removal_paidBy {a : Pubkey} {bc : UInt8} {ix : TransactionInstruction}
    (hconfig : d.find (.config m) = some (kc, bc))
    (hentry : d.find (.whitelist m w) = some (k, b))
    (hix : TransferHookSdk.removeFromWhitelistIx d a m w = some ix) (p : Pubkey) :
    ∃ privileges, ix.paidBy p = ⟨.removeFromWhitelist w, [a, kc, k, m, systemProgram], privileges⟩ ∧
      a ∈ privileges.signers ∧ (k ≠ systemProgram → k ∈ privileges.writable) ∧
      (a ≠ systemProgram → k ≠ a → (a ∈ privileges.writable ↔ p = a)) := by
  rw [TransferHookSdk.removeFromWhitelistIx_eq hconfig hentry] at hix
  obtain rfl := Option.some.inj hix
  refine ⟨_, rfl, ?_, ?_, ?_⟩
  · simp
  · intro hk
    simp [hk]
  · intro ha hne
    simp [ha, hne.symm]
    exact eq_comm

/-- The runtime accepts the closing when the receiver is writable, or receives nothing. -/
lemma commit_closeAccount {privileges : Privileges} {keys : List Pubkey} {dst : Pubkey}
    (hdst : dst ∈ keys) (hk : k ∈ privileges.writable) (hne : dst ≠ k) :
    (∃ l', commit privileges keys l (closeAccount l k dst) = .ok l') ↔
      dst ∈ privileges.writable ∨ (l.account k).lamports = 0 := by
  have hreceived : (closeAccount l k dst).account dst =
      (l.credit dst (l.account k).lamports).account dst := by
    simp [closeAccount, Ledger.account_set_of_ne _ _ hne]
  constructor
  · rintro ⟨l', hcommit⟩
    refine ((commit_eq_ok.mp hcommit).1 dst hdst).symm.imp_right fun hsame => ?_
    have hlamports := congrArg Account.lamports (hreceived.symm.trans hsame)
    simpa [Ledger.credit] using hlamports
  · intro h
    refine ⟨_, commit_eq_ok.mpr ⟨fun k' _ => ?_, rfl⟩⟩
    by_cases hk' : k' = k
    · exact .inr (hk' ▸ hk)
    by_cases hd : k' = dst
    · refine h.symm.imp (fun hzero => ?_) fun hw => hd ▸ hw
      rw [hd, hreceived, hzero, Ledger.credit_zero]
    · refine .inl ?_
      simp only [closeAccount, Ledger.account_set_of_ne _ _ hk',
        Ledger.account_credit_of_ne _ _ hd]

namespace LocalChain

theorem find_entry : chain.find (.whitelist mint wallet) = some (entryKey, 255) := find_eq _

/-- What the SDK builds for the wallet's removal. -/
def removalIx : TransactionInstruction :=
  ⟨.removeFromWhitelist wallet,
    [⟨authority, true, false⟩, ⟨configKey, false, false⟩, ⟨entryKey, false, true⟩,
      ⟨mint, false, false⟩, ⟨systemProgram, false, false⟩]⟩

theorem removalIx_built :
    TransferHookSdk.removeFromWhitelistIx chain authority mint wallet = some removalIx :=
  TransferHookSdk.removeFromWhitelistIx_eq find_config find_entry

set_option maxRecDepth 2000 in
theorem admissible_removal {p : Pubkey} (hp : p = authority ∨ p = successor) :
    (removalIx.paidBy p).Admissible keysInPlay := by
  rcases hp with rfl | rfl
  · exact admissible (by decide) (by decide) rfl (.inr rfl)
  · exact admissible (by decide) (by decide) rfl (.inr rfl)

end LocalChain

/-- Whoever pays the fee, the transaction with the SDK's instruction closes the entry and
credits its balance to the authority exactly when the mint is still one and the payer is the
authority, or there is no balance to credit (which rent exemption rules out). -/
theorem revocation_succeeds_iff {h : List (Ledger × Event)} (hr : Reaches (hookSystem K) h l)
    (hconfig : d.hookConfig l m = some config) (hentry : d.find (.whitelist m w) = some (k, b))
    (howner : (l.account k).owner = d.programId) {ix : TransactionInstruction}
    (hix : TransferHookSdk.removeFromWhitelistIx d config.authority m w = some ix)
    (ha : (ix.paidBy p).Admissible K) :
    (∃ l', (ix.paidBy p).process d l = .ok l' ∧ l'.account k = ⟨0, systemProgram, []⟩ ∧
        (l'.account config.authority).lamports =
          (l.account config.authority).lamports + (l.account k).lamports) ↔
      (∃ mint, d.interfaceMint l m = .ok mint) ∧
        (p = config.authority ∨ (l.account k).lamports = 0) := by
  obtain ⟨kc, bc, hfind, -⟩ := Deployment.hookConfig_eq_some.mp hconfig
  obtain ⟨privileges, hcall, hsigned, hkw, hpayer⟩ := removal_paidBy hfind hentry hix p
  rw [hcall] at ha ⊢
  have hm : m ∈ K.keys := ha.mint m rfl
  have hw : w ∈ K.keys := ha.wallet w rfl
  have hinv := inv_of_reaches hr
  have hc := hinv.configAt_of_find hm hconfig hfind
  have hload : loadAccount WhitelistEntry d.toHost l k = .ok ⟨w, b⟩ := by
    obtain ⟨-, -, hdata⟩ := hinv.slot (s := .whitelist m w) (by simp [hm, hw])
      (Deployment.create_of_find hentry) howner
    exact loadAccount_eq_ok.mpr ⟨howner, by rw [hdata, tryDeserialize_image]⟩
  have hne : config.authority ≠ k := (ha.unsigned (by simp [hm, hw])).ne hentry hsigned
  have hkw := hkw (entry_ne_systemProgram hr hm hw hentry howner)
  have hprocess := fun mint (hmint : d.interfaceMint l m = .ok mint) =>
    removeFromWhitelist_process hc hentry hload hmint hsigned hkw hne.symm
  have hreceiver : config.authority ∈ [config.authority, kc, k, m, systemProgram] := by simp
  rw [← hpayer hc.authority_ne hne.symm, ← commit_closeAccount hreceiver hkw hne]
  constructor
  · rintro ⟨l', hok, -, -⟩
    obtain ⟨mint, hmint⟩ := mint_of_removal hok
    exact ⟨⟨mint, hmint⟩, l', (hprocess mint hmint).symm.trans hok⟩
  · rintro ⟨⟨mint, hmint⟩, l', hcommit⟩
    obtain ⟨-, rfl⟩ := commit_eq_ok.mp hcommit
    exact ⟨_, (hprocess mint hmint).trans hcommit, by simp [closeAccount], by
      simp [closeAccount, Ledger.account_set_of_ne _ _ hne, Ledger.credit]⟩

/-- On the local chain the authority pays for the removal itself. -/
theorem revocation_succeeds_iff_listed :
    (∃ l', (LocalChain.removalIx.paidBy LocalChain.authority).process LocalChain.chain
        LocalChain.listed = .ok l' ∧
        l'.account LocalChain.entryKey = ⟨0, systemProgram, []⟩ ∧
        (l'.account LocalChain.firstConfig.authority).lamports =
          (LocalChain.listed.account LocalChain.firstConfig.authority).lamports +
            (LocalChain.listed.account LocalChain.entryKey).lamports) ↔
      (∃ mint, LocalChain.chain.interfaceMint LocalChain.listed LocalChain.mint = .ok mint) ∧
        (LocalChain.authority = LocalChain.firstConfig.authority ∨
          (LocalChain.listed.account LocalChain.entryKey).lamports = 0) :=
  revocation_succeeds_iff LocalChain.reaches_listed LocalChain.listed_eval.1
    LocalChain.find_entry (by decide +kernel) LocalChain.removalIx_built
    (LocalChain.admissible_removal (.inl rfl))

/-- Another wallet with funds pays, and the runtime rejects the credit to the authority. -/
theorem revocation_blocked :
    ∃ h, Reaches (hookSystem LocalChain.keysInPlay) h LocalChain.listed ∧
      LocalChain.chain.hookConfig LocalChain.listed LocalChain.mint =
        some LocalChain.firstConfig ∧
      LocalChain.chain.find (.whitelist LocalChain.mint LocalChain.wallet) =
        some (LocalChain.entryKey, 255) ∧
      (LocalChain.listed.account LocalChain.entryKey).owner = LocalChain.chain.programId ∧
      LocalChain.listed.account LocalChain.successor = ⟨10 ^ 10, systemProgram, []⟩ ∧
      TransferHookSdk.removeFromWhitelistIx LocalChain.chain LocalChain.firstConfig.authority
        LocalChain.mint LocalChain.wallet = some LocalChain.removalIx ∧
      (LocalChain.removalIx.paidBy LocalChain.successor).Admissible LocalChain.keysInPlay ∧
      (LocalChain.removalIx.paidBy LocalChain.successor).process LocalChain.chain
        LocalChain.listed = .error .readonlyModified := by
  have hread : (LocalChain.listed.account LocalChain.entryKey).owner =
        LocalChain.chain.programId ∧
      LocalChain.listed.account LocalChain.successor = ⟨10 ^ 10, systemProgram, []⟩ ∧
      LocalChain.failure (LocalChain.removalIx.paidBy LocalChain.successor) LocalChain.listed =
        some .readonlyModified := by
    decide +kernel
  obtain ⟨howner, hfunds, hfails⟩ := hread
  exact ⟨_, LocalChain.reaches_listed, LocalChain.listed_eval.1, LocalChain.find_entry, howner,
    hfunds, LocalChain.removalIx_built, LocalChain.admissible_removal (.inr rfl),
    LocalChain.process_failure hfails⟩

end AlienIdTransferHook
