import AlienIdTransferHook.Clients
import AlienIdTransferHook.ConfigUpdate
import AlienIdTransferHook.ConfigUpgrade
import AlienIdTransferHook.MetaList
import AlienIdTransferHook.Revocation

/-!
# Commands and the policy

A command of the admin client does what the policy of its mint allows its keypair to
do, and only that; so does what the SDK builds in its place. Two operations need more
than the policy shows: a config is created by the mint authority, and the list can be
published only while nobody has sent lamports to its address.
-/
namespace AlienIdTransferHook
open Solana History TransferPolicy AdminCli

variable {d : Deployment} {K : KeysInPlay d} {l l' : Ledger} {a m k kc kl w : Pubkey}
  {b : UInt8} {cmd : Commands} {ix : TransactionInstruction}

/-- The keypair `a` is that of a system account without data, not an address of the program,
and holds the rent of each kind of record. The mint `m` still reads as a mint, and none of the
addresses in play is missing. -/
structure Operator (K : KeysInPlay d) (l : Ledger) (m a : Pubkey) : Prop where
  mint_mem : m ∈ K.keys
  underived : ¬ K.Derived a
  user : a ≠ systemProgram
  wallet : (l.account a).Unallocated
  configRent : max (d.minimumBalance HookConfig.LEN) 1 ≤ (l.account a).lamports
  listRent : ∀ size, d.resolution.sizeOf 6 = .ok size →
    d.minimumBalance size ≤ (l.account a).lamports
  entryRent : max (d.minimumBalance WhitelistEntry.LEN) 1 ≤ (l.account a).lamports
  mint : ∃ mint, d.interfaceMint l m = .ok mint
  addresses : ∀ s, K.Covers s → ∃ k b, d.find s = some (k, b) ∧ k ≠ systemProgram

/-- What the ledger has to offer besides the policy: the mint authority for a new config,
and an address without lamports for the list. -/
def AdminCli.Commands.Prepared (d : Deployment) (l : Ledger) (a : Pubkey) : Commands → Prop
  | .initializeConfig m .. => ∃ mint, d.interfaceMint l m = .ok mint ∧ mint.mintAuthority = some a
  | .initExtraAccountMetaList m =>
      ∀ k b, d.find (.extraAccountMetas m) = some (k, b) → (l.account k).lamports = 0
  | _ => True

namespace Operator

lemma funded (h : Operator K l m a) {n : ℕ} (hn : n ≤ (l.account a).lamports) :
    Funded (ix.paidBy a).privileges l a n where
  signer := TransactionInstruction.mem_signers_paidBy.mpr (.inl rfl)
  writable := TransactionInstruction.mem_writable_paidBy.mpr ⟨.inl rfl, h.user⟩
  unallocated := h.wallet
  lamports := hn

lemma config (h : Operator K l m a) :
    ∃ k b, d.find (.config m) = some (k, b) ∧ k ≠ systemProgram :=
  h.addresses _ (by simpa using h.mint_mem)

lemma list (h : Operator K l m a) :
    ∃ k b, d.find (.extraAccountMetas m) = some (k, b) ∧ k ≠ systemProgram :=
  h.addresses _ (by simpa using h.mint_mem)

lemma entry (h : Operator K l m a) (hw : w ∈ K.keys) :
    ∃ k b, d.find (.whitelist m w) = some (k, b) ∧ k ≠ systemProgram :=
  h.addresses _ (by simp [h.mint_mem, hw])

lemma ne_address {s : HookSeeds} (h : Operator K l m a) (hs : K.Covers s)
    (hfind : d.find s = some (k, b)) : a ≠ k := by
  rintro rfl
  exact h.underived (KeysInPlay.derived_of_find hs hfind)

lemma ne_systemProgram (h : Operator K l m a) (hfind : d.find (.config m) = some (k, b)) :
    k ≠ systemProgram := by
  obtain ⟨k', b', hfind', hne⟩ := h.config
  obtain rfl := Deployment.find_unique hfind' hfind
  exact hne

end Operator

/-! ## What the commands send -/

lemma request_initializeConfig {credential schema sasProgram : Pubkey}
    (hc : d.find (.config m) = some (kc, b)) :
    (Commands.initializeConfig m credential schema sasProgram).request d a =
      some ⟨.initializeConfig credential schema sasProgram,
        [⟨a, true, true⟩, ⟨kc, false, true⟩, ⟨m, false, false⟩,
          ⟨systemProgram, false, false⟩]⟩ :=
  TransferHookSdk.initializeConfigIx_eq hc

lemma request_updateConfig {credential schema sasProgram : Pubkey} {bl : UInt8}
    (hc : d.find (.config m) = some (kc, b))
    (hl : d.find (.extraAccountMetas m) = some (kl, bl)) :
    (Commands.updateConfig m credential schema sasProgram).request d a =
      some ⟨.updateConfig credential schema sasProgram,
        [⟨a, true, false⟩, ⟨kc, false, true⟩, ⟨m, false, false⟩, ⟨kl, false, true⟩]⟩ := by
  show TransferHookSdk.updateConfigIx d a m credential schema sasProgram = _
  rw [TransferHookSdk.updateConfigIx, TransferHookSdk.hookConfigPda,
    TransferHookSdk.extraAccountMetaListPda, hc, hl]
  rfl

lemma request_initExtraAccountMetaList {bl : UInt8} (hc : d.find (.config m) = some (kc, b))
    (hl : d.find (.extraAccountMetas m) = some (kl, bl)) :
    (Commands.initExtraAccountMetaList m).request d a =
      some ⟨.initializeExtraAccountMetaList,
        [⟨a, true, true⟩, ⟨kl, false, true⟩, ⟨m, false, false⟩, ⟨kc, false, false⟩,
          ⟨systemProgram, false, false⟩]⟩ :=
  TransferHookSdk.initializeExtraAccountMetaListIx_eq hc hl

lemma request_addToWhitelist {be : UInt8} (hc : d.find (.config m) = some (kc, b))
    (he : d.find (.whitelist m w) = some (k, be)) :
    (Commands.addToWhitelist m w).request d a =
      some ⟨.addToWhitelist w,
        [⟨a, true, true⟩, ⟨kc, false, false⟩, ⟨k, false, true⟩, ⟨m, false, false⟩,
          ⟨systemProgram, false, false⟩]⟩ := by
  show TransferHookSdk.addToWhitelistIx d a m w = _
  rw [TransferHookSdk.addToWhitelistIx, TransferHookSdk.hookConfigPda,
    TransferHookSdk.whitelistEntryPda, hc, he]
  rfl

lemma request_removeFromWhitelist {be : UInt8} (hc : d.find (.config m) = some (kc, b))
    (he : d.find (.whitelist m w) = some (k, be)) :
    (Commands.removeFromWhitelist m w).request d a =
      some ⟨.removeFromWhitelist w,
        [⟨a, true, false⟩, ⟨kc, false, false⟩, ⟨k, false, true⟩, ⟨m, false, false⟩,
          ⟨systemProgram, false, false⟩]⟩ :=
  TransferHookSdk.removeFromWhitelistIx_eq hc he

lemma request_transferAuthority (hc : d.find (.config m) = some (kc, b)) :
    (Commands.transferAuthority m k).request d a =
      some ⟨.transferAuthority,
        [⟨a, true, true⟩, ⟨k, false, false⟩, ⟨kc, false, true⟩, ⟨m, false, false⟩,
          ⟨systemProgram, false, false⟩]⟩ := by
  show TransferHookSdk.transferAuthorityIx d a k m = _
  rw [TransferHookSdk.transferAuthorityIx, TransferHookSdk.hookConfigPda, hc]
  rfl

lemma request_acceptAuthority (hc : d.find (.config m) = some (kc, b)) :
    (Commands.acceptAuthority m).request d a =
      some ⟨.acceptAuthority,
        [⟨a, true, false⟩, ⟨kc, false, true⟩, ⟨m, false, false⟩]⟩ := by
  show TransferHookSdk.acceptAuthorityIx d a m = _
  rw [TransferHookSdk.acceptAuthorityIx, TransferHookSdk.hookConfigPda, hc]
  rfl

/-- What a command sends: an admissible call for its mint that means its operation. -/
structure Sent (K : KeysInPlay d) (a : Pubkey) (cmd : Commands) (ix : TransactionInstruction) :
    Prop where
  admissible : (ix.paidBy a).Admissible K
  op : (ix.paidBy a).op cmd.mint = some (cmd.op a)

lemma Operator.admissible (h : Operator K l m a)
    (hsigners : ∀ x ∈ ix.keys, x.isSigner = true → x.pubkey = a)
    (hmint : (ix.paidBy a).mint = some m)
    (hwallet : ∀ w, (ix.paidBy a).wallet = some w → w ∈ K.keys) :
    (ix.paidBy a).Admissible K where
  signers k hk := by
    rcases TransactionInstruction.mem_signers_paidBy.mp hk with rfl | ⟨x, hx, hs, rfl⟩
    · exact h.underived
    · exact hsigners x hx hs ▸ h.underived
  reserved hk := (TransactionInstruction.mem_writable_paidBy.mp hk).2 rfl
  mint m' hm' := Option.some.inj (hmint.symm.trans hm') ▸ h.mint_mem
  wallet := hwallet

lemma Operator.sent (h : Operator K l cmd.mint a) (hw : ∀ w, cmd.wallet = some w → w ∈ K.keys)
    (hix : cmd.request d a = some ix) : Sent K a cmd ix := by
  obtain ⟨kc, bc, hc, -⟩ := h.config
  obtain ⟨kl, bl, hl, -⟩ := h.list
  cases cmd with
  | initializeConfig m credential schema sasProgram =>
      obtain rfl := Option.some.inj ((request_initializeConfig hc).symm.trans hix)
      exact ⟨h.admissible (by simp) rfl hw, if_pos rfl⟩
  | updateConfig m credential schema sasProgram =>
      obtain rfl := Option.some.inj ((request_updateConfig hc hl).symm.trans hix)
      exact ⟨h.admissible (by simp) rfl hw, if_pos rfl⟩
  | initExtraAccountMetaList m =>
      obtain rfl := Option.some.inj ((request_initExtraAccountMetaList hc hl).symm.trans hix)
      exact ⟨h.admissible (by simp) rfl hw, if_pos rfl⟩
  | addToWhitelist m w =>
      obtain ⟨ke, be, he, -⟩ := h.entry (hw w rfl)
      obtain rfl := Option.some.inj ((request_addToWhitelist hc he).symm.trans hix)
      exact ⟨h.admissible (by simp) rfl hw, if_pos rfl⟩
  | removeFromWhitelist m w =>
      obtain ⟨ke, be, he, -⟩ := h.entry (hw w rfl)
      obtain rfl := Option.some.inj ((request_removeFromWhitelist hc he).symm.trans hix)
      exact ⟨h.admissible (by simp) rfl hw, if_pos rfl⟩
  | transferAuthority m newAuthority =>
      obtain rfl := Option.some.inj ((request_transferAuthority hc).symm.trans hix)
      exact ⟨h.admissible (by simp) rfl hw, if_pos rfl⟩
  | acceptAuthority m =>
      obtain rfl := Option.some.inj ((request_acceptAuthority hc).symm.trans hix)
      exact ⟨h.admissible (by simp) rfl hw, if_pos rfl⟩

lemma run_eq_some : cmd.run d a l = some l' ↔
    ∃ ix, cmd.request d a = some ix ∧ (ix.paidBy a).process d l = .ok l' := by
  rw [Commands.run, Option.bind_eq_bind, Option.bind_eq_some_iff]
  simp only [sendAndConfirm_eq_some]

/-! ## What a command that succeeds has done -/

/-- A list account comes into being only at an address without lamports. -/
lemma list_unfunded {p : Privileges} {rest : List Pubkey}
    (hlist : d.find (.extraAccountMetas m) = some (kl, b)) (hu : (l.account kl).Unallocated)
    (hne : a ≠ kl)
    (h : initializeExtraAccountMetaList d p l (a :: kl :: m :: rest) = .ok l') :
    (l.account kl).lamports = 0 := by
  obtain ⟨x, config, bump, metas, size, l₁, data, hkeys, -, -, -, -, -, -, -, hcreate, -, -⟩ :=
    initializeExtraAccountMetaList_ok h
  obtain ⟨rest', hrest⟩ := InitializeExtraAccountMetaList.ofKeys_eq_ok hkeys
  obtain ⟨rfl, rfl, rfl, -⟩ : a = x.payer ∧ kl = x.extraAccountMetaList ∧ m = x.mint ∧ _ := by
    simpa using hrest
  rw [InitializeExtraAccountMetaList.createIfEmpty, if_pos hu.2] at hcreate
  exact ((createAccount_eq_ok hne).mp hcreate).1

/-- It was allowed, it was prepared for, and it did what was meant. -/
lemma Operator.performed (h : Operator K l cmd.mint a) (hinv : Inv K l)
    (hw : ∀ w, cmd.wallet = some w → w ∈ K.keys) (hrun : cmd.run d a l = some l') :
    Step (policy K cmd.mint l) (cmd.op a) (policy K cmd.mint l') ∧ cmd.Prepared d l a := by
  obtain ⟨ix, hix, hok⟩ := run_eq_some.mp hrun
  obtain ⟨ha, hop⟩ := h.sent hw hix
  have heffect := effect_of_process hinv ha hok
  refine ⟨heffect.policy_step hinv ha hop, ?_⟩
  obtain ⟨kc, bc, hc, -⟩ := h.config
  cases cmd with
  | initializeConfig m credential schema sasProgram =>
      obtain rfl := Option.some.inj ((request_initializeConfig hc).symm.trans hix)
      cases heffect with
      | initializeConfig _ _ _ _ _ hmint hauthority => exact ⟨_, hmint, hauthority⟩
  | initExtraAccountMetaList m =>
      intro kl bl hl
      obtain rfl := Option.some.inj ((request_initExtraAccountMetaList hc hl).symm.trans hix)
      obtain ⟨l₁, hrun, -⟩ := bind_eq_ok.mp hok
      have hne := h.ne_address (K.covers_extraAccountMetas.mpr h.mint_mem) hl
      have hvacant : (l.account kl).Unallocated := by
        cases heffect with
        | initializeExtraAccountMetaList _ _ _ hu => exact hu
      exact list_unfunded hl hvacant hne hrun
  | _ => trivial

/-! ## What the policy allows goes through -/

section Succeeds
variable {p : Privileges} {config : HookConfig}

/-- A new config needs its mint's authority and the rent. -/
lemma initializeConfig_succeeds {credential schema sasProgram : Pubkey} {mint : Mint}
    (hne : a ≠ kc) (hf : Funded p l a (max (d.minimumBalance HookConfig.LEN) 1))
    (hw : kc ∈ p.writable) (hmint : d.interfaceMint l m = .ok mint)
    (hauthority : mint.mintAuthority = some a) (hfind : d.find (.config m) = some (kc, b))
    (hu : (l.account kc).Unallocated) :
    ∃ l', Call.process d l ⟨.initializeConfig credential schema sasProgram,
      [a, kc, m, systemProgram], p⟩ = .ok l' := by
  obtain ⟨l₁, hinit⟩ := initConstraint_succeeds (H := d.toHost) hne hfind hu hw hf
  obtain ⟨-, -, n, lamports, hl₁⟩ := initConstraint_ok hne hinit
  dsimp only at hl₁
  have htry : InitializeConfig.tryAccounts d p l ⟨a, kc, m, systemProgram⟩ = .ok (l₁, b) := by
    unfold InitializeConfig.tryAccounts
    rw [signer, require_pos hf.signer, ok_bind, hmint, ok_bind, systemProgramAccount,
      require_pos rfl, ok_bind, hinit, ok_bind, mutable, require_pos hf.writable, ok_bind,
      require_pos hauthority, ok_bind]
    rfl
  have hconfig : tryDeserializeUnchecked HookConfig (l₁.account kc).data = .ok ⟨Pubkey.default,
      Pubkey.default, Pubkey.default, Pubkey.default, 0, Pubkey.default⟩ := by
    rw [← tryDeserializeUnchecked_zero_config, hl₁]
    simp [Ledger.opened]
  have hexit : ∀ c : HookConfig, exitAccount l₁ kc c =
      .ok (l.opened a kc n ⟨lamports, d.programId, image c⟩) := by
    intro c
    rw [exitAccount_of_size (by rw [hl₁]; simp [Ledger.opened]; rfl), hl₁]
    simp [Ledger.opened]
  simp only [Call.process, Call.run, initializeConfig, InitializeConfig.ofKeys, ok_bind, htry,
    hconfig, hexit]
  exact ⟨_, commit_opened hf.writable hw⟩

/-- The nominee can accept. -/
lemma acceptAuthority_succeeds (hc : ConfigAt K l m kc config)
    (hmint : ∃ mint, d.interfaceMint l m = .ok mint)
    (hsigned : config.pendingAuthority ∈ p.signers)
    (hne : config.pendingAuthority ≠ Pubkey.default) (hw : kc ∈ p.writable) :
    ∃ l', Call.process d l ⟨.acceptAuthority, [config.pendingAuthority, kc, m], p⟩ =
      .ok l' := by
  obtain ⟨mint, hmint⟩ := hmint
  have htry : AcceptAuthority.tryAccounts d p l ⟨config.pendingAuthority, kc, m⟩ =
      .ok config := by
    unfold AcceptAuthority.tryAccounts
    rw [signer, require_pos hsigned, ok_bind, hc.load, ok_bind, hmint, ok_bind, require_pos rfl,
      ok_bind, seedsWithBump, require_pos (Deployment.create_of_find hc.find), ok_bind, mutable,
      require_pos hw, ok_bind]
    rfl
  have hhandler : AcceptAuthority.handler config = .ok { config with
      authority := config.pendingAuthority, pendingAuthority := Pubkey.default } := by
    rw [AcceptAuthority.handler, require_pos hne, ok_bind]
    rfl
  simp only [Call.process, Call.run, acceptAuthority, AcceptAuthority.ofKeys, ok_bind, htry,
    hhandler, hc.exitAccount rfl]
  refine ⟨_, commit_eq_ok.mpr ⟨fun k _ => ?_, rfl⟩⟩
  by_cases hk : k = kc
  · exact .inr (hk ▸ hw)
  · exact .inl (Ledger.account_set_of_ne _ _ hk)

/-- The authority can publish the list at an address without lamports. -/
lemma ListRequest.succeeds {c : Call} (h : ListRequest d l m kc kl config c)
    (hc : ConfigAt K l m kc config) (hlist : d.find (.extraAccountMetas m) = some (kl, b))
    (hne : config.authority ≠ kl) (hu : (l.account kl).Unallocated)
    (hzero : (l.account kl).lamports = 0) : ∃ l', c.process d l = .ok l' := by
  obtain ⟨size, hsize, hf⟩ := h.size
  obtain ⟨metas, hmetas, hlen⟩ :=
    InitializeExtraAccountMetaList.accountMetas_ok d.resolution config
  have hentry := d.resolution.sizeOf_executeEntry metas (by omega)
  rw [hlen, hsize] at hentry
  obtain rfl := Except.ok.inj hentry
  have hcreate : InitializeExtraAccountMetaList.createIfEmpty d c.privileges l
      ⟨config.authority, kl, m, kc, systemProgram⟩ b
        (d.resolution.executeEntry metas).length = .ok _ :=
    (createIfEmpty_eq_ok hne hlist hu h.listWritable hf).mpr ⟨hzero, rfl⟩
  rw [h.process_eq hc hlist, handler_created hmetas hcreate, ok_bind]
  exact ⟨_, commit_opened hf.writable h.listWritable⟩

end Succeeds

/-- A policy is that of the stored config. -/
lemma configAt_of_policy {p : Policy Pubkey Rule} (hinv : Inv K l) (hm : m ∈ K.keys)
    (hc : d.find (.config m) = some (kc, b)) (hp : policy K m l = some p) :
    ∃ config, ConfigAt K l m kc config ∧ policyOf K m l config = p := by
  obtain ⟨config, hconfig, hpolicy⟩ := hookConfig_of_policy hp
  exact ⟨config, hinv.configAt_of_find hm hconfig hc, hpolicy⟩

lemma writable_paidBy {x : AccountMeta} (hx : x ∈ ix.keys) (hw : x.isWritable = true)
    (hne : x.pubkey ≠ systemProgram) : x.pubkey ∈ (ix.paidBy a).privileges.writable :=
  TransactionInstruction.mem_writable_paidBy.mpr ⟨.inr ⟨x, hx, hw, rfl⟩, hne⟩

/-- A command runs as far as what it sends does. -/
lemma run_of_request (hix : cmd.request d a = some ix)
    (hok : ∃ l', (ix.paidBy a).process d l = .ok l') : ∃ l', cmd.run d a l = some l' := by
  obtain ⟨l', hok⟩ := hok
  exact ⟨l', run_eq_some.mpr ⟨ix, hix, hok⟩⟩

section GoesThrough
variable {config : HookConfig}

lemma Operator.creates {credential schema sasProgram : Pubkey} {mint : Mint}
    (h : Operator K l m a) (hinv : Inv K l) (hpolicy : policy K m l = none)
    (hmint : d.interfaceMint l m = .ok mint) (hauthority : mint.mintAuthority = some a) :
    ∃ l', (Commands.initializeConfig m credential schema sasProgram).run d a l = some l' := by
  obtain ⟨kc, bc, hkc, hkc_ne⟩ := h.config
  have hnone : d.hookConfig l m = none := Option.map_eq_none_iff.mp hpolicy
  apply run_of_request (request_initializeConfig hkc)
  exact initializeConfig_succeeds (h.ne_address (by simpa using h.mint_mem) hkc)
    (h.funded h.configRent) (writable_paidBy (x := ⟨kc, false, true⟩) (by simp) rfl hkc_ne)
    hmint hauthority hkc ((hinv.hookConfig_eq_none h.mint_mem hkc).mp hnone)

lemma Operator.updates {credential schema sasProgram : Pubkey}
    (h : Operator K l m config.authority) (hinv : Inv K l) (hc : ConfigAt K l m kc config)
    (hpublished : d.holds l (.extraAccountMetas m) = true) :
    ∃ l', (Commands.updateConfig m credential schema sasProgram).run d config.authority l =
      some l' := by
  obtain ⟨kl, bl, hkl, hkl_ne⟩ := h.list
  have hkc_ne := h.ne_systemProgram hc.find
  have hreq : UpdateRequest d l m kc kl config ⟨credential, schema, sasProgram⟩
      (TransactionInstruction.paidBy ⟨.updateConfig credential schema sasProgram,
        [⟨config.authority, true, false⟩, ⟨kc, false, true⟩, ⟨m, false, false⟩,
          ⟨kl, false, true⟩]⟩ config.authority) :=
    ⟨rfl, ⟨[], rfl⟩, TransactionInstruction.mem_signers_paidBy.mpr (.inl rfl),
      writable_paidBy (x := ⟨kc, false, true⟩) (by simp) rfl hkc_ne,
      writable_paidBy (x := ⟨kl, false, true⟩) (by simp) rfl hkl_ne, h.mint⟩
  apply run_of_request (request_updateConfig hc.find hkl)
  rcases hreq.process_cases hinv hc hkl with ⟨howner, -⟩ | ⟨-, metas, -, -, hok⟩
  · exact absurd ((Deployment.holds_iff hkl).mp hpublished) howner
  · exact ⟨_, hok⟩

lemma Operator.publishes (h : Operator K l m config.authority) (hinv : Inv K l)
    (hc : ConfigAt K l m kc config) (hunpublished : d.holds l (.extraAccountMetas m) = false)
    (hzero : ∀ k b, d.find (.extraAccountMetas m) = some (k, b) → (l.account k).lamports = 0) :
    ∃ l', (Commands.initExtraAccountMetaList m).run d config.authority l = some l' := by
  obtain ⟨kl, bl, hkl, hkl_ne⟩ := h.list
  have hvacant : (l.account kl).Unallocated := by
    apply (hinv.unallocated_iff (by simpa using h.mint_mem) hkl).mpr
    intro howner
    exact Bool.noConfusion (hunpublished.symm.trans ((Deployment.holds_iff hkl).mpr howner))
  obtain ⟨metas, -, hlen⟩ := InitializeExtraAccountMetaList.accountMetas_ok d.resolution config
  have hsize := d.resolution.sizeOf_executeEntry metas (by omega)
  rw [hlen] at hsize
  have hreq : ListRequest d l m kc kl config
      (TransactionInstruction.paidBy ⟨.initializeExtraAccountMetaList,
        [⟨config.authority, true, true⟩, ⟨kl, false, true⟩, ⟨m, false, false⟩,
          ⟨kc, false, false⟩, ⟨systemProgram, false, false⟩]⟩ config.authority) :=
    ⟨rfl, ⟨[], rfl⟩, writable_paidBy (x := ⟨kl, false, true⟩) (by simp) rfl hkl_ne, h.mint,
      ⟨_, hsize, h.funded (h.listRent _ hsize)⟩⟩
  apply run_of_request (request_initExtraAccountMetaList hc.find hkl)
  exact hreq.succeeds hc hkl (h.ne_address (by simpa using h.mint_mem) hkl) hvacant
    (hzero kl bl hkl)

lemma Operator.exempts (h : Operator K l m config.authority) (hinv : Inv K l)
    (hc : ConfigAt K l m kc config) (hw : w ∈ K.keys)
    (hholds : ¬ d.holds l (.whitelist m w) = true) :
    ∃ l', (Commands.addToWhitelist m w).run d config.authority l = some l' := by
  obtain ⟨ke, be, hke, hke_ne⟩ := h.entry hw
  have hvacant : (l.account ke).Unallocated := by
    apply (hinv.unallocated_iff (by simp [h.mint_mem, hw]) hke).mpr
    intro howner
    exact hholds ((Deployment.holds_iff hke).mpr howner)
  have hreq : AddRequest d l m w kc ke config
      (TransactionInstruction.paidBy ⟨.addToWhitelist w,
        [⟨config.authority, true, true⟩, ⟨kc, false, false⟩, ⟨ke, false, true⟩,
          ⟨m, false, false⟩, ⟨systemProgram, false, false⟩]⟩ config.authority) :=
    ⟨rfl, ⟨[], rfl⟩, writable_paidBy (x := ⟨ke, false, true⟩) (by simp) rfl hke_ne, h.mint,
      h.funded h.entryRent⟩
  apply run_of_request (request_addToWhitelist hc.find hke)
  exact hreq.succeeds hc (h.ne_address (by simp [h.mint_mem, hw]) hke) hke hvacant

lemma Operator.revokes (h : Operator K l m config.authority) (hinv : Inv K l)
    (hc : ConfigAt K l m kc config) (hw : w ∈ K.keys)
    (hholds : d.holds l (.whitelist m w) = true) :
    ∃ l', (Commands.removeFromWhitelist m w).run d config.authority l = some l' := by
  obtain ⟨ke, be, hke, hke_ne⟩ := h.entry hw
  obtain ⟨mint, hmint⟩ := h.mint
  have howner := (Deployment.holds_iff hke).mp hholds
  obtain ⟨-, -, hdata⟩ := hinv.slot (by simp [h.mint_mem, hw]) (Deployment.create_of_find hke)
    howner
  have hload : loadAccount WhitelistEntry d.toHost l ke = .ok ⟨w, be⟩ :=
    loadAccount_eq_ok.mpr ⟨howner, by rw [hdata, tryDeserialize_image]⟩
  have hne : config.authority ≠ ke := h.ne_address (by simp [h.mint_mem, hw]) hke
  have hwritable : ke ∈ (TransactionInstruction.paidBy ⟨.removeFromWhitelist w,
      [⟨config.authority, true, false⟩, ⟨kc, false, false⟩, ⟨ke, false, true⟩,
        ⟨m, false, false⟩, ⟨systemProgram, false, false⟩]⟩
      config.authority).privileges.writable :=
    writable_paidBy (x := ⟨ke, false, true⟩) (by simp) rfl hke_ne
  have hreceiver : config.authority ∈ [config.authority, kc, ke, m, systemProgram] := by simp
  obtain ⟨l', hclose⟩ := (commit_closeAccount hreceiver hwritable hne).mpr
    (.inl (h.funded (Nat.zero_le _)).writable)
  apply run_of_request (request_removeFromWhitelist hc.find hke)
  exact ⟨l', (removeFromWhitelist_process hc hke hload hmint
    (h.funded (Nat.zero_le _)).signer hwritable hne.symm).trans hclose⟩

lemma Operator.nominates (newAuthority : Pubkey) (h : Operator K l m config.authority)
    (hc : ConfigAt K l m kc config) :
    ∃ l', (Commands.transferAuthority m newAuthority).run d config.authority l = some l' := by
  have hkc_ne := h.ne_systemProgram hc.find
  have hreq : UpgradeRequest d l m kc newAuthority ⟨config.authority, config.credential,
      config.schema, config.sasProgram, config.bump⟩
      (TransactionInstruction.paidBy ⟨.transferAuthority,
        [⟨config.authority, true, true⟩, ⟨newAuthority, false, false⟩, ⟨kc, false, true⟩,
          ⟨m, false, false⟩, ⟨systemProgram, false, false⟩]⟩ config.authority) :=
    ⟨rfl, ⟨[], rfl⟩, h.funded ((le_max_left _ _).trans h.configRent),
      writable_paidBy (x := ⟨kc, false, true⟩) (by simp) rfl hkc_ne, h.mint⟩
  apply run_of_request (request_transferAuthority hc.find)
  exact ⟨_, hreq.process_new hc.find hc.owner hc.data⟩

lemma Operator.accepts (h : Operator K l m a) (hc : ConfigAt K l m kc config)
    (hpending : nominee config.pendingAuthority = some a) :
    ∃ l', (Commands.acceptAuthority m).run d a l = some l' := by
  unfold nominee at hpending
  split_ifs at hpending with hdefault
  obtain rfl := Option.some.inj hpending
  apply run_of_request (request_acceptAuthority hc.find)
  exact acceptAuthority_succeeds hc h.mint (h.funded (Nat.zero_le _)).signer hdefault
    (writable_paidBy (x := ⟨kc, false, true⟩) (by simp) rfl (h.ne_systemProgram hc.find))

end GoesThrough

/-- Every operation that the policy allows its actor is performed by the actor's command. -/
lemma Operator.goes_through {s' : Option (Policy Pubkey Rule)} (h : Operator K l cmd.mint a)
    (hinv : Inv K l) (hw : ∀ w, cmd.wallet = some w → w ∈ K.keys)
    (hstep : Step (policy K cmd.mint l) (cmd.op a) s') (hprepared : cmd.Prepared d l a) :
    ∃ l', cmd.run d a l = some l' := by
  obtain ⟨kc, bc, hkc, -⟩ := h.config
  have stored : ∀ {p}, policy K cmd.mint l = some p →
      ∃ config, ConfigAt K l cmd.mint kc config ∧ policyOf K cmd.mint l config = p :=
    configAt_of_policy hinv h.mint_mem hkc
  generalize hpolicy : policy K cmd.mint l = pol at hstep
  cases cmd with
  | initializeConfig m credential schema sasProgram =>
      obtain ⟨mint, hmint, hauthority⟩ := hprepared
      cases hstep
      exact h.creates hinv hpolicy hmint hauthority
  | updateConfig m credential schema sasProgram =>
      cases hstep with
      | setRule p r hpublished =>
          obtain ⟨config, hc, rfl⟩ := stored hpolicy
          exact h.updates hinv hc hpublished
  | initExtraAccountMetaList m =>
      cases hstep with
      | publish p hunpublished =>
          obtain ⟨config, hc, rfl⟩ := stored hpolicy
          exact h.publishes hinv hc hunpublished hprepared
  | addToWhitelist m w =>
      cases hstep with
      | exempt p w hexempt =>
          obtain ⟨config, hc, rfl⟩ := stored hpolicy
          exact h.exempts hinv hc (hw w rfl) fun hholds => hexempt ⟨hw w rfl, hholds⟩
  | removeFromWhitelist m w =>
      cases hstep with
      | revoke p w hexempt =>
          obtain ⟨config, hc, rfl⟩ := stored hpolicy
          exact h.revokes hinv hc (hw w rfl) hexempt.2
  | transferAuthority m newAuthority =>
      cases hstep with
      | nominate p n =>
          obtain ⟨config, hc, rfl⟩ := stored hpolicy
          exact h.nominates newAuthority hc
  | acceptAuthority m =>
      cases hstep with
      | accept p n hpending =>
          obtain ⟨config, hc, rfl⟩ := stored hpolicy
          exact h.accepts hc hpending

/-- In every reachable state a command of an `Operator` goes through exactly when the policy
of its mint lets its keypair take the step and the ledger is prepared for it; it then takes
that step. What the SDK builds in its place does the same. -/
theorem command_iff_step (cmd : Commands) {h : List (Ledger × Event)}
    (hr : Reaches (hookSystem K) h l) (hop : Operator K l cmd.mint a)
    (hw : ∀ w, cmd.wallet = some w → w ∈ K.keys) (s' : Option (Policy Pubkey Rule)) :
    ((∃ l', cmd.run d a l = some l' ∧ policy K cmd.mint l' = s') ↔
      Step (policy K cmd.mint l) (cmd.op a) s' ∧ cmd.Prepared d l a) ∧
    ∀ built, BuiltFor d a cmd built → built.bind (sendAndConfirm d a l) = cmd.run d a l := by
  have hinv := inv_of_reaches hr
  refine ⟨⟨?_, ?_⟩, ?_⟩
  · rintro ⟨l', hrun, rfl⟩
    exact hop.performed hinv hw hrun
  · rintro ⟨hstep, hprepared⟩
    obtain ⟨l', hrun⟩ := hop.goes_through hinv hw hstep hprepared
    exact ⟨l', hrun, (hop.performed hinv hw hrun).1.unique hstep⟩
  · intro built hbuilt
    rw [hbuilt.eq_request]
    rfl

namespace LocalChain

lemma pda_ne {s : HookSeeds} (hs : keysInPlay.Covers s) : pda s ≠ systemProgram := by
  intro heq
  have hbytes : digest s 255 ++ List.replicate 28 0 = List.replicate 32 0 :=
    (hash_bytes hs 255).symm.trans (congrArg Pubkey.bytes heq)
  cases s <;> exact absurd (congrArg List.head? hbytes) (by simp [digest])

lemma published_eval :
    (published.account authority).owner = systemProgram ∧
      (published.account authority).data = [] ∧
      5 * 10 ^ 6 ≤ (published.account authority).lamports ∧
      chain.resolution.sizeOf 6 = .ok 226 ∧
      chain.interfaceMint published mint = .ok ⟨some authority⟩ := by
  decide +kernel

lemma operator_published : Operator keysInPlay published mint authority := by
  obtain ⟨howner, hdata, hlamports, hsize, hmint⟩ := published_eval
  refine ⟨mint_mem, not_derived (k := authority) (by decide), by decide, ⟨howner, hdata⟩, ?_,
    ?_, ?_, ⟨_, hmint⟩, fun s hs => ⟨pda s, 255, find_eq s, pda_ne hs⟩⟩
  · exact Nat.le_trans (by decide) hlamports
  · intro size hok
    obtain rfl := Except.ok.inj (hsize.symm.trans hok)
    exact Nat.le_trans (by decide) hlamports
  · exact Nat.le_trans (by decide) hlamports

end LocalChain

open LocalChain in
/-- The authority exempts the wallet once the list is published. -/
theorem command_iff_step_published :
    ((∃ l', (Commands.addToWhitelist mint wallet).run chain authority published = some l' ∧
        policy keysInPlay mint l' = some ⟨authority, none, rule, true, {wallet}⟩) ↔
      Step (policy keysInPlay mint published) (.exempt authority wallet)
        (some ⟨authority, none, rule, true, {wallet}⟩) ∧ True) ∧
    (SdkInstructions.buildAddToWhitelistIx chain authority mint wallet).bind
        (sendAndConfirm chain authority published) =
      (Commands.addToWhitelist mint wallet).run chain authority published := by
  obtain ⟨hiff, hbuilt⟩ := command_iff_step (.addToWhitelist mint wallet) reaches_published
    operator_published (fun _ hw => Option.some.inj hw ▸ wallet_mem)
    (some ⟨authority, none, rule, true, {wallet}⟩)
  exact ⟨hiff, hbuilt _ (.buildAddToWhitelistIx mint wallet)⟩

end AlienIdTransferHook
