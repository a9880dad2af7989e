import AlienIdTransferHook.Program

/-!
# What a successful instruction did

For each instruction, everything that follows from its success: which accounts
were passed, who signed, what was read, and exactly the ledger it leaves. Later
modules use these lemmas and unfold no handler.
-/
namespace AlienIdTransferHook
open Solana

variable {d : Deployment} {p : Privileges} {l l' : Ledger} {keys : List Pubkey}

/-- A zero-filled account read without its discriminator is a config of zeros. -/
lemma tryDeserializeUnchecked_zero_config :
    tryDeserializeUnchecked HookConfig (List.replicate HookConfig.LEN 0) =
      .ok ⟨Pubkey.default, Pubkey.default, Pubkey.default, Pubkey.default, 0,
        Pubkey.default⟩ := by decide +kernel

lemma tryDeserializeUnchecked_zero_entry :
    tryDeserializeUnchecked WhitelistEntry (List.replicate WhitelistEntry.LEN 0) =
      .ok ⟨Pubkey.default, 0⟩ := by decide +kernel

/-! ## Config and account list -/

theorem initializeConfig_ok {credential schema sasProgram : Pubkey}
    (hsig : ∀ m, keys[2]? = some m → p.Unsigned d (.config m))
    (h : initializeConfig d p l keys credential schema sasProgram = .ok l') :
    ∃ a bump mint n lamports, InitializeConfig.ofKeys keys = .ok a ∧
      a.authority ∈ p.signers ∧ a.authority ∈ p.writable ∧
      d.interfaceMint l a.mint = .ok mint ∧ mint.mintAuthority = some a.authority ∧
      d.find (.config a.mint) = some (a.config, bump) ∧ (l.account a.config).Unallocated ∧
      l' = l.opened a.authority a.config n ⟨lamports, d.programId,
        image (HookConfig.mk a.authority credential schema sasProgram bump
          Pubkey.default)⟩ := by
  unfold initializeConfig at h
  obtain ⟨a, hkeys, h⟩ := bind_eq_ok.mp h
  obtain ⟨opened, htry, h⟩ := bind_eq_ok.mp h
  obtain ⟨config, hconfig, hexit⟩ := bind_eq_ok.mp h
  unfold InitializeConfig.tryAccounts at htry
  rw [signer, require_bind_eq_ok] at htry
  obtain ⟨hsigned, htry⟩ := htry
  obtain ⟨mint, hmint, htry⟩ := bind_eq_ok.mp htry
  rw [systemProgramAccount, require_bind_eq_ok] at htry
  obtain ⟨opened', hinit, htry⟩ := bind_eq_ok.mp htry.2
  simp only [mutable, require_bind_eq_ok, pure_eq_ok] at htry
  obtain ⟨hwritable, hauthority, rfl⟩ := htry
  have hfind := find_of_initConstraint hinit
  obtain ⟨rest, rfl⟩ := InitializeConfig.ofKeys_eq_ok hkeys
  have hne : a.authority ≠ a.config := (hsig a.mint rfl).ne hfind hsigned
  obtain ⟨hu, -, n, lamports, hopened⟩ := initConstraint_ok hne hinit
  rw [hopened] at hconfig hexit
  simp only [Ledger.opened, Ledger.account_set_self, tryDeserializeUnchecked_zero_config]
    at hconfig
  obtain rfl := Except.ok.inj hconfig
  rw [exitAccount_of_size (by simp [Ledger.opened]; rfl)] at hexit
  refine ⟨a, opened'.2, mint, n, lamports, hkeys, hsigned, hwritable, hmint, hauthority,
    hfind, hu, ?_⟩
  rw [← Except.ok.inj hexit]
  simp [Ledger.opened, InitializeConfig.handler]

theorem updateConfig_ok {credential schema sasProgram : Pubkey}
    (h : updateConfig d p l keys credential schema sasProgram = .ok l') :
    ∃ a config bump metas data, UpdateConfig.ofKeys keys = .ok a ∧
      a.authority ∈ p.signers ∧ loadAccount HookConfig d.toHost l a.config = .ok config ∧
      a.authority = config.authority ∧
      d.createProgramAddress ((HookSeeds.config a.mint).toList ++ [[config.bump]])
        d.programId = some a.config ∧
      d.find (.extraAccountMetas a.mint) = some (a.extraAccountMetaList, bump) ∧
      UpdateConfig.accountMetas d.resolution credential schema sasProgram = .ok metas ∧
      d.resolution.init
        (List.replicate (l.account a.extraAccountMetaList).data.length 0) metas = .ok data ∧
      exitAccount (l.set a.extraAccountMetaList
          { l.account a.extraAccountMetaList with data := data }) a.config
        { config with credential := credential, schema := schema, sasProgram := sasProgram }
        = .ok l' := by
  unfold updateConfig at h
  obtain ⟨a, hkeys, h⟩ := bind_eq_ok.mp h
  obtain ⟨config, htry, h⟩ := bind_eq_ok.mp h
  obtain ⟨done, hdone, hexit⟩ := bind_eq_ok.mp h
  unfold UpdateConfig.tryAccounts at htry
  rw [signer, require_bind_eq_ok] at htry
  obtain ⟨hsigned, htry⟩ := htry
  obtain ⟨config', hload, htry⟩ := bind_eq_ok.mp htry
  obtain ⟨-, -, htry⟩ := bind_eq_ok.mp htry
  rw [require_bind_eq_ok, seedsWithBump, require_bind_eq_ok, mutable, require_bind_eq_ok]
    at htry
  obtain ⟨hauthority, hcreate, -, htry⟩ := htry
  obtain ⟨bump, hlist, htry⟩ := bind_eq_ok.mp htry
  rw [mutable, require_bind_eq_ok, pure_eq_ok] at htry
  obtain ⟨-, rfl⟩ := htry
  unfold UpdateConfig.handler at hdone
  obtain ⟨metas, hmetas, hdone⟩ := bind_eq_ok.mp hdone
  obtain ⟨data, hdata, hdone⟩ := bind_eq_ok.mp hdone
  obtain ⟨l₁, hwrite, hdone⟩ := bind_eq_ok.mp hdone
  obtain rfl := pure_eq_ok.mp hdone
  obtain ⟨-, rfl⟩ := writeData_eq_ok.mp hwrite
  exact ⟨a, config', bump, metas, data, hkeys, hsigned, hload, hauthority, hcreate,
    seedsCanonical_eq_ok.mp hlist, hmetas, hdata, hexit⟩

theorem initializeExtraAccountMetaList_ok
    (h : initializeExtraAccountMetaList d p l keys = .ok l') :
    ∃ a config bump metas size l₁ data, InitializeExtraAccountMetaList.ofKeys keys = .ok a ∧
      a.payer ∈ p.signers ∧ loadAccount HookConfig d.toHost l a.config = .ok config ∧
      a.payer = config.authority ∧
      d.createProgramAddress ((HookSeeds.config a.mint).toList ++ [[config.bump]])
        d.programId = some a.config ∧
      d.find (.extraAccountMetas a.mint) = some (a.extraAccountMetaList, bump) ∧
      InitializeExtraAccountMetaList.accountMetas d.resolution config = .ok metas ∧
      d.resolution.sizeOf metas.length = .ok size ∧
      a.createIfEmpty d p l bump size = .ok l₁ ∧
      d.resolution.init (l₁.account a.extraAccountMetaList).data metas = .ok data ∧
      l' = l₁.set a.extraAccountMetaList
        { l₁.account a.extraAccountMetaList with data := data } := by
  unfold initializeExtraAccountMetaList at h
  obtain ⟨a, hkeys, h⟩ := bind_eq_ok.mp h
  obtain ⟨⟨config, bump⟩, htry, h⟩ := bind_eq_ok.mp h
  unfold InitializeExtraAccountMetaList.tryAccounts at htry
  rw [signer, require_bind_eq_ok] at htry
  obtain ⟨hsigned, htry⟩ := htry
  obtain ⟨-, -, htry⟩ := bind_eq_ok.mp htry
  obtain ⟨config', hload, htry⟩ := bind_eq_ok.mp htry
  rw [systemProgramAccount, require_bind_eq_ok, mutable, require_bind_eq_ok,
    require_bind_eq_ok] at htry
  obtain ⟨-, -, hauthority, htry⟩ := htry
  obtain ⟨bump', hlist, htry⟩ := bind_eq_ok.mp htry
  rw [mutable, require_bind_eq_ok, seedsWithBump, require_bind_eq_ok, pure_eq_ok] at htry
  obtain ⟨-, hcreate, heq⟩ := htry
  obtain ⟨rfl, rfl⟩ : config' = config ∧ bump' = bump := by simpa using heq
  unfold InitializeExtraAccountMetaList.handler at h
  obtain ⟨metas, hmetas, h⟩ := bind_eq_ok.mp h
  obtain ⟨size, hsize, h⟩ := bind_eq_ok.mp h
  obtain ⟨l₁, hcreated, h⟩ := bind_eq_ok.mp h
  obtain ⟨data, hdata, h⟩ := bind_eq_ok.mp h
  obtain ⟨-, rfl⟩ := writeData_eq_ok.mp h
  exact ⟨a, config', bump', metas, size, l₁, data, hkeys, hsigned, hload, hauthority, hcreate,
    seedsCanonical_eq_ok.mp hlist, hmetas, hsize, hcreated, hdata, rfl⟩

/-! ## Authority -/

theorem transferAuthority_ok (h : transferAuthority d p l keys = .ok l') :
    ∃ a config l₁, TransferAuthority.ofKeys keys = .ok a ∧ a.authority ∈ p.signers ∧
      loadAccount HookConfig d.toHost l a.config = .ok config ∧
      a.authority = config.authority ∧
      d.createProgramAddress ((HookSeeds.config a.mint).toList ++ [[config.bump]])
        d.programId = some a.config ∧
      reallocConstraint d.toHost p l a.authority a.config HookConfig.LEN = .ok l₁ ∧
      exitAccount l₁ a.config { config with pendingAuthority := a.newAuthority } = .ok l' := by
  unfold transferAuthority at h
  obtain ⟨a, hkeys, h⟩ := bind_eq_ok.mp h
  obtain ⟨⟨l₁, config⟩, htry, hexit⟩ := bind_eq_ok.mp h
  unfold TransferAuthority.tryAccounts at htry
  rw [signer, require_bind_eq_ok] at htry
  obtain ⟨hsigned, htry⟩ := htry
  obtain ⟨config', hload, htry⟩ := bind_eq_ok.mp htry
  obtain ⟨-, -, htry⟩ := bind_eq_ok.mp htry
  rw [systemProgramAccount, require_bind_eq_ok, mutable, require_bind_eq_ok,
    require_bind_eq_ok] at htry
  obtain ⟨-, -, hauthority, htry⟩ := htry
  obtain ⟨l₁', hrealloc, htry⟩ := bind_eq_ok.mp htry
  rw [seedsWithBump, require_bind_eq_ok, mutable, require_bind_eq_ok, pure_eq_ok] at htry
  obtain ⟨hcreate, -, heq⟩ := htry
  obtain ⟨rfl, rfl⟩ : l₁' = l₁ ∧ config' = config := by simpa using heq
  exact ⟨a, config', l₁', hkeys, hsigned, hload, hauthority, hcreate, hrealloc, hexit⟩

theorem acceptAuthority_ok (h : acceptAuthority d p l keys = .ok l') :
    ∃ a config, AcceptAuthority.ofKeys keys = .ok a ∧ a.pendingAuthority ∈ p.signers ∧
      loadAccount HookConfig d.toHost l a.config = .ok config ∧
      a.pendingAuthority = config.pendingAuthority ∧
      config.pendingAuthority ≠ Pubkey.default ∧
      d.createProgramAddress ((HookSeeds.config a.mint).toList ++ [[config.bump]])
        d.programId = some a.config ∧
      exitAccount l a.config { config with
        authority := config.pendingAuthority, pendingAuthority := Pubkey.default }
        = .ok l' := by
  unfold acceptAuthority at h
  obtain ⟨a, hkeys, h⟩ := bind_eq_ok.mp h
  obtain ⟨config, htry, h⟩ := bind_eq_ok.mp h
  obtain ⟨config', hhandler, hexit⟩ := bind_eq_ok.mp h
  unfold AcceptAuthority.tryAccounts at htry
  rw [signer, require_bind_eq_ok] at htry
  obtain ⟨hsigned, htry⟩ := htry
  obtain ⟨config'', hload, htry⟩ := bind_eq_ok.mp htry
  obtain ⟨-, -, htry⟩ := bind_eq_ok.mp htry
  rw [require_bind_eq_ok, seedsWithBump, require_bind_eq_ok, mutable, require_bind_eq_ok,
    pure_eq_ok] at htry
  obtain ⟨hpending, hcreate, -, rfl⟩ := htry
  rw [AcceptAuthority.handler, require_bind_eq_ok, pure_eq_ok] at hhandler
  obtain ⟨hne, rfl⟩ := hhandler
  exact ⟨a, config'', hkeys, hsigned, hload, hpending, hne, hcreate, hexit⟩

/-! ## Whitelist -/

theorem addToWhitelist_ok {wallet : Pubkey}
    (hsig : ∀ m, keys[3]? = some m → p.Unsigned d (.whitelist m wallet))
    (h : addToWhitelist d p l keys wallet = .ok l') :
    ∃ a config bump n lamports, AddToWhitelist.ofKeys keys = .ok a ∧
      a.authority ∈ p.signers ∧ a.authority = config.authority ∧
      d.createProgramAddress ((HookSeeds.config a.mint).toList ++ [[config.bump]])
        d.programId = some a.config ∧
      d.find (.whitelist a.mint wallet) = some (a.whitelistEntry, bump) ∧
      loadAccount HookConfig d.toHost l a.config = .ok config ∧
      (l.account a.whitelistEntry).Unallocated ∧
      l' = l.opened a.authority a.whitelistEntry n
        ⟨lamports, d.programId, image (WhitelistEntry.mk wallet bump)⟩ := by
  unfold addToWhitelist at h
  obtain ⟨a, hkeys, h⟩ := bind_eq_ok.mp h
  obtain ⟨opened, htry, h⟩ := bind_eq_ok.mp h
  obtain ⟨entry, hentry, hexit⟩ := bind_eq_ok.mp h
  unfold AddToWhitelist.tryAccounts at htry
  rw [signer, require_bind_eq_ok] at htry
  obtain ⟨hsigned, htry⟩ := htry
  obtain ⟨config, hload, htry⟩ := bind_eq_ok.mp htry
  obtain ⟨-, -, htry⟩ := bind_eq_ok.mp htry
  rw [systemProgramAccount, require_bind_eq_ok] at htry
  obtain ⟨opened', hinit, htry⟩ := bind_eq_ok.mp htry.2
  simp only [mutable, seedsWithBump, require_bind_eq_ok, pure_eq_ok] at htry
  obtain ⟨-, hcreate, hauthority, rfl⟩ := htry
  have hfind := find_of_initConstraint hinit
  obtain ⟨rest, rfl⟩ := AddToWhitelist.ofKeys_eq_ok hkeys
  have hne : a.authority ≠ a.whitelistEntry := (hsig a.mint rfl).ne hfind hsigned
  obtain ⟨hu, -, n, lamports, hopened⟩ := initConstraint_ok hne hinit
  rw [hopened] at hentry hexit
  simp only [Ledger.opened, Ledger.account_set_self, tryDeserializeUnchecked_zero_entry]
    at hentry
  obtain rfl := Except.ok.inj hentry
  rw [exitAccount_of_size (by simp [Ledger.opened]; rfl)] at hexit
  refine ⟨a, config, opened'.2, n, lamports, hkeys, hsigned, hauthority, hcreate, hfind, hload,
    hu, ?_⟩
  rw [← Except.ok.inj hexit]
  simp [Ledger.opened, AddToWhitelist.handler]

theorem removeFromWhitelist_ok {wallet : Pubkey}
    (h : removeFromWhitelist d p l keys wallet = .ok l') :
    ∃ a config entry, RemoveFromWhitelist.ofKeys keys = .ok a ∧
      a.authority ∈ p.signers ∧ a.authority = config.authority ∧
      d.createProgramAddress ((HookSeeds.config a.mint).toList ++ [[config.bump]])
        d.programId = some a.config ∧
      d.createProgramAddress ((HookSeeds.whitelist a.mint wallet).toList ++ [[entry.bump]])
        d.programId = some a.whitelistEntry ∧
      loadAccount HookConfig d.toHost l a.config = .ok config ∧
      loadAccount WhitelistEntry d.toHost l a.whitelistEntry = .ok entry ∧
      (∃ mint, d.interfaceMint l a.mint = .ok mint) ∧
      l' = closeAccount l a.whitelistEntry a.authority := by
  unfold removeFromWhitelist at h
  obtain ⟨a, hkeys, h⟩ := bind_eq_ok.mp h
  obtain ⟨⟨⟩, htry, h⟩ := bind_eq_ok.mp h
  obtain rfl := pure_eq_ok.mp h
  unfold RemoveFromWhitelist.tryAccounts at htry
  rw [signer, require_bind_eq_ok] at htry
  obtain ⟨hsigned, htry⟩ := htry
  obtain ⟨config, hload, htry⟩ := bind_eq_ok.mp htry
  obtain ⟨entry, hentry, htry⟩ := bind_eq_ok.mp htry
  obtain ⟨mint, hmint, htry⟩ := bind_eq_ok.mp htry
  simp only [systemProgramAccount, mutable, seedsWithBump, require_bind_eq_ok] at htry
  obtain ⟨-, hcreate, hauthority, hcreate', -, -⟩ := htry
  exact ⟨a, config, entry, hkeys, hsigned, hauthority, hcreate, hcreate', hload, hentry,
    ⟨mint, hmint⟩, rfl⟩

/-! ## Transfer hook -/

/-- The constraints of the hook's accounts, read as one condition. -/
theorem TransferHook.tryAccounts_eq_ok {a : TransferHook} {source : TokenAccount}
    {config : HookConfig} :
    a.tryAccounts d l = .ok (source, config) ↔
      d.interfaceTokenAccount l a.sourceToken = .ok source ∧ source.mint = a.mint ∧
      (∃ mint, d.interfaceMint l a.mint = .ok mint) ∧
      (∃ destination, d.interfaceTokenAccount l a.destinationToken = .ok destination ∧
        destination.mint = a.mint) ∧
      loadAccount HookConfig d.toHost l a.config = .ok config ∧
      (∃ bump, d.find (.extraAccountMetas a.mint) = some (a.extraAccountMetaList, bump)) ∧
      d.createProgramAddress ((HookSeeds.config a.mint).toList ++ [[config.bump]])
        d.programId = some a.config := by
  unfold TransferHook.tryAccounts
  constructor
  · intro h
    obtain ⟨source', hsource, h⟩ := bind_eq_ok.mp h
    obtain ⟨mint, hmint, h⟩ := bind_eq_ok.mp h
    obtain ⟨destination, hdestination, h⟩ := bind_eq_ok.mp h
    obtain ⟨config', hload, h⟩ := bind_eq_ok.mp h
    rw [require_bind_eq_ok, require_bind_eq_ok] at h
    obtain ⟨hsourceMint, hdestinationMint, h⟩ := h
    obtain ⟨bump, hlist, h⟩ := bind_eq_ok.mp h
    rw [seedsWithBump, require_bind_eq_ok, pure_eq_ok] at h
    obtain ⟨hcreate, heq⟩ := h
    obtain ⟨rfl, rfl⟩ : source' = source ∧ config' = config := by simpa using heq
    exact ⟨hsource, hsourceMint, ⟨mint, hmint⟩, ⟨destination, hdestination, hdestinationMint⟩,
      hload, ⟨bump, seedsCanonical_eq_ok.mp hlist⟩, hcreate⟩
  · rintro ⟨hsource, hsourceMint, ⟨mint, hmint⟩, ⟨destination, hdestination,
      hdestinationMint⟩, hload, ⟨bump, hlist⟩, hcreate⟩
    rw [hsource, ok_bind, hmint, ok_bind, hdestination, ok_bind, hload, ok_bind,
      require_pos hsourceMint, ok_bind, require_pos hdestinationMint, ok_bind,
      seedsCanonical_of_find hlist, ok_bind, seedsWithBump, require_pos hcreate]
    rfl

/-- An authority the handler accepts. -/
theorem TransferHook.checkAuthority_eq_ok {source : TokenAccount} {w : Pubkey} {u : Unit} :
    checkAuthority source w = .ok u ↔
      source.owner = w ∨ source.delegate = some w ∧ 0 < source.delegatedAmount := by
  cases hd : source.delegate <;>
    simp [checkAuthority, isDirectOwner, isApprovedDelegate, hd]

/-- What the hook does after its accounts have passed. -/
theorem TransferHook.handler_eq_ok {a : TransferHook} {source : TokenAccount}
    {config : HookConfig} {u : Unit} :
    a.handler d l source config = .ok u ↔
      d.token.transferring (l.account a.sourceToken).data = .ok true ∧
      (source.owner = a.transferAuthority ∨
        source.delegate = some a.transferAuthority ∧ 0 < source.delegatedAmount) ∧
      (a.whitelisted d l = .ok true ∨
        a.whitelisted d l = .ok false ∧ a.verifyAttestation d l config = .ok u) := by
  unfold TransferHook.handler assertIsTransferring
  constructor
  · intro h
    obtain ⟨⟨⟩, hflag, h⟩ := bind_eq_ok.mp h
    obtain ⟨transferring, hread, hflag⟩ := bind_eq_ok.mp hflag
    obtain rfl := require_eq_ok.mp hflag
    obtain ⟨⟨⟩, hauthority, h⟩ := bind_eq_ok.mp h
    obtain ⟨skip, hskip, h⟩ := bind_eq_ok.mp h
    refine ⟨hread, checkAuthority_eq_ok.mp hauthority, ?_⟩
    cases skip
    · exact .inr ⟨hskip, by simpa using h⟩
    · exact .inl hskip
  · rintro ⟨hread, hauthority, hskip⟩
    have hok : checkAuthority source a.transferAuthority = .ok () :=
      checkAuthority_eq_ok.mpr hauthority
    rw [hread, ok_bind, require_pos rfl, ok_bind, hok, ok_bind]
    rcases hskip with hskip | ⟨hskip, hverify⟩
    · rw [hskip]; rfl
    · rw [hskip]; simpa using hverify

theorem TransferHook.whitelisted_eq_true {a : TransferHook} :
    a.whitelisted d l = .ok true ↔ (l.account a.whitelistEntry).owner = d.programId ∧
      ∃ bump, d.find (.whitelist a.mint a.transferAuthority) =
        some (a.whitelistEntry, bump) := by
  unfold TransferHook.whitelisted
  split_ifs with howner
  · simp only [expect_bind_eq_ok, require_bind_eq_ok, pure_eq_ok, howner, true_and, and_true]
    constructor
    · rintro ⟨⟨k, bump⟩, hfind, rfl⟩
      exact ⟨bump, hfind⟩
    · rintro ⟨bump, hfind⟩
      exact ⟨_, hfind, rfl⟩
  · simp [howner]

theorem TransferHook.whitelisted_eq_false {a : TransferHook} :
    a.whitelisted d l = .ok false ↔ (l.account a.whitelistEntry).owner ≠ d.programId := by
  unfold TransferHook.whitelisted
  split_ifs with howner
  · refine iff_of_false (fun h => ?_) (by simp [howner])
    obtain ⟨pda, -, h⟩ := bind_eq_ok.mp h
    rw [require_bind_eq_ok, pure_eq_ok] at h
    exact Bool.noConfusion h.2
  · simp [howner]

theorem TransferHook.checkAttestationAccounts_eq_ok {a : TransferHook} {config : HookConfig}
    {u : Unit} :
    a.checkAttestationAccounts d l config = .ok u ↔
      a.credential = config.credential ∧ a.schema = config.schema ∧
      a.sasProgram = config.sasProgram ∧
      (∃ bump, d.findProgramAddress
        (attestationSeeds config.credential config.schema a.transferAuthority)
        config.sasProgram = some (a.attestation, bump)) ∧
      (l.account a.attestation).owner = config.sasProgram := by
  unfold TransferHook.checkAttestationAccounts
  simp only [require_bind_eq_ok, expect_bind_eq_ok, require_eq_ok]
  constructor
  · rintro ⟨hcredential, hschema, hsas, ⟨k, bump⟩, hfind, rfl, howner⟩
    exact ⟨hcredential, hschema, hsas, ⟨bump, hfind⟩, howner⟩
  · rintro ⟨hcredential, hschema, hsas, ⟨bump, hfind⟩, howner⟩
    exact ⟨hcredential, hschema, hsas, _, hfind, rfl, howner⟩

theorem TransferHook.checkExpiry_eq_ok {e : ℤ} {u : Unit} :
    checkExpiry l e = .ok u ↔ e = 0 ∨ l.unixTimestamp < e := by
  unfold checkExpiry
  split_ifs with hne
  · simp [hne]
  · simp [not_not.mp hne]

theorem transferHook_ok {amount : ℕ} {u : Unit} (h : transferHook d l keys amount = .ok u) :
    ∃ a source config, TransferHook.ofKeys keys = .ok a ∧
      a.tryAccounts d l = .ok (source, config) ∧ a.handler d l source config = .ok () := by
  unfold transferHook at h
  obtain ⟨a, hkeys, h⟩ := bind_eq_ok.mp h
  obtain ⟨⟨source, config⟩, htry, hhandler⟩ := bind_eq_ok.mp h
  exact ⟨a, source, config, hkeys, htry, hhandler⟩

end AlienIdTransferHook
