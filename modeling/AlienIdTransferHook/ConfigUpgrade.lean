import AlienIdTransferHook.Runs

/-!
# Configs of the older layout

`transfer_authority` resizes the config to `HookConfig::LEN`, which can only
matter for a config without the trailing `pending_authority`. Anchor deserialises
the account before it resizes it, so such a config never gets that far.
-/
namespace AlienIdTransferHook
open Solana History

/-- A config without `pending_authority`. -/
structure OldHookConfig where
  authority : Pubkey
  credential : Pubkey
  schema : Pubkey
  sasProgram : Pubkey
  bump : UInt8

namespace OldHookConfig

/-- The discriminator and the five fields. -/
def image (c : OldHookConfig) : List UInt8 :=
  AnchorAccount.discriminator HookConfig ++ (c.authority.bytes ++ (c.credential.bytes ++
    (c.schema.bytes ++ (c.sasProgram.bytes ++ [c.bump]))))

/-- The same fields in the newer layout. -/
def withPending (c : OldHookConfig) (pending : Pubkey) : HookConfig :=
  ⟨c.authority, c.credential, c.schema, c.sasProgram, c.bump, pending⟩

theorem length_image (c : OldHookConfig) : c.image.length = HookConfig.LEN - 32 := by
  simp [image, Pubkey.length_bytes, AnchorAccount.length_discriminator, HookConfig.LEN]

/-- The bytes end where `pending_authority` would start. -/
theorem tryDeserialize_image (c : OldHookConfig) :
    tryDeserialize HookConfig c.image = .error (.anchor .accountDidNotDeserialize) := by
  have h8 : (AnchorAccount.discriminator HookConfig).length = 8 :=
    AnchorAccount.length_discriminator
  have hnone : AnchorAccount.deserialize (c.image.drop 8) = (none : Option HookConfig) := by
    have hend : ByteCodec.readPubkey [] = none := rfl
    rw [image, List.drop_left' h8]
    simp [AnchorAccount.deserialize, hend]
  unfold tryDeserialize
  rw [require_pos (by simp [length_image, HookConfig.LEN]), ok_bind,
    require_pos (by rw [image, List.take_left' h8]), ok_bind, hnone]
  rfl

end OldHookConfig

variable {d : Deployment} {l l' : Ledger} {m kc k : Pubkey} {old : OldHookConfig} {c : Call}

/-- `transfer_authority` for `m`, which still reads as a mint: the accounts in order, signed
and paid by the stored authority, who has the rent of a whole config. -/
structure UpgradeRequest (d : Deployment) (l : Ledger) (m kc k : Pubkey) (old : OldHookConfig)
    (c : Call) : Prop where
  instruction : c.instruction = .transferAuthority
  accounts : ∃ rest, c.accounts = old.authority :: k :: kc :: m :: systemProgram :: rest
  funded : Funded c.privileges l old.authority (d.minimumBalance HookConfig.LEN)
  configWritable : kc ∈ c.privileges.writable
  mint : ∃ mint, d.interfaceMint l m = .ok mint

/-- A config of the older layout does not deserialise, whatever the account holds. -/
lemma UpgradeRequest.process_old (h : UpgradeRequest d l m kc k old c)
    (howner : (l.account kc).owner = d.programId) (hdata : (l.account kc).data = old.image) :
    c.process d l = .error (.anchor .accountDidNotDeserialize) := by
  have hexists : ¬ ((l.account kc).owner = systemProgram ∧ (l.account kc).lamports = 0) :=
    fun hsys => d.programId_ne (howner.symm.trans hsys.1)
  have hload : loadAccount HookConfig d.toHost l kc =
      .error (.anchor .accountDidNotDeserialize) := by
    unfold loadAccount
    rw [require_pos hexists, ok_bind, require_pos howner, ok_bind, hdata, old.tryDeserialize_image]
  obtain ⟨rest, hkeys⟩ := h.accounts
  have htry : TransferAuthority.tryAccounts d c.privileges l
      ⟨old.authority, k, kc, m, systemProgram⟩ =
        .error (.anchor .accountDidNotDeserialize) := by
    unfold TransferAuthority.tryAccounts
    rw [signer, require_pos h.funded.signer, ok_bind, hload, error_bind]
  obtain ⟨i, keys, p⟩ := c
  obtain rfl : i = .transferAuthority := h.instruction
  obtain rfl : keys = old.authority :: k :: kc :: m :: systemProgram :: rest := hkeys
  simp only [Call.process, Call.run, transferAuthority, TransferAuthority.ofKeys, ok_bind, htry,
    error_bind]

/-- On a config of the right size every constraint holds, and nothing is resized. -/
lemma UpgradeRequest.tryAccounts_new {pending : Pubkey} (h : UpgradeRequest d l m kc k old c)
    (hfind : d.find (.config m) = some (kc, old.bump))
    (howner : (l.account kc).owner = d.programId)
    (hdata : (l.account kc).data = image (old.withPending pending)) :
    TransferAuthority.tryAccounts d c.privileges l
      ⟨old.authority, k, kc, m, systemProgram⟩ = .ok (l, old.withPending pending) := by
  have hlength : (l.account kc).data.length = HookConfig.LEN := by
    rw [hdata, HookConfig.length_image]
  have hload : loadAccount HookConfig d.toHost l kc = .ok (old.withPending pending) :=
    loadAccount_eq_ok.mpr ⟨howner, by rw [hdata, tryDeserialize_image]⟩
  have hrealloc : reallocConstraint d.toHost c.privileges l old.authority kc HookConfig.LEN =
      .ok l := by simp [reallocConstraint, hlength]
  have hauthority : old.authority = (old.withPending pending).authority := rfl
  have hbump : d.createProgramAddress ((HookSeeds.config m).toList ++
      [[(old.withPending pending).bump]]) d.programId = some kc :=
    Deployment.create_of_find hfind
  obtain ⟨mint, hmint⟩ := h.mint
  unfold TransferAuthority.tryAccounts
  rw [signer, require_pos h.funded.signer, ok_bind, hload, ok_bind, hmint, ok_bind,
    systemProgramAccount, require_pos rfl, ok_bind, mutable, require_pos h.funded.writable,
    ok_bind, require_pos hauthority, ok_bind, hrealloc, ok_bind, seedsWithBump,
    require_pos hbump, ok_bind, mutable, require_pos h.configWritable, ok_bind]
  rfl

/-- In a config of the newer layout `pending_authority` is overwritten. -/
lemma UpgradeRequest.process_new {pending : Pubkey} (h : UpgradeRequest d l m kc k old c)
    (hfind : d.find (.config m) = some (kc, old.bump))
    (howner : (l.account kc).owner = d.programId)
    (hdata : (l.account kc).data = image (old.withPending pending)) :
    c.process d l =
      .ok (l.set kc { l.account kc with data := image (old.withPending k) }) := by
  have htry := h.tryAccounts_new hfind howner hdata
  have hlength : (l.account kc).data.length = HookConfig.LEN := by
    rw [hdata, HookConfig.length_image]
  have hexit : exitAccount l kc (old.withPending k) =
      .ok (l.set kc { l.account kc with data := image (old.withPending k) }) :=
    exitAccount_of_size hlength
  obtain ⟨rest, hkeys⟩ := h.accounts
  obtain ⟨i, keys, p⟩ := c
  obtain rfl : i = .transferAuthority := h.instruction
  obtain rfl : keys = old.authority :: k :: kc :: m :: systemProgram :: rest := hkeys
  simp only [Call.process, Call.run, transferAuthority, TransferAuthority.ofKeys, ok_bind, htry]
  rw [show TransferAuthority.handler ⟨old.authority, k, kc, m, systemProgram⟩
    (old.withPending pending) = old.withPending k from rfl, hexit, ok_bind]
  refine commit_eq_ok.mpr ⟨fun k' _ => ?_, rfl⟩
  by_cases hk : k' = kc
  · exact .inr (hk ▸ h.configWritable)
  · exact .inl (Ledger.account_set_of_ne _ _ hk)

/-- For a config in either layout, `transfer_authority` leaves a whole config with the old
fields and the new pending authority, and nothing else changed where the size was right,
exactly when the account already has that size. -/
theorem transfer_authority_upgrades_iff (hfind : d.find (.config m) = some (kc, old.bump))
    (howner : (l.account kc).owner = d.programId)
    (hdata : (l.account kc).data = old.image ∨
      ∃ pending, (l.account kc).data = image (old.withPending pending))
    (hreq : UpgradeRequest d l m kc k old c) :
    (∃ l', c.process d l = .ok l' ∧ (l'.account kc).owner = d.programId ∧
        (l'.account kc).data = image (old.withPending k) ∧
        ((l.account kc).data.length = HookConfig.LEN →
          l' = l.set kc { l.account kc with data := image (old.withPending k) })) ↔
      (l.account kc).data.length = HookConfig.LEN := by
  rcases hdata with hdata | ⟨pending, hdata⟩
  · have hlength : (l.account kc).data.length ≠ HookConfig.LEN := by
      rw [hdata, OldHookConfig.length_image]
      decide
    refine iff_of_false ?_ hlength
    rintro ⟨l', hok, -⟩
    cases (hreq.process_old howner hdata).symm.trans hok
  · refine iff_of_true ?_ (by rw [hdata, HookConfig.length_image])
    exact ⟨_, hreq.process_new hfind howner hdata, by simpa using howner, by simp, fun _ => rfl⟩

namespace LocalChain

/-- The first config, without its last field. -/
def oldConfig : OldHookConfig :=
  ⟨authority, rule.credential, rule.schema, rule.sasProgram, 255⟩

/-- A chain on which the mint was configured before the field was added. -/
def outdated : Ledger := genesis.set configKey ⟨1844400, programId, oldConfig.image⟩

lemma upgradeRequest {l : Ledger}
    (hmint : (chain.interfaceMint l mint).isOk = true)
    (hauthority : (l.account authority).Unallocated)
    (hlamports : 2067120 ≤ (l.account authority).lamports) :
    UpgradeRequest chain l mint configKey successor oldConfig transferAuthorityCall where
  instruction := rfl
  accounts := ⟨[], rfl⟩
  funded := ⟨List.mem_singleton.mpr rfl, .head _, hauthority, hlamports⟩
  configWritable := .tail _ (.head _)
  mint := exists_eq_ok hmint

end LocalChain

/-- The config that the local chain starts with is of the newer layout. -/
theorem transfer_authority_upgrades_iff_configured :
    (∃ l', LocalChain.transferAuthorityCall.process LocalChain.chain LocalChain.configured =
          .ok l' ∧ (l'.account LocalChain.configKey).owner = LocalChain.chain.programId ∧
        (l'.account LocalChain.configKey).data =
          image (LocalChain.oldConfig.withPending LocalChain.successor) ∧
        ((LocalChain.configured.account LocalChain.configKey).data.length = HookConfig.LEN →
          l' = LocalChain.configured.set LocalChain.configKey
            { LocalChain.configured.account LocalChain.configKey with
              data := image (LocalChain.oldConfig.withPending LocalChain.successor) })) ↔
      (LocalChain.configured.account LocalChain.configKey).data.length = HookConfig.LEN :=
  transfer_authority_upgrades_iff LocalChain.find_config (by decide +kernel)
    (.inr ⟨Pubkey.default, by decide +kernel⟩)
    (LocalChain.upgradeRequest (by decide +kernel) (by decide +kernel) (by decide +kernel))

/-- The stored authority's request for a config of the older layout fails. -/
theorem upgrade_fails :
    LocalChain.chain.find (.config LocalChain.mint) = some (LocalChain.configKey, 255) ∧
      LocalChain.outdated.account LocalChain.configKey =
        ⟨1844400, LocalChain.chain.programId, LocalChain.oldConfig.image⟩ ∧
      LocalChain.oldConfig.image.length = HookConfig.LEN - 32 ∧
      UpgradeRequest LocalChain.chain LocalChain.outdated LocalChain.mint LocalChain.configKey
        LocalChain.successor LocalChain.oldConfig LocalChain.transferAuthorityCall ∧
      LocalChain.transferAuthorityCall.process LocalChain.chain LocalChain.outdated =
        .error (.anchor .accountDidNotDeserialize) := by
  have hread : (LocalChain.chain.interfaceMint LocalChain.outdated LocalChain.mint).isOk = true ∧
      (LocalChain.outdated.account LocalChain.authority).Unallocated ∧
      2067120 ≤ (LocalChain.outdated.account LocalChain.authority).lamports := by
    decide +kernel
  obtain ⟨hmint, hauthority, hlamports⟩ := hread
  have hreq := LocalChain.upgradeRequest hmint hauthority hlamports
  have hstored : LocalChain.outdated.account LocalChain.configKey =
      ⟨1844400, LocalChain.programId, LocalChain.oldConfig.image⟩ := by
    simp [LocalChain.outdated]
  exact ⟨LocalChain.find_config, hstored, OldHookConfig.length_image _, hreq,
    hreq.process_old (by rw [hstored]; rfl) (by rw [hstored])⟩

end AlienIdTransferHook
