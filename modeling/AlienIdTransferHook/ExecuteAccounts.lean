import AlienIdTransferHook.Enforcement

/-!
# The published accounts meet the hook's checks

Token-2022 resolves the stored metas one after the other and passes the result to
the hook. In every reachable state each resolved key is the one the hook derives or
compares for that field, so what is left to decide a transfer are the flag, the
authority, and the whitelist entry or the attestation.
-/
namespace AlienIdTransferHook
open Solana History

variable {d : Deployment} {K : KeysInPlay d} {l : Ledger} {m w source destination kl : Pubkey}
  {b : UInt8} {config : HookConfig} {keys : List Pubkey}

/-- A stored seed configuration resolves to the address derived from its seeds. -/
lemma resolvePda_packed {R : AccountResolution} {H : Host} {accounts : List Pubkey}
    {program packed k : Pubkey} {seeds : List Seed} {bytes : List (List UInt8)}
    (hpacked : R.packSeeds seeds = .ok packed)
    (hbytes : seeds.mapM (AccountResolution.resolveSeed accounts) = .ok bytes) :
    R.resolvePda H accounts program packed = .ok k ↔
      ∃ b, H.findProgramAddress bytes program = some (k, b) := by
  unfold AccountResolution.resolvePda
  rw [R.unpackSeeds_packSeeds _ _ hpacked, ok_bind, hbytes, ok_bind, expect_bind_eq_ok]
  constructor
  · rintro ⟨⟨k', b⟩, hfind, hk⟩
    obtain rfl := pure_eq_ok.mp hk
    exact ⟨b, hfind⟩
  · rintro ⟨b, hfind⟩
    exact ⟨_, hfind, rfl⟩

/-- The fields of the hook's accounts are the ones meant: the transfer's own accounts and
what the rule of the config and the seeds determine. -/
structure FieldsMatch (d : Deployment) (rule : Rule) (source m destination w kl : Pubkey)
    (a : TransferHook) : Prop where
  sourceToken : a.sourceToken = source
  mint : a.mint = m
  destinationToken : a.destinationToken = destination
  transferAuthority : a.transferAuthority = w
  extraAccountMetaList : a.extraAccountMetaList = kl
  config : ∃ b, d.find (.config m) = some (a.config, b)
  credential : a.credential = rule.credential
  schema : a.schema = rule.schema
  sasProgram : a.sasProgram = rule.sasProgram
  attestation : ∃ b, d.findProgramAddress
    (TransferHook.attestationSeeds rule.credential rule.schema w) rule.sasProgram =
      some (a.attestation, b)
  whitelistEntry : ∃ b, d.find (.whitelist m w) = some (a.whitelistEntry, b)

/-- Resolving the list of a config yields the hook's accounts, in order. -/
theorem fieldsMatch_of_resolveList {data : List UInt8} (hdata : d.ListImage config data)
    (h : d.resolution.resolveList d.toHost data [source, m, destination, w, kl] = .ok keys) :
    ∃ a, TransferHook.ofKeys keys = .ok a ∧
      FieldsMatch d config.rule source m destination w kl a := by
  obtain ⟨metas, hmetas, rfl⟩ := hdata
  obtain ⟨c₅, c₉, c₁₀, h₅, h₉, h₁₀, hmetas'⟩ :=
    InitializeExtraAccountMetaList.accountMetas_eq d.resolution config
  obtain rfl := Except.ok.inj (hmetas.symm.trans hmetas')
  unfold AccountResolution.resolveList at h
  rw [d.resolution.unpackMetas_executeEntry _ (by simp), ok_bind] at h
  -- every meta is resolved against the keys before it: 6, 7 and 8 are the rule's own
  obtain ⟨k₅, hconfig, h⟩ := d.resolution.foldlM_push_cons.mp h
  obtain ⟨k₆, hcredential, h⟩ := d.resolution.foldlM_push_cons.mp h
  obtain ⟨k₇, hschema, h⟩ := d.resolution.foldlM_push_cons.mp h
  obtain ⟨k₈, hsas, h⟩ := d.resolution.foldlM_push_cons.mp h
  obtain ⟨k₉, hattestation, h⟩ := d.resolution.foldlM_push_cons.mp h
  obtain ⟨k₁₀, hentry, h⟩ := d.resolution.foldlM_push_cons.mp h
  obtain rfl := pure_eq_ok.mp h
  obtain rfl : config.credential = k₆ := Except.ok.inj hcredential
  obtain rfl : config.schema = k₇ := Except.ok.inj hschema
  obtain rfl : config.sasProgram = k₈ := Except.ok.inj hsas
  rw [AccountResolution.resolve_ownPda] at hconfig hentry
  rw [show (136 : UInt8) = 128 + 8 from rfl, AccountResolution.resolve_externalPda _ _
    (by decide) (show _ = some config.sasProgram from rfl)] at hattestation
  exact ⟨⟨source, m, destination, w, kl, k₅, config.credential, config.schema,
    config.sasProgram, k₉, k₁₀⟩, rfl, rfl, rfl, rfl, rfl, rfl,
    (resolvePda_packed h₅ rfl).mp hconfig, rfl, rfl, rfl,
    (resolvePda_packed h₉ rfl).mp hattestation, (resolvePda_packed h₁₀ rfl).mp hentry⟩

/-! ## The hook on resolved accounts -/

/-- What is left of the hook on the published accounts: no address is compared. -/
def resolvedHook (d : Deployment) (l : Ledger) (rule : Rule)
    (source m destination w attestation : Pubkey) : Outcome Unit := do
  let src ← d.interfaceTokenAccount l source
  let _ ← d.interfaceMint l m
  let dst ← d.interfaceTokenAccount l destination
  require (src.mint = m) (.anchor .constraintTokenMint)
  require (dst.mint = m) (.anchor .constraintTokenMint)
  let transferring ← d.token.transferring (l.account source).data
  require (transferring = true) TransferHookError.IsNotCurrentlyTransferring.toError
  TransferHook.checkAuthority src w
  if d.holds l (.whitelist m w) then .ok () else do
    require ((l.account attestation).owner = rule.sasProgram)
      TransferHookError.InvalidAttestation.toError
    let expiry ← TransferHook.readExpiry (l.account attestation).data
    TransferHook.checkExpiry l expiry

theorem whitelisted_of_fieldsMatch {rule : Rule} {a : TransferHook}
    (h : FieldsMatch d rule source m destination w kl a) :
    a.whitelisted d l = .ok (d.holds l (.whitelist m w)) := by
  obtain ⟨b, hfind⟩ := h.whitelistEntry
  obtain rfl := h.mint
  obtain rfl := h.transferAuthority
  cases hholds : d.holds l (.whitelist a.mint a.transferAuthority) with
  | false =>
      refine TransferHook.whitelisted_eq_false.mpr fun howner => ?_
      rw [(Deployment.holds_iff hfind).mpr howner] at hholds
      cases hholds
  | true =>
      exact TransferHook.whitelisted_eq_true.mpr
        ⟨(Deployment.holds_iff hfind).mp hholds, b, hfind⟩

/-- On the published accounts every comparison of addresses passes. -/
theorem transferHook_resolved {a : TransferHook} (hkeys : TransferHook.ofKeys keys = .ok a)
    (h : FieldsMatch d config.rule source m destination w kl a)
    (hc : ConfigAt K l m a.config config)
    (hlist : d.find (.extraAccountMetas m) = some (kl, b)) (amount : ℕ) :
    transferHook d l keys amount =
      resolvedHook d l config.rule source m destination w a.attestation := by
  have hwhitelisted := whitelisted_of_fieldsMatch (l := l) h
  obtain ⟨ba, hattestation⟩ := h.attestation
  obtain ⟨rfl, rfl, rfl, rfl, rfl, -, hcredential, hschema, hsas, -, -⟩ := h
  simp only [HookConfig.rule] at hcredential hschema hsas hattestation
  have hcreate := Deployment.create_of_find hc.find
  have haccounts : a.checkAttestationAccounts d l config =
      require ((l.account a.attestation).owner = config.sasProgram)
        TransferHookError.InvalidAttestation.toError := by
    unfold TransferHook.checkAttestationAccounts
    rw [require_pos hcredential, ok_bind, require_pos hschema, ok_bind, require_pos hsas,
      ok_bind, hattestation]
    change (require (a.attestation = a.attestation) _ >>= _) = _
    rw [require_pos rfl, ok_bind]
  unfold transferHook resolvedHook TransferHook.tryAccounts TransferHook.handler
    TransferHook.assertIsTransferring TransferHook.verifyAttestation
  simp only [hkeys, ok_bind, bind_assoc, hc.load, seedsCanonical_of_find hlist, seedsWithBump,
    require_pos hcreate, pure_bind, hwhitelisted, haccounts, HookConfig.rule]
  rfl

/-- Errors that would mean that the published accounts and the hook disagree. -/
def mismatches : List ProgramError :=
  [.anchor .constraintSeeds, TransferHookError.CredentialMismatch.toError,
    TransferHookError.SchemaMismatch.toError, TransferHookError.SasProgramMismatch.toError,
    TransferHookError.InvalidWhitelistEntry.toError]

lemma interfaceAccount_error {α : Type} {unpack : List UInt8 → Outcome α} {k : Pubkey}
    (hunpack : ∀ data, FailsWith UnpackError (unpack data)) :
    FailsWith (fun e => e ∉ mismatches ∧ e ≠ TransferHookError.InvalidAttestation.toError)
      (d.interfaceAccount unpack l k) := by
  refine .bind (.of_require ⟨by decide, by decide⟩) fun _ =>
    .bind (.of_require ⟨by decide, by decide⟩) fun _ e he => ?_
  rcases hunpack _ e he with rfl | rfl <;> exact ⟨by decide, by decide⟩

/-- A failure on the published accounts is none of the mismatches, and an invalid
attestation is one that is not the service's or is not laid out as one. -/
theorem resolvedHook_error {rule : Rule} {attestation : Pubkey} {e : ProgramError}
    (h : resolvedHook d l rule source m destination w attestation = .error e) :
    e ∉ mismatches ∧ (e = TransferHookError.InvalidAttestation.toError →
      (l.account attestation).owner ≠ rule.sasProgram ∨
        ¬ ∃ n x, IsAttestation (l.account attestation).data n x) := by
  have hother : ∀ e', e = e' → e' ∉ mismatches ∧
      e' ≠ TransferHookError.InvalidAttestation.toError → e ∉ mismatches ∧
        (e = TransferHookError.InvalidAttestation.toError →
          (l.account attestation).owner ≠ rule.sasProgram ∨
            ¬ ∃ n x, IsAttestation (l.account attestation).data n x) := by
    rintro _ rfl ⟨hnot, hne⟩
    exact ⟨hnot, fun heq => absurd heq hne⟩
  unfold resolvedHook at h
  rcases bind_eq_error.mp h with h | ⟨src, -, h⟩
  · exact hother e rfl (interfaceAccount_error d.token.unpackAccount_error e h)
  rcases bind_eq_error.mp h with h | ⟨-, -, h⟩
  · exact hother e rfl (interfaceAccount_error d.token.unpackMint_error e h)
  rcases bind_eq_error.mp h with h | ⟨dst, -, h⟩
  · exact hother e rfl (interfaceAccount_error d.token.unpackAccount_error e h)
  rcases bind_eq_error.mp h with h | ⟨⟨⟩, -, h⟩
  · exact hother _ (require_eq_error.mp h).2.symm (by decide)
  rcases bind_eq_error.mp h with h | ⟨⟨⟩, -, h⟩
  · exact hother _ (require_eq_error.mp h).2.symm (by decide)
  rcases bind_eq_error.mp h with h | ⟨t, -, h⟩
  · obtain ⟨code, rfl⟩ := d.token.transferring_error _ _ h
    exact hother _ rfl ⟨by simp [mismatches, TransferHookError.toError],
      by simp [TransferHookError.toError]⟩
  rcases bind_eq_error.mp h with h | ⟨⟨⟩, -, h⟩
  · exact hother _ (require_eq_error.mp h).2.symm (by decide)
  rcases bind_eq_error.mp h with h | ⟨⟨⟩, -, h⟩
  · exact hother _ (require_eq_error.mp h).2.symm (by decide)
  split_ifs at h
  rcases bind_eq_error.mp h with h | ⟨⟨⟩, -, h⟩
  · obtain ⟨howner, rfl⟩ := require_eq_error.mp h
    exact ⟨by decide, fun _ => .inl howner⟩
  rcases bind_eq_error.mp h with h | ⟨x, -, h⟩
  · have hread := h
    obtain rfl := TransferHook.readExpiry_error h
    refine ⟨by decide, fun _ => .inr ?_⟩
    rintro ⟨n, x, hdata⟩
    rw [(TransferHook.readExpiry_of_isAttestation hdata).2] at hread
    cases hread
  · unfold TransferHook.checkExpiry at h
    split_ifs at h
    exact hother _ (require_eq_error.mp h).2.symm (by decide)

/-- On valid token accounts of the mint three conditions decide. -/
theorem resolvedHook_eq_ok {rule : Rule} {attestation : Pubkey} {src dst : TokenAccount}
    {mint : Mint} (hsource : d.interfaceTokenAccount l source = .ok src) (hsm : src.mint = m)
    (hdestination : d.interfaceTokenAccount l destination = .ok dst) (hdm : dst.mint = m)
    (hmint : d.interfaceMint l m = .ok mint)
    (hattestation : ∃ b, d.findProgramAddress
      (TransferHook.attestationSeeds rule.credential rule.schema w) rule.sasProgram =
        some (attestation, b)) :
    resolvedHook d l rule source m destination w attestation = .ok () ↔
      d.token.transferring (l.account source).data = .ok true ∧
      (src.owner = w ∨ src.delegate = some w ∧ 0 < src.delegatedAmount) ∧
      (d.holds l (.whitelist m w) = true ∨ Attested d l rule w) := by
  unfold resolvedHook
  rw [hsource, ok_bind, hmint, ok_bind, hdestination, ok_bind, require_pos hsm, ok_bind,
    require_pos hdm, ok_bind]
  obtain ⟨b, hattestation⟩ := hattestation
  constructor
  · intro h
    obtain ⟨t, hflag, h⟩ := bind_eq_ok.mp h
    rw [require_bind_eq_ok] at h
    obtain ⟨rfl, h⟩ := h
    obtain ⟨⟨⟩, hauthority, h⟩ := bind_eq_ok.mp h
    refine ⟨hflag, TransferHook.checkAuthority_eq_ok.mp hauthority, ?_⟩
    split_ifs at h with hholds
    · exact .inl hholds
    · rw [require_bind_eq_ok] at h
      obtain ⟨howner, h⟩ := h
      obtain ⟨x, hread, h⟩ := bind_eq_ok.mp h
      exact .inr ⟨attestation, b, _, x, hattestation, howner,
        TransferHook.isAttestation_of_readExpiry hread, TransferHook.checkExpiry_eq_ok.mp h⟩
  · rintro ⟨hflag, hauthority, hcleared⟩
    have hok : TransferHook.checkAuthority src w = .ok () :=
      TransferHook.checkAuthority_eq_ok.mpr hauthority
    rw [hflag, ok_bind, require_pos rfl, ok_bind, hok, ok_bind]
    split_ifs with hholds
    · rfl
    obtain ⟨k, b', n, x, hfind, howner, hdata, hlive⟩ := hcleared.resolve_left hholds
    obtain ⟨rfl, -⟩ : k = attestation ∧ b' = b := by simpa [hattestation] using hfind.symm
    rw [require_pos howner, ok_bind, (TransferHook.readExpiry_of_isAttestation hdata).2, ok_bind]
    exact TransferHook.checkExpiry_eq_ok.mpr hlive

/-- In a reachable state the hook on the published accounts is the hook without
comparisons. -/
theorem published_hook {h : List (Ledger × Event)} (hr : Reaches (hookSystem K) h l)
    (hm : m ∈ K.keys) (hconfig : d.hookConfig l m = some config)
    (hlist : d.find (.extraAccountMetas m) = some (kl, b))
    (howner : (l.account kl).owner = d.programId)
    (hresolve : d.resolution.resolveList d.toHost (l.account kl).data
      [source, m, destination, w, kl] = .ok keys) :
    ∃ a, TransferHook.ofKeys keys = .ok a ∧
      FieldsMatch d config.rule source m destination w kl a ∧
      ∀ amount, transferHook d l keys amount =
        resolvedHook d l config.rule source m destination w a.attestation := by
  have hinv : Inv K l := inv_of_reaches hr
  obtain ⟨-, config', hconfig', himage⟩ :=
    (hinv.canonical (by simpa using hm) hlist).resolve_left fun hu =>
      d.programId_ne (howner.symm.trans hu.1)
  obtain rfl := Option.some.inj (hconfig.symm.trans hconfig')
  obtain ⟨a, hkeys, hfields⟩ := fieldsMatch_of_resolveList himage hresolve
  obtain ⟨bc, hkc⟩ := hfields.config
  have hc := hinv.configAt_of_find hm hconfig hkc
  exact ⟨a, hkeys, hfields, transferHook_resolved hkeys hfields hc hlist⟩

/-- In every reachable state with a config and an account list, the accounts that
Token-2022 resolves from the list are the ones the hook checks for: each is in its
field, no comparison fails, and the hook lets a transfer through exactly when it is in
progress, by a wallet that may move the tokens and that is whitelisted or attested. -/
theorem published_accounts_agree {h : List (Ledger × Event)}
    (hr : Reaches (hookSystem K) h l) (hm : m ∈ K.keys)
    (hconfig : d.hookConfig l m = some config)
    (hlist : d.find (.extraAccountMetas m) = some (kl, b))
    (howner : (l.account kl).owner = d.programId)
    (hresolve : d.resolution.resolveList d.toHost (l.account kl).data
      [source, m, destination, w, kl] = .ok keys) :
    (∃ a, TransferHook.ofKeys keys = .ok a ∧
      FieldsMatch d config.rule source m destination w kl a ∧
      ∀ amount e, transferHook d l keys amount = .error e → e ∉ mismatches ∧
        (e = TransferHookError.InvalidAttestation.toError →
          (l.account a.attestation).owner ≠ config.sasProgram ∨
            ¬ ∃ n x, IsAttestation (l.account a.attestation).data n x)) ∧
    ∀ src dst mint amount, d.interfaceTokenAccount l source = .ok src → src.mint = m →
      d.interfaceTokenAccount l destination = .ok dst → dst.mint = m →
      d.interfaceMint l m = .ok mint →
      (transferHook d l keys amount = .ok () ↔
        d.token.transferring (l.account source).data = .ok true ∧
        (src.owner = w ∨ src.delegate = some w ∧ 0 < src.delegatedAmount) ∧
        (d.holds l (.whitelist m w) = true ∨ Attested d l config.rule w)) := by
  obtain ⟨a, hkeys, hfields, hhook⟩ := published_hook hr hm hconfig hlist howner hresolve
  refine ⟨⟨a, hkeys, hfields, fun amount e he => ?_⟩, ?_⟩
  · rw [hhook] at he
    exact resolvedHook_error he
  · intro src dst mint amount hsource hsm hdestination hdm hmint
    rw [hhook]
    exact resolvedHook_eq_ok hsource hsm hdestination hdm hmint hfields.attestation

/-- The accounts resolved from the list of the local chain. -/
theorem published_accounts_agree_listed :
    (∃ a, TransferHook.ofKeys LocalChain.executeKeys = .ok a ∧
      FieldsMatch LocalChain.chain LocalChain.firstConfig.rule LocalChain.source LocalChain.mint
        LocalChain.destination LocalChain.wallet LocalChain.listKey a ∧
      ∀ amount e, transferHook LocalChain.chain LocalChain.listed LocalChain.executeKeys amount =
          .error e → e ∉ mismatches ∧
        (e = TransferHookError.InvalidAttestation.toError →
          (LocalChain.listed.account a.attestation).owner ≠ LocalChain.firstConfig.sasProgram ∨
            ¬ ∃ n x, IsAttestation (LocalChain.listed.account a.attestation).data n x)) ∧
    ∀ src dst mint amount,
      LocalChain.chain.interfaceTokenAccount LocalChain.listed LocalChain.source = .ok src →
      src.mint = LocalChain.mint →
      LocalChain.chain.interfaceTokenAccount LocalChain.listed LocalChain.destination = .ok dst →
      dst.mint = LocalChain.mint →
      LocalChain.chain.interfaceMint LocalChain.listed LocalChain.mint = .ok mint →
      (transferHook LocalChain.chain LocalChain.listed LocalChain.executeKeys amount = .ok () ↔
        LocalChain.chain.token.transferring (LocalChain.listed.account LocalChain.source).data =
          .ok true ∧
        (src.owner = LocalChain.wallet ∨
          src.delegate = some LocalChain.wallet ∧ 0 < src.delegatedAmount) ∧
        (LocalChain.chain.holds LocalChain.listed (.whitelist LocalChain.mint LocalChain.wallet) =
            true ∨
          Attested LocalChain.chain LocalChain.listed LocalChain.firstConfig.rule
            LocalChain.wallet)) :=
  published_accounts_agree LocalChain.reaches_listed LocalChain.mint_mem LocalChain.listed_eval.1
    LocalChain.find_list LocalChain.listed_eval.2.1 LocalChain.listed_eval.2.2.1

end AlienIdTransferHook
