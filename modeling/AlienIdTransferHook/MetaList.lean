import AlienIdTransferHook.Runs

/-!
# The published account list

The list account of a mint is empty or holds the six metas of the mint's config.
What `initialize_extra_account_meta_list` does for the config authority depends
on two things the handler does not look at: the balance of the address while it
is empty, and the entry that is already there once it is not.
-/
namespace AlienIdTransferHook
open Solana History

variable {d : Deployment} {K : KeysInPlay d} {l l' : Ledger} {m kc kl : Pubkey} {b : UInt8}
  {config : HookConfig} {c : Call}

/-- Config and account list never drift apart: the list is uninitialised, or it is the
single `Execute` entry of the six metas that either handler builds from the config. -/
theorem list_tracks_config {h : List (Ledger × Event)} (hr : Reaches (hookSystem K) h l)
    (hm : m ∈ K.keys) (hlist : d.find (.extraAccountMetas m) = some (kl, b)) :
    (l.account kl).Unallocated ∨
      (l.account kl).owner = d.programId ∧ ∃ config metas,
        d.hookConfig l m = some config ∧ metas.length = 6 ∧
        InitializeExtraAccountMetaList.accountMetas d.resolution config = .ok metas ∧
        UpdateConfig.accountMetas d.resolution config.credential config.schema
          config.sasProgram = .ok metas ∧
        (l.account kl).data = d.resolution.executeEntry metas ∧
        d.resolution.sizeOf 6 = .ok (l.account kl).data.length := by
  refine ((inv_of_reaches hr).canonical (by simpa using hm) hlist).imp_right ?_
  rintro ⟨howner, config, hconfig, metas, hmetas, hdata⟩
  have hlen := InitializeExtraAccountMetaList.length_accountMetas hmetas
  have hsize := d.resolution.sizeOf_executeEntry metas (by omega)
  rw [hlen, ← hdata] at hsize
  exact ⟨howner, config, metas, hconfig, hlen, hmetas,
    (UpdateConfig.accountMetas_eq _ config).trans hmetas, hdata, hsize⟩

/-- The list of the local chain, right after its initialisation. -/
theorem list_tracks_config_published :
    (LocalChain.published.account LocalChain.listKey).Unallocated ∨
      (LocalChain.published.account LocalChain.listKey).owner = LocalChain.chain.programId ∧
      ∃ config metas,
        LocalChain.chain.hookConfig LocalChain.published LocalChain.mint = some config ∧
        metas.length = 6 ∧
        InitializeExtraAccountMetaList.accountMetas LocalChain.chain.resolution config =
          .ok metas ∧
        UpdateConfig.accountMetas LocalChain.chain.resolution config.credential config.schema
          config.sasProgram = .ok metas ∧
        (LocalChain.published.account LocalChain.listKey).data =
          LocalChain.chain.resolution.executeEntry metas ∧
        LocalChain.chain.resolution.sizeOf 6 =
          .ok (LocalChain.published.account LocalChain.listKey).data.length :=
  list_tracks_config LocalChain.reaches_published LocalChain.mint_mem LocalChain.find_list

/-! ## Initialisation by the authority -/

/-- `initialize_extra_account_meta_list` as the admin client sends it, for an `m` that still
reads as a mint: the derived accounts in order, signed and paid by the config authority, who
has the rent. -/
structure ListRequest (d : Deployment) (l : Ledger) (m kc kl : Pubkey) (config : HookConfig)
    (c : Call) : Prop where
  instruction : c.instruction = .initializeExtraAccountMetaList
  accounts : ∃ rest, c.accounts = config.authority :: kl :: m :: kc :: systemProgram :: rest
  listWritable : kl ∈ c.privileges.writable
  mint : ∃ mint, d.interfaceMint l m = .ok mint
  size : ∃ size, d.resolution.sizeOf 6 = .ok size ∧
    Funded c.privileges l config.authority (d.minimumBalance size)

/-- With the right accounts the instruction is its handler. -/
lemma ListRequest.process_eq (h : ListRequest d l m kc kl config c)
    (hc : ConfigAt K l m kc config) (hlist : d.find (.extraAccountMetas m) = some (kl, b)) :
    c.process d l = (InitializeExtraAccountMetaList.handler d c.privileges l
      ⟨config.authority, kl, m, kc, systemProgram⟩ config b >>=
        commit c.privileges c.accounts l) := by
  obtain ⟨rest, hkeys⟩ := h.accounts
  obtain ⟨mint, hmint⟩ := h.mint
  obtain ⟨size, -, hf⟩ := h.size
  have htry : InitializeExtraAccountMetaList.tryAccounts d c.privileges l
      ⟨config.authority, kl, m, kc, systemProgram⟩ = .ok (config, b) := by
    unfold InitializeExtraAccountMetaList.tryAccounts
    rw [signer, require_pos hf.signer, ok_bind, hmint, ok_bind, hc.load, ok_bind,
      systemProgramAccount, require_pos rfl, ok_bind, mutable, require_pos hf.writable, ok_bind,
      require_pos rfl, ok_bind, seedsCanonical_of_find hlist, ok_bind, mutable,
      require_pos h.listWritable, ok_bind, seedsWithBump,
      require_pos (Deployment.create_of_find hc.find), ok_bind]
    rfl
  obtain ⟨i, keys, p⟩ := c
  obtain rfl : i = .initializeExtraAccountMetaList := h.instruction
  obtain rfl : keys = config.authority :: kl :: m :: kc :: systemProgram :: rest := hkeys
  simp only [Call.process, Call.run, initializeExtraAccountMetaList,
    InitializeExtraAccountMetaList.ofKeys, ok_bind, htry]

/-- At an empty list address the handler creates the account exactly when the address
holds no lamports: `create_account` refuses a funded one. -/
lemma createIfEmpty_eq_ok {p : Privileges} {size : ℕ} (hne : config.authority ≠ kl)
    (hlist : d.find (.extraAccountMetas m) = some (kl, b)) (hu : (l.account kl).Unallocated)
    (hw : kl ∈ p.writable) (hf : Funded p l config.authority (d.minimumBalance size)) :
    InitializeExtraAccountMetaList.createIfEmpty d p l
        ⟨config.authority, kl, m, kc, systemProgram⟩ b size = .ok l' ↔
      (l.account kl).lamports = 0 ∧ l' = l.opened config.authority kl (d.minimumBalance size)
        ⟨d.minimumBalance size, d.programId, List.replicate size 0⟩ := by
  unfold InitializeExtraAccountMetaList.createIfEmpty
  rw [if_pos hu.2, createAccount_eq_ok hne]
  constructor
  · rintro ⟨hzero, -, -, -, -, rfl⟩
    exact ⟨hzero, rfl⟩
  · rintro ⟨hzero, rfl⟩
    exact ⟨hzero, hu, mem_invokeSigned (Deployment.create_of_find hlist), hw,
      hf.invokeSigned _, rfl⟩

/-- On the local chain the authority's call is such a request. -/
lemma listRequest_local {l : Ledger}
    (hmint : (LocalChain.chain.interfaceMint l LocalChain.mint).isOk = true)
    (hauthority : (l.account LocalChain.authority).Unallocated)
    (hlamports : 2463840 ≤ (l.account LocalChain.authority).lamports) :
    ListRequest LocalChain.chain l LocalChain.mint LocalChain.configKey LocalChain.listKey
      LocalChain.firstConfig LocalChain.initializeListCall where
  instruction := rfl
  accounts := ⟨[], rfl⟩
  listWritable := by simp [LocalChain.initializeListCall]
  mint := exists_eq_ok hmint
  size := ⟨226, rfl, List.mem_singleton.mpr rfl, by simp [LocalChain.initializeListCall,
    LocalChain.firstConfig], hauthority, hlamports⟩

/-- What the handler asks to be created has the size of the entry. -/
lemma handler_eq {p : Privileges} {a : InitializeExtraAccountMetaList}
    {metas : List ExtraAccountMeta}
    (hmetas : InitializeExtraAccountMetaList.accountMetas d.resolution config = .ok metas) :
    InitializeExtraAccountMetaList.handler d p l a config b =
      (a.createIfEmpty d p l b (d.resolution.executeEntry metas).length >>= fun l₁ =>
        d.resolution.init (l₁.account a.extraAccountMetaList).data metas >>= fun data =>
          writeData d.toHost l₁ a.extraAccountMetaList data) := by
  have hlen := InitializeExtraAccountMetaList.length_accountMetas hmetas
  unfold InitializeExtraAccountMetaList.handler
  rw [hmetas, ok_bind, d.resolution.sizeOf_executeEntry metas (by omega), ok_bind]

/-- Into the account it has just created the handler writes the entry. -/
lemma handler_created {p : Privileges} {a : InitializeExtraAccountMetaList}
    {metas : List ExtraAccountMeta} {n lamports : ℕ}
    (hmetas : InitializeExtraAccountMetaList.accountMetas d.resolution config = .ok metas)
    (hcreate : a.createIfEmpty d p l b (d.resolution.executeEntry metas).length =
      .ok (l.opened a.payer a.extraAccountMetaList n ⟨lamports, d.programId,
        List.replicate (d.resolution.executeEntry metas).length 0⟩)) :
    InitializeExtraAccountMetaList.handler d p l a config b =
      .ok (l.opened a.payer a.extraAccountMetaList n ⟨lamports, d.programId,
        d.resolution.executeEntry metas⟩) := by
  have hlen := InitializeExtraAccountMetaList.length_accountMetas hmetas
  have hinit := d.resolution.init_zeroed metas (by omega)
  rw [handler_eq hmetas, hcreate, ok_bind]
  simp only [Ledger.opened, Ledger.account_set_self, hinit, ok_bind]
  rw [writeData, require_pos (.inl (by simp)), ok_bind]
  simp [pure, Except.pure]

/-- The authority can initialise an uninitialised list exactly when nobody has sent
lamports to its address. -/
theorem initialise_succeeds_iff {h : List (Ledger × Event)} (hr : Reaches (hookSystem K) h l)
    (hm : m ∈ K.keys) (hconfig : d.hookConfig l m = some config) {bc : UInt8}
    (hkc : d.find (.config m) = some (kc, bc))
    (hlist : d.find (.extraAccountMetas m) = some (kl, b)) (hu : (l.account kl).Unallocated)
    (ha : c.Admissible K) (hreq : ListRequest d l m kc kl config c) :
    (∃ l', c.process d l = .ok l' ∧ (l'.account kl).owner = d.programId ∧
        d.ListImage config (l'.account kl).data) ↔ (l.account kl).lamports = 0 := by
  have hc := (inv_of_reaches hr).configAt_of_find hm hconfig hkc
  obtain ⟨size, hsize, hf⟩ := hreq.size
  obtain ⟨metas, hmetas, hlen⟩ :=
    InitializeExtraAccountMetaList.accountMetas_ok d.resolution config
  have hne : config.authority ≠ kl := (ha.unsigned (by simpa using hm)).ne hlist hf.signer
  obtain rfl : (d.resolution.executeEntry metas).length = size := by
    have hentry := d.resolution.sizeOf_executeEntry metas (by omega)
    rw [hlen, hsize] at hentry
    exact (Except.ok.inj hentry).symm
  have hcreate : ∀ l₁, InitializeExtraAccountMetaList.createIfEmpty d c.privileges l
        ⟨config.authority, kl, m, kc, systemProgram⟩ b
          (d.resolution.executeEntry metas).length = .ok l₁ ↔ _ :=
    fun _ => createIfEmpty_eq_ok hne hlist hu hreq.listWritable hf
  rw [hreq.process_eq hc hlist]
  constructor
  · rintro ⟨l', hok, -, -⟩
    obtain ⟨l₂, hhandler, -⟩ := bind_eq_ok.mp hok
    rw [handler_eq hmetas] at hhandler
    obtain ⟨l₁, hcreated, -⟩ := bind_eq_ok.mp hhandler
    exact ((hcreate l₁).mp hcreated).1
  · intro hzero
    rw [handler_created hmetas ((hcreate _).mpr ⟨hzero, rfl⟩), ok_bind]
    exact ⟨_, commit_opened hf.writable hreq.listWritable, by simp [Ledger.opened], metas,
      hmetas, by simp [Ledger.opened]⟩

/-- Nobody has sent lamports to the list's address yet. -/
theorem initialise_succeeds_iff_configured :
    (∃ l', LocalChain.initializeListCall.process LocalChain.chain LocalChain.configured = .ok l' ∧
        (l'.account LocalChain.listKey).owner = LocalChain.chain.programId ∧
        LocalChain.chain.ListImage LocalChain.firstConfig
          (l'.account LocalChain.listKey).data) ↔
      (LocalChain.configured.account LocalChain.listKey).lamports = 0 :=
  initialise_succeeds_iff LocalChain.reaches_configured LocalChain.mint_mem (by decide +kernel)
    LocalChain.find_config LocalChain.find_list (by decide +kernel)
    LocalChain.admissible_initializeList
    (listRequest_local (by decide +kernel) (by decide +kernel) (by decide +kernel))

/-- After a donation of one empty account's rent the authority's request fails. -/
theorem initialise_blocked :
    ∃ h, Reaches (hookSystem LocalChain.keysInPlay) h LocalChain.prefunded ∧
      LocalChain.chain.hookConfig LocalChain.prefunded LocalChain.mint =
        some LocalChain.firstConfig ∧
      LocalChain.chain.find (.extraAccountMetas LocalChain.mint) =
        some (LocalChain.listKey, 255) ∧
      (LocalChain.prefunded.account LocalChain.listKey).Unallocated ∧
      LocalChain.initializeListCall.Admissible LocalChain.keysInPlay ∧
      ListRequest LocalChain.chain LocalChain.prefunded LocalChain.mint LocalChain.configKey
        LocalChain.listKey LocalChain.firstConfig LocalChain.initializeListCall ∧
      LocalChain.initializeListCall.process LocalChain.chain LocalChain.prefunded =
        .error .accountAlreadyInUse := by
  have hread : LocalChain.chain.hookConfig LocalChain.prefunded LocalChain.mint =
        some LocalChain.firstConfig ∧
      (LocalChain.prefunded.account LocalChain.listKey).Unallocated ∧
      (LocalChain.chain.interfaceMint LocalChain.prefunded LocalChain.mint).isOk = true ∧
      (LocalChain.prefunded.account LocalChain.authority).Unallocated ∧
      2463840 ≤ (LocalChain.prefunded.account LocalChain.authority).lamports ∧
      LocalChain.failure LocalChain.initializeListCall LocalChain.prefunded =
        some .accountAlreadyInUse := by
    decide +kernel
  obtain ⟨hconfig, hlist, hmint, hauthority, hlamports, hfails⟩ := hread
  exact ⟨_, LocalChain.reaches_prefunded, hconfig, LocalChain.find_list, hlist,
    LocalChain.admissible_initializeList, listRequest_local hmint hauthority hlamports,
    LocalChain.process_failure hfails⟩

/-- An initialised list can never be initialised again: the library refuses a second
`Execute` entry, and the handler does not clear the account first. -/
theorem reinitialise_fails {h : List (Ledger × Event)} (hr : Reaches (hookSystem K) h l)
    (hlist : d.find (.extraAccountMetas m) = some (kl, b))
    (howner : (l.account kl).owner = d.programId) (ha : c.Admissible K)
    (hi : c.instruction = .initializeExtraAccountMetaList) (hmint : c.mint = some m)
    (l' : Ledger) : c.process d l ≠ .ok l' := by
  intro hok
  have heffect := effect_of_process (inv_of_reaches hr) ha hok
  cases heffect with
  | initializeExtraAccountMetaList _ _ hlist' hu =>
      obtain rfl := Option.some.inj hmint
      obtain ⟨rfl, -⟩ := by simpa [hlist] using hlist'
      exact d.programId_ne (howner.symm.trans hu.1)
  | _ => cases hi

theorem reinitialise_fails_published :
    LocalChain.initializeListCall.process LocalChain.chain LocalChain.published ≠
      .ok LocalChain.published :=
  reinitialise_fails LocalChain.reaches_published LocalChain.find_list (by decide +kernel)
    LocalChain.admissible_initializeList rfl rfl LocalChain.published

/-- The authority's request, sent a second time, is refused by the library. -/
theorem reinitialise_refused :
    ∃ h, Reaches (hookSystem LocalChain.keysInPlay) h LocalChain.published ∧
      LocalChain.chain.hookConfig LocalChain.published LocalChain.mint =
        some LocalChain.firstConfig ∧
      LocalChain.chain.find (.extraAccountMetas LocalChain.mint) =
        some (LocalChain.listKey, 255) ∧
      (LocalChain.published.account LocalChain.listKey).owner = LocalChain.chain.programId ∧
      LocalChain.initializeListCall.Admissible LocalChain.keysInPlay ∧
      ListRequest LocalChain.chain LocalChain.published LocalChain.mint LocalChain.configKey
        LocalChain.listKey LocalChain.firstConfig LocalChain.initializeListCall ∧
      LocalChain.initializeListCall.process LocalChain.chain LocalChain.published =
        .error (.library 5) := by
  have hread : LocalChain.chain.hookConfig LocalChain.published LocalChain.mint =
        some LocalChain.firstConfig ∧
      (LocalChain.published.account LocalChain.listKey).owner = LocalChain.chain.programId ∧
      (LocalChain.chain.interfaceMint LocalChain.published LocalChain.mint).isOk = true ∧
      (LocalChain.published.account LocalChain.authority).Unallocated ∧
      2463840 ≤ (LocalChain.published.account LocalChain.authority).lamports ∧
      LocalChain.failure LocalChain.initializeListCall LocalChain.published =
        some (.library 5) := by
    decide +kernel
  obtain ⟨hconfig, howner, hmint, hauthority, hlamports, hfails⟩ := hread
  exact ⟨_, LocalChain.reaches_published, hconfig, LocalChain.find_list, howner,
    LocalChain.admissible_initializeList, listRequest_local hmint hauthority hlamports,
    LocalChain.process_failure hfails⟩

end AlienIdTransferHook
