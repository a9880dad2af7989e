import AlienIdTransferHook.Runs

/-!
# Updating a config

`update_config` rewrites the config and the account list together. It works on
every mint whose list is initialised, for any three keys, and leaves everything
else as it was, a pending hand-over included.
-/
namespace AlienIdTransferHook
open Solana History

variable {d : Deployment} {K : KeysInPlay d} {l l' : Ledger} {m kc kl k : Pubkey} {b : UInt8}
  {config : HookConfig} {r : Rule} {c : Call} {metas : List ExtraAccountMeta}

/-- The config with another rule: authority, bump and pending authority stay. -/
def HookConfig.withRule (config : HookConfig) (r : Rule) : HookConfig :=
  { config with credential := r.credential, schema := r.schema, sasProgram := r.sasProgram }

/-- `update_config` for `m`, which still reads as a mint: the derived accounts in order and
writable, signed by the config authority. -/
structure UpdateRequest (d : Deployment) (l : Ledger) (m kc kl : Pubkey) (config : HookConfig)
    (r : Rule) (c : Call) : Prop where
  instruction : c.instruction = .updateConfig r.credential r.schema r.sasProgram
  accounts : ∃ rest, c.accounts = config.authority :: kc :: m :: kl :: rest
  signed : config.authority ∈ c.privileges.signers
  configWritable : kc ∈ c.privileges.writable
  listWritable : kl ∈ c.privileges.writable
  mint : ∃ mint, d.interfaceMint l m = .ok mint

/-- The ledger with both accounts rewritten for the rule. -/
def Deployment.ruled (d : Deployment) (l : Ledger) (kc kl : Pubkey) (config : HookConfig)
    (r : Rule) (metas : List ExtraAccountMeta) : Ledger :=
  (l.set kl { l.account kl with data := d.resolution.executeEntry metas }).set kc
    { l.account kc with data := image (config.withRule r) }

/-! ## What the instruction does -/

/-- With the right accounts the instruction is its handler and the write-backs. -/
lemma UpdateRequest.process_eq (h : UpdateRequest d l m kc kl config r c)
    (hc : ConfigAt K l m kc config) (hlist : d.find (.extraAccountMetas m) = some (kl, b)) :
    c.process d l = ((UpdateConfig.handler d l ⟨config.authority, kc, m, kl⟩ config r.credential
      r.schema r.sasProgram >>= fun done => exitAccount done.1 kc done.2) >>=
        commit c.privileges c.accounts l) := by
  obtain ⟨rest, hkeys⟩ := h.accounts
  obtain ⟨mint, hmint⟩ := h.mint
  have htry : UpdateConfig.tryAccounts d c.privileges l ⟨config.authority, kc, m, kl⟩ =
      .ok config := by
    unfold UpdateConfig.tryAccounts
    rw [signer, require_pos h.signed, ok_bind, hc.load, ok_bind, hmint, ok_bind,
      require_pos rfl, ok_bind, seedsWithBump, require_pos (Deployment.create_of_find hc.find),
      ok_bind, mutable, require_pos h.configWritable, ok_bind, seedsCanonical_of_find hlist,
      ok_bind, mutable, require_pos h.listWritable, ok_bind]
    rfl
  obtain ⟨i, keys, p⟩ := c
  obtain rfl : i = .updateConfig r.credential r.schema r.sasProgram := h.instruction
  obtain rfl : keys = config.authority :: kc :: m :: kl :: rest := hkeys
  simp only [Call.process, Call.run, updateConfig, UpdateConfig.ofKeys, ok_bind, htry]

/-- The runtime accepts a change of the two writable accounts. -/
lemma commit_ruled {p : Privileges} {keys : List Pubkey} (hkc : kc ∈ p.writable)
    (hkl : kl ∈ p.writable) :
    commit p keys l (d.ruled l kc kl config r metas) =
      .ok (d.ruled l kc kl config r metas) := by
  refine commit_eq_ok.mpr ⟨fun k _ => ?_, rfl⟩
  by_cases hc : k = kc
  · exact .inr (hc ▸ hkc)
  by_cases hl : k = kl
  · exact .inr (hl ▸ hkl)
  · exact .inl (by rw [Deployment.ruled, Ledger.account_set_of_ne _ _ hc,
      Ledger.account_set_of_ne _ _ hl])

/-- On a list account with room for the entry the update goes through. -/
lemma UpdateRequest.process_initialised (h : UpdateRequest d l m kc kl config r c)
    (hc : ConfigAt K l m kc config) (hlist : d.find (.extraAccountMetas m) = some (kl, b))
    (howner : (l.account kl).owner = d.programId)
    (hmetas : UpdateConfig.accountMetas d.resolution r.credential r.schema r.sasProgram =
      .ok metas)
    (hsize : (l.account kl).data.length = (d.resolution.executeEntry metas).length) :
    c.process d l = .ok (d.ruled l kc kl config r metas) := by
  have hne : kc ≠ kl := hc.ne_list hlist
  have hlen : metas.length = 6 := UpdateConfig.length_accountMetas hmetas
  have hinit : d.resolution.init (List.replicate (l.account kl).data.length 0) metas =
      .ok (d.resolution.executeEntry metas) := by
    rw [hsize]
    exact d.resolution.init_zeroed metas (by omega)
  have hhandler : UpdateConfig.handler d l ⟨config.authority, kc, m, kl⟩ config r.credential
      r.schema r.sasProgram =
        .ok (l.set kl { l.account kl with data := d.resolution.executeEntry metas },
          config.withRule r) := by
    unfold UpdateConfig.handler
    rw [hmetas, ok_bind, hinit, ok_bind, writeData, require_pos (.inl howner), ok_bind]
    rfl
  have hkept : (l.set kl { l.account kl with data := d.resolution.executeEntry metas }).account kc =
      l.account kc := Ledger.account_set_of_ne _ _ hne
  have hexit := hc.exitAccount (congrArg (·.data.length) hkept) (config.withRule r)
  rw [hkept] at hexit
  rw [h.process_eq hc hlist, hhandler, ok_bind, hexit, ok_bind]
  exact commit_ruled h.configWritable h.listWritable

/-- An empty list account has no room for the entry. -/
lemma UpdateRequest.process_uninitialised (h : UpdateRequest d l m kc kl config r c)
    (hc : ConfigAt K l m kc config) (hlist : d.find (.extraAccountMetas m) = some (kl, b))
    (hu : (l.account kl).Unallocated) : ∃ e, c.process d l = .error e := by
  obtain ⟨metas, hmetas, -⟩ :=
    InitializeExtraAccountMetaList.accountMetas_ok d.resolution (config.withRule r)
  obtain ⟨e, he⟩ := d.resolution.init_empty metas
  have hhandler : UpdateConfig.handler d l ⟨config.authority, kc, m, kl⟩ config r.credential
      r.schema r.sasProgram = .error e := by
    unfold UpdateConfig.handler
    rw [show UpdateConfig.accountMetas d.resolution r.credential r.schema r.sasProgram =
      .ok metas from hmetas, ok_bind]
    simp only [hu.2, List.length_nil, List.replicate_zero, he, error_bind]
  exact ⟨e, by rw [h.process_eq hc hlist, hhandler, error_bind, error_bind]⟩

/-- Lists of the same number of metas have the same size. -/
lemma length_of_listImage {data : List UInt8} (h : d.ListImage config data)
    (hlen : metas.length = 6) : data.length = (d.resolution.executeEntry metas).length := by
  obtain ⟨metas', hmetas', rfl⟩ := h
  have hlen' := InitializeExtraAccountMetaList.length_accountMetas hmetas'
  have hold := d.resolution.sizeOf_executeEntry metas' (by omega)
  have hnew := d.resolution.sizeOf_executeEntry metas (by omega)
  rw [hlen', ← hlen, hnew] at hold
  exact (Except.ok.inj hold).symm

/-- The update fails on an uninitialised list and goes through on any other. -/
lemma UpdateRequest.process_cases (h : UpdateRequest d l m kc kl config r c) (hinv : Inv K l)
    (hc : ConfigAt K l m kc config) (hlist : d.find (.extraAccountMetas m) = some (kl, b)) :
    (l.account kl).owner ≠ d.programId ∧ (∃ e, c.process d l = .error e) ∨
      (l.account kl).owner = d.programId ∧ ∃ metas,
        UpdateConfig.accountMetas d.resolution r.credential r.schema r.sasProgram = .ok metas ∧
        (l.account kl).data.length = (d.resolution.executeEntry metas).length ∧
        c.process d l = .ok (d.ruled l kc kl config r metas) := by
  have hm := hc.covered
  rcases hinv.canonical (by simpa using hm) hlist with hu | ⟨howner, config', -, himage⟩
  · exact .inl ⟨fun h => d.programId_ne (h.symm.trans hu.1), h.process_uninitialised hc hlist hu⟩
  · obtain ⟨metas, hmetas, hlen⟩ :=
      InitializeExtraAccountMetaList.accountMetas_ok d.resolution (config.withRule r)
    have hsize := length_of_listImage himage hlen
    exact .inr ⟨howner, metas, hmetas, hsize,
      h.process_initialised hc hlist howner hmetas hsize⟩

/-! ## What it leaves -/

/-- Both accounts hold the new rule, and nothing else has changed. -/
structure Updated (K : KeysInPlay d) (m kc kl : Pubkey) (config : HookConfig) (r : Rule)
    (l l' : Ledger) : Prop where
  hookConfig : d.hookConfig l' m = some (config.withRule r)
  list : d.ListImage (config.withRule r) (l'.account kl).data
  owners : ∀ k, (l'.account k).owner = (l.account k).owner
  lengths : ∀ k, (l'.account k).data.length = (l.account k).data.length
  lamports : ∀ k, (l'.account k).lamports = (l.account k).lamports
  others : ∀ k, k ≠ kc → k ≠ kl → l'.account k = l.account k
  /-- Every whitelist entry and every account of another mint. -/
  records : ∀ s k b, K.Covers s → s ≠ .config m → s ≠ .extraAccountMetas m →
    d.find s = some (k, b) → l'.account k = l.account k

lemma account_ruled_config : (d.ruled l kc kl config r metas).account kc =
    { l.account kc with data := image (config.withRule r) } := by
  simp [Deployment.ruled]

lemma account_ruled_list (hne : kc ≠ kl) : (d.ruled l kc kl config r metas).account kl =
    { l.account kl with data := d.resolution.executeEntry metas } := by
  rw [Deployment.ruled, Ledger.account_set_of_ne _ _ hne.symm, Ledger.account_set_self]

lemma account_ruled_of_ne (hc : k ≠ kc) (hl : k ≠ kl) :
    (d.ruled l kc kl config r metas).account k = l.account k := by
  rw [Deployment.ruled, Ledger.account_set_of_ne _ _ hc, Ledger.account_set_of_ne _ _ hl]

lemma ConfigAt.ruled (h : ConfigAt K l m kc config) :
    ConfigAt K (d.ruled l kc kl config r metas) m kc (config.withRule r) where
  covered := h.covered
  find := h.find
  owner := by rw [account_ruled_config]; exact h.owner
  data := by rw [account_ruled_config]
  authority_ne := h.authority_ne

/-- A second update hides the first. -/
lemma ruled_ruled {r₁ : Rule} {metas₁ : List ExtraAccountMeta} (hne : kc ≠ kl) :
    d.ruled (d.ruled l kc kl config r₁ metas₁) kc kl (config.withRule r₁) r metas =
      d.ruled l kc kl config r metas := by
  refine Ledger.ext_account (fun k => ?_) rfl
  by_cases hc : k = kc
  · rw [hc, account_ruled_config, account_ruled_config, account_ruled_config]
    rfl
  by_cases hl : k = kl
  · rw [hl, account_ruled_list hne, account_ruled_list hne, account_ruled_list hne]
  · rw [account_ruled_of_ne hc hl, account_ruled_of_ne hc hl, account_ruled_of_ne hc hl]

lemma updated_ruled (hc : ConfigAt K l m kc config)
    (hlist : d.find (.extraAccountMetas m) = some (kl, b))
    (hmetas : UpdateConfig.accountMetas d.resolution r.credential r.schema r.sasProgram =
      .ok metas)
    (hsize : (l.account kl).data.length = (d.resolution.executeEntry metas).length) :
    Updated K m kc kl config r l (d.ruled l kc kl config r metas) := by
  have hm := hc.covered
  have hne : kc ≠ kl := hc.ne_list hlist
  have hcases : ∀ k, (d.ruled l kc kl config r metas).account k = l.account k ∨
      ∃ data, data.length = (l.account k).data.length ∧
        (d.ruled l kc kl config r metas).account k = { l.account k with data := data } := by
    intro k
    by_cases hk : k = kc
    · subst hk
      exact .inr ⟨_, by rw [HookConfig.length_image, hc.length_data], account_ruled_config⟩
    by_cases hl : k = kl
    · subst hl
      exact .inr ⟨_, hsize.symm, account_ruled_list hne⟩
    · exact .inl (account_ruled_of_ne hk hl)
  refine ⟨hc.ruled.hookConfig, ⟨metas, hmetas, by rw [account_ruled_list hne]⟩, fun k => ?_,
    fun k => ?_, fun k => ?_, fun k => account_ruled_of_ne, ?_⟩
  · rcases hcases k with heq | ⟨data, -, heq⟩ <;> rw [heq]
  · rcases hcases k with heq | ⟨data, hdata, heq⟩
    · rw [heq]
    · rw [heq]
      exact hdata
  · rcases hcases k with heq | ⟨data, -, heq⟩ <;> rw [heq]
  · intro s k b hs hsc hsl hfind
    exact account_ruled_of_ne (K.find_ne hs (by simpa using hm) hsc hfind hc.find)
      (K.find_ne hs (by simpa using hm) hsl hfind hlist)

/-- The authority's update for an account that still reads as a mint goes through exactly on
an initialised list, for any three keys. It changes the rule in both accounts and nothing
else; a failed one changes nothing; and of two in a row only the second shows. -/
theorem update_all_or_nothing {h : List (Ledger × Event)} (hr : Reaches (hookSystem K) h l)
    (hm : m ∈ K.keys) (hconfig : d.hookConfig l m = some config) {bc : UInt8}
    (hkc : d.find (.config m) = some (kc, bc))
    (hlist : d.find (.extraAccountMetas m) = some (kl, b))
    (hreq : UpdateRequest d l m kc kl config r c) :
    ((∃ l', c.process d l = .ok l') ↔ (l.account kl).owner = d.programId) ∧
      (∀ l', c.process d l = .ok l' → Updated K m kc kl config r l l') ∧
      (∀ e, c.process d l = .error e → ∀ l', LedgerStep K l (.rejected c) l' → l' = l) ∧
      ∀ (r₁ : Rule) (c₁ : Call) (l₁ : Ledger), UpdateRequest d l m kc kl config r₁ c₁ →
        c₁.process d l = .ok l₁ → UpdateRequest d l₁ m kc kl (config.withRule r₁) r c →
        c.process d l₁ = c.process d l := by
  have hinv := inv_of_reaches hr
  have hc := hinv.configAt_of_find hm hconfig hkc
  have hne : kc ≠ kl := hc.ne_list hlist
  rcases hreq.process_cases hinv hc hlist with ⟨hnot, e, he⟩ | ⟨howner, metas, hmetas, hsize, hok⟩
  · refine ⟨by simp [he, hnot], by simp [he], ?_, ?_⟩
    · rintro - - l' ⟨⟩
      rfl
    · intro r₁ c₁ l₁ hreq₁ hok₁
      rcases hreq₁.process_cases hinv hc hlist with ⟨-, e₁, he₁⟩ | ⟨howner, -⟩
      · cases he₁.symm.trans hok₁
      · exact absurd howner hnot
  · refine ⟨by simp [hok, howner], ?_, by simp [hok], ?_⟩
    · intro l' hl'
      obtain rfl := Except.ok.inj (hok.symm.trans hl')
      exact updated_ruled hc hlist hmetas hsize
    · intro r₁ c₁ l₁ hreq₁ hok₁ hreq'
      rcases hreq₁.process_cases hinv hc hlist with ⟨hnot, -⟩ | ⟨-, metas₁, -, hsize₁, hfirst⟩
      · exact absurd howner hnot
      obtain rfl := Except.ok.inj (hfirst.symm.trans hok₁)
      have howner₁ : ((d.ruled l kc kl config r₁ metas₁).account kl).owner = d.programId := by
        rw [account_ruled_list hne]
        exact howner
      have hresized : ((d.ruled l kc kl config r₁ metas₁).account kl).data.length =
          (d.resolution.executeEntry metas).length := by
        rw [account_ruled_list hne]
        exact hsize₁.symm.trans hsize
      rw [hok, hreq'.process_initialised hc.ruled hlist howner₁ hmetas hresized, ruled_ruled hne]

namespace LocalChain

def secondRule : Rule := ⟨key 13, key 14, key 15⟩

def updateConfigCall : Call :=
  ⟨.updateConfig secondRule.credential secondRule.schema secondRule.sasProgram,
    [authority, configKey, mint, listKey], ⟨[authority], [configKey, listKey]⟩⟩

theorem updateRequest : UpdateRequest chain listed mint configKey listKey firstConfig secondRule
    updateConfigCall where
  instruction := rfl
  accounts := ⟨[], rfl⟩
  signed := List.mem_singleton.mpr rfl
  configWritable := .head _
  listWritable := .tail _ (.head _)
  mint := ⟨_, listed_eval.2.2.2.2.2.1⟩

end LocalChain

/-- The authority of the local chain sets another rule. -/
theorem update_all_or_nothing_listed :
    ((∃ l', LocalChain.updateConfigCall.process LocalChain.chain LocalChain.listed = .ok l') ↔
        (LocalChain.listed.account LocalChain.listKey).owner = LocalChain.chain.programId) ∧
      (∀ l', LocalChain.updateConfigCall.process LocalChain.chain LocalChain.listed = .ok l' →
        Updated LocalChain.keysInPlay LocalChain.mint LocalChain.configKey LocalChain.listKey
          LocalChain.firstConfig LocalChain.secondRule LocalChain.listed l') ∧
      (∀ e, LocalChain.updateConfigCall.process LocalChain.chain LocalChain.listed = .error e →
        ∀ l', LedgerStep LocalChain.keysInPlay LocalChain.listed
          (.rejected LocalChain.updateConfigCall) l' → l' = LocalChain.listed) ∧
      ∀ (r₁ : Rule) (c₁ : Call) (l₁ : Ledger),
        UpdateRequest LocalChain.chain LocalChain.listed LocalChain.mint LocalChain.configKey
          LocalChain.listKey LocalChain.firstConfig r₁ c₁ →
        c₁.process LocalChain.chain LocalChain.listed = .ok l₁ →
        UpdateRequest LocalChain.chain l₁ LocalChain.mint LocalChain.configKey
          LocalChain.listKey (LocalChain.firstConfig.withRule r₁) LocalChain.secondRule
          LocalChain.updateConfigCall →
        LocalChain.updateConfigCall.process LocalChain.chain l₁ =
          LocalChain.updateConfigCall.process LocalChain.chain LocalChain.listed :=
  update_all_or_nothing LocalChain.reaches_listed LocalChain.mint_mem LocalChain.listed_eval.1
    LocalChain.find_config LocalChain.find_list LocalChain.updateRequest

end AlienIdTransferHook
